import QueryPipeline.Condition
import QueryPipeline.Proofs.Steps

/-!
# What a successful extraction has done

A filter is read off a value by `Filter.ofJson`, and conditions are made of it by
`Condition.ofFilter`.  This file turns both around.  `Filter.Joins` says on the value alone that it
is a conjunction or a disjunction, and `ofJson_cases` says which values the three kinds of filter
come from.  On the side of the conditions there is one inversion for a leaf and one for a junction:

    parts c (junction d l r) = ok cs  →  cs = (the parts of l and r under d), spliced in or boxed

spliced in when `d = c`, and boxed into one condition when not.  Nothing behind this file opens
`ofJson` or `parts` again.
-/

namespace QueryPipeline

namespace Filter

/-! ## The values that filters come from -/

/-- The value is an operation whose operator, in any letter case, is the name of the connective. -/
def Joins (c : Connective) (node : Value) : Prop :=
  node.field "type" = .str "binary_op" ∧ Text.upper (node.field "operator").plain = c.name

theorem ofName?_eq_some {s : String} {c : Connective} :
    Connective.ofName? s = some c ↔ s = c.name := by
  rw [Connective.ofName?]
  by_cases hand : s = "AND"
  · rw [if_pos hand, hand]
    cases c <;> decide
  · rw [if_neg hand]
    by_cases hor : s = "OR"
    · rw [if_pos hor, hor]
      cases c <;> decide
    · rw [if_neg hor]
      cases c with
      | and => exact ⟨fun h => absurd h (by simp), fun h => absurd h hand⟩
      | or => exact ⟨fun h => absurd h (by simp), fun h => absurd h hor⟩

theorem connective?_eq_some {fields : List (String × Value)} {c : Connective} :
    connective? fields = some c ↔ Joins c (.obj fields) := by
  rw [connective?, Joins]
  by_cases htype : Value.fieldOf "type" fields = .str "binary_op"
  · rw [if_pos htype, ofName?_eq_some]
    exact (and_iff_right htype).symm
  · rw [if_neg htype]
    exact ⟨fun h => absurd h (by simp), fun h => absurd h.1 htype⟩

/-- A value is joined by one connective only. -/
theorem Joins.unique {c d : Connective} {node : Value} (h : Joins c node) (h' : Joins d node) :
    c = d := by
  have hname : c.name = d.name := h.2.symm.trans h'.2
  revert hname
  cases c <;> cases d <;> decide

theorem ofField_eq (key : String) (fields : List (String × Value)) :
    ofField key fields = ofJson (Value.fieldOf key fields) := by
  induction fields with
  | nil => rfl
  | cons field rest ih =>
    obtain ⟨k, v⟩ := field
    rw [ofField, Value.fieldOf, List.lookup_cons]
    by_cases hk : k = key
    · rw [if_pos hk, hk, beq_self_eq_true]
      rfl
    · rw [if_neg hk, beq_false_of_ne (Ne.symm hk), ih]
      rfl

theorem Joins.isObj {c : Connective} {node : Value} (h : Joins c node) :
    ∃ fields, node = .obj fields := by
  obtain ⟨htype, _⟩ := h
  cases node with
  | obj fields => exact ⟨fields, rfl⟩
  | _ => exact absurd htype nofun

/-- A value is missing when it is null, a junction when a connective joins its operands, and a leaf
otherwise. -/
theorem ofJson_cases (v : Value) :
    (v = .null ∧ ofJson v = .missing) ∨
    (∃ c, Joins c v ∧
      ofJson v = .junction c (ofJson (v.field "left")) (ofJson (v.field "right"))) ∨
    (v ≠ .null ∧ (∀ c, ¬ Joins c v) ∧ ofJson v = .leaf v) := by
  cases v with
  | null => exact .inl ⟨rfl, rfl⟩
  | obj fields =>
    right
    cases hc : connective? fields with
    | some c =>
      refine .inl ⟨c, connective?_eq_some.1 hc, ?_⟩
      rw [ofJson, hc]
      show junction c (ofField "left" fields) (ofField "right" fields) = _
      rw [ofField_eq, ofField_eq]
      rfl
    | none =>
      refine .inr ⟨nofun, fun c h => ?_, ?_⟩
      · rw [connective?_eq_some.2 h] at hc
        cases hc
      · rw [ofJson, hc]
  | _ =>
    refine .inr (.inr ⟨nofun, fun c h => ?_, rfl⟩)
    obtain ⟨fields, h⟩ := h.isObj
    cases h

theorem ofJson_eq_missing {v : Value} (h : ofJson v = .missing) : v = .null := by
  obtain ⟨hnull, _⟩ | ⟨c, _, hv⟩ | ⟨_, _, hv⟩ := ofJson_cases v
  · exact hnull
  · rw [hv] at h
    cases h
  · rw [hv] at h
    cases h

theorem ofJson_eq_leaf {v node : Value} (h : ofJson v = .leaf node) :
    node = v ∧ ∀ c, ¬ Joins c v := by
  obtain ⟨_, hv⟩ | ⟨c, _, hv⟩ | ⟨_, hnone, hv⟩ := ofJson_cases v
  · rw [hv] at h
    cases h
  · rw [hv] at h
    cases h
  · rw [hv] at h
    cases h
    exact ⟨rfl, hnone⟩

theorem ofJson_eq_junction {v : Value} {c : Connective} {left right : Filter}
    (h : ofJson v = .junction c left right) :
    Joins c v ∧ ofJson (v.field "left") = left ∧ ofJson (v.field "right") = right := by
  obtain ⟨_, hv⟩ | ⟨d, hjoins, hv⟩ | ⟨_, _, hv⟩ := ofJson_cases v
  · rw [hv] at h
    cases h
  · rw [hv] at h
    cases h
    exact ⟨hjoins, rfl, rfl⟩
  · rw [hv] at h
    cases h

theorem ofJson_of_not_joins {v : Value} (hnull : v ≠ .null) (hnone : ∀ c, ¬ Joins c v) :
    ofJson v = .leaf v := by
  obtain ⟨h, _⟩ | ⟨c, hjoins, _⟩ | ⟨_, _, hv⟩ := ofJson_cases v
  · exact absurd h hnull
  · exact absurd hjoins (hnone c)
  · exact hv

theorem ofJson_of_joins {v : Value} {c : Connective} (h : Joins c v) :
    ofJson v = .junction c (ofJson (v.field "left")) (ofJson (v.field "right")) := by
  obtain ⟨rfl, _⟩ | ⟨d, hd, hv⟩ | ⟨_, hnone, _⟩ := ofJson_cases v
  · obtain ⟨_, h⟩ := h.isObj
    cases h
  · rw [h.unique hd]
    exact hv
  · exact absurd h (hnone c)

/-! ## Clauses that are put together -/

/-- A column as it stands in a clause. -/
def column (name : String) : Value :=
  .obj [("type", .str "column"), ("name", .str name)]

/-- An operation as it stands in a clause. -/
def operation (operator : String) (left right : Value) : Value :=
  .obj [("type", .str "binary_op"), ("operator", .str operator), ("left", left), ("right", right)]

theorem joins_operation {c : Connective} {operator : String} {left right : Value} :
    Joins c (operation operator left right) ↔ Text.upper operator = c.name :=
  and_iff_right rfl

end Filter

namespace Condition

/-! ## The condition of a leaf -/

theorem problem_eq_ok {α : Type} {x : Except Problem α} {a : α} :
    problem x = .ok a ↔ x = .ok a := by
  cases x with
  | ok b => exact ⟨fun h => congrArg _ (Except.ok.inj h), fun h => congrArg _ (Except.ok.inj h)⟩
  | error p => exact ⟨nofun, nofun⟩

theorem requiredName_ok_iff {part : Part} {node : Value} {name : String} :
    requiredName part node = .ok name ↔ node.field "name" = .str name ∧ name ≠ "" := by
  constructor
  · intro h
    rw [requiredName] at h
    split at h
    next s hs =>
      split at h
      · cases h
      next hne =>
        cases h
        exact ⟨hs, hne⟩
    · cases h
  · rintro ⟨hname, hne⟩
    rw [requiredName, hname]
    exact if_neg hne

theorem requiredName_eq_ok {part : Part} {node : Value} {name : String}
    (h : requiredName part node = .ok name) : node.field "name" = .str name :=
  (requiredName_ok_iff.1 h).1

/-- A comparison has two operands.  It keeps its sides when the left one is a column, and exchanges
them when only the right one is. -/
theorem compare_ok_iff {operator : Comparator} {left right : Value} {c : Condition} :
    compare operator left right = .ok c ↔ left ≠ .null ∧ right ≠ .null ∧
      ((isColumn left = true ∧ ∃ name value, requiredName .filter left = .ok name ∧
        valueOf right = .ok value ∧ c = .comparison name operator value) ∨
      (isColumn left = false ∧ isColumn right = true ∧ ∃ name value,
        requiredName .filter right = .ok name ∧ valueOf left = .ok value ∧
        c = .comparison name operator.swapped value)) := by
  rw [compare]
  by_cases hnull : left = .null ∨ right = .null
  · rw [if_pos hnull]
    constructor
    · intro h
      cases h
    · rintro ⟨hleft, hright, _⟩
      exact absurd hnull (not_or_intro hleft hright)
  rw [if_neg hnull]
  obtain ⟨hleft, hright⟩ := not_or.1 hnull
  rw [and_iff_right hleft, and_iff_right hright]
  dsimp only
  cases isColumn left with
  | true => simp only [if_true, both_eq_ok, true_and, reduceCtorEq, false_and, or_false]
  | false =>
    cases isColumn right with
    | true => simp only [if_true, if_false, both_eq_ok, true_and, reduceCtorEq, false_and, false_or]
    | false => simp only [reduceCtorEq, false_and, and_false, or_false, if_false]

theorem compare_eq_ok {operator : Comparator} {left right : Value} {c : Condition}
    (h : compare operator left right = .ok c) :
    (isColumn left = true ∧ ∃ name value, left.field "name" = .str name ∧
      valueOf right = .ok value ∧ c = .comparison name operator value) ∨
    (isColumn left = false ∧ isColumn right = true ∧ ∃ name value,
      right.field "name" = .str name ∧ valueOf left = .ok value ∧
      c = .comparison name operator.swapped value) := by
  obtain ⟨_, _, ⟨hleft, name, value, hname, hvalue, rfl⟩ |
    ⟨hleft, hright, name, value, hname, hvalue, rfl⟩⟩ := compare_ok_iff.1 h
  · exact .inl ⟨hleft, name, value, requiredName_eq_ok hname, hvalue, rfl⟩
  · exact .inr ⟨hleft, hright, name, value, requiredName_eq_ok hname, hvalue, rfl⟩

/-- A membership test is one of a column among the values of a list. -/
theorem member_ok_iff {subject values : Value} {negated : Bool} {c : Condition} :
    member subject values negated = .ok c ↔ isColumn subject = true ∧ ∃ name listed items,
      values = .arr listed ∧ requiredName .filter subject = .ok name ∧
      valuesOf listed = .ok items ∧ c = .membership name items negated := by
  unfold member
  cases isColumn subject with
  | false =>
    constructor
    · intro h
      cases h
    · rintro ⟨h, _⟩
      cases h
  | true =>
    rw [if_neg (by decide), and_iff_right rfl]
    dsimp only
    constructor
    · intro h
      split at h
      next listed =>
        obtain ⟨name, items, hname, hitems, rfl⟩ := both_eq_ok.1 h
        exact ⟨name, listed, items, rfl, hname, hitems, rfl⟩
      · cases h
    · rintro ⟨name, listed, items, rfl, hname, hitems, rfl⟩
      exact both_eq_ok.2 ⟨name, items, hname, hitems, rfl⟩

theorem member_eq_ok {subject values : Value} {negated : Bool} {c : Condition}
    (h : member subject values negated = .ok c) :
    ∃ name listed items, values = .arr listed ∧ valuesOf listed = .ok items ∧
      c = .membership name items negated := by
  obtain ⟨_, name, listed, items, hlisted, _, hitems, rfl⟩ := member_ok_iff.1 h
  exact ⟨name, listed, items, hlisted, hitems, rfl⟩

/-- A leaf is a membership test or a comparison. -/
theorem ofLeaf_eq_ok {node : Value} {c : Condition} (h : ofLeaf node = .ok c) :
    (node.field "type" = .str "in_expression" ∧
      member (node.field "expression") (node.field "values") (node.field "negated").truthy =
        .ok c) ∨
    (node.field "type" = .str "binary_op" ∧ ∃ operator,
      comparator? (node.field "operator") = .ok (some operator) ∧
      compare operator (node.field "left") (node.field "right") = .ok c) := by
  rw [ofLeaf] at h
  split at h
  next htype => exact .inl ⟨htype, problem_eq_ok.1 h⟩
  next htype =>
    obtain ⟨found, hfound, h⟩ := bind_eq_ok.1 h
    cases found with
    | none => cases h
    | some operator => exact .inr ⟨htype, operator, hfound, problem_eq_ok.1 h⟩
  · cases h

theorem ofLeaf_ok_iff {node : Value} {c : Condition} :
    ofLeaf node = .ok c ↔
      (node.field "type" = .str "in_expression" ∧
        member (node.field "expression") (node.field "values") (node.field "negated").truthy =
          .ok c) ∨
      (node.field "type" = .str "binary_op" ∧ ∃ operator,
        comparator? (node.field "operator") = .ok (some operator) ∧
        compare operator (node.field "left") (node.field "right") = .ok c) := by
  refine ⟨ofLeaf_eq_ok, ?_⟩
  rintro (⟨htype, h⟩ | ⟨htype, operator, hoperator, h⟩)
  · rw [ofLeaf, htype]
    exact problem_eq_ok.2 h
  · rw [ofLeaf, htype]
    exact bind_eq_ok.2 ⟨some operator, hoperator, problem_eq_ok.2 h⟩

/-! ## The parts of a filter -/

theorem parts_leaf {c : Connective} {node : Value} {cs : List Condition}
    (h : parts c (.leaf node) = .ok cs) : ∃ d, ofLeaf node = .ok d ∧ cs = [d] := by
  rw [parts] at h
  obtain ⟨d, hd, h⟩ := bind_eq_ok.1 h
  cases h
  exact ⟨d, hd, rfl⟩

/-- The parts of a junction are those of its operands under its own connective: spliced into a
chain of that connective, and boxed in any other. -/
theorem parts_junction {c d : Connective} {left right : Filter} {cs : List Condition}
    (h : parts c (.junction d left right) = .ok cs) :
    ∃ first second, parts d left = .ok first ∧ parts d right = .ok second ∧
      cs = if d = c then first ++ second else [.junction d (first ++ second)] := by
  rw [parts] at h
  by_cases hd : d = c
  · subst hd
    rw [if_pos rfl] at h
    obtain ⟨first, hfirst, h⟩ := bind_eq_ok.1 h
    obtain ⟨second, hsecond, h⟩ := bind_eq_ok.1 h
    cases h
    exact ⟨first, second, hfirst, hsecond, (if_pos rfl).symm⟩
  · rw [if_neg hd] at h
    by_cases hcomplete : (Filter.junction d left right).complete d = true
    · rw [if_pos hcomplete] at h
      obtain ⟨first, hfirst, h⟩ := bind_eq_ok.1 h
      obtain ⟨second, hsecond, h⟩ := bind_eq_ok.1 h
      cases h
      exact ⟨first, second, hfirst, hsecond, (if_neg hd).symm⟩
    · rw [if_neg hcomplete] at h
      cases h

/-- A filter that is not missing contributes at least one condition. -/
theorem parts_ne_nil {c : Connective} {filter : Filter} {cs : List Condition}
    (h : parts c filter = .ok cs) : cs ≠ [] := by
  induction filter generalizing c cs with
  | missing => cases h
  | leaf node =>
    obtain ⟨d, _, rfl⟩ := parts_leaf h
    exact List.cons_ne_nil d []
  | junction d left right ihleft ihright =>
    obtain ⟨first, second, hfirst, _, rfl⟩ := parts_junction h
    by_cases hd : d = c
    · rw [if_pos hd]
      exact List.append_ne_nil_of_left_ne_nil (ihleft hfirst) second
    · rw [if_neg hd]
      exact List.cons_ne_nil _ []

/-- The conditions of a filter are its parts in a conjunction, unless it is missing. -/
theorem ofFilter_eq_ok {filter : Filter} {cs : List Condition} (h : ofFilter filter = .ok cs) :
    (filter = .missing ∧ cs = []) ∨ parts .and filter = .ok cs := by
  cases filter with
  | missing =>
    cases h
    exact .inl ⟨rfl, rfl⟩
  | _ =>
    right
    simp only [ofFilter] at h
    split at h
    · exact h
    · cases h

end Condition
end QueryPipeline
