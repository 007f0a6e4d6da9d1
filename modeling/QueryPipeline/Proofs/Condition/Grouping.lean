import Mathlib.Data.List.Forall2
import QueryPipeline.Proofs.Condition.Extract

/-!
# Conditions do not depend on grouping

`a AND (b AND c)` and `(a AND b) AND c` are different clauses, and both have the three conditions
`a`, `b` and `c`.  This file shows that the conditions of a clause are in a normal form, and that
this form does not see how chains of one connective are grouped.

* `Normal` is the form: a junction has at least two parts, and none of them is joined by the same
  connective again.  In the list of all conditions, which is a conjunction, none is a conjunction.
* `Chain c node operands` says that `operands`, in this order, are joined by `c` to `node`, grouped
  in any way, and `Regrouped` that two clauses are chains of the same operands, down to the leaves.

The parts of a chain are the parts of its operands, one after the other (`parts_of_chain`), whatever
the grouping is.  That includes the errors: the first operand that fails decides.
-/

namespace QueryPipeline

/-! ## Normal conditions -/

namespace Condition

/-- The connective that joins the parts of a condition. -/
def connective? : Condition → Option Connective
  | .junction c _ => some c
  | _ => none

/-- **A junction has two parts at least, and is joined by another connective than its parts**, at
any depth. -/
inductive Normal : Condition → Prop
  | comparison (column : String) (operator : Comparator) (value : Value) :
      Normal (.comparison column operator value)
  | membership (column : String) (values : List Value) (negated : Bool) :
      Normal (.membership column values negated)
  | junction {c : Connective} {parts : List Condition} : 2 ≤ parts.length →
      (∀ d ∈ parts, d.connective? ≠ some c) → (∀ d ∈ parts, Normal d) → Normal (.junction c parts)

theorem normal_of_ofLeaf {node : Value} {d : Condition} (h : ofLeaf node = .ok d) :
    d.connective? = none ∧ d.Normal := by
  obtain ⟨_, h⟩ | ⟨_, operator, _, h⟩ := ofLeaf_eq_ok h
  · obtain ⟨name, _, items, _, _, rfl⟩ := member_eq_ok h
    exact ⟨rfl, .membership _ _ _⟩
  · obtain ⟨_, name, value, _, _, rfl⟩ | ⟨_, _, name, value, _, _, rfl⟩ := compare_eq_ok h
    · exact ⟨rfl, .comparison _ _ _⟩
    · exact ⟨rfl, .comparison _ _ _⟩

/-- **What a filter contributes to a chain is normal, and no chain of the same connective.** -/
theorem normal_of_parts {filter : Filter} {c : Connective} {cs : List Condition}
    (h : parts c filter = .ok cs) : ∀ d ∈ cs, d.connective? ≠ some c ∧ d.Normal := by
  induction filter generalizing c cs with
  | missing => cases h
  | leaf node =>
    obtain ⟨d, hd, rfl⟩ := parts_leaf h
    obtain ⟨hnone, hnormal⟩ := normal_of_ofLeaf hd
    exact List.forall_mem_singleton.2 ⟨by simp [hnone], hnormal⟩
  | junction e left right ihleft ihright =>
    obtain ⟨first, second, hfirst, hsecond, rfl⟩ := parts_junction h
    have hall := List.forall_mem_append.2 ⟨ihleft hfirst, ihright hsecond⟩
    by_cases he : e = c
    · rw [if_pos he, ← he]
      exact hall
    · rw [if_neg he]
      have hpos := List.length_pos_of_ne_nil (parts_ne_nil hfirst)
      have hpos' := List.length_pos_of_ne_nil (parts_ne_nil hsecond)
      have hlength : 2 ≤ (first ++ second).length := by
        rw [List.length_append]
        omega
      refine List.forall_mem_singleton.2 ⟨fun h => he (Option.some.inj h), ?_⟩
      exact .junction hlength (fun d hd => (hall d hd).1) fun d hd => (hall d hd).2

theorem normal_of_ofFilter {filter : Filter} {cs : List Condition} (h : ofFilter filter = .ok cs) :
    ∀ d ∈ cs, d.connective? ≠ some .and ∧ d.Normal := by
  obtain ⟨_, rfl⟩ | hparts := ofFilter_eq_ok h
  · intro d hd
    cases hd
  · exact normal_of_parts hparts

end Condition

/-! ## Chains and their groupings -/

namespace Filter

/-- Every junction in a clause has both operands. -/
inductive Whole : Value → Prop
  | leaf {node : Value} : (∀ c, ¬Joins c node) → Whole node
  | junction {node : Value} {c : Connective} : Joins c node → node.field "left" ≠ .null →
      node.field "right" ≠ .null → Whole (node.field "left") → Whole (node.field "right") →
      Whole node

/-- **Some operands in order, joined by one connective**, in any grouping. -/
inductive Chain (c : Connective) : Value → List Value → Prop
  | operand (node : Value) : Chain c node [node]
  | join {node : Value} {first second : List Value} : Joins c node →
      Chain c (node.field "left") first → Chain c (node.field "right") second →
      Chain c node (first ++ second)

/-- **Two clauses that differ only in how chains are grouped.**  They have the same leaves in the
same order. -/
inductive Regrouped : Value → Value → Prop
  | same (node : Value) : Regrouped node node
  | chain {c : Connective} {node other : Value} {operands others : List Value} :
      Chain c node operands → Chain c other others → operands.length = others.length →
      (∀ pair ∈ operands.zip others, Regrouped pair.1 pair.2) → Regrouped node other

theorem Whole.operands {node : Value} {c : Connective} (h : Whole node) (hjoins : Joins c node) :
    (node.field "left" ≠ .null ∧ node.field "right" ≠ .null) ∧
      Whole (node.field "left") ∧ Whole (node.field "right") := by
  cases h with
  | leaf hnone => exact absurd hjoins (hnone c)
  | junction _ hleft hright hl hr => exact ⟨⟨hleft, hright⟩, hl, hr⟩

theorem isMissing_ofJson {node : Value} (h : node ≠ .null) : (ofJson node).isMissing = false := by
  obtain ⟨hnull, _⟩ | ⟨c, _, hnode⟩ | ⟨_, _, hnode⟩ := ofJson_cases node
  · exact absurd hnull h
  · rw [hnode]
    rfl
  · rw [hnode]
    rfl

theorem Whole.complete {node : Value} (h : Whole node) (c : Connective) :
    (ofJson node).complete c = true := by
  induction h with
  | @leaf node hnone =>
    obtain ⟨_, hnode⟩ | ⟨d, hd, _⟩ | ⟨_, _, hnode⟩ := ofJson_cases node
    · rw [hnode]
      rfl
    · exact absurd hd (hnone d)
    · rw [hnode]
      rfl
  | junction hjoins hleft hright _ _ ihleft ihright =>
    rw [ofJson_of_joins hjoins, Filter.complete]
    split
    · rw [isMissing_ofJson hleft, isMissing_ofJson hright, ihleft, ihright]
      rfl
    · rfl

theorem Chain.whole {c : Connective} {node : Value} {operands : List Value}
    (h : Chain c node operands) (hnode : Whole node) : ∀ v ∈ operands, Whole v := by
  induction h with
  | operand node => exact List.forall_mem_singleton.2 hnode
  | join hjoins _ _ ihfirst ihsecond =>
    obtain ⟨_, hleft, hright⟩ := hnode.operands hjoins
    exact List.forall_mem_append.2 ⟨ihfirst hleft, ihsecond hright⟩

theorem Chain.length_pos {c : Connective} {node : Value} {operands : List Value}
    (h : Chain c node operands) : 0 < operands.length := by
  induction h with
  | operand node => exact Nat.one_pos
  | join _ _ _ ihfirst _ =>
    rw [List.length_append]
    omega

/-- A chain of more than one operand is joined by its connective. -/
theorem Chain.cases_length {c : Connective} {node : Value} {operands : List Value}
    (h : Chain c node operands) : operands = [node] ∨ (2 ≤ operands.length ∧ Joins c node) := by
  cases h with
  | operand => exact .inl rfl
  | join hjoins hfirst hsecond =>
    have := hfirst.length_pos
    have := hsecond.length_pos
    refine .inr ⟨?_, hjoins⟩
    rw [List.length_append]
    omega

end Filter

/-! ## The conditions of a chain -/

namespace Condition

open QueryPipeline.Filter (Chain Joins Whole Regrouped ofJson)

/-- The parts of a chain that stands in a chain of another connective are boxed. -/
def boxed (c d : Connective) (cs : List Condition) : List Condition :=
  if d = c then cs else [.junction d cs]

theorem parts_chain (c : Connective) (left right : Filter) :
    parts c (.junction c left right) = do
      let first ← parts c left
      let second ← parts c right
      return first ++ second := by
  rw [parts, if_pos rfl]

/-- What a junction contributes to any chain comes from its own chain. -/
theorem parts_boxed {d : Connective} {left right : Filter}
    (h : (Filter.junction d left right).complete d = true) (c : Connective) :
    parts c (.junction d left right) = (parts d (.junction d left right)).map (boxed c d) := by
  rw [parts_chain, parts]
  by_cases hd : d = c
  · subst hd
    have hsame : boxed d d = id := by
      funext cs
      exact if_pos rfl
    rw [if_pos rfl, hsame, Except.map_id]
    rfl
  · have hbox : boxed c d = fun cs => [.junction d cs] := by
      funext cs
      exact if_neg hd
    rw [if_neg hd, if_pos h, hbox]
    cases parts d left with
    | error e => rfl
    | ok first =>
      cases parts d right with
      | error e => rfl
      | ok second => rfl

/-- **The parts of a chain are those of its operands**, one after the other. -/
theorem parts_of_chain {c : Connective} {node : Value} {operands : List Value}
    (h : Chain c node operands) :
    parts c (ofJson node) =
      (operands.mapM fun v => parts c (ofJson v)).map List.flatten := by
  induction h with
  | operand node =>
    rw [List.mapM_cons, List.mapM_nil]
    cases parts c (ofJson node) with
    | error e => rfl
    | ok cs => exact congrArg Except.ok (List.append_nil cs).symm
  | @join node first second hjoins _ _ ihfirst ihsecond =>
    rw [Filter.ofJson_of_joins hjoins, parts_chain, ihfirst, ihsecond, List.mapM_append]
    cases first.mapM fun v => parts c (ofJson v) with
    | error e => rfl
    | ok css =>
      cases second.mapM fun v => parts c (ofJson v) with
      | error e => rfl
      | ok dss => exact congrArg Except.ok List.flatten_append.symm

/-- The two clauses contribute the same to every chain, and one is missing if the other is. -/
structure Alike (node other : Value) : Prop where
  null : node = .null ↔ other = .null
  parts (c : Connective) : parts c (ofJson node) = parts c (ofJson other)

theorem mapM_parts_eq {operands others : List Value} (c : Connective)
    (hlength : operands.length = others.length)
    (h : ∀ pair ∈ operands.zip others, Alike pair.1 pair.2) :
    (operands.mapM fun v => parts c (ofJson v)) = others.mapM fun v => parts c (ofJson v) := by
  have hpairs : List.Forall₂ Alike operands others :=
    List.forall₂_iff_zip.2 ⟨hlength, fun hpair => h _ hpair⟩
  clear h hlength
  induction hpairs with
  | nil => rfl
  | cons halike _ ih => rw [List.mapM_cons, List.mapM_cons, halike.parts c, ih]

theorem alike_of_regrouped {node other : Value} (h : Regrouped node other) :
    Whole node → Whole other → Alike node other := by
  induction h with
  | same node => exact fun _ _ => ⟨Iff.rfl, fun c => rfl⟩
  | @chain c node other operands others hchain hother hlength _ ih =>
    intro hnode hwhole
    have halike : ∀ pair ∈ operands.zip others, Alike pair.1 pair.2 := by
      rintro ⟨v, w⟩ hpair
      obtain ⟨hv, hw⟩ := List.of_mem_zip hpair
      exact ih _ hpair (hchain.whole hnode v hv) (hother.whole hwhole w hw)
    obtain rfl | ⟨htwo, hjoins⟩ := hchain.cases_length
    · -- a single operand is the clause itself
      obtain rfl | ⟨htwo, _⟩ := hother.cases_length
      · exact halike (node, other) (List.mem_singleton.2 rfl)
      · rw [← hlength] at htwo
        exact absurd htwo (by simp)
    · obtain rfl | ⟨_, hjoins'⟩ := hother.cases_length
      · rw [hlength] at htwo
        exact absurd htwo (by simp)
      have hown : parts c (ofJson node) = parts c (ofJson other) := by
        rw [parts_of_chain hchain, parts_of_chain hother, mapM_parts_eq c hlength halike]
      refine ⟨?_, fun d => ?_⟩
      · obtain ⟨_, rfl⟩ := hjoins.isObj
        obtain ⟨_, rfl⟩ := hjoins'.isObj
        simp
      · have hcomplete := hnode.complete c
        have hcomplete' := hwhole.complete c
        rw [Filter.ofJson_of_joins hjoins] at hown hcomplete ⊢
        rw [Filter.ofJson_of_joins hjoins'] at hown hcomplete' ⊢
        rw [parts_boxed hcomplete, parts_boxed hcomplete', hown]

/-- The conditions of a whole clause are its parts in a conjunction. -/
theorem ofFilter_of_whole {node : Value} (h : Whole node) (hnull : node ≠ .null) :
    ofFilter (ofJson node) = parts .and (ofJson node) := by
  have hmissing := Filter.isMissing_ofJson hnull
  have hcomplete := h.complete .and
  cases hfilter : ofJson node with
  | missing =>
    rw [hfilter] at hmissing
    cases hmissing
  | leaf v => rfl
  | junction c left right =>
    rw [hfilter] at hcomplete
    exact if_pos hcomplete

/-- **Conditions are in a normal form that does not depend on grouping.**  No condition of a clause
is a conjunction, and no junction in it is joined by the connective of one of its parts or has less
than two.  And two clauses that differ only in how chains are grouped have the same conditions, or
the same error. -/
theorem ofFilter_regrouped (clause : Value) :
    (∀ cs, ofFilter (ofJson clause) = .ok cs →
      ∀ d ∈ cs, d.connective? ≠ some .and ∧ d.Normal) ∧
    ∀ other, Regrouped clause other → Whole clause → Whole other →
      ofFilter (ofJson clause) = ofFilter (ofJson other) := by
  refine ⟨fun cs h => normal_of_ofFilter h, fun other h hclause hother => ?_⟩
  obtain ⟨hnull, hparts⟩ := alike_of_regrouped h hclause hother
  by_cases hmissing : clause = .null
  · rw [hmissing, hnull.1 hmissing]
  · rw [ofFilter_of_whole hclause hmissing, ofFilter_of_whole hother (mt hnull.2 hmissing), hparts]

/-! ## Two groupings of one clause -/

/-- The column of a name is one. -/
def isOne (name : String) : Value :=
  Filter.operation "=" (Filter.column name) (.int 1)

theorem whole_isOne (name : String) : Whole (isOne name) ∧ isOne name ≠ .null := by
  refine ⟨.leaf fun c h => ?_, by simp [isOne, Filter.operation]⟩
  have hnames : ∀ c : Connective, Text.upper "=" ≠ c.name := by
    rintro ⟨⟩ <;> decide +kernel
  exact hnames c (Filter.joins_operation.1 h)

theorem whole_operation {c : Connective} {operator : String} {left right : Value}
    (h : Text.upper operator = c.name) (hleft : Whole left ∧ left ≠ .null)
    (hright : Whole right ∧ right ≠ .null) :
    Whole (Filter.operation operator left right) ∧
      Filter.operation operator left right ≠ .null :=
  ⟨.junction (Filter.joins_operation.2 h) hleft.2 hright.2 hleft.1 hright.1,
    by simp [Filter.operation]⟩

/-- Both groupings of three operands in a chain. -/
theorem regrouped_three {c : Connective} {operator operator' : String} {u v w w' : Value}
    (h : Text.upper operator = c.name) (h' : Text.upper operator' = c.name)
    (hw : Regrouped w w') :
    Regrouped (Filter.operation operator u (Filter.operation operator v w))
      (Filter.operation operator' (Filter.operation operator' u v) w') := by
  have hright : Chain c (Filter.operation operator u (Filter.operation operator v w)) [u, v, w] :=
    .join (Filter.joins_operation.2 h) (.operand u)
      (.join (Filter.joins_operation.2 h) (.operand v) (.operand w))
  have hleft : Chain c (Filter.operation operator' (Filter.operation operator' u v) w') [u, v, w'] :=
    .join (Filter.joins_operation.2 h')
      (.join (Filter.joins_operation.2 h') (.operand u) (.operand v)) (.operand w')
  refine .chain hright hleft rfl ?_
  simp only [List.zip_cons_cons, List.zip_nil_left, List.forall_mem_cons]
  exact ⟨.same u, .same v, hw, List.forall_mem_nil _⟩

open QueryPipeline.Filter (operation) in
/-- A chain of three whose last operand is another chain of three, grouped to the right and to the
left, in two letter cases. -/
theorem ofFilter_regrouped_nested :
    let rightmost := operation "AND" (isOne "a") (operation "AND" (isOne "b")
      (operation "OR" (isOne "x") (operation "OR" (isOne "y") (isOne "z"))))
    let leftmost := operation "and" (operation "and" (isOne "a") (isOne "b"))
      (operation "or" (operation "or" (isOne "x") (isOne "y")) (isOne "z"))
    let condition (name : String) : Condition := .comparison name .eq (.int 1)
    let cs := [condition "a", condition "b",
      .junction .or [condition "x", condition "y", condition "z"]]
    Regrouped rightmost leftmost ∧ Whole rightmost ∧ Whole leftmost ∧
      ofFilter (ofJson rightmost) = .ok cs ∧ ofFilter (ofJson leftmost) = .ok cs ∧
      ∀ d ∈ cs, d.connective? ≠ some .and ∧ d.Normal := by
  intro rightmost leftmost condition cs
  have hAND : Text.upper "AND" = Connective.and.name := by decide +kernel
  have hand : Text.upper "and" = Connective.and.name := by decide +kernel
  have hOR : Text.upper "OR" = Connective.or.name := by decide +kernel
  have hor : Text.upper "or" = Connective.or.name := by decide +kernel
  have hone := whole_isOne
  have hregrouped : Regrouped rightmost leftmost :=
    regrouped_three hAND hand (regrouped_three hOR hor (.same _))
  have hright : Whole rightmost ∧ rightmost ≠ .null :=
    whole_operation hAND (hone "a") (whole_operation hAND (hone "b")
      (whole_operation hOR (hone "x") (whole_operation hOR (hone "y") (hone "z"))))
  have hleft : Whole leftmost ∧ leftmost ≠ .null :=
    whole_operation hand (whole_operation hand (hone "a") (hone "b"))
      (whole_operation hor (whole_operation hor (hone "x") (hone "y")) (hone "z"))
  have hcs : ofFilter (ofJson rightmost) = .ok cs := by
    unfold rightmost cs condition
    rfl
  obtain ⟨hnormal, hsame⟩ := ofFilter_regrouped rightmost
  have hother : ofFilter (ofJson leftmost) = .ok cs :=
    (hsame leftmost hregrouped hright.1 hleft.1).symm.trans hcs
  exact ⟨hregrouped, hright.1, hleft.1, hcs, hother, hnormal cs hcs⟩

end Condition
end QueryPipeline
