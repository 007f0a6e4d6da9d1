import QueryPipeline.Proofs.Condition.Extract

/-!
# Conditions keep the truth of a filter

The clause that filters rows is a tree of conjunctions and disjunctions, and what is made of it is a
list of conditions in which chains are flattened.  Give every leaf condition a truth value by `σ`.
Then the tree has a truth value, and so has the list, and this file shows that they are the same:

    Truth σ clause b  ↔  b = cs.all (holds σ)

`Truth` is defined on the clause as it stands in the canonical map, by its operators and operands,
and knows nothing of flattening.  `holds` and `joined` evaluate what comes out.  The invariant of
the recursion is `truth_joined`: the parts that a filter contributes to a chain of `c`, joined by
`c`, have the truth value of the filter, whatever connective stands at its root.
-/

namespace QueryPipeline

/-! ## Truth of a clause -/

/-- The truth value of two operands under a connective. -/
def Connective.combine : Connective → Bool → Bool → Bool
  | and => Bool.and
  | or => Bool.or

/-- The truth value of no operands. -/
def Connective.unit : Connective → Bool
  | and => true
  | or => false

namespace Filter

/-- The truth value of a clause when `σ` gives those of the conditions: an operation whose operator
is a connective joins those of its operands, and anything else has that of the condition it
makes. -/
inductive Truth (σ : Condition → Bool) : Value → Bool → Prop
  | junction {node : Value} {c : Connective} {a b : Bool} :
      Joins c node → Truth σ (node.field "left") a → Truth σ (node.field "right") b →
      Truth σ node (c.combine a b)
  | leaf {node : Value} {c : Condition} :
      (∀ d, ¬ Joins d node) → Condition.ofLeaf node = .ok c → Truth σ node (σ c)

/-- A clause has one truth value at most. -/
theorem Truth.unique {σ : Condition → Bool} {node : Value} {a b : Bool} (h : Truth σ node a)
    (h' : Truth σ node b) : a = b := by
  induction h generalizing b with
  | junction hc _ _ ihleft ihright =>
    cases h' with
    | junction hd hleft hright => rw [hc.unique hd, ihleft hleft, ihright hright]
    | leaf hnone _ => exact absurd hc (hnone _)
  | leaf hnone hleaf =>
    cases h' with
    | junction hd _ _ => exact absurd hd (hnone _)
    | leaf _ hleaf' =>
      rw [hleaf] at hleaf'
      cases hleaf'
      rfl

end Filter

/-! ## Truth of conditions -/

namespace Condition

mutual

/-- The truth value of a condition: `σ` gives that of a comparison or a membership test. -/
def holds (σ : Condition → Bool) : Condition → Bool
  | .comparison column operator value => σ (.comparison column operator value)
  | .membership column values negated => σ (.membership column values negated)
  | .junction c parts => joined σ c parts

/-- The truth value of conditions under a connective. -/
def joined (σ : Condition → Bool) (c : Connective) : List Condition → Bool
  | [] => c.unit
  | part :: rest => c.combine (holds σ part) (joined σ c rest)

end

variable {σ : Condition → Bool}

theorem joined_and (cs : List Condition) : joined σ .and cs = cs.all (holds σ) := by
  induction cs with
  | nil => rfl
  | cons part rest ih =>
    rw [joined, ih]
    rfl

theorem joined_singleton (c : Connective) (part : Condition) :
    joined σ c [part] = holds σ part := by
  rw [joined, joined]
  cases c with
  | and => exact Bool.and_true _
  | or => exact Bool.or_false _

theorem joined_append (c : Connective) (first second : List Condition) :
    joined σ c (first ++ second) = c.combine (joined σ c first) (joined σ c second) := by
  induction first with
  | nil =>
    cases c with
    | and => exact (Bool.true_and _).symm
    | or => exact (Bool.false_or _).symm
  | cons part rest ih =>
    rw [List.cons_append, joined, joined, ih]
    cases c with
    | and => exact (Bool.and_assoc _ _ _).symm
    | or => exact (Bool.or_assoc _ _ _).symm

/-- A leaf makes no junction, so its truth value is given. -/
theorem holds_ofLeaf {node : Value} {c : Condition} (h : ofLeaf node = .ok c) :
    holds σ c = σ c := by
  obtain ⟨_, h⟩ | ⟨_, operator, _, h⟩ := ofLeaf_eq_ok h
  · obtain ⟨name, _, items, _, _, rfl⟩ := member_eq_ok h
    rw [holds]
  · obtain ⟨_, name, value, _, _, rfl⟩ | ⟨_, _, name, value, _, _, rfl⟩ := compare_eq_ok h
    · rw [holds]
    · rw [holds]

/-! ## The two agree -/

/-- What a filter contributes to a chain of `c`, joined by `c`, has the truth value of the
filter. -/
theorem truth_joined {filter : Filter} {node : Value} {c : Connective} {cs : List Condition}
    (hnode : Filter.ofJson node = filter) (h : parts c filter = .ok cs) :
    Filter.Truth σ node (joined σ c cs) := by
  induction filter generalizing node c cs with
  | missing => cases h
  | leaf value =>
    obtain ⟨d, hd, rfl⟩ := parts_leaf h
    obtain ⟨rfl, hnone⟩ := Filter.ofJson_eq_leaf hnode
    rw [joined_singleton, holds_ofLeaf hd]
    exact .leaf hnone hd
  | junction d left right ihleft ihright =>
    obtain ⟨first, second, hfirst, hsecond, rfl⟩ := parts_junction h
    obtain ⟨hjoins, hleft, hright⟩ := Filter.ofJson_eq_junction hnode
    -- spliced or boxed, the parts are joined by the connective of the node itself
    have hparts : joined σ c
        (if d = c then first ++ second else [.junction d (first ++ second)]) =
          joined σ d (first ++ second) := by
      by_cases hd : d = c
      · rw [if_pos hd, hd]
      · rw [if_neg hd, joined_singleton, holds]
    rw [hparts, joined_append]
    exact .junction hjoins (ihleft hleft hfirst) (ihright hright hsecond)

theorem eq_nil_iff_null {clause : Value} {cs : List Condition}
    (h : ofFilter (Filter.ofJson clause) = .ok cs) : cs = [] ↔ clause = .null := by
  obtain ⟨hmissing, rfl⟩ | hparts := ofFilter_eq_ok h
  · exact ⟨fun _ => Filter.ofJson_eq_missing hmissing, fun _ => rfl⟩
  · constructor
    · intro hnil
      exact absurd hnil (parts_ne_nil hparts)
    · rintro rfl
      cases hparts

/-- **Conditions keep the truth of the clause they are made of.**  However the conditions of a
clause are given truth values, the clause has exactly one, and all the extracted conditions hold
together exactly when it is true.  There are no conditions only when there is no clause. -/
theorem ofFilter_truth {clause : Value} {cs : List Condition}
    (h : ofFilter (Filter.ofJson clause) = .ok cs) :
    (cs = [] ↔ clause = .null) ∧
    (clause ≠ .null → ∀ (σ : Condition → Bool) (b : Bool),
      Filter.Truth σ clause b ↔ b = cs.all (holds σ)) := by
  refine ⟨eq_nil_iff_null h, fun hclause σ b => ?_⟩
  obtain ⟨hmissing, _⟩ | hparts := ofFilter_eq_ok h
  · exact absurd (Filter.ofJson_eq_missing hmissing) hclause
  · have htruth : Filter.Truth σ clause (cs.all (holds σ)) := by
      rw [← joined_and]
      exact truth_joined rfl hparts
    constructor
    · intro hb
      exact hb.unique htruth
    · rintro rfl
      exact htruth

/-- A disjunction inside a conjunction and a conjunction inside that, in three letter cases. -/
theorem ofFilter_truth_alternating :
    let operation (operator : String) (left right : Value) : Value :=
      .obj [("type", .str "binary_op"), ("operator", .str operator), ("left", left),
        ("right", right)]
    let equals (name : String) (i : Int) : Value :=
      operation "=" (.obj [("type", .str "column"), ("name", .str name)]) (.int i)
    let clause :=
      operation "AND" (equals "x" 1)
        (operation "or" (equals "y" 2) (operation "And" (equals "z" 3) (equals "w" 4)))
    let cs : List Condition :=
      [.comparison "x" .eq (.int 1), .junction .or [.comparison "y" .eq (.int 2),
        .junction .and [.comparison "z" .eq (.int 3), .comparison "w" .eq (.int 4)]]]
    ofFilter (Filter.ofJson clause) = .ok cs ∧ clause ≠ .null ∧
      ∀ σ b, Filter.Truth σ clause b ↔ b = cs.all (holds σ) := by
  intro operation equals clause cs
  have h : ofFilter (Filter.ofJson clause) = .ok cs := by
    unfold clause cs equals operation
    rfl
  have hclause : clause ≠ .null := nofun
  exact ⟨h, hclause, (ofFilter_truth h).2 hclause⟩

end Condition
end QueryPipeline
