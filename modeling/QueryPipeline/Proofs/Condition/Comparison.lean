import QueryPipeline.Proofs.Condition.Extract
import QueryPipeline.Proofs.Json.Quote

/-!
# Comparisons keep their meaning

A comparison is put down with its column first, so its sides are exchanged when only the right one
is a column, and its operator is exchanged with them.  This file says when the meaning survives.

An `Interpretation` gives the operators relations on the values of rows: `=` and `!=` symmetric,
`<` and `>` converse, `<=` and `>=` converse, and `LIKE` any relation at all.  `Denotes` is the
value of an operand as it stands in the clause, and `read` is the value of what was put down for it:
a quoted text is a constant, any other text names a column.  Then, over all interpretations and
rows,

    relation operator' (row column) (read value)  ↔  left operator right

if and only if the comparison is no `LIKE` with its column on the right, and no column on the right
of another one has a name that reads as a quoted text.  Both exceptions occur: `LIKE` has no
converse to exchange it for, and such a name is taken for a constant.
-/

namespace QueryPipeline

/-! ## Interpretations -/

/-- A meaning of constants, of the minus sign and of comparisons, over the values `α` of rows. -/
structure Interpretation (α : Type) where
  constant : Value → α
  negate : α → α
  negate_int (i : Int) : negate (constant (.int i)) = constant (.int (-i))
  negate_real (x : Binary64) : negate (constant (.real x)) = constant (.real x.neg)
  relation : Comparator → α → α → Prop
  eq_comm (a b : α) : relation .eq a b ↔ relation .eq b a
  ne_comm (a b : α) : relation .ne a b ↔ relation .ne b a
  unequal_iff (a b : α) : relation .unequal a b ↔ relation .ne a b
  lt_iff_gt (a b : α) : relation .lt a b ↔ relation .gt b a
  le_iff_ge (a b : α) : relation .le a b ↔ relation .ge b a

namespace Interpretation

variable {α : Type} (I : Interpretation α) (row : String → α)

/-- The values that stand for themselves as operands. -/
def IsConstant : Value → Prop
  | .null | .bool _ | .int _ | .real _ | .str _ => True
  | _ => False

/-- The value of an operand of a clause. -/
inductive Denotes : Value → α → Prop
  | constant {node : Value} : IsConstant node → Denotes node (I.constant node)
  | text {node : Value} {s : String} : node.field "type" = .str "string" →
      node.field "value" = .str s → Denotes node (I.constant (.str s))
  | number {node : Value} : node.field "type" = .str "number" →
      (node.field "value").isNumber = true → Denotes node (I.constant (node.field "value"))
  | null {node : Value} : node.field "type" = .str "null" → Denotes node (I.constant .null)
  | column {node : Value} {name : String} : node.field "type" = .str "column" →
      node.field "name" = .str name → Denotes node (row name)
  | negated {node : Value} {a : α} : node.field "type" = .str "unary_op" →
      node.field "operator" = .str "-" → Denotes (node.field "operand") a →
      Denotes node (I.negate a)

/-- The comparison of two operands holds of the row. -/
def Compares (operator : Comparator) (left right : Value) : Prop :=
  ∃ a b, I.Denotes row left a ∧ I.Denotes row right b ∧ I.relation operator a b

/-- The value of what is put down for an operand. -/
def read : Value → α
  | .str text =>
    match Json.unquote? text with
    | some s => I.constant (.str s)
    | none => row text
  | v => I.constant v

variable {I row}

theorem field_of_isConstant {node : Value} (h : IsConstant node) (key : String) :
    node.field key = .null := by
  cases node with
  | obj fields => exact h.elim
  | _ => rfl

/-- An operand has one value at most. -/
theorem Denotes.unique {node : Value} {a b : α} (h : I.Denotes row node a)
    (h' : I.Denotes row node b) : a = b := by
  induction h generalizing b with
  | constant hconstant =>
    have hfield := field_of_isConstant hconstant
    cases h' <;> simp_all
  | text htype hvalue => cases h' <;> simp_all [field_of_isConstant]
  | number htype hnumber => cases h' <;> simp_all [field_of_isConstant]
  | null htype => cases h' <;> simp_all [field_of_isConstant]
  | column htype hname => cases h' <;> simp_all [field_of_isConstant]
  | negated htype hoperator hoperand ih =>
    cases h' with
    | negated _ _ hoperand' => rw [ih hoperand']
    | _ => simp_all [field_of_isConstant]

theorem compares_iff {operator : Comparator} {left right : Value} {a b : α}
    (hleft : I.Denotes row left a) (hright : I.Denotes row right b) :
    I.Compares row operator left right ↔ I.relation operator a b := by
  constructor
  · rintro ⟨a', b', hleft', hright', h⟩
    rw [hleft.unique hleft', hright.unique hright']
    exact h
  · intro h
    exact ⟨a, b, hleft, hright, h⟩

/-- Every operator but `LIKE` is exchanged for its converse. -/
theorem relation_swapped {operator : Comparator} (hlike : operator ≠ .like) (a b : α) :
    I.relation operator.swapped a b ↔ I.relation operator b a := by
  cases operator with
  | eq => exact I.eq_comm a b
  | ne => exact I.ne_comm a b
  | unequal => exact ((I.unequal_iff a b).trans (I.ne_comm a b)).trans (I.unequal_iff b a).symm
  | lt => exact (I.lt_iff_gt b a).symm
  | le => exact (I.le_iff_ge b a).symm
  | gt => exact I.lt_iff_gt a b
  | ge => exact I.le_iff_ge a b
  | like => exact absurd rfl hlike

end Interpretation

/-! ## What is put down for an operand -/

namespace Condition

theorem isColumn_iff {node : Value} : isColumn node = true ↔ node.field "type" = .str "column" :=
  beq_iff_eq

/-- What is put down for an operand: texts are quoted, and a column is its name. -/
inductive PutDown : Value → Value → Prop
  | constant {v : Value} : Interpretation.IsConstant v → (∀ s, v ≠ .str s) → PutDown v v
  | quoted {s : String} : PutDown (.str s) (.str (Json.quote s))
  | text {node : Value} {s : String} : node.field "type" = .str "string" →
      node.field "value" = .str s → PutDown node (.str (Json.quote s))
  | number {node : Value} : node.field "type" = .str "number" →
      (node.field "value").isNumber = true → PutDown node (node.field "value")
  | null {node : Value} : node.field "type" = .str "null" → PutDown node .null
  | column {node : Value} {name : String} : node.field "type" = .str "column" →
      node.field "name" = .str name → PutDown node (.str name)
  | negated {node v w : Value} : node.field "type" = .str "unary_op" →
      node.field "operator" = .str "-" → PutDown (node.field "operand") v →
      negative? v = some w → PutDown node w

mutual

theorem valueOf_eq_ok : ∀ {node v : Value}, valueOf node = .ok v → PutDown node v
  | .null, _, h | .bool _, _, h | .int _, _, h | .real _, _, h => by
    cases h
    exact .constant trivial nofun
  | .str _, _, h => by
    cases h
    exact .quoted
  | .obj fields, v, h => by
    rw [valueOf] at h
    split at h
    next htype =>
      split at h
      next s hvalue =>
        cases h
        exact .text htype hvalue
      · cases h
    next htype =>
      split at h
      next hnumber =>
        cases h
        exact .number htype hnumber
      · cases h
    next htype =>
      cases h
      exact .null htype
    next htype =>
      obtain ⟨name, hname, h⟩ := bind_eq_ok.1 h
      cases h
      exact .column htype (requiredName_eq_ok hname)
    next htype =>
      split at h
      next hoperator =>
        obtain ⟨w, hw, h⟩ := bind_eq_ok.1 h
        cases hv : negative? w with
        | none =>
          rw [hv] at h
          cases h
        | some u =>
          rw [hv] at h
          cases h
          exact .negated htype hoperator (operandValue_eq_ok hw) hv
      · cases h
    · cases h
  | .arr _, _, h | .tuple _, _, h | .token _, _, h | .node _ _, _, h => by cases h

theorem operandValue_eq_ok : ∀ {fields : List (String × Value)} {v : Value},
    operandValue fields = .ok v → PutDown (Value.fieldOf "operand" fields) v
  | [], _, h => by
    cases h
    exact .constant trivial nofun
  | (k, w) :: rest, v, h => by
    rw [operandValue] at h
    rw [Value.fieldOf, List.lookup_cons]
    by_cases hk : k = "operand"
    · rw [if_pos hk] at h
      rw [hk, beq_self_eq_true]
      exact valueOf_eq_ok h
    · rw [if_neg hk] at h
      rw [beq_false_of_ne (Ne.symm hk)]
      exact operandValue_eq_ok h

end

theorem PutDown.name_of_isColumn {node v : Value} (h : PutDown node v)
    (hcolumn : isColumn node = true) : ∃ name, node.field "name" = .str name ∧ v = .str name := by
  have htype := isColumn_iff.1 hcolumn
  cases h with
  | column _ hname => exact ⟨_, hname, rfl⟩
  | quoted => cases htype
  | _ => simp_all [Interpretation.field_of_isConstant]

theorem negative?_eq_some {v w : Value} (h : negative? v = some w) :
    (∃ i, v = .int i ∧ w = .int (-i)) ∨ ∃ x, v = .real x ∧ w = .real x.neg := by
  cases v with
  | int i =>
    cases h
    exact .inl ⟨i, rfl, rfl⟩
  | real x =>
    cases h
    exact .inr ⟨x, rfl, rfl⟩
  | _ => cases h

section Denotes

variable {α : Type} {I : Interpretation α} {row : String → α}

theorem read_quote (s : String) : I.read row (.str (Json.quote s)) = I.constant (.str s) := by
  rw [Interpretation.read, Json.unquote?_quote]

theorem read_of_ne_str {v : Value} (h : ∀ s, v ≠ .str s) : I.read row v = I.constant v := by
  cases v with
  | str s => exact absurd rfl (h s)
  | _ => rfl

/-- An operand that is no column has the value of what is put down for it. -/
theorem PutDown.denotes {node v : Value} (h : PutDown node v) (hcolumn : isColumn node = false) :
    I.Denotes row node (I.read row v) := by
  induction h with
  | constant hconstant hstr =>
    rw [read_of_ne_str hstr]
    exact .constant hconstant
  | quoted =>
    rw [read_quote]
    exact .constant trivial
  | text htype hvalue =>
    rw [read_quote]
    exact .text htype hvalue
  | number htype hnumber =>
    rw [read_of_ne_str]
    · exact .number htype hnumber
    · intro s hs
      rw [hs] at hnumber
      cases hnumber
  | null htype => exact .null htype
  | column htype _ =>
    rw [isColumn_iff.2 htype] at hcolumn
    cases hcolumn
  | @negated node v w htype hoperator hput hnegative ih =>
    have hoperand : isColumn (node.field "operand") = false := by
      -- what is put down for a column is a text, and no text has a negative
      rw [Bool.eq_false_iff]
      intro hcolumn
      obtain ⟨name, _, rfl⟩ := hput.name_of_isColumn hcolumn
      cases hnegative
    obtain ⟨i, rfl, rfl⟩ | ⟨x, rfl, rfl⟩ := negative?_eq_some hnegative
    · show I.Denotes row node (I.constant (.int (-i)))
      rw [← I.negate_int]
      exact .negated htype hoperator (ih hoperand)
    · show I.Denotes row node (I.constant (.real x.neg))
      rw [← I.negate_real]
      exact .negated htype hoperator (ih hoperand)

/-- What is put down for an operand that is no column reads as a constant. -/
theorem PutDown.read_constant {node v : Value} (h : PutDown node v)
    (hcolumn : isColumn node = false) : ∃ w, I.read row v = I.constant w := by
  cases h with
  | constant _ hstr => exact ⟨_, read_of_ne_str hstr⟩
  | quoted => exact ⟨_, read_quote _⟩
  | text _ _ => exact ⟨_, read_quote _⟩
  | number _ hnumber =>
    cases hvalue : node.field "value" with
    | str s =>
      rw [hvalue] at hnumber
      cases hnumber
    | _ => exact ⟨_, rfl⟩
  | null _ => exact ⟨.null, rfl⟩
  | column htype _ =>
    rw [isColumn_iff.2 htype] at hcolumn
    cases hcolumn
  | negated _ _ _ hnegative =>
    obtain ⟨i, _, rfl⟩ | ⟨x, _, rfl⟩ := negative?_eq_some hnegative
    · exact ⟨.int (-i), rfl⟩
    · exact ⟨.real x.neg, rfl⟩

end Denotes

/-! ## The comparison itself -/

theorem ofSymbol?_symbol (c : Comparator) : Comparator.ofSymbol? c.symbol = some c := by
  cases c <;> decide

theorem comparator?_symbol (c : Comparator) : comparator? (.str c.symbol) = .ok (some c) :=
  congrArg Except.ok (ofSymbol?_symbol c)

/-- An interpretation that tells constants from the values of rows: no constant is equal to them,
and exactly they are patterns that everything is like. -/
def separating : Interpretation Bool where
  constant _ := false
  negate a := a
  negate_int _ := rfl
  negate_real _ := rfl
  relation operator a b := if operator = .like then b = true else a = b
  eq_comm _ _ := eq_comm
  ne_comm _ _ := eq_comm
  unequal_iff _ _ := Iff.rfl
  lt_iff_gt _ _ := eq_comm
  le_iff_ge _ _ := eq_comm

theorem separating_relation (operator : Comparator) (b : Bool) :
    separating.relation operator true b ↔ b = true := by
  show (if operator = .like then b = true else true = b) ↔ b = true
  by_cases hlike : operator = .like
  · rw [if_pos hlike]
  · rw [if_neg hlike]
    exact eq_comm

/-- **The column on the left.**  The comparison keeps its meaning exactly when what stands on the
right is no column whose name reads as a quoted text. -/
theorem column_left_iff {operator : Comparator} {left right value : Value} {column : String}
    (hleft : isColumn left = true) (hname : left.field "name" = .str column)
    (hput : PutDown right value) :
    (∀ (α : Type) (I : Interpretation α) (row : String → α),
      I.relation operator (row column) (I.read row value) ↔ I.Compares row operator left right) ↔
    (isColumn right = true → ∀ name, right.field "name" = .str name →
      Json.unquote? name = none) := by
  have hdenotes : ∀ {α : Type} (I : Interpretation α) (row : String → α),
      I.Denotes row left (row column) := fun I row => .column (isColumn_iff.1 hleft) hname
  by_cases hright : isColumn right = true
  · obtain ⟨name, hnameRight, rfl⟩ := hput.name_of_isColumn hright
    have hdenotesRight : ∀ {α : Type} (I : Interpretation α) (row : String → α),
        I.Denotes row right (row name) := fun I row => .column (isColumn_iff.1 hright) hnameRight
    constructor
    · intro h _ name' hname'
      rw [hnameRight] at hname'
      cases hname'
      rw [← Option.not_isSome_iff_eq_none, Option.isSome_iff_exists]
      rintro ⟨s, hs⟩
      have hsame := h Bool separating fun _ => true
      rw [Interpretation.compares_iff (hdenotes _ _) (hdenotesRight _ _), separating_relation,
        separating_relation, Interpretation.read, hs] at hsame
      exact absurd (hsame.2 rfl) Bool.false_ne_true
    · intro h α I row
      rw [Interpretation.compares_iff (hdenotes I row) (hdenotesRight I row), Interpretation.read,
        h hright name hnameRight]
  · constructor
    · intro _ hcolumn
      exact absurd hcolumn hright
    · intro _ α I row
      have hdenotesRight : I.Denotes row right (I.read row value) :=
        hput.denotes (Bool.eq_false_iff.2 hright)
      exact (Interpretation.compares_iff (hdenotes I row) hdenotesRight).symm

/-- **The column on the right.**  The comparison keeps its meaning exactly when it is no `LIKE`. -/
theorem column_right_iff {operator : Comparator} {left right value : Value} {column : String}
    (hleft : isColumn left = false) (hright : isColumn right = true)
    (hname : right.field "name" = .str column) (hput : PutDown left value) :
    (∀ (α : Type) (I : Interpretation α) (row : String → α),
      I.relation operator.swapped (row column) (I.read row value) ↔
        I.Compares row operator left right) ↔
    operator ≠ .like := by
  have hdenotes : ∀ {α : Type} (I : Interpretation α) (row : String → α),
      I.Denotes row right (row column) := fun I row => .column (isColumn_iff.1 hright) hname
  constructor
  · rintro h rfl
    have hsame := h Bool separating fun _ => true
    obtain ⟨w, hw⟩ : ∃ w, separating.read (fun _ => true) value = separating.constant w :=
      hput.read_constant hleft
    rw [Interpretation.compares_iff (hput.denotes hleft) (hdenotes _ _), hw] at hsame
    -- the row's value is a pattern here, and the constant is none
    exact absurd (hsame.2 rfl) Bool.false_ne_true
  · intro hlike α I row
    rw [Interpretation.compares_iff (hput.denotes hleft) (hdenotes I row)]
    exact Interpretation.relation_swapped hlike _ _

/-- The condition of a comparison is what `compare` makes of its operands. -/
theorem ofLeaf_comparison {node : Value} {operator : Comparator} {c : Condition}
    (htype : node.field "type" = .str "binary_op")
    (hoperator : node.field "operator" = .str operator.symbol) (h : ofLeaf node = .ok c) :
    compare operator (node.field "left") (node.field "right") = .ok c := by
  obtain ⟨htype', _⟩ | ⟨_, operator', hoperator', h⟩ := ofLeaf_eq_ok h
  · rw [htype] at htype'
    exact absurd htype' (by decide)
  · rw [hoperator, comparator?_symbol] at hoperator'
    cases hoperator'
    exact h

/-- **When a comparison keeps its meaning.**  The condition that is made of a comparison compares a
column with a value.  It holds of the same rows as the comparison, in every interpretation, exactly
when the comparison is no `LIKE` whose column stands on the right, and no column on the right of
another one has a name that reads as a quoted text. -/
theorem ofLeaf_comparison_iff {node : Value} {operator : Comparator} {c : Condition}
    (htype : node.field "type" = .str "binary_op")
    (hoperator : node.field "operator" = .str operator.symbol) (h : ofLeaf node = .ok c) :
    ∃ column operator' value, c = .comparison column operator' value ∧
      ((∀ (α : Type) (I : Interpretation α) (row : String → α),
          I.relation operator' (row column) (I.read row value) ↔
            I.Compares row operator (node.field "left") (node.field "right")) ↔
        (operator = .like → isColumn (node.field "left") = true) ∧
        (isColumn (node.field "left") = true → isColumn (node.field "right") = true →
          ∀ name, (node.field "right").field "name" = .str name → Json.unquote? name = none)) := by
  obtain ⟨hleft, column, value, hname, hvalue, rfl⟩ |
    ⟨hleft, hright, column, value, hname, hvalue, rfl⟩ :=
      compare_eq_ok (ofLeaf_comparison htype hoperator h)
  · refine ⟨column, operator, value, rfl, ?_⟩
    rw [column_left_iff hleft hname (valueOf_eq_ok hvalue)]
    exact ⟨fun h => ⟨fun _ => hleft, fun _ => h⟩, fun h => h.2 hleft⟩
  · refine ⟨column, operator.swapped, value, rfl, ?_⟩
    rw [column_right_iff hleft hright hname (valueOf_eq_ok hvalue), hleft]
    exact ⟨fun h => ⟨fun hlike => absurd hlike h, nofun⟩, fun h hlike => nomatch h.1 hlike⟩

/-- `-10 < age` becomes `age > -10`, and means the same. -/
theorem ofLeaf_comparison_iff_exchanged :
    let node : Value := .obj
      [("type", .str "binary_op"), ("operator", .str "<"),
       ("left", .obj [("type", .str "unary_op"), ("operator", .str "-"),
         ("operand", .obj [("type", .str "number"), ("value", .int 10)])]),
       ("right", .obj [("type", .str "column"), ("name", .str "age")])]
    ofLeaf node = .ok (.comparison "age" .gt (.int (-10))) ∧
      ∀ (α : Type) (I : Interpretation α) (row : String → α),
        I.relation .gt (row "age") (I.read row (.int (-10))) ↔
          I.Compares row .lt (node.field "left") (node.field "right") := by
  intro node
  have h : ofLeaf node = .ok (.comparison "age" .gt (.int (-10))) := rfl
  refine ⟨h, ?_⟩
  obtain ⟨column, operator, value, hc, hiff⟩ := @ofLeaf_comparison_iff node .lt _ rfl rfl h
  cases hc
  exact hiff.2 ⟨nofun, nofun⟩

/-- `'abc' LIKE name` becomes `name LIKE 'abc'`, and does not mean the same. -/
theorem like_exchanged_changes :
    let node : Value := .obj
      [("type", .str "binary_op"), ("operator", .str "LIKE"),
       ("left", .obj [("type", .str "string"), ("value", .str "abc")]),
       ("right", .obj [("type", .str "column"), ("name", .str "name")])]
    ofLeaf node = .ok (.comparison "name" .like (.str (Json.quote "abc"))) ∧
      ¬ ∀ (α : Type) (I : Interpretation α) (row : String → α),
        I.relation .like (row "name") (I.read row (.str (Json.quote "abc"))) ↔
          I.Compares row .like (node.field "left") (node.field "right") := by
  intro node
  have hput : PutDown (node.field "left") (.str (Json.quote "abc")) := .text rfl rfl
  refine ⟨rfl, fun h => ?_⟩
  exact (@column_right_iff .like _ _ _ _ rfl rfl rfl hput).1 h rfl

end Condition
end QueryPipeline
