import Mathlib.Data.List.Forall2
import QueryPipeline.Proofs.Canonical.Faithful
import QueryPipeline.Proofs.Condition.Comparison
import QueryPipeline.Proofs.Descriptor.Build
import QueryPipeline.Proofs.Json.Shape

/-!
# The values of conditions

Each value in the conditions of a descriptor comes from one operand in the text, and tells what that
operand was.  `Expr.operands` lists the operands of a condition from left to right,
`Condition.values` the values, and `Expr.Stands` says what may stand for an operand:

    'click'    a quoted text that is read as click
    - - 2.5    the whole number 2
    NULL       null
    age        the name, in which there is no quote

So a column is never taken for a string, and no two strings are taken for each other
(`Stands.kind_eq`).  The names are without quotes since the expression comes from a text, which is
what `Expr.Printable` keeps of it.
-/

namespace QueryPipeline

namespace Expr

/-! ## Operands -/

/-- A column that is not the wildcard. -/
def isColumn : Expr → Bool
  | .column ref => ref.name != "*"
  | _ => false

/-- The operands of a condition whose values are put down, from left to right: in a comparison the
side that is not the column, and in a membership test what is in the list. -/
def operands : Expr → List Expr
  | .binary left .and right => left.operands ++ right.operands
  | .binary left .or right => left.operands ++ right.operands
  | .binary left _ right => if left.isColumn then [right] else [left]
  | .membership _ values _ => values
  | _ => []

/-- An expression under some minus signs. -/
def minus : Nat → Expr → Expr
  | 0, e => e
  | k + 1, e => .unary .neg (minus k e)

/-- What may stand in a condition for an operand. -/
inductive Stands : Expr → Value → Prop
  | string {s text : String} : Json.Quotes text s → Stands (.literal (.string s)) (.str text)
  | number {text : String} {k : Nat} {i : Int} : i = Int.pow (-1) k * Literal.wholePart text →
      Stands (minus k (.literal (.number text))) (.int i)
  | null : Stands (.literal .null) .null
  | column {ref : ColumnRef} : ref.name ≠ "*" → '"' ∉ ref.name.toList →
      Stands (.column ref) (.str ref.name)

/-! ## What is put down for an operand -/

theorem stands_of_valueOf {e : Expr} (he : e.Printable) :
    ∀ {v : Value}, Condition.valueOf e.form = .ok v → e.Stands v := by
  induction he with
  | @column name table hname _ =>
    intro v h
    by_cases hstar : name = "*"
    · subst hstar
      cases h
    · obtain ⟨htype, hfield, _⟩ := (ColumnRef.mk name table none).field_form
      rw [if_neg hstar] at htype hfield
      obtain ⟨_, hname', rfl⟩ :=
        (Condition.valueOf_eq_ok h).name_of_isColumn (Condition.isColumn_iff.2 htype)
      cases hfield.symm.trans hname'
      exact .column hstar hname
  | @number text _ =>
    intro v h
    cases h
    exact .number (k := 0) (Int.one_mul _).symm
  | string =>
    intro v h
    cases h
    exact .string (Json.quotes_quote _)
  | null =>
    intro v h
    cases h
    exact .null
  | @unary operator operand _ ih =>
    intro v h
    cases operator with
    | not => cases h
    | neg =>
      obtain ⟨w, hw, h⟩ := bind_eq_ok.1 h
      cases ih hw with
      | @number text k i hi =>
        cases h
        refine .number (k := k + 1) ?_
        have hpow : Int.pow (-1) (k + 1) = Int.pow (-1) k * -1 := Int.pow_succ (-1) k
        rw [hi, hpow, Int.mul_neg_one, Int.neg_mul]
      | string | null | column => cases h
  | binary | call | membership | caseOf =>
    intro v h
    cases h

theorem stands_of_valuesOf : ∀ {es : List Expr} {vs : List Value}, (∀ e ∈ es, e.Printable) →
    Condition.valuesOf (forms es) = .ok vs → List.Forall₂ Stands es vs
  | [], _, _, h => by
    cases h
    exact .nil
  | e :: es, _, hes, h => by
    obtain ⟨he, hes⟩ := List.forall_mem_cons.1 hes
    obtain ⟨v, hv, h⟩ := bind_eq_ok.1 h
    obtain ⟨vs, hvs, h⟩ := bind_eq_ok.1 h
    cases h
    exact .cons (stands_of_valueOf he hv) (stands_of_valuesOf hes hvs)

/-! ## Operands of different kinds -/

inductive OperandKind where
  | string
  | number
  | null
  | column
deriving DecidableEq, Repr

/-- The kind of an operand.  A number stays one under minus signs. -/
def operandKind? : Expr → Option OperandKind
  | .literal (.string _) => some .string
  | .literal (.number _) => some .number
  | .literal .null => some .null
  | .column _ => some .column
  | .unary .neg e => e.operandKind?
  | _ => none

theorem operandKind?_minus (k : Nat) (e : Expr) : (minus k e).operandKind? = e.operandKind? := by
  induction k with
  | zero => rfl
  | succ k ih => exact ih

/-- No name is a quoted text. -/
theorem Stands.string_ne_column {text s name : String} (htext : Json.Quotes text s)
    (hname : '"' ∉ name.toList) : text ≠ name := by
  rintro rfl
  obtain ⟨body, htext, _⟩ := htext.delimited
  exact hname (htext ▸ List.mem_cons_self)

theorem Stands.kind_eq {a b : Expr} {v w : Value} (ha : a.Stands v) (hb : b.Stands w)
    (h : v.same w = true) : a.operandKind? = b.operandKind? := by
  cases ha with
  | string htext =>
    cases hb with
    | string => rfl
    | column _ hname => exact absurd (Value.eq_of_same_str h) (string_ne_column htext hname)
    | number | null => cases h
  | number =>
    cases hb with
    | number => rw [operandKind?_minus, operandKind?_minus]; rfl
    | string | null | column => cases h
  | null =>
    cases hb with
    | null => rfl
    | string | number | column => cases h
  | column _ hname =>
    cases hb with
    | string htext =>
      exact absurd (Value.eq_of_same_str h).symm (string_ne_column htext hname)
    | column => rfl
    | number | null => cases h

theorem Stands.quotes {s : String} {v : Value} (h : (Expr.literal (.string s)).Stands v) :
    ∃ text, v = .str text ∧ Json.Quotes text s := by
  generalize he : Expr.literal (.string s) = e at h
  cases h with
  | string htext =>
    cases he
    exact ⟨_, rfl, htext⟩
  | number =>
    -- what is under minus signs is a number, and not a string
    have hkind := congrArg operandKind? he
    rw [operandKind?_minus] at hkind
    cases hkind
  | null | column => cases he

theorem Stands.string_eq {s t : String} {v w : Value} (hs : (Expr.literal (.string s)).Stands v)
    (ht : (Expr.literal (.string t)).Stands w) (h : v.same w = true) : s = t := by
  obtain ⟨text, rfl, htext⟩ := hs.quotes
  obtain ⟨text', rfl, htext'⟩ := ht.quotes
  cases Value.eq_of_same_str h
  exact htext.unique htext'

end Expr

/-! ## The values of conditions -/

namespace Condition

mutual

/-- The values in a condition at any depth, from left to right. -/
def values : Condition → List Value
  | .comparison _ _ value => [value]
  | .membership _ items _ => items
  | .junction _ parts => valuesIn parts

def valuesIn : List Condition → List Value
  | [] => []
  | c :: rest => values c ++ valuesIn rest

end

theorem valuesIn_eq_flatMap (cs : List Condition) : valuesIn cs = cs.flatMap values := by
  induction cs with
  | nil => rfl
  | cons c cs ih => rw [valuesIn, ih, List.flatMap_cons]

/-- The parts of a junction have the values of its operands, spliced in or boxed. -/
theorem flatMap_values_joined (c d : Connective) (first second : List Condition) :
    (if d = c then first ++ second else [.junction d (first ++ second)]).flatMap values =
      first.flatMap values ++ second.flatMap values := by
  split
  · rw [List.flatMap_append]
  · rw [List.flatMap_singleton, values, valuesIn_eq_flatMap, List.flatMap_append]

end Condition

/-! ## Conditions of an expression -/

/-- The operator that a connective is written with. -/
def Connective.operator : Connective → BinaryOperator
  | and => .and
  | or => .or

theorem BinaryOperator.upper_symbol (o : BinaryOperator) : Text.upper o.symbol = o.symbol := by
  cases o <;> decide +kernel

theorem Connective.operator_of_symbol {c : Connective} {o : BinaryOperator}
    (h : o.symbol = c.name) : o = c.operator := by
  revert h
  cases c <;> cases o <;> simp [BinaryOperator.symbol, Connective.name, operator]

namespace Expr

theorem shape_of_type {e : Expr} {type : String} (h : e.form.field "type" = .str type) :
    e.shape = shapeOf type := by
  rw [field_type] at h
  cases h
  exact (shapeOf_typeName e).symm

/-- Only a conjunction or disjunction has the form of one. -/
theorem eq_of_joins {c : Connective} {e : Expr} (h : Filter.Joins c e.form) :
    ∃ left right, e = .binary left c.operator right := by
  obtain ⟨htype, hoperator⟩ := h
  have hshape := shape_of_type htype
  cases e with
  | binary left o right =>
    have hsymbol : Text.upper o.symbol = c.name := hoperator
    rw [o.upper_symbol] at hsymbol
    exact ⟨left, right, by rw [Connective.operator_of_symbol hsymbol]⟩
  | _ => cases hshape

theorem isColumn_form (e : Expr) : Condition.isColumn e.form = e.isColumn := by
  rw [Condition.isColumn, field_type]
  cases e with
  | column ref =>
    rw [typeName, isColumn]
    by_cases hstar : ref.name = "*"
    · rw [if_pos hstar, hstar]
      rfl
    · rw [if_neg hstar, bne_iff_ne.2 hstar]
      rfl
  | literal value => cases value <;> rfl
  | binary | unary | call | membership | caseOf => rfl

theorem stands_of_compare {left right : Expr} (hleft : left.Printable) (hright : right.Printable)
    {operator : Comparator} {c : Condition}
    (h : Condition.compare operator left.form right.form = .ok c) :
    List.Forall₂ Stands (if left.isColumn then [right] else [left]) c.values := by
  rw [← isColumn_form]
  obtain ⟨hcolumn, _, value, _, hvalue, rfl⟩ | ⟨hcolumn, _, _, value, _, hvalue, rfl⟩ :=
    Condition.compare_eq_ok h
  · rw [hcolumn]
    exact .cons (stands_of_valueOf hright hvalue) .nil
  · rw [hcolumn]
    exact .cons (stands_of_valueOf hleft hvalue) .nil

theorem stands_of_ofLeaf {e : Expr} (he : e.Printable) {c : Condition}
    (h : Condition.ofLeaf e.form = .ok c) : List.Forall₂ Stands e.operands c.values := by
  obtain ⟨htype, h⟩ | ⟨htype, operator, hoperator, h⟩ := Condition.ofLeaf_eq_ok h
  · have hshape := shape_of_type htype
    cases he with
    | membership _ _ hvalues =>
      obtain ⟨_, _, items, hlisted, hitems, rfl⟩ := Condition.member_eq_ok h
      cases hlisted
      exact stands_of_valuesOf hvalues hitems
    | _ => cases hshape
  · have hshape := shape_of_type htype
    cases he with
    | @binary left right o hleft hright =>
      -- a connective is no comparator
      have hoperands : (Expr.binary left o right).operands =
          if left.isColumn then [right] else [left] := by
        cases o with
        | and | or => cases hoperator
        | _ => rfl
      rw [hoperands]
      exact stands_of_compare hleft hright h
    | _ => cases hshape

/-- The values in what a filter contributes stand for the operands of its expression, one by
one. -/
theorem stands_of_parts {filter : Filter} : ∀ {e : Expr}, e.Printable →
    Filter.ofJson e.form = filter → ∀ {c : Connective} {cs : List Condition},
    Condition.parts c filter = .ok cs →
    List.Forall₂ Stands e.operands (cs.flatMap Condition.values) := by
  induction filter with
  | missing =>
    intro e _ _ c cs h
    cases h
  | leaf node =>
    intro e he hfilter c cs h
    obtain ⟨rfl, _⟩ := Filter.ofJson_eq_leaf hfilter
    obtain ⟨d, hd, rfl⟩ := Condition.parts_leaf h
    rw [List.flatMap_singleton]
    exact stands_of_ofLeaf he hd
  | junction d left right ihleft ihright =>
    intro e he hfilter c cs h
    obtain ⟨hjoins, hleft, hright⟩ := Filter.ofJson_eq_junction hfilter
    obtain ⟨l, r, rfl⟩ := eq_of_joins hjoins
    obtain ⟨first, second, hfirst, hsecond, rfl⟩ := Condition.parts_junction h
    cases he with
    | binary hl hr =>
      have hoperands : (Expr.binary l d.operator r).operands = l.operands ++ r.operands := by
        cases d <;> rfl
      rw [hoperands, Condition.flatMap_values_joined]
      exact List.rel_append (ihleft hl hleft hfirst) (ihright hr hright hsecond)

end Expr

/-- What the filter of a statement contributes to a descriptor stands for its operands. -/
theorem Descriptor.stands_of_derived {q : Select} {settings : List (String × Value)}
    {d : Descriptor} (hprintable : q.Printable) (hderived : Derived (Value.compact q.parts) settings d) :
    List.Forall₂ Expr.Stands (q.condition.elim [] Expr.operands)
      (d.conditions.flatMap Condition.values) := by
  have hconditions := hderived.conditions
  rw [Value.fieldOf_compact q.nodup_parts] at hconditions
  change Condition.ofFilter (Filter.ofJson (Expr.optionForm q.condition)) = _ at hconditions
  cases hcondition : q.condition with
  | none =>
    rw [hcondition] at hconditions
    have hnil : [] = d.conditions := Except.ok.inj hconditions
    rw [← hnil]
    exact .nil
  | some e =>
    rw [hcondition] at hconditions
    obtain ⟨hmissing, _⟩ | hparts := Condition.ofFilter_eq_ok hconditions
    · exact absurd (Filter.ofJson_eq_missing hmissing) e.form_ne_null
    · exact Expr.stands_of_parts (hprintable.condition e hcondition) rfl hparts

/-- **The values in the conditions of a descriptor stand for the operands in the text**, one by
one.  And from what stands for two operands one sees if they are of different kinds, or different
strings. -/
theorem Descriptor.stands_of_ofText {text : String} {config : Value} {d : Descriptor}
    {notes : List Note} (h : Descriptor.ofText text config = (.ok d, notes)) :
    ∃ q : Select, (Script.parse text).1 = .ok [.select q] ∧
      List.Forall₂ Expr.Stands (q.condition.elim [] Expr.operands)
        (d.conditions.flatMap Condition.values) ∧
      ∀ (a b : Expr) (v w : Value), a.Stands v → b.Stands w → v.same w = true →
        a.operandKind? = b.operandKind? ∧
          ∀ s t, a = .literal (.string s) → b = .literal (.string t) → s = t := by
  obtain ⟨q, settings, hparse, _, hderived⟩ := ofText_eq_ok h
  have hprintable : q.Printable :=
    (Script.printable_of_parse hparse).2 (.select q) (List.mem_singleton.mpr rfl)
  refine ⟨q, hparse, stands_of_derived hprintable hderived, fun a b v w ha hb hsame =>
    ⟨ha.kind_eq hb hsame, ?_⟩⟩
  rintro s t rfl rfl
  exact ha.string_eq hb hsame

theorem Descriptor.stands_of_ofText_mixed :
    ∃ d notes, Descriptor.ofText
        "SELECT * FROM t WHERE a = 'say \"hi\"' AND (b IN (- -2.5, NULL) OR c = d)" .null =
          (.ok d, notes) ∧
      d.conditions.flatMap Condition.values =
        [.str "\"say \\\"hi\\\"\"", .int 2, .null, .str "d"] ∧
      ∃ q : Select, List.Forall₂ Expr.Stands (q.condition.elim [] Expr.operands)
        (d.conditions.flatMap Condition.values) := by
  have hvalues : (Descriptor.ofText
      "SELECT * FROM t WHERE a = 'say \"hi\"' AND (b IN (- -2.5, NULL) OR c = d)" .null).1.map
        (fun d => d.conditions.flatMap Condition.values) =
      .ok [.str "\"say \\\"hi\\\"\"", .int 2, .null, .str "d"] := by
    decide +kernel
  match h : Descriptor.ofText
      "SELECT * FROM t WHERE a = 'say \"hi\"' AND (b IN (- -2.5, NULL) OR c = d)" .null with
  | (.ok d, notes) =>
    rw [h] at hvalues
    obtain ⟨q, _, hstands, _⟩ := Descriptor.stands_of_ofText h
    exact ⟨d, notes, rfl, Except.ok.inj hvalues, q, hstands⟩
  | (.error e, notes) =>
    rw [h] at hvalues
    cases hvalues

end QueryPipeline
