import QueryPipeline.Number.Integer
import QueryPipeline.Proofs.Number.Binary64
import QueryPipeline.Value.Basic

/-!
# Values that are JSON

A JSON value is a scalar, a list, or an object whose fields all have different names.  Which scalars
there are is left open (`MadeOf`): a text of JSON has numbers with a fraction (`IsJson`), and what
is written for a statement has none (`IsStored`).  Whole numbers have no more digits than can be
read.
-/

namespace QueryPipeline.Value

/-- Scalars, and lists and objects that are made of them. -/
inductive MadeOf (S : Value → Prop) : Value → Prop
  | scalar {v : Value} : S v → MadeOf S v
  | arr {items : List Value} : (∀ v ∈ items, MadeOf S v) → MadeOf S (.arr items)
  | obj {fields : List (String × Value)} :
      (fields.map Prod.fst).Nodup → (∀ f ∈ fields, MadeOf S f.2) → MadeOf S (.obj fields)

/-- A number with as many digits as can be read. -/
def IsShort (i : Int) : Prop :=
  (Text.decimal i.natAbs).length ≤ Integer.digitLimit

instance (i : Int) : Decidable (IsShort i) :=
  inferInstanceAs (Decidable (_ ≤ _))

/-- Null, truth values, whole numbers and texts. -/
inductive IsWhole : Value → Prop
  | null : IsWhole .null
  | bool (b : Bool) : IsWhole (.bool b)
  | int {i : Int} : IsShort i → IsWhole (.int i)
  | str (s : String) : IsWhole (.str s)

/-- The scalars of JSON. -/
inductive IsScalar : Value → Prop
  | whole {v : Value} : IsWhole v → IsScalar v
  | real {x : Binary64} : x.IsRounded → IsScalar (.real x)

/-- The values that a text of JSON can give. -/
abbrev IsJson (v : Value) : Prop :=
  MadeOf IsScalar v

/-- JSON values in which all numbers are whole. -/
abbrev IsStored (v : Value) : Prop :=
  MadeOf IsWhole v

namespace MadeOf

variable {S : Value → Prop}

/-- A field is made of the same scalars, if null is one for those that are absent. -/
theorem fieldOf (hnull : S .null) {fields : List (String × Value)}
    (h : ∀ f ∈ fields, MadeOf S f.2) (key : String) : MadeOf S (Value.fieldOf key fields) := by
  induction fields with
  | nil => exact .scalar hnull
  | cons f rest ih =>
    obtain ⟨name, value⟩ := f
    obtain ⟨hvalue, hrest⟩ := List.forall_mem_cons.1 h
    rw [Value.fieldOf, List.lookup_cons]
    by_cases hkey : key = name
    · rw [hkey, beq_self_eq_true]
      exact hvalue
    · rw [beq_false_of_ne hkey]
      exact ih hrest

theorem field (hnull : S .null) {v : Value} (h : MadeOf S v) (hobj : ∀ fields, ¬ S (.obj fields))
    (key : String) : MadeOf S (v.field key) := by
  cases v with
  | obj fields =>
    cases h with
    | scalar h => exact absurd h (hobj fields)
    | obj _ hfields => exact fieldOf hnull hfields key
  | _ => exact .scalar hnull

theorem mono {T : Value → Prop} (hscalar : ∀ {v}, S v → T v) {v : Value} (h : MadeOf S v) :
    MadeOf T v := by
  induction h with
  | scalar h => exact .scalar (hscalar h)
  | arr _ ih => exact .arr ih
  | obj hnodup _ ih => exact .obj hnodup ih

end MadeOf

theorem IsStored.isJson {v : Value} (h : v.IsStored) : v.IsJson :=
  h.mono .whole

theorem IsJson.of_arr {items : List Value} (h : (Value.arr items).IsJson) :
    ∀ v ∈ items, v.IsJson := by
  cases h with
  | scalar h =>
    cases h with
    | whole h => cases h
  | arr h => exact h

theorem IsJson.of_obj {fields : List (String × Value)} (h : (Value.obj fields).IsJson) :
    (fields.map Prod.fst).Nodup ∧ ∀ f ∈ fields, f.2.IsJson := by
  cases h with
  | scalar h =>
    cases h with
    | whole h => cases h
  | obj hnodup h => exact ⟨hnodup, h⟩

theorem IsJson.field {v : Value} (h : v.IsJson) (key : String) : (v.field key).IsJson :=
  MadeOf.field (.whole .null) h (fun _ h => nomatch h) key

theorem IsJson.orElse {v w : Value} (hv : v.IsJson) (hw : w.IsJson) : (v.orElse w).IsJson := by
  rw [Value.orElse]
  split
  · exact hv
  · exact hw

theorem isJson_int {i : Int} : (Value.int i).IsJson ↔ IsShort i := by
  constructor
  · intro h
    cases h with
    | scalar h =>
      cases h with
      | whole h =>
        cases h with
        | int h => exact h
  · exact fun h => .scalar (.whole (.int h))

theorem isJson_real {x : Binary64} : (Value.real x).IsJson ↔ x.IsRounded := by
  constructor
  · intro h
    cases h with
    | scalar h =>
      cases h with
      | whole h => cases h
      | real h => exact h
  · exact fun h => .scalar (.real h)

theorem not_isJson_node {shape : Shape} {fields : List Value} :
    ¬ (Value.node shape fields).IsJson := by
  intro h
  cases h with
  | scalar h =>
    cases h with
    | whole h => cases h

end QueryPipeline.Value
