import QueryPipeline.Number.Binary64
import QueryPipeline.Shape
import QueryPipeline.Token.Basic

/-!
# Values

Syntax trees, canonical maps, configurations and descriptors are values.  Most of them are JSON:
objects keep the order of their fields, and whole numbers are told apart from binary fractions,
because both show in what is printed.  A syntax tree is a node of a shape with a value in each
field.  A tree that is made by hand may hold any value anywhere, and so may the map that is made of
it.

A list that is put into a field of a node is sealed into a tuple; a list inside that list stays a
list.  A field that is absent and a field that is null are mostly treated alike, so `field` reads
both as null.
-/

namespace QueryPipeline

/-- A value.  The fields of an object are in order of insertion, those of a node in the order of its
shape. -/
inductive Value where
  | null
  | bool (b : Bool)
  | int (i : Int)
  | real (x : Binary64)
  | str (s : String)
  | arr (items : List Value)
  | obj (fields : List (String × Value))
  | tuple (items : List Value)
  | token (t : Token)
  | node (shape : Shape) (fields : List Value)
deriving Repr, Inhabited

namespace Value

/-! ## Equality -/

mutual

/-- Structural equality, by recursion on the first value. -/
def eqb : Value → Value → Bool
  | .null, .null => true
  | .bool a, .bool b => a == b
  | .int a, .int b => a == b
  | .real a, .real b => a == b
  | .str a, .str b => a == b
  | .arr as, .arr bs => eqbItems as bs
  | .obj as, .obj bs => eqbFields as bs
  | .tuple as, .tuple bs => eqbItems as bs
  | .token a, .token b => a == b
  | .node s as, .node t bs => s == t && eqbItems as bs
  | _, _ => false

def eqbItems : List Value → List Value → Bool
  | [], [] => true
  | a :: as, b :: bs => eqb a b && eqbItems as bs
  | _, _ => false

def eqbFields : List (String × Value) → List (String × Value) → Bool
  | [], [] => true
  | (k, a) :: as, (l, b) :: bs => k == l && eqb a b && eqbFields as bs
  | _, _ => false

end

mutual

theorem eqb_iff : ∀ a b : Value, eqb a b = true ↔ a = b
  | .null, b => by cases b <;> simp [eqb]
  | .bool _, b => by cases b <;> simp [eqb]
  | .int _, b => by cases b <;> simp [eqb]
  | .real _, b => by cases b <;> simp [eqb]
  | .str _, b => by cases b <;> simp [eqb]
  | .arr as, b => by cases b <;> simp [eqb, eqbItems_iff as]
  | .obj as, b => by cases b <;> simp [eqb, eqbFields_iff as]
  | .tuple as, b => by cases b <;> simp [eqb, eqbItems_iff as]
  | .token _, b => by cases b <;> simp [eqb]
  | .node _ as, b => by cases b <;> simp [eqb, eqbItems_iff as]

theorem eqbItems_iff : ∀ as bs : List Value, eqbItems as bs = true ↔ as = bs
  | [], bs => by cases bs <;> simp [eqbItems]
  | a :: as, bs => by
    cases bs with
    | nil => simp [eqbItems]
    | cons b bs => simp [eqbItems, eqb_iff a b, eqbItems_iff as bs]

theorem eqbFields_iff : ∀ as bs : List (String × Value), eqbFields as bs = true ↔ as = bs
  | [], bs => by cases bs <;> simp [eqbFields]
  | (k, a) :: as, bs => by
    cases bs with
    | nil => simp [eqbFields]
    | cons b bs =>
      obtain ⟨l, b⟩ := b
      simp [eqbFields, eqb_iff a b, eqbFields_iff as bs, and_assoc]

end

instance : DecidableEq Value := fun a b => decidable_of_iff _ (eqb_iff a b)

/-! ## Fields of objects -/

/-- The value of a field among fields, null when there is none. -/
def fieldOf (key : String) (fields : List (String × Value)) : Value :=
  (fields.lookup key).getD .null

/-- The value of a field of an object; null when there is none, or no object. -/
def field (key : String) : Value → Value
  | .obj fields => fieldOf key fields
  | _ => .null

/-- Set a field: a field that is there keeps its place, a new one comes last. -/
def put (key : String) (value : Value) : List (String × Value) → List (String × Value)
  | [] => [(key, value)]
  | (k, v) :: rest => if k = key then (key, value) :: rest else (k, v) :: put key value rest

/-- Fields overridden by others. -/
def override (base extra : List (String × Value)) : List (String × Value) :=
  extra.foldl (fun fields f => put f.1 f.2 fields) base

/-- Leave out the fields that are null. -/
def compact (fields : List (String × Value)) : List (String × Value) :=
  fields.filter fun f => f.2 != .null

/-! ## Kinds of value -/

/-- The values that count as given: not null, false, zero or empty. -/
def truthy : Value → Bool
  | .null => false
  | .bool b => b
  | .int i => i != 0
  | .real x => !x.isZero
  | .str s => s != ""
  | .arr items => !items.isEmpty
  | .obj fields => !fields.isEmpty
  | .tuple items => !items.isEmpty
  | .token _ => true
  | .node _ _ => true

/-- A value, or another one when it does not count as given. -/
def orElse (v default : Value) : Value :=
  if v.truthy then v else default

def isObj : Value → Bool
  | .obj _ => true
  | _ => false

def isNode : Value → Bool
  | .node _ _ => true
  | _ => false

/-- Whole numbers and binary fractions; truth values are no numbers. -/
def isNumber : Value → Bool
  | .int _ => true
  | .real _ => true
  | _ => false

/-- A text that may be absent. -/
def optional : Option String → Value
  | some s => .str s
  | none => .null

/-- The name of the type of a value, as messages give it. -/
def typeName : Value → String
  | .null => "NoneType"
  | .bool _ => "bool"
  | .int _ => "int"
  | .real _ => "float"
  | .str _ => "str"
  | .arr _ => "list"
  | .obj _ => "dict"
  | .tuple _ => "tuple"
  | .token t => t.form.name
  | .node shape _ => shape.name

/-- The items of a value that has some: those of a list or tuple, the characters of a text, the
names of the fields of an object. -/
def items? : Value → Option (List Value)
  | .arr items => some items
  | .tuple items => some items
  | .str s => some (s.toList.map fun c => .str c.toString)
  | .obj fields => some (fields.map fun f => .str f.1)
  | _ => none

end Value
end QueryPipeline
