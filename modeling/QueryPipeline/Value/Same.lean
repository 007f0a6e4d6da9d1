import QueryPipeline.Value.Basic

/-!
# Equal values

Equality that looks at what values stand for: a whole number, a binary fraction and a truth value
can be equal as numbers, the order of the fields of an object does not count, and neither does the
place of a token.
-/

namespace QueryPipeline.Value

/-- The whole number that a truth value counts as. -/
def asInt? : Value → Option Int
  | .bool true => some 1
  | .bool false => some 0
  | .int i => some i
  | _ => none

/-- Equality of two values without parts. -/
def sameScalar (a b : Value) : Bool :=
  match a, b with
  | .null, .null => true
  | .str s, .str t => s == t
  | .token s, .token t => s.same t
  | .real x, .real y => x.same y
  | .real x, v => v.asInt?.elim false x.equalsInt
  | v, .real y => v.asInt?.elim false y.equalsInt
  | v, w =>
    match v.asInt?, w.asInt? with
    | some i, some j => i == j
    | _, _ => false

mutual

def same : Value → Value → Bool
  | .arr as, .arr bs => sameItems as bs
  | .tuple as, .tuple bs => sameItems as bs
  | .node s as, .node t bs => s == t && sameItems as bs
  | .obj as, .obj bs => as.length == bs.length && sameFields as bs
  | a, b => sameScalar a b

def sameItems : List Value → List Value → Bool
  | [], [] => true
  | a :: as, b :: bs => same a b && sameItems as bs
  | _, _ => false

/-- Each of some fields is there with an equal value. -/
def sameFields : List (String × Value) → List (String × Value) → Bool
  | [], _ => true
  | (k, a) :: as, bs =>
    (match bs.lookup k with
      | some b => same a b
      | none => false) && sameFields as bs

end

/-! ## Sets of values -/

mutual

/-- The type of the first part that cannot be a member of a set: lists and objects cannot. -/
def unhashable? : Value → Option String
  | .arr items => some (Value.arr items).typeName
  | .obj fields => some (Value.obj fields).typeName
  | .tuple items => firstUnhashable? items
  | .node _ fields => firstUnhashable? fields
  | _ => none

def firstUnhashable? : List Value → Option String
  | [] => none
  | v :: rest =>
    match unhashable? v with
    | some name => some name
    | none => firstUnhashable? rest

end

/-- How many different values there are among some. -/
def countDistinct (values : List Value) : Nat :=
  (values.foldl (fun seen v => if seen.any (·.same v) then seen else v :: seen) []).length

end QueryPipeline.Value
