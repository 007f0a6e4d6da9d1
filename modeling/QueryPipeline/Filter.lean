import QueryPipeline.Problem
import QueryPipeline.Text.Case

/-!
# Filters

The `WHERE` part of a canonical map, seen as a tree of `AND` and `OR` over leaves.  The connective
of a map is read from its operator in any letter case.  An operand that is null or not there is
`missing`; what else is not a connective is a leaf.
-/

namespace QueryPipeline

def Connective.ofName? (s : String) : Option Connective :=
  if s = "AND" then some .and else if s = "OR" then some .or else none

inductive Filter where
  | missing
  | junction (connective : Connective) (left right : Filter)
  | leaf (node : Value)
deriving Repr

namespace Filter

/-- The connective that the fields of a map stand for. -/
def connective? (fields : List (String × Value)) : Option Connective :=
  if Value.fieldOf "type" fields = .str "binary_op" then
    Connective.ofName? (Text.upper (Value.fieldOf "operator" fields).plain)
  else none

mutual

def ofJson : Value → Filter
  | .null => .missing
  | .obj fields =>
    match connective? fields with
    | some c => .junction c (ofField "left" fields) (ofField "right" fields)
    | none => .leaf (.obj fields)
  | v => .leaf v

/-- The filter in the first field of a name. -/
def ofField (key : String) : List (String × Value) → Filter
  | [] => .missing
  | (k, v) :: rest => if k = key then ofJson v else ofField key rest

end

/-- The leaves from left to right. -/
def leaves : Filter → List Value
  | .missing => []
  | .leaf node => [node]
  | .junction _ left right => left.leaves ++ right.leaves

def isMissing : Filter → Bool
  | .missing => true
  | _ => false

/-- No operand is missing in the chain of a connective that starts at the root. -/
def complete (c : Connective) : Filter → Bool
  | .junction d left right =>
    if d = c then
      !left.isMissing && !right.isMissing && left.complete c && right.complete c
    else true
  | _ => true

end Filter
end QueryPipeline
