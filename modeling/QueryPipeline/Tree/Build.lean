import QueryPipeline.Value.Display

/-!
# Trees made by hand

A node is made from a shape and some of its fields.  Fields that are not given have a default; what
a literal or a join is has to be one of the known kinds, a selection has columns, and the rows of an
insertion, and the row each of them is, need items.
-/

namespace QueryPipeline.Tree

inductive BuildError where
  | literalKind (kind : String)
  | joinKind (kind : String)
  | noColumns
  | notIterable (typeName : String)
deriving DecidableEq, Repr

def BuildError.message : BuildError → String
  | .literalKind kind => "Unsupported literal kind: " ++ kind
  | .joinKind kind => "Unsupported join kind: " ++ kind
  | .noColumns => "A SELECT requires at least one column"
  | .notIterable typeName => "'" ++ typeName ++ "' object is not iterable"

def literalKinds : List String := ["NUMBER", "STRING", "NULL"]

def joinKinds : List String := ["INNER", "LEFT", "RIGHT", "OUTER"]

/-- The value of a field that is not given. -/
def default (shape : Shape) (field : String) : Value :=
  match shape, field with
  | .select, "joins" => .tuple []
  | .select, "distinct" => .bool false
  | .call, "arguments" => .tuple []
  | .call, "distinct" => .bool false
  | .membership, "negated" => .bool false
  | .ordering, "direction" => .str "ASC"
  | _, _ => .null

/-- A list in a field becomes a tuple. -/
def sealed : Value → Value
  | .arr items => .tuple items
  | v => v

/-- The items of a value. -/
def itemsOf (v : Value) : Except BuildError (List Value) :=
  match v.items? with
  | some items => .ok items
  | none => .error (.notIterable v.typeName)

/-- Each value as the tuple of its items. -/
def rowsOf : List Value → Except BuildError (List Value)
  | [] => .ok []
  | row :: rest => do
    let items ← itemsOf row
    let rows ← rowsOf rest
    return .tuple items :: rows

/-- The rows of an insertion, as a tuple of tuples. -/
def sealedRows (v : Value) : Except BuildError Value := do
  let rows ← rowsOf (← itemsOf v)
  return .tuple rows

/-- Whether a value is one of some texts. -/
def isOneOf (names : List String) : Value → Bool
  | .str s => names.contains s
  | _ => false

/-- The node of a shape with some fields given. -/
def make (shape : Shape) (given : List (String × Value)) : Except BuildError Value :=
  let value (field : String) : Value := (given.lookup field).getD (default shape field)
  let node : Value := .node shape (shape.fields.map fun f => sealed (value f))
  match shape with
  | .literal =>
    if isOneOf literalKinds (value "kind") then .ok node
    else .error (.literalKind (value "kind").plain)
  | .join =>
    if isOneOf joinKinds (value "kind") then .ok node
    else .error (.joinKind (value "kind").plain)
  | .select => if (value "columns").truthy then .ok node else .error .noColumns
  | .insert => do
    let rows ← sealedRows (value "values")
    return .node .insert [sealed (value "table"), sealed (value "columns"), rows]
  | _ => .ok node

end QueryPipeline.Tree
