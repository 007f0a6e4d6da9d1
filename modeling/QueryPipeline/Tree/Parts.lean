import QueryPipeline.Value.Display

/-!
# Parts of syntax trees

The fields of a node by their names, the nodes that a node owns, and the full names of columns and
tables.
-/

namespace QueryPipeline.Tree

/-- A field of a node by its place. -/
def fieldAt (fields : List Value) (i : Nat) : Value :=
  fields.getD i .null

/-- A field of a node by its name. -/
def fieldNamed? (key : String) : Value → Option Value
  | .node shape fields => (shape.fields.zip fields).lookup key
  | _ => none

/-- The nodes among some values, and in the tuples among them. -/
def nodesIn (items : List Value) : List Value :=
  items.flatMap fun
    | .node shape fields => [.node shape fields]
    | .tuple inner => inner.filter Value.isNode
    | _ => []

/-- The nodes that a node owns, in the order of its fields: in the fields, in tuples in them, and in
tuples in those. -/
def children : Value → List Value
  | .node _ fields =>
    fields.flatMap fun
      | .tuple items => nodesIn items
      | field => nodesIn [field]
  | _ => []

/-- The name of a column or table with what qualifies it in front. -/
def fullName? : Value → Option Value
  | .node shape [name, qualifier, _] =>
    if shape = .column ∨ shape = .table then
      some (if qualifier.truthy then .str (qualifier.plain ++ "." ++ name.plain) else name)
    else none
  | _ => none

/-- Whether a column is the wildcard. -/
def isWildcard? : Value → Option Bool
  | .node .column (.str s :: _) => some (s == "*")
  | .node .column _ => some false
  | _ => none

end QueryPipeline.Tree
