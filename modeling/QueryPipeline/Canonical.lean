import QueryPipeline.Number.Integer
import QueryPipeline.Tree.Parts

/-!
# Canonical maps

The canonical form of a syntax tree is a value that can be stored as JSON and read again, and the
only form that pipelines are built from.

- A part that is absent is left out, except in literals.
- The wildcard is always the map of type `all`.
- A number is cut to a whole number; when it had a decimal point, its text is kept as `raw`.
- A token, and a node without a meaning of its own, is a map of type `unknown`.
- Objects are canonical already and stay as they are.

Fields that hold names and flags are kept as they are.  In the tree of a statement these are texts
and truth values, so that its canonical form is JSON.
-/

namespace QueryPipeline

/-- Why a tree has no canonical form.  Trees of statements fail only by the length of a number. -/
inductive CanonicalError where
  | integer (error : IntegerError)
  | noAttribute (typeName missing : String)
  | notIterable (typeName : String)
deriving DecidableEq, Repr

def CanonicalError.message : CanonicalError → String
  | .integer e => e.message
  | .noAttribute typeName missing =>
    "'" ++ typeName ++ "' object has no attribute '" ++ missing ++ "'"
  | .notIterable typeName => "'" ++ typeName ++ "' object is not iterable"

namespace Canonical

def tagged (type : String) (fields : List (String × Value)) : Value :=
  .obj (("type", .str type) :: fields)

/-- A map without the parts that are absent. -/
def withoutAbsent (fields : List (String × Value)) : Value :=
  .obj (Value.compact fields)

def wildcard : Value :=
  tagged "all" []

def unknown (kind value : String) : Value :=
  tagged "unknown" [("original_kind", .str kind), ("value", .str value)]

/-- The whole part of the text of a number, and the text itself if it has a decimal point. -/
def number (text : String) : Except CanonicalError Value :=
  let cs := text.toList
  match Integer.read (String.ofList (cs.takeWhile (· != '.'))) with
  | .error e => .error (.integer e)
  | .ok n =>
    .ok (tagged "number"
      (("value", .int n) :: if cs.contains '.' then [("raw", .str text)] else []))

def literal (value kind : Value) : Except CanonicalError Value :=
  if kind = .str "NUMBER" then
    match value with
    | .str text => number text
    | v => .error (.noAttribute v.typeName "split")
  else if kind = .str "STRING" then .ok (tagged "string" [("value", value)])
  else .ok (tagged "null" [("value", .null)])

def column (name table aliasName : Value) : Value :=
  withoutAbsent
    ((if name = .str "*" then [("type", .str "all")]
      else [("type", .str "column"), ("name", name)]) ++ [("table", table), ("alias", aliasName)])

/-! ## Fields -/

/-- What becomes of a field of a node: it is a part of the tree, or a part that is an empty list
when it is not given, or is kept, or is a list of names, or is a column of which only the name is
used. -/
inductive Role where
  | part | partOrEmpty | kept | names | columnName
deriving DecidableEq, Repr

def roles : Shape → List Role
  | .select =>
    [.part, .part, .part, .part, .part, .part, .partOrEmpty, .kept, .kept, .kept]
  | .insert => [.part, .names, .part]
  | .update => [.part, .part, .part]
  | .delete => [.part, .part]
  | .column => [.kept, .kept, .kept]
  | .literal => [.kept, .kept]
  | .binary => [.part, .kept, .part]
  | .unary => [.kept, .part]
  | .call => [.kept, .part, .kept, .kept]
  | .membership => [.part, .part, .kept]
  | .caseOf => [.part, .part, .part]
  | .whenThen => [.part, .part]
  | .table => [.kept, .kept, .kept]
  | .join => [.kept, .part, .part]
  | .ordering => [.part, .kept]
  | .grouping => [.part]
  | .assignment => [.columnName, .part]
  | .bare => []
  | .bareExpression => []
  | .bareStatement => []

/-- The list of the items of a value. -/
def namesIn (v : Value) : Except CanonicalError Value :=
  match v.items? with
  | some items => .ok (.arr items)
  | none => .error (.notIterable v.typeName)

/-- The name of a column that is assigned to. -/
def nameOf (column : Value) : Except CanonicalError Value :=
  match Tree.fieldNamed? "name" column with
  | some name => .ok name
  | none => .error (.noAttribute column.typeName "name")

/-! ## Nodes -/

/-- The canonical map of a node from its fields, each of them put into canonical form by its
role. -/
def node (shape : Shape) (fields : List Value) : Except CanonicalError Value :=
  let field (i : Nat) : Value := Tree.fieldAt fields i
  match shape with
  | .select =>
    .ok (withoutAbsent
      ([("type", .str "select"), ("columns", field 0), ("from", field 1), ("where", field 2),
        ("joins", field 3), ("group_by", field 4), ("having", field 5),
        ("order_by", field 6), ("limit", field 7), ("offset", field 8)] ++
        if (field 9).truthy then [("distinct", .bool true)] else []))
  | .insert =>
    .ok (tagged "insert" [("table", field 0), ("columns", field 1), ("values", field 2)])
  | .update =>
    .ok (withoutAbsent
      [("type", .str "update"), ("table", field 0), ("assignments", field 1),
       ("where", field 2)])
  | .delete =>
    .ok (withoutAbsent [("type", .str "delete"), ("table", field 0), ("where", field 1)])
  | .column => .ok (column (field 0) (field 1) (field 2))
  | .literal => literal (field 0) (field 1)
  | .binary =>
    .ok (tagged "binary_op" [("operator", field 1), ("left", field 0), ("right", field 2)])
  | .unary => .ok (tagged "unary_op" [("operator", field 0), ("operand", field 1)])
  | .call =>
    .ok (tagged "function"
      ([("name", field 0), ("arguments", field 1), ("distinct", field 2)] ++
        if (field 3).truthy then [("alias", field 3)] else []))
  | .membership =>
    .ok (tagged "in_expression"
      [("expression", field 0), ("values", field 1), ("negated", field 2)])
  | .caseOf =>
    .ok (withoutAbsent
      [("type", .str "case"), ("operand", field 0), ("whens", field 1), ("else", field 2)])
  | .whenThen => .ok (tagged "when" [("condition", field 0), ("result", field 1)])
  | .table => .ok (withoutAbsent [("schema", field 1), ("table", field 0), ("alias", field 2)])
  | .join =>
    .ok (withoutAbsent
      [("type", .str "join"), ("kind", .str (Text.lower (field 0).plain)), ("table", field 1),
       ("condition", field 2)])
  | .ordering => .ok (tagged "order_by" [("expression", field 0), ("direction", field 1)])
  | .grouping => .ok (tagged "group_by" [("expressions", field 0)])
  | .assignment => .ok (tagged "assignment" [("column", field 0), ("value", field 1)])
  | shape => .ok (unknown shape.name (Value.node shape fields).inspect)

end Canonical

namespace Value

mutual

/-- The canonical form of a value. -/
def canonical : Value → Except CanonicalError Value
  | .str s => .ok (if s = "*" then Canonical.wildcard else .str s)
  | .arr items => do
    let forms ← canonicalItems items
    return .arr forms
  | .tuple items => do
    let forms ← canonicalItems items
    return .arr forms
  | .token t => .ok (Canonical.unknown t.form.name t.inspect)
  | .node shape fields => do
    let forms ← canonicalFields (Canonical.roles shape) fields
    Canonical.node shape forms
  | v => .ok v

def canonicalItems : List Value → Except CanonicalError (List Value)
  | [] => .ok []
  | v :: rest => do
    let form ← canonical v
    let forms ← canonicalItems rest
    return form :: forms

/-- The fields of a node, each put into canonical form by its role, from left to right. -/
def canonicalFields : List Canonical.Role → List Value → Except CanonicalError (List Value)
  | role :: roles, v :: rest => do
    let form ←
      match role with
      | .part => canonical v
      | .partOrEmpty => if v.truthy then canonical v else pure (.arr [])
      | .kept => pure v
      | .names => Canonical.namesIn v
      | .columnName => Canonical.nameOf v
    let forms ← canonicalFields roles rest
    return form :: forms
  | _, _ => .ok []

end

end Value
end QueryPipeline
