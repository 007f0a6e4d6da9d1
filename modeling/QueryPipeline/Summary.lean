import QueryPipeline.Descriptor
import QueryPipeline.Table

/-!
# Summaries

A summary tells a reader what a pipeline does, with its conditions in a table.  A condition that
joins others is a single line of the table, in which they are written out.

Conditions are summarised from a loose form, `Line`, in which columns and operators may be any
values.  Conditions of a descriptor have that form, and so have conditions that were stored as JSON.
-/

namespace QueryPipeline

namespace Summary

/-- A condition as the summary shows it. -/
inductive Line where
  | comparison (column operator value : Value)
  | membership (column values : Value) (negated : Bool)
  | group (tag : String) (parts : List Line)
deriving Repr

/-- A row of the table of conditions. -/
structure Row where
  column : Value
  operator : Value
  value : Value
deriving DecidableEq, Repr

def Row.fields (r : Row) : List (String × Value) :=
  [("column", r.column), ("operator", r.operator), ("value", r.value)]

/-- The row of a condition that joins no others. -/
def leafRow (column operator value : Value) : Row :=
  ⟨column, operator, if value = .null then .str "NULL" else value⟩

def memberRow (column values : Value) (negated : Bool) : Row :=
  ⟨column, .str (if negated then "NOT IN" else "IN"), values⟩

/-- The value of a row inside a line of text. -/
def inlineValue : Value → String
  | .arr items => "(" ++ joinWith ", " (items.map Value.plain) ++ ")"
  | v => v.plain

def Row.text (r : Row) : String :=
  r.column.plain ++ " " ++ r.operator.plain ++ " " ++ inlineValue r.value

namespace Line

mutual

/-- A condition on a single line. -/
def text : Line → String
  | .comparison column operator value => (leafRow column operator value).text
  | .membership column values negated => (memberRow column values negated).text
  | .group tag parts =>
    "(" ++ joinWith (" " ++ Text.upper tag ++ " ") (texts parts) ++ ")"

def texts : List Line → List String
  | [] => []
  | l :: rest => text l :: texts rest

end

def row : Line → Row
  | .comparison column operator value => leafRow column operator value
  | .membership column values negated => memberRow column values negated
  | .group tag parts => ⟨.null, .str (Text.upper tag), .str (text (.group tag parts))⟩

/-! ## From stored conditions -/

/-- Why a stored value is no condition: a field is missing, or it is not an object at all, or what
it joins has no items. -/
inductive Malformed where
  | missing (key : String)
  | notAnObject (v : Value)
  | notIterable (typeName : String)
deriving DecidableEq, Repr

def Malformed.message : Malformed → String
  | .missing key => Text.quoted key
  | .notAnObject (.str _) => "string indices must be integers, not 'str'"
  | .notAnObject (.arr _) => "list indices must be integers or slices, not str"
  | .notAnObject v => "'" ++ v.typeName ++ "' object is not subscriptable"
  | .notIterable typeName => "'" ++ typeName ++ "' object is not iterable"

/-- The value of a field that has to be there. -/
def key (name : String) (fields : List (String × Value)) : Except Malformed Value :=
  match fields.lookup name with
  | some v => .ok v
  | none => .error (.missing name)

mutual

/-- The line of a stored condition. -/
def ofValue : Value → Except Malformed Line
  | .obj fields => do
    match ← key "type" fields with
    | .str "in_expression" =>
      let negated ← key "negated" fields
      let column ← key "column" fields
      let values ← key "values" fields
      return .membership column values negated.truthy
    | .str "or" => return .group "or" (← partsIn fields)
    | .str "and" => return .group "and" (← partsIn fields)
    | _ =>
      let column ← key "column" fields
      let operator ← key "operator" fields
      let value ← key "value" fields
      return .comparison column operator value
  | v => .error (.notAnObject v)

/-- The lines of the conditions that a stored condition joins. -/
def partsIn : List (String × Value) → Except Malformed (List Line)
  | [] => .error (.missing "conditions")
  | (k, v) :: rest => if k = "conditions" then partsOf v else partsIn rest

/-- The lines of the items of a value.  The items of a text or an object are texts, which are no
conditions. -/
def partsOf : Value → Except Malformed (List Line)
  | .arr items => ofItems items
  | .str s => if s = "" then .ok [] else .error (.notAnObject (.str s))
  | .obj [] => .ok []
  | .obj ((k, _) :: _) => .error (.notAnObject (.str k))
  | v => .error (.notIterable v.typeName)

def ofItems : List Value → Except Malformed (List Line)
  | [] => .ok []
  | v :: rest => do
    let l ← ofValue v
    let ls ← ofItems rest
    return l :: ls

end

end Line
end Summary

namespace Condition

mutual

/-- A condition of a descriptor as the summary shows it. -/
def toLine : Condition → Summary.Line
  | .comparison column operator value =>
    .comparison (.str column) (.str operator.symbol) value
  | .membership column values negated => .membership (.str column) (.arr values) negated
  | .junction connective parts => .group connective.tag (toLines parts)

def toLines : List Condition → List Summary.Line
  | [] => []
  | c :: rest => toLine c :: toLines rest

end

end Condition

namespace Summary

def conditionColumns : List String := ["column", "operator", "value"]

def conditionTable (conditions : List Condition) : String :=
  Table.ofRecords conditionColumns (conditions.map fun c => c.toLine.row.fields)
    Table.defaultMaxRows

/-- The table of a source with its schema in front. -/
def qualifiedTable (s : Source) : String :=
  if s.schema.truthy then s.schema.plain ++ "." ++ s.table.plain else s.table.plain

end Summary

/-- The summary of a pipeline. -/
def Descriptor.summary (d : Descriptor) : String :=
  let lines :=
    ["Pipeline: " ++ (Value.fieldOf "project_name" d.config).plain,
     "Source: " ++ d.source.type ++ " (" ++ d.source.category.name ++ ") " ++
       Summary.qualifiedTable d.source,
     "Sink: " ++ d.sink.type ++ " " ++ d.sink.table.plain ++ " at " ++ d.sink.url.plain,
     "Columns: " ++ joinWith ", " d.columns,
     "Watermark: " ++ d.source.watermark.strategy,
     "Timestamp column: " ++ d.timestampColumn.plain,
     "Id column: " ++ d.idColumn.plain]
  let conditions :=
    if d.conditions.isEmpty then ["Conditions: none"]
    else ["Conditions:", Summary.conditionTable d.conditions]
  joinWith "\n" (lines ++ conditions)

end QueryPipeline
