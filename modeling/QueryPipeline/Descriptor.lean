import QueryPipeline.Condition
import QueryPipeline.Source

/-!
# Pipeline descriptors

A descriptor says all about a pipeline: where it reads and writes, which columns it moves, which
rows it takes, and by which columns it keeps track.  It is built from the canonical map of a query
and from a configuration, in this order: the query and the configuration are checked, then the
source, the sink, the columns, the conditions and the timestamp are derived.
-/

namespace QueryPipeline

/-- Where a pipeline writes. -/
structure Sink where
  type : String
  table : Value
  url : Value
  category : Category

def Sink.toJson (s : Sink) : Value :=
  .obj
    [("type", .str s.type), ("table", s.table), ("default_url", s.url),
     ("category", .str s.category.name)]

structure Descriptor where
  source : Source
  sink : Sink
  columns : List String
  conditions : List Condition
  timestampColumn : Value
  idColumn : Value
  config : List (String × Value)

namespace Descriptor

def toJson (d : Descriptor) : Value :=
  .obj
    [("source", d.source.toJson), ("sink", d.sink.toJson), ("columns", .arr (d.columns.map .str)),
     ("conditions", .arr (Condition.toJsons d.conditions)),
     ("timestamp_column", d.timestampColumn), ("id_column", d.idColumn), ("config", .obj d.config)]

/-! ## Query and configuration -/

/-- The canonical map of a query: a statement, or a list of just one. -/
def mapOf (query : Value) : Except PipelineError (List (String × Value)) := do
  let single ←
    match query with
    | .arr [t] => pure t
    | .arr items => throw (.problem (.statementCount items.length))
    | t => pure t
  match single with
  | .node shape fields =>
    match (Value.node shape fields).canonical with
    | .ok (.obj map) => return map
    | .ok v => throw (.problem (.notAStatement v.typeName))
    | .error e => throw (.canonical e)
  | .obj map => return map
  | t => throw (.problem (.notAStatement t.typeName))

def defaultConfig : List (String × Value) :=
  [("project_name", .str "generated-pipeline"), ("namespace", .str "pipeline"),
   ("batch_size", .int 5000), ("watermark_enabled", .bool true), ("incremental", .bool true)]

/-- A batch size is a positive whole number, or not given. -/
def isBatchSize : Value → Bool
  | .null => true
  | .int i => decide (0 < i)
  | _ => false

/-- The configuration with the defaults for what it does not have. -/
def configOf (config : Value) : Except Problem (List (String × Value)) :=
  let checked (given : List (String × Value)) : Except Problem (List (String × Value)) :=
    let sink := Value.fieldOf "sink" given
    let batchSize := Value.fieldOf "batch_size" given
    if sink ≠ .null ∧ !sink.isObj then .error .sinkNotAMap
    else if !isBatchSize batchSize then .error (.batchSize batchSize)
    else .ok (Value.override defaultConfig given)
  match config with
  | .null => checked []
  | .obj given => checked given
  | _ => .error .configNotAMap

/-! ## Source and sink -/

/-- The table that a query reads, with its schema. -/
def tableOf (query : List (String × Value)) : Except Problem (Value × Value) :=
  let table := Value.fieldOf "from" query
  let name := table.field "table"
  if !name.truthy then .error (.noSource ((query.lookup "type").getD (.str "query")))
  else
    match name with
    | .str _ => .ok (name, table.field "schema")
    | _ => .error (.tableName name)

def defaultSourceType : String := "cassandra"

def defaultSinkType : String := "druid"

def sourceType (config : List (String × Value)) : Value :=
  (Value.fieldOf "source_type" config).orElse (.str defaultSourceType)

/-- The sink; it writes to the table of the source unless another one is given. -/
def sinkOf (config : List (String × Value)) (table : Value) : Sink :=
  let sink := Value.fieldOf "sink" config
  let type := SourceType.normalize ((sink.field "type").orElse (.str defaultSinkType))
  { type
    table := (sink.field "table").orElse table
    url := (sink.field "default_url").orElse (.str (SourceType.url type))
    category := SourceType.category type }

/-! ## Columns -/

/-- The name that an item of a select list moves.  Computed items have none. -/
def columnName (item : Value) : Except Problem String :=
  if item = .str "*" then .ok "*"
  else
    match item.field "type" with
    | .str "all" => .ok "*"
    | .str "column" => Condition.requiredName .columns item
    | .str "function" =>
      let aliasName := item.field "alias"
      if aliasName.truthy then
        match aliasName with
        | .str name => .ok name
        | _ => .error (.columnAlias aliasName)
      else Condition.requiredName .columns item
    | type => .error (.computedColumn type)

/-- The names of items in order, each once, and none of those that pipelines keep for themselves. -/
def namesFrom (seen : List String) : List Value → Except Problem (List String)
  | [] => .ok seen
  | item :: rest => do
    let name ← columnName item
    if Source.reservedColumns.contains name || seen.contains name then namesFrom seen rest
    else namesFrom (seen ++ [name]) rest

/-- The columns that a query moves; all of them when none is left. -/
def columnsOf (query : List (String × Value)) : Except Problem (List String) := do
  let columns := Value.fieldOf "columns" query
  let items ←
    match columns with
    | .arr items => pure items
    | v => if v.truthy then throw (.columnsNotAList v) else pure []
  let names ← namesFrom [] items
  return if names.isEmpty then ["*"] else names

/-! ## The whole -/

/-- Work that takes notes and may fail. -/
abbrev Builder := EStateM PipelineError (List Note)

def take (notes : List Note) : Builder Unit :=
  modify (· ++ notes)

def attempt {α : Type} : Except PipelineError α → Builder α
  | .ok a => pure a
  | .error e => throw e

def attemptPart {α : Type} (r : Except Problem α) : Builder α :=
  attempt (Condition.problem r)

def defaultTimestampColumn : String := "created_at"

def defaultIdColumn : String := "id"

/-- The timestamp column: the one of the configuration, or else one that is found in the filter, or
else the usual one. -/
def timestampOf (config : List (String × Value)) (filter : Filter) : Builder Value := do
  let configured := Value.fieldOf "timestamp_column" config
  if configured.truthy then
    take [.timestampConfigured configured]
    return configured
  else
    match ← attempt (Condition.timestampColumn Condition.timestampWords filter) with
    | some name =>
      take [.timestampDetected name]
      return .str name
    | none =>
      take [.timestampAssumed defaultTimestampColumn]
      return .str defaultTimestampColumn

/-- The descriptor of a canonical map and a checked configuration. -/
def derive (query config : List (String × Value)) : Builder Descriptor := do
  let (table, schema) ← attemptPart (tableOf query)
  let source := Source.classify (sourceType config) table schema
  take (Source.classifyNotes (sourceType config))
  let sink := sinkOf config source.table
  take (SourceType.notes sink.type)
  let columns ← attemptPart (columnsOf query)
  let filter := Filter.ofJson (Value.fieldOf "where" query)
  let conditions ← attempt (Condition.ofFilter filter)
  let timestampColumn ← timestampOf config filter
  let idColumn := (Value.fieldOf "id_column" config).orElse (.str defaultIdColumn)
  take
    [.pipelineBuilt (Value.fieldOf "project_name" config) source.type source.table sink.type
      sink.table]
  return { source, sink, columns, conditions, timestampColumn, idColumn, config }

/-- The descriptor of a query, given as a tree or as a canonical map, and a configuration. -/
def build (query : Value) (config : Value) : Builder Descriptor := do
  let map ← attempt (mapOf query)
  let config ← attemptPart (configOf config)
  derive map config

end Descriptor
end QueryPipeline
