import QueryPipeline.Note
import QueryPipeline.Text.Blank
import QueryPipeline.Text.Case

/-!
# Sources

A source has a type, by which it falls into one of three categories.  The category decides how a
pipeline connects to the source and how it keeps track of what it has moved:

- files are read by row number,
- databases and services with an API are read by a timestamp together with an id.

A type that is not known is taken for a database, and a note is taken of it.  Types are compared in
normal form, without white space around them and in lower case; each question about a type brings
it into that form first.
-/

namespace QueryPipeline

inductive Category where
  | file | database | api
deriving DecidableEq, Repr

def Category.name : Category → String
  | file => "file"
  | database => "database"
  | api => "api"

namespace SourceType

/-- What is known of a type: its category, and where such a source is usually found. -/
structure Known where
  type : String
  category : Category
  host : Option String
  port : Option Nat
  url : Option String

def known : List Known :=
  [⟨"csv", .file, none, none, none⟩,
   ⟨"cassandra", .database, some "127.0.0.1", some 9042, none⟩,
   ⟨"postgres", .database, some "localhost", some 5432, none⟩,
   ⟨"postgresql", .database, some "localhost", some 5432, none⟩,
   ⟨"mysql", .database, some "localhost", some 3306, none⟩,
   ⟨"mongodb", .database, some "localhost", some 27017, none⟩,
   ⟨"druid", .api, none, none, some "http://localhost:8888"⟩,
   ⟨"elasticsearch", .api, none, none, some "http://localhost:9200"⟩]

def find? (type : String) : Option Known :=
  known.find? (·.type == type)

/-- The normal form of the name of a type. -/
def normalForm (type : String) : String :=
  Text.lower (Text.trim type)

/-- The normal form of a type, which may be given by any value. -/
def normalize (type : Value) : String :=
  normalForm type.plain

def category (type : String) : Category :=
  (find? (normalForm type)).elim .database Known.category

/-- The note on a type that is not known. -/
def notes (type : String) : List Note :=
  if (find? (normalForm type)).isSome then [] else [.unknownSource (normalForm type)]

def host (type : String) : String :=
  ((find? (normalForm type)).bind Known.host).getD "localhost"

def port (type : String) : Nat :=
  ((find? (normalForm type)).bind Known.port).getD 8080

def url (type : String) : String :=
  ((find? (normalForm type)).bind Known.url).getD "http://localhost:8080"

end SourceType

/-- How to connect: the environment variables to read, and what holds without them. -/
structure Connection where
  environment : List (String × String)
  defaults : List (String × Value)
  category : Category

def Connection.toJson (c : Connection) : Value :=
  .obj
    [("env_vars", .obj (c.environment.map fun v => (v.1, .str v.2))), ("defaults", .obj c.defaults),
     ("template_kind", .str c.category.name)]

/-- The connection of a type; the table gives a file its default path. -/
def SourceType.connection (type : String) (table : Value) : Connection :=
  let type := normalForm type
  let variableName (suffix : String) : String := Text.upper type ++ "_" ++ suffix
  match category type with
  | .file =>
    { environment := [("file_path", variableName "FILE"), ("delimiter", variableName "DELIMITER")]
      defaults :=
        [("file_path", .str ("./data/" ++ table.plain ++ "." ++ type)), ("delimiter", .str ",")]
      category := .file }
  | .api =>
    { environment :=
        [("url", variableName "URL"), ("username", variableName "USER"),
         ("password", variableName "PASSWORD")]
      defaults := [("url", .str (url type))]
      category := .api }
  | .database =>
    { environment :=
        [("host", variableName "HOST"), ("port", variableName "PORT"),
         ("username", variableName "USER"), ("password", variableName "PASSWORD"),
         ("keyspace", variableName "KEYSPACE"), ("database", variableName "DB")]
      defaults :=
        [("host", .str (host type)), ("port", .int (port type)), ("keyspace", .null),
         ("database", .null)]
      category := .database }

/-- How progress is tracked: by row number, or by a timestamp with an id. -/
inductive Watermark where
  | rowNumber | composite
deriving DecidableEq, Repr

def Watermark.strategy : Watermark → String
  | rowNumber => "row_number"
  | composite => "composite"

def Watermark.isComposite : Watermark → Bool
  | rowNumber => false
  | composite => true

/-- Only files have no reliable timestamp. -/
def Category.watermark : Category → Watermark
  | .file => .rowNumber
  | _ => .composite

def Watermark.toJson (w : Watermark) : Value :=
  .obj
    [("strategy", .str w.strategy), ("uses_composite", .bool w.isComposite),
     ("timestamp_based", .bool w.isComposite)]

/-- A source with all that follows from its type. -/
structure Source where
  type : String
  table : Value
  schema : Value
  category : Category
  connection : Connection
  watermark : Watermark

namespace Source

/-- The columns that pipelines keep for themselves. -/
def reservedColumns : List String := ["__row_number"]

/-- The source of a type that reads a table of a schema. -/
def classify (type table schema : Value) : Source :=
  let type := SourceType.normalize type
  { type, table, schema
    category := SourceType.category type
    connection := SourceType.connection type table
    watermark := (SourceType.category type).watermark }

/-- The notes on a classification: the category is asked for by itself, for the connection and for
the watermark, and each time a type that is not known is noted. -/
def classifyNotes (type : Value) : List Note :=
  let notes := SourceType.notes (SourceType.normalize type)
  notes ++ notes ++ notes

def toJson (s : Source) : Value :=
  .obj
    [("type", .str s.type), ("table", s.table), ("schema", s.schema),
     ("category", .str s.category.name), ("connection", s.connection.toJson),
     ("watermark", s.watermark.toJson),
     ("reserved_columns", .arr (reservedColumns.map .str))]

end Source
end QueryPipeline
