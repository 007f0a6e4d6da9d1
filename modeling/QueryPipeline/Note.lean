import QueryPipeline.Value.Display
import QueryPipeline.Shape

/-!
# Notes

While a query is read and a pipeline is built, notes are taken of what was ignored, assumed or
found.  They are no errors, and are kept in order also when the work fails later.  Each note belongs
to a channel, by which a reader of the notes can tell where it was taken.
-/

namespace QueryPipeline

inductive Note where
  | aliasIgnored (aliasName : String) (shape : Shape)
  | unknownSource (type : String)
  | timestampConfigured (column : Value)
  | timestampDetected (column : String)
  | timestampAssumed (column : String)
  | pipelineBuilt (project : Value) (sourceType : String) (sourceTable : Value) (sinkType : String)
      (sinkTable : Value)
  | describing (index total : Nat)
deriving Repr

namespace Note

/-- The channel of a note. -/
def channel : Note → String
  | aliasIgnored .. => "sqlpipe.sql.parser"
  | unknownSource .. => "sqlpipe.codegen.sources"
  | describing .. => "sqlpipe.commands.describe"
  | _ => "sqlpipe.codegen.pipeline"

/-- All notes are of the lowest level. -/
def level : String := "DEBUG"

def text : Note → String
  | aliasIgnored aliasName shape =>
    "Alias " ++ Text.quoted aliasName ++ " ignored for " ++ shape.name
  | unknownSource type => "Unknown source type " ++ Text.quoted type ++ ", assuming a database"
  | timestampConfigured column => "Using configured timestamp column " ++ column.inspect
  | timestampDetected column => "Detected timestamp column " ++ Text.quoted column
  | timestampAssumed column => "No timestamp column detected, using " ++ Text.quoted column
  | pipelineBuilt project sourceType sourceTable sinkType sinkTable =>
    "Pipeline " ++ project.plain ++ ": " ++ sourceType ++ "." ++ sourceTable.plain ++ " -> " ++
      sinkType ++ "." ++ sinkTable.plain
  | describing index total =>
    "Describing pipeline " ++ Text.natText index ++ " of " ++ Text.natText total

/-- A note as a line of a log. -/
def line (n : Note) : String :=
  level ++ " " ++ n.channel ++ ": " ++ n.text

end Note
end QueryPipeline
