import QueryPipeline.Command.Arguments
import QueryPipeline.Json.Reader
import QueryPipeline.Problem
import QueryPipeline.Script

/-!
# How a command ends

A command prints a text and ends with an exit code, or refuses its arguments, or breaks off with an
error that it does not report itself.  It also ends at a file that says more than values hold; what
would come of such a file is left open.
-/

namespace QueryPipeline.Command

/-- Errors that a command does not report. -/
inductive Crash where
  | parse (error : ParseError)
  | pipeline (error : PipelineError)
  | canonical (error : CanonicalError)
  | notAMap (typeName : String)
  | notIterable (typeName : String)
  | noAttribute (typeName missing : String)

def Crash.message : Crash → String
  | .parse e => e.message
  | .pipeline e => e.message
  | .canonical e => e.message
  | .notAMap typeName => "'" ++ typeName ++ "' object is not a mapping"
  | .notIterable typeName => "'" ++ typeName ++ "' object is not iterable"
  | .noAttribute typeName missing =>
    "'" ++ typeName ++ "' object has no attribute '" ++ missing ++ "'"

/-- The end of a command.  Refused arguments have the exit code 2. -/
inductive Ending where
  | done (exit : Nat) (output : String) (log : List String)
  | refused (message : String)
  | crashed (error : Crash)
  | unheld (what : Json.Unheld)

/-- The error of a query, if it is not one that is reported as an invalid query: numbers that are
too long break a command off, and so do lists of tokens that do not end as they should. -/
def unreported? : SyntaxError → Option ParseError
  | .lex _ => none
  | .parse (.unexpected ..) => none
  | .parse (.statementStart _) => none
  | .parse .emptyQuery => none
  | .parse e => some e

/-- The line that reports an invalid query. -/
def invalidQuery (e : SyntaxError) : String :=
  "Invalid SQL, " ++ e.message ++ "\n"

def invalidPipeline (p : Problem) : String :=
  "Invalid pipeline, " ++ p.message ++ "\n"

end QueryPipeline.Command
