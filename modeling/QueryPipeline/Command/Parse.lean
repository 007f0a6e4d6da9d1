import QueryPipeline.Command.Ending
import QueryPipeline.Json.Writer
import QueryPipeline.Tree.OfStatement

/-!
# The parse command

Prints the canonical form of a query as JSON, on one line or indented.
-/

namespace QueryPipeline.Command.Parse

def declarations : List Declaration :=
  [⟨["--pretty"], false⟩]

def run (argv : List String) : Ending :=
  match parseArguments declarations true argv with
  | .error e => .refused e.message
  | .ok arguments =>
    match (Script.parse (arguments.query.getD "")).1 with
    | .error e =>
      match unreported? e with
      | some error => .crashed (.parse error)
      | none => .done 1 (invalidQuery e) []
    | .ok statements =>
      match (Script.toTree statements).canonical with
      | .error e => .crashed (.canonical e)
      | .ok v =>
        let style := if arguments.has "--pretty" then Json.indented else Json.singleLine
        .done 0 (Json.write style v ++ "\n") []

end QueryPipeline.Command.Parse
