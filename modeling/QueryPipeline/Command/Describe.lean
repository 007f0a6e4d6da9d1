import QueryPipeline.Command.Ending
import QueryPipeline.Json.Reader
import QueryPipeline.Summary
import QueryPipeline.Tree.OfStatement

/-!
# The describe command

Describes the pipelines of queries, as summaries or as JSON.  The query is given as SQL, as a file
with its canonical form, or as a file with a batch of pipelines; a configuration comes from a file
and from options.  A batch is described as a whole or not at all: the first entry that fails is
reported, and nothing else is printed.
-/

namespace QueryPipeline.Command.Describe

def declarations : List Declaration :=
  [⟨["--ast"], true⟩, ⟨["--config"], true⟩, ⟨["--batch"], true⟩, ⟨["--source-type"], true⟩,
   ⟨["--sink-type"], true⟩, ⟨["-n", "--name"], true⟩, ⟨["--json"], false⟩,
   ⟨["-v", "--verbose"], false⟩]

/-- What stops a command before it has descriptors. -/
inductive Stop where
  | refused (message : String)
  | invalid (report : String)
  | crashed (error : Crash)
  | unheld (what : Json.Unheld)

/-- Work that takes notes and may stop. -/
abbrev Work := EStateM Stop (List Note)

/-- The files that can be read, by name. -/
abbrev Files := String → Option String

/-- A text in which every line end is a line feed. -/
def unifyLineEnds : List Char → List Char
  | [] => []
  | '\r' :: '\n' :: cs => '\n' :: unifyLineEnds cs
  | c :: cs => (if c = '\r' then '\n' else c) :: unifyLineEnds cs

/-- Read a JSON file. -/
def load (files : Files) (name : String) : Work Value :=
  let unable (reason : String) : Work Value :=
    throw (.refused ("unable to load " ++ name ++ ": " ++ reason))
  match files name with
  | none => unable ("[Errno 2] No such file or directory: " ++ Text.quoted name)
  | some contents =>
    let text := String.ofList (unifyLineEnds contents.toList)
    match Json.read text with
    | .ok v => pure v
    | .error (.malformed problem left) => unable (problem.message left text)
    | .error (.unheld what) => throw (.unheld what)

/-- The configuration of a file, none being empty. -/
def loadConfig (files : Files) (arguments : Arguments) : Work (List (String × Value)) := do
  match arguments.value? "--config" with
  | none => return []
  | some name =>
    match ← load files name with
    | .obj fields => return fields
    | _ => throw (.refused (name ++ " must contain a JSON object"))

/-- The sink of a configuration with another type. -/
def overrideSink (type : String) (config : List (String × Value)) :
    Work (List (String × Value)) := do
  let sink := Value.fieldOf "sink" config
  let fields ←
    match sink with
    | .obj fields => pure fields
    | v => if v.truthy then throw (.crashed (.notAMap v.typeName)) else pure []
  return Value.put "sink" (.obj (Value.put "type" (.str type) fields)) config

/-- The configuration of the file with the options put over it. -/
def configOf (files : Files) (arguments : Arguments) : Work (List (String × Value)) := do
  let config ← loadConfig files arguments
  let config :=
    match arguments.value? "--source-type" with
    | some type => Value.put "source_type" (.str type) config
    | none => config
  let config ←
    match arguments.value? "--sink-type" with
    | some type => overrideSink type config
    | none => pure config
  match arguments.value? "--name" with
  | some name => return Value.put "project_name" (.str name) config
  | none => return config

/-- The fields of values that are all objects. -/
def objects? : List Value → Option (List (List (String × Value)))
  | [] => some []
  | .obj fields :: rest => (objects? rest).map (fields :: ·)
  | _ => none

/-- The pipelines to describe. -/
def entriesOf (files : Files) (arguments : Arguments) : Work (List (List (String × Value))) := do
  match arguments.value? "--batch" with
  | some name =>
    let batch ← load files name
    let entries :=
      match batch.field "pipelines" with
      | .arr items => objects? items
      | _ => none
    match entries with
    | some entries => return entries
    | none => throw (.refused (name ++ " must contain a list of pipelines"))
  | none =>
    match arguments.value? "--ast" with
    | some name =>
      let ast ← load files name
      return [[("ast", ast)]]
    | none =>
      match arguments.query.filter (· != "") with
      | some query => return [[("sql", .str query)]]
      | none => throw (.refused "a query, --ast or --batch is required")

/-- The query of an SQL text. -/
def queryOfText (text : String) : Work Value := do
  let (result, notes) := Script.parse text
  modify (· ++ notes)
  match result with
  | .ok statements => return Script.toTree statements
  | .error e =>
    match unreported? e with
    | some error => throw (.crashed (.parse error))
    | none => throw (.invalid (invalidQuery e))

/-- The query that an entry gives as SQL.  Only a text is one; any other value ends the command. -/
def queryOfSql (sql : Value) : Work Value :=
  match sql.orElse (.str "") with
  | .str text => queryOfText text
  | .arr items =>
    throw (.crashed (.noAttribute (items.getLastD .null).typeName "kind"))
  | .obj _ => throw (.crashed (.noAttribute (Value.str "").typeName "kind"))
  | v => throw (.crashed (.notIterable v.typeName))

/-- The query of an entry: its canonical form if there is one, or else its SQL. -/
def queryOf (entry : List (String × Value)) : Work Value :=
  match entry.lookup "ast" with
  | some ast => pure ast
  | none => queryOfSql (Value.fieldOf "sql" entry)

/-- The configuration of an entry: its own over its name over the common one. -/
def entryConfig (config entry own : List (String × Value)) : List (String × Value) :=
  let name := Value.fieldOf "name" entry
  let named := if name.truthy then Value.put "project_name" name config else config
  Value.override named own

/-- Build the pipeline of a query. -/
def buildFrom (query : Value) (config : List (String × Value)) : Work Descriptor := fun notes =>
  match Descriptor.build query (.obj config) notes with
  | .ok d notes => .ok d notes
  | .error (.problem p) notes => .error (.invalid (invalidPipeline p)) notes
  | .error e notes => .error (.crashed (.pipeline e)) notes

/-- The descriptor of an entry, which is the `index`-th of `total`. -/
def describeEntry (config : List (String × Value)) (index total : Nat)
    (entry : List (String × Value)) : Work Descriptor := do
  let own ←
    match Value.fieldOf "config" entry with
    | .obj fields => pure fields
    | v =>
      if v.truthy then
        throw (.refused
          ("the config of pipeline " ++ Text.natText index ++ " must be a JSON object"))
      else pure []
  modify (· ++ [.describing index total])
  let query ← queryOf entry
  buildFrom query (entryConfig config entry own)

/-- The descriptors of entries, the first of which is the `index`-th of `total`. -/
def describeAll (config : List (String × Value)) (total : Nat) :
    Nat → List (List (String × Value)) → Work (List Descriptor)
  | _, [] => pure []
  | index, entry :: rest => do
    let d ← describeEntry config index total entry
    let ds ← describeAll config total (index + 1) rest
    return d :: ds

/-- What is printed for descriptors: summaries, or JSON, in which a batch is a list. -/
def output (arguments : Arguments) (descriptors : List Descriptor) : String :=
  if arguments.has "--json" then
    let all := descriptors.map Descriptor.toJson
    let v := if (arguments.value? "--batch").isSome then .arr all else all.headD .null
    Json.write Json.indented v
  else joinWith "\n\n" (descriptors.map Descriptor.summary)

def work (files : Files) (arguments : Arguments) : Work String := do
  let config ← configOf files arguments
  let entries ← entriesOf files arguments
  let descriptors ← describeAll config entries.length 1 entries
  return output arguments descriptors ++ "\n"

/-- Notes are logged only if asked for. -/
def logOf (arguments : Arguments) (notes : List Note) : List String :=
  if arguments.has "--verbose" then notes.map Note.line else []

def run (files : Files) (argv : List String) : Ending :=
  match parseArguments declarations false argv with
  | .error e => .refused e.message
  | .ok arguments =>
    match work files arguments [] with
    | .ok text notes => .done 0 text (logOf arguments notes)
    | .error (.refused message) _ => .refused message
    | .error (.invalid report) notes => .done 1 report (logOf arguments notes)
    | .error (.crashed e) _ => .crashed e
    | .error (.unheld what) _ => .unheld what

/-- The files that the arguments name. -/
def fileNames (argv : List String) : List String :=
  match parseArguments declarations false argv with
  | .error _ => []
  | .ok arguments => ["--config", "--batch", "--ast"].filterMap arguments.value?

end QueryPipeline.Command.Describe
