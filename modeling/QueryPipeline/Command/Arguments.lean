import QueryPipeline.Text.Quoted
import QueryPipeline.Value.Display

/-!
# Command line arguments

Arguments are options, with or without a value, and positional arguments, in any order.  A command
declares its options; a value follows its option as the next argument or behind an equals sign.  The
first positional argument is the query, and everything else that no declaration covers is collected
and reported at the end.

Options have to be spelled out: a part of a name is not completed, a short name is not joined with its
value or with another one, and no help is given.
-/

namespace QueryPipeline.Command

/-- An option: its names, and whether it takes a value. -/
structure Declaration where
  names : List String
  takesValue : Bool

/-- The name by which messages call an option. -/
def Declaration.title (d : Declaration) : String :=
  joinWith "/" d.names

/-- What is wrong with the arguments. -/
inductive UsageError where
  | missingValue (declaration : Declaration)
  | ignoredValue (declaration : Declaration) (value : String)
  | missingQuery
  | unrecognized (arguments : List String)

def UsageError.message : UsageError → String
  | .missingValue d => "argument " ++ d.title ++ ": expected one argument"
  | .ignoredValue d value =>
    "argument " ++ d.title ++ ": ignored explicit argument " ++ Text.quoted value
  | .missingQuery => "the following arguments are required: query"
  | .unrecognized arguments => "unrecognized arguments: " ++ joinWith " " arguments

/-- What the arguments give: options by their first name, the query, and what is left over. -/
structure Arguments where
  flags : List String
  values : List (String × String)
  query : Option String
  extras : List String

def Arguments.empty : Arguments := ⟨[], [], none, []⟩

def Arguments.has (a : Arguments) (name : String) : Bool :=
  a.flags.contains name

/-- The value of an option; an empty one counts as not given. -/
def Arguments.value? (a : Arguments) (name : String) : Option String :=
  (a.values.lookup name).filter (· != "")

/-- How an argument reads. -/
inductive Reading where
  | positional
  | option (declaration : Declaration) (value : Option String)
  | unknown

def find? (declarations : List Declaration) (name : String) : Option Declaration :=
  declarations.find? (·.names.contains name)

/-- A minus sign with digits, and possibly a decimal point before the last of them. -/
def isNegativeNumber : List Char → Bool
  | '-' :: cs =>
    let fraction := cs.dropWhile Char.isDigit
    match fraction with
    | [] => !cs.isEmpty
    | '.' :: digits => !digits.isEmpty && digits.all Char.isDigit
    | _ => false
  | _ => false

/-- An argument is an option if it has the name of one, possibly with a value behind an equals sign.
Other arguments with a minus sign in front are unknown options, unless they are numbers or have
blanks in them. -/
def classify (declarations : List Declaration) (argument : String) : Reading :=
  let cs := argument.toList
  if cs.head? ≠ some '-' then .positional
  else
    match find? declarations argument with
    | some d => .option d none
    | none =>
      let name := String.ofList (cs.takeWhile (· != '='))
      match cs.dropWhile (· != '='), find? declarations name with
      | _ :: value, some d => .option d (some (String.ofList value))
      | _, _ =>
        if cs.length = 1 ∨ isNegativeNumber cs ∨ cs.contains ' ' then .positional else .unknown

/-- The key of an option among the results. -/
def Declaration.key (d : Declaration) : String :=
  d.names.getLastD ""

def Arguments.addPositional (a : Arguments) (s : String) : Arguments :=
  match a.query with
  | none => { a with query := some s }
  | some _ => { a with extras := a.extras ++ [s] }

/-- Go through arguments from left to right.  `waiting` is an option whose value comes next. -/
def collect (declarations : List Declaration) (a : Arguments) :
    Option Declaration → List String → Except UsageError Arguments
  | none, [] => .ok a
  | some d, [] => .error (.missingValue d)
  | some d, s :: rest =>
    match classify declarations s with
    | .positional =>
      collect declarations { a with values := (d.key, s) :: a.values } none rest
    | _ => .error (.missingValue d)
  | none, s :: rest =>
    if s = "--" then .ok (rest.foldl Arguments.addPositional a)
    else
      match classify declarations s with
      | .positional => collect declarations (a.addPositional s) none rest
      | .unknown => collect declarations { a with extras := a.extras ++ [s] } none rest
      | .option d none =>
        if d.takesValue then collect declarations a (some d) rest
        else collect declarations { a with flags := d.key :: a.flags } none rest
      | .option d (some value) =>
        if d.takesValue then
          collect declarations { a with values := (d.key, value) :: a.values } none rest
        else .error (.ignoredValue d value)

/-- The arguments of a command.  A query that is required has to be there, and nothing may be left
over. -/
def parseArguments (declarations : List Declaration) (queryRequired : Bool)
    (argv : List String) : Except UsageError Arguments := do
  let a ← collect declarations .empty none argv
  if queryRequired && a.query.isNone then throw .missingQuery
  if !a.extras.isEmpty then throw (.unrecognized a.extras)
  return a

end QueryPipeline.Command
