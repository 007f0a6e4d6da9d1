import QueryPipeline.Value.Basic

/-!
# Values in messages

How a value is shown inside a message or a table: a text is quoted when it stands inside another
value (`inspect`) and bare when it stands alone (`plain`).
-/

namespace QueryPipeline

/-- Texts with a separator between them. -/
def joinWith (separator : String) : List String → String
  | [] => ""
  | [s] => s
  | s :: rest => s ++ separator ++ joinWith separator rest

namespace Value

/-- The fields of a node that are absent, false or an empty tuple are not shown. -/
def isShown : Value → Bool
  | .null => false
  | .bool false => false
  | .tuple [] => false
  | _ => true

/-- A tuple of a single item keeps a comma. -/
def tupleText : List String → String
  | [s] => "(" ++ s ++ ",)"
  | ss => "(" ++ joinWith ", " ss ++ ")"

mutual

/-- A value as a message shows it, with quotes around each text. -/
def inspect : Value → String
  | .null => "None"
  | .bool true => "True"
  | .bool false => "False"
  | .int i => Text.intText i
  | .real x => x.text
  | .str s => Text.quoted s
  | .arr items => "[" ++ joinWith ", " (inspectItems items) ++ "]"
  | .obj fields => "\x7b" ++ joinWith ", " (inspectFields fields) ++ "\x7d"
  | .tuple items => tupleText (inspectItems items)
  | .token t => t.inspect
  | .node shape fields =>
    shape.name ++ "(" ++ joinWith ", " (inspectParts shape.fields fields) ++ ")"

def inspectItems : List Value → List String
  | [] => []
  | v :: rest => inspect v :: inspectItems rest

def inspectFields : List (String × Value) → List String
  | [] => []
  | (k, v) :: rest => (Text.quoted k ++ ": " ++ inspect v) :: inspectFields rest

/-- The fields of a node with their names. -/
def inspectParts : List String → List Value → List String
  | name :: names, v :: rest =>
    if v.isShown then (name ++ "=" ++ inspect v) :: inspectParts names rest
    else inspectParts names rest
  | _, _ => []

end

/-- A value as a message shows it, a text being itself. -/
def plain : Value → String
  | .str s => s
  | v => v.inspect

end Value
end QueryPipeline
