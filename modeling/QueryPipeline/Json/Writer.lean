import QueryPipeline.Value.Display

/-!
# Writing JSON

The text of a value, on one line or indented.  A tuple is written like a list, and a token or node
as the text that messages show.  Inside a text, quotes, backslashes and control
characters are always escaped; with `ascii` everything outside the printable ASCII characters is
escaped too, characters above `U+FFFF` as two surrogates.
-/

namespace QueryPipeline.Json

def unitEscape (n : Nat) : List Char :=
  '\\' :: 'u' :: Text.hexadecimal 4 n

/-- The escape of a character by its one or two UTF-16 units. -/
def unicodeEscape (c : Char) : List Char :=
  if c.toNat < 0x10000 then unitEscape c.toNat
  else
    let n := c.toNat - 0x10000
    unitEscape (0xd800 + n / 0x400) ++ unitEscape (0xdc00 + n % 0x400)

def writeChar (ascii : Bool) (c : Char) : List Char :=
  if c = '"' then ['\\', '"']
  else if c = '\\' then ['\\', '\\']
  else if c = '\n' then ['\\', 'n']
  else if c = '\r' then ['\\', 'r']
  else if c = '\t' then ['\\', 't']
  else if c.toNat = 8 then ['\\', 'b']
  else if c.toNat = 12 then ['\\', 'f']
  else if c.toNat < 0x20 ∨ (ascii = true ∧ 0x7f ≤ c.toNat) then unicodeEscape c
  else [c]

def stringChars (ascii : Bool) (cs : List Char) : List Char :=
  '"' :: (cs.flatMap (writeChar ascii) ++ ['"'])

/-- A text as a JSON string in which all but control characters stand for themselves. -/
def quote (s : String) : String :=
  String.ofList (stringChars false s.toList)

/-- How a value is laid out: escapes, and the blanks of one level of indentation, if any. -/
structure Style where
  ascii : Bool
  indent : Option Nat

/-- The line break and the blanks before an item; nothing on a single line. -/
def Style.lineBreak (style : Style) (level : Nat) : List Char :=
  match style.indent with
  | none => []
  | some width => '\n' :: List.replicate (width * level) ' '

/-- What stands between two items. -/
def Style.separator (style : Style) (level : Nat) : List Char :=
  match style.indent with
  | none => [',', ' ']
  | some _ => ',' :: style.lineBreak level

mutual

def writeChars (style : Style) (level : Nat) : Value → List Char
  | .null => ['n', 'u', 'l', 'l']
  | .bool true => ['t', 'r', 'u', 'e']
  | .bool false => ['f', 'a', 'l', 's', 'e']
  | .int i => Text.signedDecimal i
  | .real x => x.chars
  | .str s => stringChars style.ascii s.toList
  | .token t => stringChars style.ascii t.inspect.toList
  | .node shape fields => stringChars style.ascii (Value.node shape fields).inspect.toList
  | .arr [] => ['[', ']']
  | .arr (v :: rest) =>
    '[' :: (style.lineBreak (level + 1) ++ writeChars style (level + 1) v ++
      writeItems style (level + 1) rest ++ style.lineBreak level ++ [']'])
  | .tuple [] => ['[', ']']
  | .tuple (v :: rest) =>
    '[' :: (style.lineBreak (level + 1) ++ writeChars style (level + 1) v ++
      writeItems style (level + 1) rest ++ style.lineBreak level ++ [']'])
  | .obj [] => ['\x7b', '\x7d']
  | .obj ((k, v) :: rest) =>
    '\x7b' :: (style.lineBreak (level + 1) ++ stringChars style.ascii k.toList ++ [':', ' '] ++
      writeChars style (level + 1) v ++ writeFields style (level + 1) rest ++
      style.lineBreak level ++ ['\x7d'])

/-- The items after the first, each with its separator. -/
def writeItems (style : Style) (level : Nat) : List Value → List Char
  | [] => []
  | v :: rest => style.separator level ++ writeChars style level v ++ writeItems style level rest

/-- The fields after the first, each with its separator. -/
def writeFields (style : Style) (level : Nat) : List (String × Value) → List Char
  | [] => []
  | (k, v) :: rest =>
    style.separator level ++ stringChars style.ascii k.toList ++ [':', ' '] ++
      writeChars style level v ++ writeFields style level rest

end

def write (style : Style) (v : Value) : String :=
  String.ofList (writeChars style 0 v)

/-- One line of ASCII. -/
def singleLine : Style := ⟨true, none⟩

/-- ASCII, indented by two blanks a level. -/
def indented : Style := ⟨true, some 2⟩

end QueryPipeline.Json
