import QueryPipeline.Text.Blank
import QueryPipeline.Token.Basic

/-!
# From text to tokens

The scanner goes through the text once, from left to right.  A reader for one form of token takes
the characters from some place on and answers with the token, or with an error, and with the number
of characters by which the place moves:

    word, number, string, quotedName, operator : place → characters → Reading

`readerFor?` picks the reader by the first character, and `scan` applies it until nothing is left.
A reader may be applied at any place, also where its first character does not fit or past the end.
-/

namespace QueryPipeline

/-- Why a text is not a sequence of tokens. -/
inductive LexError where
  | unexpectedCharacter (char : Char) (position : Int)
  | unterminated (quote : Char) (position : Int)
  | unknownOperator (operator : String) (position : Int)
deriving DecidableEq, Repr

def LexError.position : LexError → Int
  | .unexpectedCharacter _ p => p
  | .unterminated _ p => p
  | .unknownOperator _ p => p

def LexError.message : LexError → String
  | .unexpectedCharacter c p =>
    "Unexpected character " ++ Text.quoted c.toString ++ " at position " ++ Text.intText p
  | .unterminated q p =>
    "Unterminated " ++ (if q = '\'' then "string" else "quoted identifier") ++ " at position " ++
      Text.intText p
  | .unknownOperator o p =>
    "Unknown operator " ++ Text.quoted o ++ " at position " ++ Text.intText p

namespace Scanner

/-- What a reader found, and by how many characters the place moves. -/
structure Reading where
  outcome : Except LexError Token
  width : Nat

def isWordStart (c : Char) : Bool :=
  c.isAlpha || c == '_'

def isWordChar (c : Char) : Bool :=
  isWordStart c || c.isDigit

def isOperatorChar (c : Char) : Bool :=
  ['=', '!', '<', '>', '+', '-', '*', '/', '%'].contains c

/-- A word is a reserved word in any letter case, or else a name. -/
def wordForm (word : String) : Token.Form :=
  if (Keyword.ofName? (Text.upper word)).isSome then .keyword else .identifier

/-- The longest run of letters, digits and underscores. -/
def word (place : Nat) (cs : List Char) : Reading :=
  let chars := cs.takeWhile isWordChar
  let text := String.ofList chars
  ⟨.ok ⟨wordForm text, text, place⟩, chars.length⟩

/-- The longest run of digits with one decimal point at most. -/
def numberChars (pointAllowed : Bool) : List Char → List Char
  | [] => []
  | c :: cs =>
    if c = '.' then if pointAllowed then c :: numberChars false cs else []
    else if c.isDigit then c :: numberChars pointAllowed cs
    else []

def number (place : Nat) (cs : List Char) : Reading :=
  let chars := numberChars true cs
  ⟨.ok ⟨.number, String.ofList chars, place⟩, chars.length⟩

/-- The value of a string up to its closing quote, and the number of characters up to and with that
quote.  A backslash makes the next character part of the value. -/
def stringBody : List Char → Option (List Char × Nat)
  | [] => none
  | c :: cs =>
    if c = '\'' then some ([], 1)
    else if c = '\\' then
      match cs with
      | [] => none
      | e :: rest => (stringBody rest).map fun (value, n) => (e :: value, n + 2)
    else (stringBody cs).map fun (value, n) => (c :: value, n + 1)

/-- A string; the first character counts as its opening quote.  Without a closing quote the place
moves to the end of the text, and by one at least. -/
def string (place : Nat) (cs : List Char) : Reading :=
  match stringBody (cs.drop 1) with
  | some (value, n) => ⟨.ok ⟨.string, String.ofList value, place⟩, n + 1⟩
  | none => ⟨.error (.unterminated '\'' place), max 1 cs.length⟩

/-- A name between double quotes; the first character counts as the opening quote.  Without a
closing quote the place does not move. -/
def quotedName (place : Nat) (cs : List Char) : Reading :=
  let body := cs.drop 1
  if body.contains '"' then
    let name := body.takeWhile (· != '"')
    ⟨.ok ⟨.identifier, String.ofList name, place⟩, name.length + 2⟩
  else ⟨.error (.unterminated '"' place), 0⟩

/-- The characters of an operator: two if they are one, or else one. -/
def operatorChars (cs : List Char) : List Char :=
  if (Sign.ofChars? (cs.take 2)).isSome then cs.take 2 else cs.take 1

/-- An operator.  The place moves also when the operator is unknown. -/
def operator (place : Nat) (cs : List Char) : Reading :=
  let chars := operatorChars cs
  let text := String.ofList chars
  if (Sign.ofChars? chars).isSome then ⟨.ok ⟨.operator, text, place⟩, chars.length⟩
  else ⟨.error (.unknownOperator text place), 1⟩

/-- A mark of punctuation, which is a single character. -/
def mark (place : Nat) (cs : List Char) : Reading :=
  ⟨.ok ⟨.punctuation, String.ofList (cs.take 1), place⟩, 1⟩

/-- The readers for one form of token each. -/
inductive Reader where
  | word | number | string | quotedName | mark | operator
deriving DecidableEq, Repr

def Reader.read : Reader → Nat → List Char → Reading
  | word => Scanner.word
  | number => Scanner.number
  | string => Scanner.string
  | quotedName => Scanner.quotedName
  | mark => Scanner.mark
  | operator => Scanner.operator

/-- The reader for the tokens that start with a character. -/
def readerFor? (c : Char) : Option Reader :=
  if isWordStart c then some .word
  else if c.isDigit then some .number
  else if c = '\'' then some .string
  else if c = '"' then some .quotedName
  else if (Mark.ofChars? [c]).isSome then some .mark
  else if isOperatorChar c then some .operator
  else none

/-- The token that starts with a character that is no white space. -/
def next (place : Nat) (c : Char) (rest : List Char) : Reading :=
  match readerFor? c with
  | some reader => reader.read place (c :: rest)
  | none => ⟨.error (.unexpectedCharacter c place), 0⟩

/-- All tokens from some place on, with the place where the scanner stops. -/
def scan (place : Nat) (cs : List Char) : Except LexError (List Token) × Nat :=
  match cs with
  | [] => (.ok [Token.endOfText place], place)
  | c :: rest =>
    if Text.isBlank c then scan (place + 1) rest
    else
      let reading := next place c rest
      match reading.outcome with
      | .error e => (.error e, place + reading.width)
      | .ok t =>
        let (tokens, stop) := scan (place + reading.width) (rest.drop (reading.width - 1))
        (tokens.map (t :: ·), stop)
termination_by cs.length
decreasing_by
  · simp
  · simp only [List.length_drop, List.length_cons]
    omega

end Scanner

/-- The tokens of a query, the last one being its end. -/
def tokenize (text : String) : Except LexError (List Token) :=
  (Scanner.scan 0 text.toList).1

end QueryPipeline
