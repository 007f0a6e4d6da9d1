import QueryPipeline.Token.Scanner

/-!
# Scanning from any place

A scanner that is driven by hand can be put at any place.  A place below zero counts from the end of
the text.  Ahead of it is the end of the text, and then the text from its start: reading goes on
there, until the place is that of the end.  In front of the text there is nothing to read.

The value of a word, a number or an operator is the stretch of the text between the place where it
starts and the place where it stops.  Of one that goes on at the start of the text, this is what
lies between the two places in the text itself, mostly nothing.

From zero on, places are those of `scan`.
-/

namespace QueryPipeline.Scanner

/-- Why a scanner that is driven by hand fails. -/
inductive PlaceError where
  | lex (error : LexError)
  | beforeText
deriving DecidableEq, Repr

def PlaceError.message : PlaceError → String
  | .lex e => e.message
  | .beforeText => "string index out of range"

/-- What a scanner found, and its place afterwards. -/
structure Move (α : Type) where
  outcome : Except PlaceError α
  place : Int

/-! ## Places in a text -/

/-- How many characters of a text come before a place. -/
def before (text : List Char) (place : Int) : Nat :=
  if 0 ≤ place then place.toNat else text.length - place.natAbs

/-- The stretch of a text between two places. -/
def between (text : List Char) (start stop : Int) : List Char :=
  (text.take (before text stop)).drop (before text start)

/-- The characters ahead of a place, none in front of the text. -/
def ahead? (text : List Char) (place : Int) : Option (List Char) :=
  if 0 ≤ place then some (text.drop place.toNat)
  else if place.natAbs ≤ text.length then some (text.drop (before text place) ++ text)
  else none

/-- The character at an offset from a place.  Behind the text there is none. -/
def peekChar (text : List Char) (place offset : Int) : Except PlaceError (Option Char) :=
  match ahead? text (place + offset) with
  | some cs => .ok cs.head?
  | none => .error .beforeText

/-! ## Readers -/

/-- The stretch that a run of characters ahead of a place covers, as a token. -/
def runAt (run : List Char → List Char) (form : String → Token.Form) (text : List Char)
    (place : Int) : Move Token :=
  match ahead? text place with
  | none => ⟨.error .beforeText, place⟩
  | some cs =>
    let stop := place + (run cs).length
    let value := String.ofList (between text place stop)
    ⟨.ok ⟨form value, value, place⟩, stop⟩

def wordAt : List Char → Int → Move Token :=
  runAt (·.takeWhile isWordChar) wordForm

def numberAt : List Char → Int → Move Token :=
  runAt (numberChars true) fun _ => .number

def markAt (text : List Char) (place : Int) : Move Token :=
  match peekChar text place 0 with
  | .error e => ⟨.error e, place⟩
  | .ok c => ⟨.ok ⟨.punctuation, String.ofList c.toList, place⟩, place + 1⟩

/-- A string.  The place is behind its first character even if that is in front of the text. -/
def stringAt (text : List Char) (place : Int) : Move Token :=
  match ahead? text (place + 1) with
  | none => ⟨.error .beforeText, place + 1⟩
  | some cs =>
    match stringBody cs with
    | some (value, n) => ⟨.ok ⟨.string, String.ofList value, place⟩, place + 1 + n⟩
    | none => ⟨.error (.lex (.unterminated '\'' place)), max (place + 1) text.length⟩

/-- A name between double quotes.  Its closing quote is looked for up to the end of the text. -/
def quotedNameAt (text : List Char) (place : Int) : Move Token :=
  let start := before text (place + 1)
  let body := text.drop start
  if body.contains '"' then
    let name := body.takeWhile (· != '"')
    ⟨.ok ⟨.identifier, String.ofList name, place⟩, start + name.length + 1⟩
  else ⟨.error (.lex (.unterminated '"' place)), place⟩

/-- Whether the character at a place makes an operator with the one behind it.  If there is none
behind it, the character is not looked at. -/
def isPairAt (text : List Char) (place : Int) : Except PlaceError Bool := do
  match ← peekChar text place 1 with
  | none => return false
  | some d =>
    let c ← peekChar text place 0
    return (Sign.ofChars? (c.toList ++ [d])).isSome

def operatorAt (text : List Char) (place : Int) : Move Token :=
  match isPairAt text place with
  | .error e => ⟨.error e, place⟩
  | .ok pair =>
    let stop := place + (if pair then 2 else 1)
    let chars := between text place stop
    let value := String.ofList chars
    if (Sign.ofChars? chars).isSome then ⟨.ok ⟨.operator, value, place⟩, stop⟩
    else ⟨.error (.lex (.unknownOperator value place)), stop⟩

def Reader.readAt : Reader → List Char → Int → Move Token
  | word => wordAt
  | number => numberAt
  | string => stringAt
  | quotedName => quotedNameAt
  | mark => markAt
  | operator => operatorAt

/-! ## The whole text -/

/-- All tokens from a place in the text on. -/
def scanOn (text : List Char) (place : Nat) : Move (List Token) :=
  match scan place (text.drop place) with
  | (.ok tokens, stop) => ⟨.ok tokens, stop⟩
  | (.error e, stop) => ⟨.error (.lex e), stop⟩

/-- All tokens from a place on.  Every token or blank moves the place, so that one that is `n` in
front of zero needs `n` of them at most to get there. -/
def scanFrom (text : List Char) : Nat → Int → Move (List Token)
  | 0, place => scanOn text place.toNat
  | n + 1, place =>
    if 0 ≤ place then scanOn text place.toNat
    else
      match peekChar text place 0 with
      | .error e => ⟨.error e, place⟩
      | .ok none => scanOn text 0
      | .ok (some c) =>
        if Text.isBlank c then scanFrom text n (place + 1)
        else
          match readerFor? c with
          | none => ⟨.error (.lex (.unexpectedCharacter c place)), place⟩
          | some reader =>
            let first := reader.readAt text place
            match first.outcome with
            | .error e => ⟨.error e, first.place⟩
            | .ok t =>
              let rest := scanFrom text n first.place
              ⟨rest.outcome.map (t :: ·), rest.place⟩

def scanAt (text : List Char) (place : Int) : Move (List Token) :=
  scanFrom text place.natAbs place

end QueryPipeline.Scanner
