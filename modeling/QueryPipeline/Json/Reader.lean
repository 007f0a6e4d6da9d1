import QueryPipeline.Value.Basic
import QueryPipeline.Number.Integer

/-!
# Reading JSON

A recursive reader over the characters of a text.  Each step takes the characters that are left and
returns a value with the characters behind it; an error keeps the number of characters that were
left, from which its place in the text is computed.  The nesting of values is bounded by a budget
that the length of the text pays for, so the budget is never the reason of a failure.

Two things can be said in JSON that a value does not hold: a number that is not finite, be it by
name or by its size, and one half of a character that is escaped in two.  The reader stops there and
says so (`ReadError.unheld`), and makes neither a value nor a malformed text of it.
-/

namespace QueryPipeline.Json

/-- What the reader missed. -/
inductive ReadProblem where
  | value
  | propertyName
  | colon
  | comma
  | endOfText
  | closingQuote
  | controlCharacter
  | escape
  | hexEscape
  | integer (error : IntegerError)
  | byteOrderMark
deriving DecidableEq, Repr

/-- What a text can say and a value does not hold. -/
inductive Unheld where
  | notFinite
  | loneSurrogate
deriving DecidableEq, Repr

/-- Why a text is not read: it is malformed, with the number of characters that were left where the
problem arose, or it goes beyond values. -/
inductive ReadError where
  | malformed (problem : ReadProblem) (left : Nat)
  | unheld (what : Unheld)
deriving DecidableEq, Repr

def fail {α : Type} (problem : ReadProblem) (cs : List Char) : Except ReadError α :=
  .error (.malformed problem cs.length)

def isJsonBlank (c : Char) : Bool :=
  c == ' ' || c == '\t' || c == '\n' || c == '\r'

def skipBlanks (cs : List Char) : List Char :=
  cs.dropWhile isJsonBlank

/-! ## Strings -/

/-- The code unit that four hexadecimal digits give. -/
def hexUnit? (a b c d : Char) : Option Nat := do
  let a ← Text.hexDigit? a
  let b ← Text.hexDigit? b
  let c ← Text.hexDigit? c
  let d ← Text.hexDigit? d
  return ((a * 16 + b) * 16 + c) * 16 + d

def simpleEscape? : Char → Option Char
  | '"' => some '"'
  | '\\' => some '\\'
  | '/' => some '/'
  | 'b' => some (Char.ofNat 8)
  | 'f' => some (Char.ofNat 12)
  | 'n' => some '\n'
  | 'r' => some '\r'
  | 't' => some '\t'
  | _ => none

/-- The code units of a string up to its closing quote.  `opening` is what was left at the opening
quote, where a string without an end is reported.  An escape of a code unit has to be followed by
something. -/
def readUnits (opening : Nat) : List Char → Except ReadError (List Nat × List Char)
  | [] => .error (.malformed .closingQuote opening)
  | '"' :: rest => .ok ([], rest)
  | '\\' :: 'u' :: a :: b :: c :: d :: next :: rest =>
    match hexUnit? a b c d with
    | none => .error (.malformed .hexEscape (rest.length + 6))
    | some n => do
      let (units, left) ← readUnits opening (next :: rest)
      return (n :: units, left)
  | '\\' :: c :: rest =>
    if c = 'u' then .error (.malformed .hexEscape (rest.length + 1))
    else
      match simpleEscape? c with
      | none => .error (.malformed .escape (rest.length + 2))
      | some e => do
        let (units, left) ← readUnits opening rest
        return (e.toNat :: units, left)
  | c :: rest =>
    if c = '\\' then .error (.malformed .closingQuote opening)
    else if c.toNat < 0x20 then .error (.malformed .controlCharacter (rest.length + 1))
    else do
      let (units, left) ← readUnits opening rest
      return (c.toNat :: units, left)

def isSurrogate (n : Nat) : Bool :=
  decide (0xd800 ≤ n) && decide (n < 0xe000)

/-- Characters from code units: a high and a low surrogate are one character, and there is none for
a surrogate on its own. -/
def joinSurrogates? : List Nat → Option (List Char)
  | high :: low :: rest =>
    if 0xd800 ≤ high ∧ high < 0xdc00 ∧ 0xdc00 ≤ low ∧ low < 0xe000 then
      (joinSurrogates? rest).map
        (Char.ofNat (0x10000 + (high - 0xd800) * 0x400 + (low - 0xdc00)) :: ·)
    else if isSurrogate high then none
    else (joinSurrogates? (low :: rest)).map (Char.ofNat high :: ·)
  | [n] => if isSurrogate n then none else some [Char.ofNat n]
  | [] => some []

/-- The rest of a string whose opening quote has been read. -/
def readString (cs : List Char) : Except ReadError (String × List Char) := do
  let (units, left) ← readUnits (cs.length + 1) cs
  match joinSurrogates? units with
  | some chars => return (String.ofList chars, left)
  | none => throw (.unheld .loneSurrogate)

/-! ## Numbers -/

def splitDigits (cs : List Char) : List Char × List Char :=
  (cs.takeWhile Char.isDigit, cs.dropWhile Char.isDigit)

def digitsValue (cs : List Char) : Nat :=
  Text.ofDigits (cs.map fun c => c.toNat - '0'.toNat)

/-- The sign, and what stands behind it. -/
def splitSign : List Char → Bool × List Char
  | '-' :: cs => (true, cs)
  | cs => (false, cs)

/-- The digits of the whole part: nothing goes on behind a zero. -/
def splitWhole : List Char → List Char × List Char
  | '0' :: cs => (['0'], cs)
  | cs => splitDigits cs

/-- The fraction digits behind a point; a point without digits is not part of the number. -/
def splitFraction : List Char → List Char × List Char
  | '.' :: cs =>
    match splitDigits cs with
    | ([], _) => ([], '.' :: cs)
    | (digits, rest) => (digits, rest)
  | cs => ([], cs)

/-- The exponent, if there is a complete one. -/
def splitExponent (cs : List Char) : Option Int × List Char :=
  match cs with
  | e :: rest =>
    if e = 'e' ∨ e = 'E' then
      let (negative, body) :=
        match rest with
        | '-' :: r => (true, r)
        | '+' :: r => (false, r)
        | r => (false, r)
      match splitDigits body with
      | ([], _) => (none, cs)
      | (digits, left) =>
        let n : Int := digitsValue digits
        (some (if negative then -n else n), left)
    else (none, cs)
  | [] => (none, [])

/-- The numbers that are not finite, by name. -/
def notFiniteNames : List (List Char) :=
  ["NaN".toList, "Infinity".toList, "-Infinity".toList]

/-- A number: whole when it has neither fraction nor exponent.  A whole number with too many digits
is refused. -/
def readNumber (cs : List Char) : Except ReadError (Value × List Char) :=
  let (negative, body) := splitSign cs
  let (whole, rest) := splitWhole body
  if whole.isEmpty then
    if notFiniteNames.any (·.isPrefixOf cs) then .error (.unheld .notFinite) else fail .value cs
  else
    let (fraction, rest) := splitFraction rest
    let (exponent, rest) := splitExponent rest
    if fraction.isEmpty && exponent.isNone then
      if Integer.digitLimit < whole.length then fail (.integer (.tooLong whole.length)) cs
      else
        let n : Int := digitsValue whole
        .ok (.int (if negative then -n else n), rest)
    else
      let power : Int := exponent.getD 0 - fraction.length
      match Binary64.ofDecimal? negative (digitsValue (whole ++ fraction)) power with
      | some x => .ok (.real x, rest)
      | none => .error (.unheld .notFinite)

/-! ## Values -/

mutual

def readValue : Nat → List Char → Except ReadError (Value × List Char)
  | 0, cs => fail .value cs
  | n + 1, cs =>
    match cs with
    | '"' :: rest => do
      let (s, left) ← readString rest
      return (.str s, left)
    | '[' :: rest =>
      match skipBlanks rest with
      | ']' :: left => .ok (.arr [], left)
      | body => do
        let (items, left) ← readItems n body
        return (.arr items, left)
    | '\x7b' :: rest =>
      match skipBlanks rest with
      | '\x7d' :: left => .ok (.obj [], left)
      | body => do
        let (fields, left) ← readFields n body
        return (.obj (Value.override [] fields), left)
    | 'n' :: 'u' :: 'l' :: 'l' :: left => .ok (.null, left)
    | 't' :: 'r' :: 'u' :: 'e' :: left => .ok (.bool true, left)
    | 'f' :: 'a' :: 'l' :: 's' :: 'e' :: left => .ok (.bool false, left)
    | _ => readNumber cs

/-- The items of an array, up to and with its closing bracket. -/
def readItems : Nat → List Char → Except ReadError (List Value × List Char)
  | 0, cs => fail .value cs
  | n + 1, cs => do
    let (v, rest) ← readValue n cs
    match skipBlanks rest with
    | ']' :: left => return ([v], left)
    | ',' :: more =>
      let (items, left) ← readItems n (skipBlanks more)
      return (v :: items, left)
    | other => fail .comma other

/-- The fields of an object, up to and with its closing bracket. -/
def readFields : Nat → List Char → Except ReadError (List (String × Value) × List Char)
  | 0, cs => fail .propertyName cs
  | n + 1, cs =>
    match cs with
    | '"' :: rest => do
      let (key, rest) ← readString rest
      match skipBlanks rest with
      | ':' :: rest =>
        let (v, rest) ← readValue n (skipBlanks rest)
        match skipBlanks rest with
        | '\x7d' :: left => return ([(key, v)], left)
        | ',' :: more =>
          let (fields, left) ← readFields n (skipBlanks more)
          return ((key, v) :: fields, left)
        | other => fail .comma other
      | other => fail .colon other
    | _ => fail .propertyName cs

end

/-- Read a text that holds one value.  A byte order mark in front is refused. -/
def readChars (cs : List Char) : Except ReadError Value := do
  if cs.head? = some (Char.ofNat 0xfeff) then fail .byteOrderMark cs
  let (v, rest) ← readValue (2 * cs.length + 2) (skipBlanks cs)
  match skipBlanks rest with
  | [] => return v
  | other => fail .endOfText other

def read (text : String) : Except ReadError Value :=
  readChars text.toList

/-! ## Messages -/

def ReadProblem.text : ReadProblem → String
  | .value => "Expecting value"
  | .propertyName => "Expecting property name enclosed in double quotes"
  | .colon => "Expecting ':' delimiter"
  | .comma => "Expecting ',' delimiter"
  | .endOfText => "Extra data"
  | .closingQuote => "Unterminated string starting at"
  | .controlCharacter => "Invalid control character at"
  | .escape => "Invalid \\escape"
  | .hexEscape => "Invalid \\uXXXX escape"
  | .integer e => e.message
  | .byteOrderMark => "Unexpected UTF-8 BOM (decode using utf-8-sig)"

/-- Whether a message tells the place of a problem. -/
def ReadProblem.hasPlace : ReadProblem → Bool
  | .integer _ => false
  | _ => true

/-- A place in a text, by what is left there: line, column and offset. -/
def placeText (left : Nat) (text : String) : String :=
  let cs := text.toList
  let before := cs.take (cs.length - left)
  let line := before.count '\n' + 1
  let column := (before.reverse.takeWhile (· != '\n')).length + 1
  ": line " ++ Text.natText line ++ " column " ++ Text.natText column ++ " (char " ++
    Text.natText before.length ++ ")"

/-- The problem, mostly with its place. -/
def ReadProblem.message (problem : ReadProblem) (left : Nat) (text : String) : String :=
  problem.text ++ if problem.hasPlace then placeText left text else ""

end QueryPipeline.Json
