import QueryPipeline.Text.Blank
import QueryPipeline.Text.Decimal
import QueryPipeline.Text.Quoted

/-!
# Reading whole numbers

The text of a number may have white space around it, one sign in front, and single underscores
between its digits, which may be of any script.  The separators of files, groups, records and units
are no white space here.  At most 4300 digits are read, leading zeros included; a longer run is
refused before the text behind it is looked at.
-/

namespace QueryPipeline

/-- Why a text is not read as a whole number. -/
inductive IntegerError where
  | malformed (text : String)
  | tooLong (digits : Nat)
deriving DecidableEq, Repr

namespace Integer

def digitLimit : Nat := 4300

/-- White space that may stand around a number. -/
def isPadding (c : Char) : Bool :=
  Text.isBlank c && !(decide (0x1c ≤ c.toNat) && decide (c.toNat ≤ 0x1f))

/-- Split off one sign; a number without a sign is positive. -/
def splitSign : List Char → Bool × List Char
  | '-' :: cs => (true, cs)
  | '+' :: cs => (false, cs)
  | cs => (false, cs)

def isDigitOrUnderscore (c : Char) : Bool :=
  c == '_' || (Text.decimalDigit? c).isSome

/-- Each underscore stands between two digits, and there is a digit.  `digitBefore` says that one
came just before. -/
def underscoresFit (digitBefore : Bool) : List Char → Bool
  | [] => digitBefore
  | c :: cs => if c = '_' then digitBefore && underscoresFit false cs else underscoresFit true cs

/-- Read a whole number. -/
def read (text : String) : Except IntegerError Int :=
  let (negative, body) := splitSign (text.toList.dropWhile isPadding)
  let run := body.takeWhile isDigitOrUnderscore
  let digits := run.filterMap Text.decimalDigit?
  let value : Int := Text.ofDigits digits
  if !underscoresFit false run then .error (.malformed text)
  else if digitLimit < digits.length then .error (.tooLong digits.length)
  else if !(body.dropWhile isDigitOrUnderscore).all isPadding then .error (.malformed text)
  else .ok (if negative then -value else value)

end Integer

/-- How much of a malformed text a message shows, the quote in front included. -/
def IntegerError.shownLength : Nat := 200

def IntegerError.message : IntegerError → String
  | .malformed text =>
    "invalid literal for int() with base 10: " ++
      String.ofList ((Text.quotedChars text.toList).take shownLength)
  | .tooLong digits =>
    "Exceeds the limit (" ++ Text.natText Integer.digitLimit ++
      " digits) for integer string conversion: value has " ++ Text.natText digits ++
      " digits; use sys.set_int_max_str_digits() to increase the limit"

end QueryPipeline
