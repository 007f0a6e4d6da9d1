import QueryPipeline.Note
import QueryPipeline.Number.Integer
import QueryPipeline.Token.Basic

/-!
# Reading tokens

A rule of the grammar reads tokens from a cursor: the current token, and the tokens behind it.  The
cursor only moves forward, never past the end token, and is there after a failure too, so that one
can see how far a rule came.

A rule is a function from a cursor to a result and the cursor after it.  Where a rule started is not
part of the cursor, hence a rule cannot depend on it.
-/

namespace QueryPipeline

/-- Which part of the grammar missed a token. -/
inductive Site where
  | expression
  | statement
deriving DecidableEq, Repr

/-- What the grammar asks for. -/
inductive Expected where
  | kind (k : Kind)
  | integer
deriving DecidableEq, Repr

def Expected.name : Expected → String
  | .kind k => k.name
  | .integer => "integer"

/-- Why tokens are not read as statements.  The last five arise only from tokens that are made by
hand, or from a number with too many digits. -/
inductive ParseError where
  | unexpected (site : Site) (actual : Token) (expected : Option Expected)
  | statementStart (token : Token)
  | emptyQuery
  | unfinished
  | noTokens
  | pastEnd
  | unknownSymbol (text : String)
  | integer (error : IntegerError)
deriving DecidableEq, Repr

def ParseError.message : ParseError → String
  | .unexpected _ actual (some expected) =>
    "Expected " ++ expected.name ++ " but got " ++ actual.inspect ++ " at position " ++
      Text.intText actual.position
  | .unexpected _ actual none =>
    "Unexpected token: " ++ actual.inspect ++ " at position " ++ Text.intText actual.position
  | .statementStart token =>
    "Unexpected statement starting with " ++ token.inspect ++ " at position " ++
      Text.intText token.position
  | .emptyQuery => "Empty query."
  | .unfinished => "The tokens must be terminated by an EOF token"
  | .noTokens => "ExpressionParser requires at least the EOF token"
  | .pastEnd => "list index out of range"
  | .unknownSymbol text => Text.quoted text
  | .integer error => error.message

/-- The current token, what is behind it, how often a rule tried to move past a last token that is
not the end, and the notes taken so far. -/
structure Cursor where
  current : Token
  rest : List Token
  overrun : Nat
  notes : List Note
deriving Repr

/-- The cursor at the first of some tokens. -/
def Cursor.start (first : Token) (rest : List Token) : Cursor :=
  ⟨first, rest, 0, []⟩

/-- The token behind the current one; the last token stands for all that would follow it. -/
def Cursor.next (c : Cursor) : Token :=
  c.rest.headD c.current

/-- The token at a place among all tokens.  Behind them is the last one, and a negative place counts
from the end. -/
def tokenAt? (tokens : List Token) (place : Int) : Option Token :=
  if place < 0 then
    if place.natAbs ≤ tokens.length then tokens[tokens.length - place.natAbs]? else none
  else tokens[place.toNat]? <|> tokens.getLast?

/-- A rule of the grammar. -/
abbrev Rule := EStateM ParseError Cursor

namespace Rule

def kindOf (t : Token) : Rule Kind :=
  match t.kind? with
  | some k => pure k
  | none => throw (.unknownSymbol t.text)

/-- The kind of the current token. -/
def look : Rule Kind := do
  kindOf (← get).current

/-- The kind of the token behind the current one. -/
def lookNext : Rule Kind := do
  kindOf (← get).next

/-- Put the cursor on the next token.  Behind a last token there is none: the attempt is counted and
the cursor stays. -/
def step : Rule Unit := fun c =>
  match c.rest with
  | next :: rest => .ok () { c with current := next, rest := rest }
  | [] => .error .pastEnd { c with overrun := c.overrun + 1 }

/-- Take the current token.  The end token is taken without moving. -/
def advance : Rule Token := do
  let token := (← get).current
  if (← look) ≠ .eof then step
  return token

/-- Fail at the current token. -/
def unexpected {α : Type} (site : Site) (expected : Option Expected) : Rule α := do
  throw (.unexpected site (← get).current expected)

/-- Take a token of the given kind, or fail. -/
def consume (site : Site) (k : Kind) : Rule Token := do
  if (← look) = k then advance else unexpected site (some (.kind k))

/-- Take the current token if it is of the given kind, and say whether it was. -/
def accept (k : Kind) : Rule Bool := do
  if (← look) = k then
    let _ ← advance
    return true
  else return false

/-- A bound for the number of tokens that can still be taken. -/
def budget : Rule Nat := do
  return (← get).rest.length + 1

/-- What a rule reads, each time behind a separator. -/
def itemsAfter {α : Type} (separator : Kind) (item : Rule α) : Nat → Rule (List α)
  | 0 => pure []
  | n + 1 => do
    if ← accept separator then
      let x ← item
      let xs ← itemsAfter separator item n
      return x :: xs
    else return []

/-- What a rule reads, once or more often, with separators between. -/
def sepBy {α : Type} (separator : Kind) (item : Rule α) : Rule (List α) := do
  let x ← item
  let xs ← itemsAfter separator item (← budget)
  return x :: xs

/-- What a rule reads, if the current token is of the given kind.  That token is taken first. -/
def after {α : Type} (k : Kind) (rule : Rule α) : Rule (Option α) := do
  if ← accept k then
    let x ← rule
    return some x
  else return none

end Rule
end QueryPipeline
