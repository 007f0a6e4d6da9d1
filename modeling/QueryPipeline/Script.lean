import QueryPipeline.Statement.Rules
import QueryPipeline.Token.Scanner

/-!
# Scripts

A script is a sequence of statements with semicolons between them, and possibly one behind the last.
It has one statement at least.
-/

namespace QueryPipeline

/-- Why a text is not a script. -/
inductive SyntaxError where
  | lex (error : LexError)
  | parse (error : ParseError)
deriving DecidableEq, Repr

def SyntaxError.message : SyntaxError → String
  | .lex e => e.message
  | .parse e => e.message

namespace Script

open Rule

/-- A semicolon is taken; the end is left; anything else does not end a statement. -/
def terminator : Rule Unit := do
  match ← look with
  | .mark .semicolon => step
  | .eof => pure ()
  | _ => unexpected .statement (some (.kind (.mark .semicolon)))

/-- A statement of any kind. -/
def statement : Rule Statement := do
  match Statement.ruleFor? (← look) with
  | some rule => rule
  | none => throw (.statementStart (← get).current)

/-- Statements up to the end. -/
def statementsFrom : Nat → Rule (List Statement)
  | 0 => pure []
  | n + 1 => do
    if (← look) = .eof then return []
    else
      let s ← statement
      terminator
      let more ← statementsFrom n
      return s :: more

/-- One statement at least. -/
def statements : Rule (List Statement) := do
  let all ← statementsFrom (← budget)
  if all.isEmpty then throw .emptyQuery else return all

/-- Read tokens, the last of which has to be the end, as statements; with the notes taken. -/
def ofTokens (tokens : List Token) : Except ParseError (List Statement) × List Note :=
  match tokens, tokens.getLast?.map Token.kind? with
  | first :: rest, some (some .eof) =>
    match statements (Cursor.start first rest) with
    | .ok all c => (.ok all, c.notes)
    | .error e c => (.error e, c.notes)
  | first :: rest, some none => (.error (.unknownSymbol ((first :: rest).getLastD first).text), [])
  | _, _ => (.error .unfinished, [])

/-- Read a text as statements; with the notes taken. -/
def parse (text : String) : Except SyntaxError (List Statement) × List Note :=
  match tokenize text with
  | .error e => (.error (.lex e), [])
  | .ok tokens =>
    match ofTokens tokens with
    | (.ok all, notes) => (.ok all, notes)
    | (.error e, notes) => (.error (.parse e), notes)

end Script
end QueryPipeline
