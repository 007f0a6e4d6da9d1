import QueryPipeline.Statement.Rules

/-!
# Reading call by call

The rules of the grammar can also be asked for one after the other.  A session holds the tokens and
a cursor among them, and each call moves the cursor on, whether it succeeds or fails; so a caller
can mix rules, single tokens and looks ahead in any order, and can see where the cursor is in
between.
-/

namespace QueryPipeline

/-- What a rule of the grammar can be asked for.  Where expressions and statements have a rule of
the same name, the site says which one is meant. -/
inductive Request : Type → Type
  | isAmong (kinds : List String) : Request Bool
  | consume (site : Site) (kind : String) : Request Token
  | expression (site : Site) : Request Expr
  | expressions (site : Site) : Request (List Expr)
  -- expressions
  | advance : Request Token
  | disjunction : Request Expr
  | conjunction : Request Expr
  | comparison : Request Expr
  | sum : Request Expr
  | product : Request Expr
  | unary : Request Expr
  | primary : Request Expr
  | valueList : Request (List Expr)
  | callOf (name : String) : Request Expr
  | caseExpression : Request Expr
  -- statements
  | advanceBy (count : Int) : Request Token
  | tableRef : Request TableRef
  | whereClause : Request (Option Expr)
  | selectList : Request (List Expr)
  | withAlias (e : Expr) (aliasName : Option String) : Request Expr
  | joinClause : Request Join
  | sortKeys : Request (List SortKey)
  | rowCount : Request Int
  | select : Request Select
  | insert : Request Insert
  | update : Request Update
  | delete : Request Delete

/-- The rule that answers a request. -/
def Request.rule {α : Type} : Request α → Rule α
  | .isAmong kinds => do return kinds.contains (← Rule.look).name
  | .consume site kind => Rule.consume site (Kind.ofName kind)
  | .expression .expression => Expr.expression
  | .expression .statement => Statement.expression
  | .expressions .expression => Expr.expressions Expr.expression
  | .expressions .statement => Statement.expressions
  | .advance => Rule.advance
  | .disjunction => Expr.disjunctionLevel Expr.expression
  | .conjunction => Expr.conjunctionLevel Expr.expression
  | .comparison => Expr.comparisonLevel Expr.expression
  | .sum => Expr.sumLevel Expr.expression
  | .product => Expr.productLevel Expr.expression
  | .unary => Expr.unaryLevel Expr.expression
  | .primary => Expr.primary Expr.expression
  | .valueList => Expr.valueList Expr.expression
  | .callOf name => Expr.callOf Expr.expression name
  | .caseExpression => Expr.caseExpression Expr.expression
  | .advanceBy count => Statement.advanceBy count.toNat
  | .tableRef => Statement.tableRef
  | .whereClause => Statement.whereClause
  | .selectList => Statement.selectList
  | .withAlias e aliasName => Statement.withAlias e aliasName
  | .joinClause => Statement.joinClause
  | .sortKeys => Statement.sortKeys
  | .rowCount => Statement.rowCount
  | .select => Statement.selectStatement
  | .insert => Statement.insertStatement
  | .update => Statement.updateStatement
  | .delete => Statement.deleteStatement

/-- All tokens, the place of the cursor among them, and the cursor. -/
structure Session where
  tokens : List Token
  pos : Int
  cursor : Cursor

namespace Session

/-- A call: a request, a look at the token some places ahead, or an expression together with the
place behind it. -/
inductive Call : Type → Type 1
  | request {α : Type} (asked : Request α) : Call α
  | peek (offset : Int) : Call Token
  | parse : Call (Int × Expr)

/-- Start at a place among some tokens; a negative place counts from the end. -/
def ofTokens (tokens : List Token) (start : Int) : Except ParseError Session :=
  let place := if start < 0 then start + tokens.length else start
  match if place < 0 then [] else tokens.drop place.toNat with
  | [] => .error .pastEnd
  | first :: rest => .ok ⟨tokens, start, .start first rest⟩

/-- Start at the first of some tokens, to read expressions. -/
def ofExpression : List Token → Except ParseError Session
  | [] => .error .noTokens
  | first :: rest => .ok ⟨first :: rest, 0, .start first rest⟩

/-- Put the cursor further on.  An attempt to go behind the last token counts as a place. -/
def moveTo (s : Session) (c : Cursor) : Session :=
  let taken : Int := s.cursor.rest.length - c.rest.length
  let attempts : Int := c.overrun - s.cursor.overrun
  { s with pos := s.pos + taken + attempts, cursor := c }

def apply {α : Type} (s : Session) (rule : Rule α) : Except ParseError α × Session :=
  match rule s.cursor with
  | .ok a c => (.ok a, s.moveTo c)
  | .error e c => (.error e, s.moveTo c)

/-- The token some places ahead of the cursor. -/
def ahead (s : Session) (offset : Int) : Except ParseError Token :=
  match tokenAt? s.tokens (s.pos + offset) with
  | some t => .ok t
  | none => .error .pastEnd

/-- The answer to a call, and the session after it. -/
def Call.run {α : Type} : Call α → Session → Except ParseError α × Session
  | .request asked, s => s.apply asked.rule
  | .peek offset, s => (s.ahead offset, s)
  | .parse, s =>
    let (answer, next) := s.apply Expr.expression
    (answer.map fun e => (next.pos, e), next)

/-- The session after some calls. -/
def after (s : Session) : List (Σ α : Type, Call α) → Session
  | [] => s
  | ⟨_, call⟩ :: calls => (call.run s).2.after calls

end Session
end QueryPipeline
