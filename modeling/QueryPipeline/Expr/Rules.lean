import QueryPipeline.Cursor
import QueryPipeline.Expr.Basic

/-!
# The grammar of expressions

Each level of precedence is a rule, from the weakest binding to the strongest:

    disjunction < conjunction < comparison < sum < product < unary < primary

Operators of one level associate to the left.  `NOT` binds like the minus sign, so `NOT a = 1` means
`(NOT a) = 1`; behind an operand, `NOT IN` is one test.

The rules of the levels take the rule for nested expressions as an argument.  `nested` ties the
knot: with a budget of `n` it reads expressions nested at most `n` deep.  A nested expression always
stands behind a token that has been taken, so the number of tokens left is a budget that is never
used up, and `expression` takes it.
-/

namespace QueryPipeline

namespace BinaryOperator

def disjunction? : Kind → Option BinaryOperator
  | .keyword .OR => some .or
  | _ => none

def conjunction? : Kind → Option BinaryOperator
  | .keyword .AND => some .and
  | _ => none

def comparison? : Kind → Option BinaryOperator
  | .sign .eq => some .eq
  | .sign .ne => some .ne
  | .sign .lt => some .lt
  | .sign .le => some .le
  | .sign .gt => some .gt
  | .sign .ge => some .ge
  | .keyword .LIKE => some .like
  | _ => none

def sum? : Kind → Option BinaryOperator
  | .sign .plus => some .add
  | .sign .minus => some .sub
  | _ => none

def product? : Kind → Option BinaryOperator
  | .sign .asterisk => some .mul
  | .sign .divide => some .div
  | .sign .modulo => some .mod
  | _ => none

end BinaryOperator

def UnaryOperator.ofKind? : Kind → Option UnaryOperator
  | .keyword .NOT => some .not
  | .sign .minus => some .neg
  | _ => none

/-- The kinds of tokens that can name a function or a column. -/
def Kind.isName : Kind → Bool
  | .identifier => true
  | .keyword .COUNT => true
  | .keyword .SUM => true
  | .keyword .AVG => true
  | .keyword .MAX => true
  | .keyword .MIN => true
  | _ => false

namespace Expr

open Rule

/-- Operators of one level and their right operands, applied to the left operand so far. -/
def chainFrom (operator? : Kind → Option BinaryOperator) (operand : Rule Expr) :
    Nat → Expr → Rule Expr
  | 0, left => pure left
  | n + 1, left => do
    match operator? (← look) with
    | none => return left
    | some operator =>
      let _ ← advance
      let right ← operand
      chainFrom operator? operand n (.binary left operator right)

/-- Operands with operators of one level between them, grouped to the left. -/
def chain (operator? : Kind → Option BinaryOperator) (operand : Rule Expr) : Rule Expr := do
  let left ← operand
  chainFrom operator? operand (← budget) left

/-- Take a token that an expression needs. -/
def need (k : Kind) : Rule Token :=
  consume .expression k

section Levels

variable (expr : Rule Expr)

/-- Expressions with commas between. -/
def expressions : Rule (List Expr) :=
  sepBy (.mark .comma) expr

/-- The values of a membership test, in parentheses. -/
def valueList : Rule (List Expr) := do
  let _ ← need (.mark .lparen)
  let values ← expressions expr
  let _ ← need (.mark .rparen)
  return values

/-- Expressions with commas between, or nothing in front of a closing parenthesis. -/
def argumentList : Rule (List Expr) := do
  if (← look) = .mark .rparen then return [] else expressions expr

/-- The arguments of a call, in parentheses.  `DISTINCT` in front of them marks the call. -/
def callOf (name : String) : Rule Expr := do
  let _ ← need (.mark .lparen)
  let distinct ← accept (.keyword .DISTINCT)
  let arguments ← argumentList expr
  let _ ← need (.mark .rparen)
  return .call name arguments distinct none

/-- Branches of a case, as long as there are any. -/
def branches : Nat → Rule (List (Expr × Expr))
  | 0 => pure []
  | n + 1 => do
    if ← accept (.keyword .WHEN) then
      let condition ← expr
      let _ ← need (.keyword .THEN)
      let result ← expr
      let more ← branches n
      return (condition, result) :: more
    else return []

/-- What a case compares its branches with, if there is anything in front of them. -/
def caseOperand : Rule (Option Expr) := do
  if (← look) = .keyword .WHEN then return none
  else
    let e ← expr
    return some e

/-- The branches of a case, one at least. -/
def someBranches : Rule (List (Expr × Expr)) := do
  let whens ← branches expr (← budget)
  if whens.isEmpty then unexpected .expression (some (.kind (.keyword .WHEN))) else return whens

/-- A case, with or without an operand, with one branch at least. -/
def caseExpression : Rule Expr := do
  let _ ← need (.keyword .CASE)
  let operand ← caseOperand expr
  let whens ← someBranches expr
  let otherwise ← after (.keyword .ELSE) expr
  let _ ← need (.keyword .END)
  return .caseOf operand whens otherwise

/-- What follows a name: the arguments of a call, a column of a table, or nothing. -/
def named (name : String) : Rule Expr := do
  match ← look with
  | .mark .lparen => callOf expr name
  | .mark .dot =>
    let _ ← advance
    if ← accept (.sign .asterisk) then return wildcard (some name)
    else
      let column ← need .identifier
      return .column ⟨column.text, some name, none⟩
  | _ => return .column ⟨name, none, none⟩

/-- Literals, names, cases and parentheses. -/
def primary : Rule Expr := do
  let token := (← get).current
  let k ← look
  match k with
  | .number =>
    let _ ← advance
    return .literal (.number token.text)
  | .string =>
    let _ ← advance
    return .literal (.string token.text)
  | .keyword .NULL =>
    let _ ← advance
    return .literal .null
  | .sign .asterisk =>
    let _ ← advance
    return wildcard none
  | .keyword .CASE => caseExpression expr
  | .mark .lparen =>
    let _ ← advance
    let e ← expr
    let _ ← need (.mark .rparen)
    return e
  | _ =>
    if k.isName then
      let _ ← advance
      named expr token.text
    else unexpected .expression none

/-- Prefix operators in front of a primary expression. -/
def unaryFrom : Nat → Rule Expr
  | 0 => primary expr
  | n + 1 => do
    match UnaryOperator.ofKind? (← look) with
    | none => primary expr
    | some operator =>
      let _ ← advance
      let operand ← unaryFrom n
      return .unary operator operand

def unaryLevel : Rule Expr := do
  unaryFrom expr (← budget)

def productLevel : Rule Expr :=
  chain BinaryOperator.product? (unaryLevel expr)

def sumLevel : Rule Expr :=
  chain BinaryOperator.sum? (productLevel expr)

/-- The test that a left operand is, or is not, among some values. -/
def membershipOf (left : Expr) (negated : Bool) : Rule Expr := do
  let values ← valueList expr
  return .membership left values negated

/-- A membership test, or a chain of comparisons. -/
def comparisonLevel : Rule Expr := do
  let left ← sumLevel expr
  match ← look with
  | .keyword .IN =>
    let _ ← advance
    membershipOf expr left false
  | .keyword .NOT =>
    if (← lookNext) = .keyword .IN then
      let _ ← advance
      let _ ← advance
      membershipOf expr left true
    else return left
  | _ => chainFrom BinaryOperator.comparison? (sumLevel expr) (← budget) left

def conjunctionLevel : Rule Expr :=
  chain BinaryOperator.conjunction? (comparisonLevel expr)

def disjunctionLevel : Rule Expr :=
  chain BinaryOperator.disjunction? (conjunctionLevel expr)

end Levels

/-- Expressions nested at most so deep. -/
def nested : Nat → Rule Expr
  | 0 => unexpected .expression none
  | n + 1 => disjunctionLevel (nested n)

/-- An expression.  It ends before the first token that cannot continue it. -/
def expression : Rule Expr := do
  nested (← budget)

/-- The expression at the start of some tokens, and how many of them it takes. -/
def ofTokens : List Token → Except ParseError (Nat × Expr)
  | [] => .error .noTokens
  | first :: rest =>
    match expression (Cursor.start first rest) with
    | .ok e c => .ok (rest.length - c.rest.length, e)
    | .error error _ => .error error

end Expr
end QueryPipeline
