import QueryPipeline.Shape

/-!
# Expressions

The expressions of the query language: column references, literals, operators, function calls,
membership tests and `CASE`.  A number keeps the text it was written with; what it means is decided
by whoever uses it.
-/

namespace QueryPipeline

inductive BinaryOperator where
  | or | and | eq | ne | lt | le | gt | ge | like | add | sub | mul | div | mod
deriving DecidableEq, Repr

def BinaryOperator.symbol : BinaryOperator → String
  | or => "OR"
  | and => "AND"
  | eq => "="
  | ne => "!="
  | lt => "<"
  | le => "<="
  | gt => ">"
  | ge => ">="
  | like => "LIKE"
  | add => "+"
  | sub => "-"
  | mul => "*"
  | div => "/"
  | mod => "%"

inductive UnaryOperator where
  | not | neg
deriving DecidableEq, Repr

def UnaryOperator.symbol : UnaryOperator → String
  | not => "NOT"
  | neg => "-"

inductive Literal where
  | number (text : String)
  | string (value : String)
  | null
deriving DecidableEq, Repr

/-- A column, possibly of a named table and under an alias.  The name `*` is the wildcard. -/
structure ColumnRef where
  name : String
  table : Option String
  aliasName : Option String
deriving DecidableEq, Repr

inductive Expr where
  | column (ref : ColumnRef)
  | literal (value : Literal)
  | binary (left : Expr) (operator : BinaryOperator) (right : Expr)
  | unary (operator : UnaryOperator) (operand : Expr)
  | call (name : String) (arguments : List Expr) (distinct : Bool) (aliasName : Option String)
  | membership (subject : Expr) (values : List Expr) (negated : Bool)
  | caseOf (operand : Option Expr) (whens : List (Expr × Expr)) (otherwise : Option Expr)
deriving Repr, Inhabited

namespace Expr

def shape : Expr → Shape
  | column .. => .column
  | literal .. => .literal
  | binary .. => .binary
  | unary .. => .unary
  | call .. => .call
  | membership .. => .membership
  | caseOf .. => .caseOf

/-- All columns of a table, or of the query. -/
def wildcard (table : Option String) : Expr :=
  .column ⟨"*", table, none⟩

/-- Give an expression an alias.  Only columns and calls can have one. -/
def withAlias? (aliasName : String) : Expr → Option Expr
  | column ref => some (.column { ref with aliasName := some aliasName })
  | call name arguments distinct _ => some (.call name arguments distinct (some aliasName))
  | _ => none

end Expr
end QueryPipeline
