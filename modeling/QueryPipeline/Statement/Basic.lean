import QueryPipeline.Expr.Basic

/-!
# Statements

The four statements of the query language with their clauses.  A clause that may be absent is an
option; the tree says what the query contains and nothing is checked across clauses.
-/

namespace QueryPipeline

/-- A table, possibly of a named schema and under an alias. -/
structure TableRef where
  name : String
  schema : Option String
  aliasName : Option String
deriving DecidableEq, Repr

inductive JoinKind where
  | inner | left | right | outer
deriving DecidableEq, Repr

def JoinKind.name : JoinKind → String
  | inner => "INNER"
  | left => "LEFT"
  | right => "RIGHT"
  | outer => "OUTER"

structure Join where
  kind : JoinKind
  table : TableRef
  condition : Option Expr
deriving Repr

inductive Direction where
  | ascending | descending
deriving DecidableEq, Repr

def Direction.name : Direction → String
  | ascending => "ASC"
  | descending => "DESC"

structure SortKey where
  expression : Expr
  direction : Direction
deriving Repr

structure Select where
  columns : List Expr
  source : Option TableRef
  condition : Option Expr
  joins : List Join
  grouping : Option (List Expr)
  having : Option Expr
  sortKeys : Option (List SortKey)
  limit : Option Int
  offset : Option Int
  distinct : Bool
deriving Repr

structure Insert where
  table : TableRef
  columns : List String
  rows : List (List Expr)
deriving Repr

structure Assignment where
  column : String
  value : Expr
deriving Repr

structure Update where
  table : TableRef
  assignments : List Assignment
  condition : Option Expr
deriving Repr

structure Delete where
  table : TableRef
  condition : Option Expr
deriving Repr

inductive Statement where
  | select (s : Select)
  | insert (s : Insert)
  | update (s : Update)
  | delete (s : Delete)
deriving Repr

end QueryPipeline
