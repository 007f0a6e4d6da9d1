import QueryPipeline.Statement.Basic
import QueryPipeline.Value.Basic

/-!
# The trees of expressions and statements

Every expression and statement as a tree in general form, with the fields in the order of its shape.
-/

namespace QueryPipeline

def ColumnRef.toTree (c : ColumnRef) : Value :=
  .node .column [.str c.name, .optional c.table, .optional c.aliasName]

def Literal.toTree : Literal → Value
  | .number text => .node .literal [.str text, .str "NUMBER"]
  | .string value => .node .literal [.str value, .str "STRING"]
  | .null => .node .literal [.null, .str "NULL"]

namespace Expr

mutual

def toTree : Expr → Value
  | .column ref => ref.toTree
  | .literal value => value.toTree
  | .binary left operator right =>
    .node .binary [toTree left, .str operator.symbol, toTree right]
  | .unary operator operand => .node .unary [.str operator.symbol, toTree operand]
  | .call name arguments distinct aliasName =>
    .node .call [.str name, .tuple (toTrees arguments), .bool distinct, .optional aliasName]
  | .membership subject values negated =>
    .node .membership [toTree subject, .tuple (toTrees values), .bool negated]
  | .caseOf operand whens otherwise =>
    .node .caseOf [optionTree operand, .tuple (branchTrees whens), optionTree otherwise]

def toTrees : List Expr → List Value
  | [] => []
  | e :: rest => toTree e :: toTrees rest

def optionTree : Option Expr → Value
  | none => .null
  | some e => toTree e

def branchTrees : List (Expr × Expr) → List Value
  | [] => []
  | (condition, result) :: rest =>
    .node .whenThen [toTree condition, toTree result] :: branchTrees rest

end

end Expr

def TableRef.toTree (t : TableRef) : Value :=
  .node .table [.str t.name, .optional t.schema, .optional t.aliasName]

def Join.toTree (j : Join) : Value :=
  .node .join [.str j.kind.name, j.table.toTree, Expr.optionTree j.condition]

def SortKey.toTree (k : SortKey) : Value :=
  .node .ordering [k.expression.toTree, .str k.direction.name]

def Assignment.toTree (a : Assignment) : Value :=
  .node .assignment [(ColumnRef.mk a.column none none).toTree, a.value.toTree]

def Value.optionalInt : Option Int → Value
  | some i => .int i
  | none => .null

def Select.toTree (s : Select) : Value :=
  .node .select
    [.tuple (Expr.toTrees s.columns),
     s.source.elim .null TableRef.toTree,
     Expr.optionTree s.condition,
     .tuple (s.joins.map Join.toTree),
     s.grouping.elim .null fun es => .node .grouping [.tuple (Expr.toTrees es)],
     Expr.optionTree s.having,
     s.sortKeys.elim .null fun keys => .tuple (keys.map SortKey.toTree),
     .optionalInt s.limit,
     .optionalInt s.offset,
     .bool s.distinct]

def Insert.toTree (s : Insert) : Value :=
  .node .insert
    [s.table.toTree, .tuple (s.columns.map .str),
     .tuple (s.rows.map fun row => .tuple (Expr.toTrees row))]

def Update.toTree (s : Update) : Value :=
  .node .update
    [s.table.toTree, .tuple (s.assignments.map Assignment.toTree), Expr.optionTree s.condition]

def Delete.toTree (s : Delete) : Value :=
  .node .delete [s.table.toTree, Expr.optionTree s.condition]

namespace Statement

def toTree : Statement → Value
  | .select s => s.toTree
  | .insert s => s.toTree
  | .update s => s.toTree
  | .delete s => s.toTree

end Statement

/-- A single statement is its own tree; several are a list of trees. -/
def Script.toTree : List Statement → Value
  | [s] => s.toTree
  | all => .arr (all.map Statement.toTree)

end QueryPipeline
