/-!
# Shapes of syntax nodes

The closed list of node shapes, with the names of their fields in order.  Every consumer of a syntax
tree dispatches on the shape.
-/

namespace QueryPipeline

/-- What a node of a syntax tree is.  The last three have no fields and occur only in trees made by
hand. -/
inductive Shape where
  | select | insert | update | delete
  | column | literal | binary | unary | call | membership | caseOf | whenThen
  | table | join | ordering | grouping | assignment
  | bare | bareExpression | bareStatement
deriving DecidableEq, Repr

namespace Shape

def name : Shape → String
  | select => "Select"
  | insert => "Insert"
  | update => "Update"
  | delete => "Delete"
  | column => "ColumnRef"
  | literal => "Literal"
  | binary => "BinaryOp"
  | unary => "UnaryOp"
  | call => "FunctionCall"
  | membership => "InExpression"
  | caseOf => "CaseExpression"
  | whenThen => "WhenClause"
  | table => "TableRef"
  | join => "Join"
  | ordering => "OrderBySpec"
  | grouping => "GroupBySpec"
  | assignment => "Assignment"
  | bare => "Node"
  | bareExpression => "Expression"
  | bareStatement => "Statement"

def fields : Shape → List String
  | select =>
    ["columns", "from_", "where", "joins", "group_by", "having", "order_by", "limit", "offset",
     "distinct"]
  | insert => ["table", "columns", "values"]
  | update => ["table", "assignments", "where"]
  | delete => ["table", "where"]
  | column => ["name", "table", "alias"]
  | literal => ["value", "kind"]
  | binary => ["left", "operator", "right"]
  | unary => ["operator", "operand"]
  | call => ["name", "arguments", "distinct", "alias"]
  | membership => ["expression", "values", "negated"]
  | caseOf => ["operand", "whens", "else_result"]
  | whenThen => ["condition", "result"]
  | table => ["name", "schema", "alias"]
  | join => ["kind", "table", "condition"]
  | ordering => ["expression", "direction"]
  | grouping => ["expressions"]
  | assignment => ["column", "value"]
  | bare => []
  | bareExpression => []
  | bareStatement => []

def all : List Shape :=
  [select, insert, update, delete, column, literal, binary, unary, call, membership, caseOf,
   whenThen, table, join, ordering, grouping, assignment, bare, bareExpression, bareStatement]

def ofName? (s : String) : Option Shape :=
  all.find? (·.name == s)

end Shape
end QueryPipeline
