import QueryPipeline.Filter
import QueryPipeline.Json.Writer
import QueryPipeline.Value.Same

/-!
# Conditions

A pipeline filters rows by a list of conditions that all have to hold.  A condition compares a
column with a value, or tests whether a column is among some values, or joins other conditions.
Chains of one connective are flattened: the parts of `a AND (b AND c)` are `a`, `b` and `c`.

Values are put down so that they can stand in generated code: a text is quoted as JSON, a number is
as it is, and a column is its name.
-/

namespace QueryPipeline

/-- The comparison operators.  `<>` and `!=` mean the same, and each keeps its spelling. -/
inductive Comparator where
  | eq | ne | unequal | lt | le | gt | ge | like
deriving DecidableEq, Repr

namespace Comparator

def symbol : Comparator → String
  | eq => "="
  | ne => "!="
  | unequal => "<>"
  | lt => "<"
  | le => "<="
  | gt => ">"
  | ge => ">="
  | like => "LIKE"

def all : List Comparator := [eq, ne, unequal, lt, le, gt, ge, like]

def ofSymbol? (s : String) : Option Comparator :=
  all.find? (·.symbol == s)

/-- The comparison with its sides exchanged. -/
def swapped : Comparator → Comparator
  | lt => gt
  | gt => lt
  | le => ge
  | ge => le
  | c => c

end Comparator

inductive Condition where
  | comparison (column : String) (operator : Comparator) (value : Value)
  | membership (column : String) (values : List Value) (negated : Bool)
  | junction (connective : Connective) (parts : List Condition)
deriving Repr

def Connective.tag : Connective → String
  | and => "and"
  | or => "or"

namespace Condition

mutual

def toJson : Condition → Value
  | .comparison column operator value =>
    .obj
      [("type", .str "comparison"), ("column", .str column), ("operator", .str operator.symbol),
       ("value", value)]
  | .membership column values negated =>
    .obj
      [("type", .str "in_expression"), ("column", .str column), ("values", .arr values),
       ("negated", .bool negated)]
  | .junction connective parts =>
    .obj [("type", .str connective.tag), ("conditions", .arr (toJsons parts))]

def toJsons : List Condition → List Value
  | [] => []
  | c :: rest => toJson c :: toJsons rest

end

/-! ## Leaves -/

def isColumn (node : Value) : Bool :=
  node.field "type" == .str "column"

/-- The name that a node has to have. -/
def requiredName (part : Part) (node : Value) : Except Problem String :=
  match node.field "name" with
  | .str name => if name = "" then .error (.missingName part node) else .ok name
  | _ => .error (.missingName part node)

/-- The negative of a number. -/
def negative? : Value → Option Value
  | .int i => some (.int (-i))
  | .real x => some (.real x.neg)
  | _ => none

mutual

/-- The value that an operand is put down as. -/
def valueOf : Value → Except Problem Value
  | .null => .ok .null
  | .bool b => .ok (.bool b)
  | .int i => .ok (.int i)
  | .real x => .ok (.real x)
  | .str s => .ok (.str (Json.quote s))
  | .obj fields =>
    let node := Value.obj fields
    let unsupported : Except Problem Value := .error (.unsupportedValue node)
    match node.field "type" with
    | .str "string" =>
      match node.field "value" with
      | .str s => .ok (.str (Json.quote s))
      | _ => unsupported
    | .str "number" =>
      if (node.field "value").isNumber then .ok (node.field "value") else unsupported
    | .str "null" => .ok .null
    | .str "column" => do
      let name ← requiredName .filter node
      return .str name
    | .str "unary_op" =>
      if node.field "operator" = .str "-" then do
        match negative? (← operandValue fields) with
        | some v => return v
        | none => unsupported
      else unsupported
    | _ => unsupported
  | v => .error (.unsupportedValue v)

/-- The value of the operand among the fields of an operation. -/
def operandValue : List (String × Value) → Except Problem Value
  | [] => .ok .null
  | (k, v) :: rest => if k = "operand" then valueOf v else operandValue rest

end

def valuesOf : List Value → Except Problem (List Value)
  | [] => .ok []
  | v :: rest => do
    let first ← valueOf v
    let others ← valuesOf rest
    return first :: others

/-- The comparator of an operator, if it is one.  What cannot be a member of a set cannot be looked
up. -/
def comparator? (operator : Value) : Except PipelineError (Option Comparator) :=
  match operator, operator.unhashable? with
  | _, some typeName => .error (.unhashable typeName)
  | .str s, none => .ok (Comparator.ofSymbol? s)
  | _, none => .ok none

/-- A comparison of two operands, with the column on the left.  When only the right operand is a
column, the sides are exchanged. -/
def compare (operator : Comparator) (left right : Value) : Except Problem Condition := do
  if left = .null ∨ right = .null then throw (.comparisonOperands operator.symbol)
  if isColumn left then
    let column ← requiredName .filter left
    return .comparison column operator (← valueOf right)
  else if isColumn right then
    let column ← requiredName .filter right
    return .comparison column operator.swapped (← valueOf left)
  else throw (.comparisonColumn operator.symbol)

/-- A membership test of a column. -/
def member (subject values : Value) (negated : Bool) : Except Problem Condition := do
  if !isColumn subject then throw .membershipSubject
  match values with
  | .arr items =>
    let column ← requiredName .filter subject
    return .membership column (← valuesOf items) negated
  | _ => throw (.membershipValues values)

def problem {α : Type} : Except Problem α → Except PipelineError α
  | .ok a => .ok a
  | .error p => .error (.problem p)

/-- The condition that a leaf of a filter makes. -/
def ofLeaf (node : Value) : Except PipelineError Condition := do
  match node.field "type" with
  | .str "in_expression" =>
    problem (member (node.field "expression") (node.field "values") (node.field "negated").truthy)
  | .str "binary_op" =>
    match ← comparator? (node.field "operator") with
    | some operator => problem (compare operator (node.field "left") (node.field "right"))
    | none => throw (.problem (.unsupportedCondition node))
  | _ => throw (.problem (.unsupportedCondition node))

/-! ## Filters -/

/-- The conditions that a filter contributes to a chain of a connective: a chain of the same
connective is spliced in, and anything else is one condition. -/
def parts : Connective → Filter → Except PipelineError (List Condition)
  | _, .missing => .error (.problem (.unsupportedCondition .null))
  | _, .leaf node => do
    let c ← ofLeaf node
    return [c]
  | c, .junction d left right =>
    if d = c then do
      let first ← parts c left
      let second ← parts c right
      return first ++ second
    else if (Filter.junction d left right).complete d then do
      let first ← parts d left
      let second ← parts d right
      return [.junction d (first ++ second)]
    else .error (.problem (.missingOperand d))

/-- The conditions of a filter, which all have to hold. -/
def ofFilter : Filter → Except PipelineError (List Condition)
  | .missing => .ok []
  | filter =>
    if filter.complete .and then parts .and filter else .error (.problem (.missingOperand .and))

/-! ## Timestamps -/

/-- The column that a leaf of a filter applies to, if it has one. -/
def leafColumn? (node : Value) : Except PipelineError (Option String) := do
  let named (column : Value) : Option String :=
    match isColumn column, column.field "name" with
    | true, .str name => some name
    | _, _ => none
  match node.field "type" with
  | .str "in_expression" => return named (node.field "expression")
  | .str "binary_op" =>
    match ← comparator? (node.field "operator") with
    | some _ =>
      let left := node.field "left"
      return named (if isColumn left then left else node.field "right")
    | none => return none
  | _ => return none

/-- Whether a text occurs in another one. -/
def occursIn (needle : List Char) : List Char → Bool
  | [] => needle.isEmpty
  | c :: cs => needle.isPrefixOf (c :: cs) || occursIn needle cs

/-- The words that tell a timestamp by the name of its column. -/
def timestampWords : List String := ["time", "date", "created", "updated", "timestamp", "ts"]

def soundsLike (words : List String) (name : String) : Bool :=
  words.any fun w => occursIn w.toList (Text.lower name).toList

/-- The first column of some leaves that has one of some words in its name. -/
def firstColumn (words : List String) : List Value → Except PipelineError (Option String)
  | [] => .ok none
  | node :: rest => do
    match ← leafColumn? node with
    | some name => if soundsLike words name then return some name else firstColumn words rest
    | none => firstColumn words rest

/-- The first column of a filter that sounds like a timestamp. -/
def timestampColumn (words : List String) (filter : Filter) :
    Except PipelineError (Option String) :=
  firstColumn words filter.leaves

end Condition
end QueryPipeline
