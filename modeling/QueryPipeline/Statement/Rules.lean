import QueryPipeline.Expr.Rules
import QueryPipeline.Statement.Basic

/-!
# The grammar of statements

Each clause is a rule, and the statement rules put them in their fixed order:

    SELECT [DISTINCT] items [FROM table] joins [WHERE e] [GROUP BY es] [HAVING e]
      [ORDER BY e [ASC|DESC], ...] [LIMIT n] [OFFSET n]
    INSERT INTO table [(names)] VALUES (es), ...
    UPDATE table SET name = e, ... [WHERE e]
    DELETE FROM table [WHERE e]

An expression inside a statement is read as a whole or not at all: when it fails, the cursor stays
where the expression starts.
-/

namespace QueryPipeline.Statement

open Rule

/-- Take a token that a statement needs. -/
def need (k : Kind) : Rule Token :=
  consume .statement k

/-- Take a token several times, and give the last one. -/
def takeMany : Nat → Rule Token
  | 0 => do return (← get).current
  | 1 => advance
  | n + 1 => do
    let _ ← advance
    takeMany n

/-- Move over several tokens and give the last one taken.  Behind the last of all tokens nothing
changes any more, so there is no need to try more often than there are tokens. -/
def advanceBy (count : Nat) : Rule Token := do
  takeMany (min count (← budget))

/-- An expression, read from the current token on.  A failure does not move the cursor. -/
def expression : Rule Expr := fun c =>
  if c.overrun = 0 then
    match Expr.expression c with
    | .ok e c' => .ok e c'
    | .error error _ => .error error c
  else .error .noTokens c

def expressions : Rule (List Expr) :=
  sepBy (.mark .comma) expression

/-- The text of a name. -/
def name : Rule String := do
  let token ← need .identifier
  return token.text

/-- The alias of a table, with or without `AS`. -/
def tableAlias : Rule (Option String) := do
  match ← look with
  | .keyword .AS =>
    let _ ← advance
    let n ← name
    return some n
  | .identifier =>
    let token ← advance
    return some token.text
  | _ => return none

/-- A table, with its schema in front and an alias behind it; `AS` may be left out. -/
def tableRef : Rule TableRef := do
  let first ← name
  let second ← after (.mark .dot) name
  let aliasName ← tableAlias
  match second with
  | some table => return ⟨table, some first, aliasName⟩
  | none => return ⟨first, none, aliasName⟩

def whereClause : Rule (Option Expr) :=
  after (.keyword .WHERE) expression

/-! ## SELECT -/

/-- The kinds that can follow an item of a select list.  In front of one of them, a name without
`AS` is not taken as an alias. -/
def endsItem : Kind → Bool
  | .eof => true
  | .mark .comma => true
  | .mark .semicolon => true
  | .keyword .FROM => true
  | .keyword .WHERE => true
  | .keyword .GROUP => true
  | .keyword .HAVING => true
  | .keyword .ORDER => true
  | .keyword .LIMIT => true
  | _ => false

/-- The alias of an item, with or without `AS`. -/
def itemAlias : Rule (Option String) := do
  match ← look with
  | .keyword .AS =>
    let _ ← advance
    let n ← name
    return some n
  | .identifier =>
    if endsItem (← lookNext) then return none
    else
      let token ← advance
      return some token.text
  | _ => return none

/-- Put an alias on an item.  What cannot have one keeps none, and a note is taken. -/
def withAlias (e : Expr) : Option String → Rule Expr
  | none => pure e
  | some aliasName =>
    match e.withAlias? aliasName with
    | some named => pure named
    | none => do
      modify fun c => { c with notes := c.notes ++ [.aliasIgnored aliasName e.shape] }
      return e

/-- An item of a select list.  An asterisk in front is an item of its own. -/
def selectItem : Rule Expr := do
  if ← accept (.sign .asterisk) then return Expr.wildcard none
  else
    let e ← expression
    let aliasName ← itemAlias
    withAlias e aliasName

def selectList : Rule (List Expr) :=
  sepBy (.mark .comma) selectItem

/-- The words in front of `JOIN`.  A plain join is an inner one. -/
def joinKind : Rule JoinKind := do
  match ← look with
  | .keyword .LEFT =>
    let _ ← advance
    let _ ← accept (.keyword .OUTER)
    return .left
  | .keyword .RIGHT =>
    let _ ← advance
    let _ ← accept (.keyword .OUTER)
    return .right
  | .keyword .OUTER =>
    let _ ← advance
    return .outer
  | .keyword .INNER =>
    let _ ← advance
    return .inner
  | _ => return .inner

def joinClause : Rule Join := do
  let kind ← joinKind
  let _ ← need (.keyword .JOIN)
  let table ← tableRef
  let condition ← after (.keyword .ON) expression
  return ⟨kind, table, condition⟩

def startsJoin : Kind → Bool
  | .keyword .JOIN => true
  | .keyword .LEFT => true
  | .keyword .RIGHT => true
  | .keyword .INNER => true
  | .keyword .OUTER => true
  | _ => false

/-- Joins, as long as there are any. -/
def joins : Nat → Rule (List Join)
  | 0 => pure []
  | n + 1 => do
    if startsJoin (← look) then
      let join ← joinClause
      let more ← joins n
      return join :: more
    else return []

def sortKey : Rule SortKey := do
  let e ← expression
  match ← look with
  | .keyword .ASC =>
    let _ ← advance
    return ⟨e, .ascending⟩
  | .keyword .DESC =>
    let _ ← advance
    return ⟨e, .descending⟩
  | _ => return ⟨e, .ascending⟩

def sortKeys : Rule (List SortKey) :=
  sepBy (.mark .comma) sortKey

/-- A whole number, as a bound of the rows. -/
def rowCount : Rule Int := do
  let token := (← get).current
  if (← look) = .number ∧ '.' ∉ token.text.toList then
    let _ ← advance
    match Integer.read token.text with
    | .ok n => return n
    | .error e => throw (.integer e)
  else unexpected .statement (some .integer)

def selectStatement : Rule Select := do
  let _ ← need (.keyword .SELECT)
  let distinct ← accept (.keyword .DISTINCT)
  let columns ← selectList
  let source ← after (.keyword .FROM) tableRef
  let joins ← joins (← budget)
  let condition ← whereClause
  let grouping ← after (.keyword .GROUP) do
    let _ ← need (.keyword .BY)
    expressions
  let having ← after (.keyword .HAVING) expression
  let sortKeys ← after (.keyword .ORDER) do
    let _ ← need (.keyword .BY)
    sortKeys
  let limit ← after (.keyword .LIMIT) rowCount
  let offset ← after (.keyword .OFFSET) rowCount
  return { columns, source, condition, joins, grouping, having, sortKeys, limit, offset, distinct }

/-! ## The other statements -/

/-- The names of the columns of an insertion; none when there is no list of them. -/
def columnNames : Rule (List String) := do
  if ← accept (.mark .lparen) then
    let names ← sepBy (.mark .comma) name
    let _ ← need (.mark .rparen)
    return names
  else return []

/-- A row of an insertion. -/
def row : Rule (List Expr) := do
  let _ ← need (.mark .lparen)
  let values ← expressions
  let _ ← need (.mark .rparen)
  return values

def insertStatement : Rule Insert := do
  let _ ← need (.keyword .INSERT)
  let _ ← need (.keyword .INTO)
  let table ← tableRef
  let columns ← columnNames
  let _ ← need (.keyword .VALUES)
  let rows ← sepBy (.mark .comma) row
  return ⟨table, columns, rows⟩

def assignment : Rule Assignment := do
  let column ← name
  let _ ← need (.sign .eq)
  let value ← expression
  return ⟨column, value⟩

def updateStatement : Rule Update := do
  let _ ← need (.keyword .UPDATE)
  let table ← tableRef
  let _ ← need (.keyword .SET)
  let assignments ← sepBy (.mark .comma) assignment
  let condition ← whereClause
  return ⟨table, assignments, condition⟩

def deleteStatement : Rule Delete := do
  let _ ← need (.keyword .DELETE)
  let _ ← need (.keyword .FROM)
  let table ← tableRef
  let condition ← whereClause
  return ⟨table, condition⟩

/-- The rule for the statement that a word starts. -/
def ruleFor? : Kind → Option (Rule Statement)
  | .keyword .SELECT => some (.select <$> selectStatement)
  | .keyword .INSERT => some (.insert <$> insertStatement)
  | .keyword .UPDATE => some (.update <$> updateStatement)
  | .keyword .DELETE => some (.delete <$> deleteStatement)
  | _ => none

end QueryPipeline.Statement
