import QueryPipeline.Canonical

/-!
# Why there is no pipeline

A query or a configuration from which no pipeline can be built has a problem, and each problem
belongs to a part of the query or of the configuration.
-/

namespace QueryPipeline

/-- The logical connectives. -/
inductive Connective where
  | and | or
deriving DecidableEq, Repr

def Connective.name : Connective → String
  | and => "AND"
  | or => "OR"

/-- The parts that a problem can belong to. -/
inductive Part where
  | query | config | sink | batchSize | source | columns | filter
deriving DecidableEq, Repr

def Part.name : Part → String
  | query => "query"
  | config => "config"
  | sink => "sink"
  | batchSize => "batch_size"
  | source => "from"
  | columns => "columns"
  | filter => "where"

inductive Problem where
  | statementCount (count : Nat)
  | notAStatement (typeName : String)
  | configNotAMap
  | sinkNotAMap
  | batchSize (value : Value)
  | noSource (type : Value)
  | tableName (value : Value)
  | columnsNotAList (value : Value)
  | computedColumn (type : Value)
  | columnAlias (value : Value)
  | missingName (part : Part) (node : Value)
  | missingOperand (connective : Connective)
  | membershipSubject
  | membershipValues (value : Value)
  | comparisonOperands (operator : String)
  | comparisonColumn (operator : String)
  | unsupportedCondition (node : Value)
  | unsupportedValue (node : Value)
deriving DecidableEq, Repr

namespace Problem

def part : Problem → Part
  | statementCount _ => .query
  | notAStatement _ => .query
  | configNotAMap => .config
  | sinkNotAMap => .sink
  | batchSize _ => .batchSize
  | noSource _ => .source
  | tableName _ => .source
  | columnsNotAList _ => .columns
  | computedColumn _ => .columns
  | columnAlias _ => .columns
  | missingName part _ => part
  | _ => .filter

def text : Problem → String
  | statementCount count => "Expected a single statement, got " ++ Text.natText count
  | notAStatement typeName => "Expected a statement, got " ++ typeName
  | configNotAMap => "Configuration must be a mapping"
  | sinkNotAMap => "Sink configuration must be a mapping"
  | batchSize value => "Must be a positive integer, got " ++ value.inspect
  | noSource type => "A " ++ type.plain ++ " without FROM can't be a pipeline source"
  | tableName value => "Invalid table name: " ++ value.inspect
  | columnsNotAList value => "Expected a list of columns, got " ++ value.inspect
  | computedColumn type =>
    "Computed column of type " ++ type.inspect ++ " can't be moved by a pipeline"
  | columnAlias value => "Invalid alias: " ++ value.inspect
  | missingName _ node => "Missing name in " ++ node.inspect
  | missingOperand connective => connective.name ++ " requires two operands"
  | membershipSubject => "IN requires a column on its left side"
  | membershipValues value => "IN requires a list of values, got " ++ value.inspect
  | comparisonOperands operator =>
    "Comparison " ++ Text.quoted operator ++ " requires two operands"
  | comparisonColumn operator =>
    "Comparison " ++ Text.quoted operator ++ " doesn't involve any column"
  | unsupportedCondition node => "Unsupported condition: " ++ node.inspect
  | unsupportedValue node => "Unsupported value in condition: " ++ node.inspect

/-- The part and what is wrong with it. -/
def message (p : Problem) : String :=
  p.part.name ++ ": " ++ p.text

end Problem

/-- Why building a pipeline fails.  Beside a problem of the query, an operator that is a list or a
map cannot be looked up at all, and a tree made by hand may have no canonical form. -/
inductive PipelineError where
  | problem (p : Problem)
  | unhashable (typeName : String)
  | canonical (error : CanonicalError)
deriving DecidableEq, Repr

def PipelineError.message : PipelineError → String
  | .problem p => p.message
  | .unhashable typeName => "unhashable type: '" ++ typeName ++ "'"
  | .canonical e => e.message

end QueryPipeline
