import QueryPipeline.Descriptor
import QueryPipeline.Script
import QueryPipeline.Tree.OfStatement

/-!
# The pipeline of a text

A text is read as a query, and a pipeline is built from its tree and a configuration.  Both can
fail, and the notes of both are kept, also when the second fails.
-/

namespace QueryPipeline

/-- Why a text and a configuration do not make a pipeline. -/
inductive QueryError where
  | unreadable (error : SyntaxError)
  | unbuildable (error : PipelineError)
deriving DecidableEq, Repr

def QueryError.message : QueryError → String
  | .unreadable e => e.message
  | .unbuildable e => e.message

/-- The descriptor of the query in a text, under a configuration; with the notes taken. -/
def Descriptor.ofText (text : String) (config : Value) :
    Except QueryError Descriptor × List Note :=
  match Script.parse text with
  | (.error e, notes) => (.error (.unreadable e), notes)
  | (.ok all, notes) =>
    match Descriptor.build (Script.toTree all) config notes with
    | .ok d notes => (.ok d, notes)
    | .error e notes => (.error (.unbuildable e), notes)

end QueryPipeline
