import ExprTree.Combine
import ExprTree.Eval.Failure
import ExprTree.Source.Draft
import ExprTree.Source.Style

/-!
What can go wrong between picking a sample and printing it.
-/

namespace ExprTree.Command

inductive Problem where
  | unknownSample (name : String)
  | build (error : CombineError)
  | lowering (error : BuildError)
  | render (error : Source.RenderError)
  | argument (text : String) (type : Ty)
  | evaluation (failure : Failure)
  | unfinished

namespace Problem

def message : Problem → String
  | .unknownSample name => "no sample named " ++ name ++ "; try 'exprfmt list'"
  | .build error => "could not build the tree: " ++ error.message
  | .lowering error => "could not reduce the tree: " ++ error.message
  | .render error => "could not write the tree: " ++ error.message
  | .argument text type => "invalid argument " ++ text ++ " for a parameter of type " ++ type.text
  | .evaluation failure => "evaluation failed: " ++ failure.message
  | .unfinished => "evaluation did not end"

/-- A problem with a sample, on one line for a terminal. -/
def report (sample : String) (p : Problem) : String :=
  Source.controlSequence "91" ++ "error" ++ Source.controlSequence "39" ++ ": " ++ sample ++ ": " ++
    Source.Paint.ansi.emboldened p.message

end Problem

end ExprTree.Command
