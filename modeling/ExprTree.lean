import ExprTree.Ty.Supertypes
import ExprTree.Ty.Text
import ExprTree.Member
import ExprTree.Number.Decimal
import ExprTree.Text.Escape
import ExprTree.Value.Literal
import ExprTree.Expr.Kind
import ExprTree.Expr.Children
import ExprTree.Lowering
import ExprTree.Source.Render
import ExprTree.Eval.Arithmetic
import ExprTree.Eval.Run
import ExprTree.Eval.Report
import ExprTree.Eval.Script
import ExprTree.Expr.Sharing
import ExprTree.Main
import ExprTree.Proofs.Traversal
import ExprTree.Proofs.Lowered
import ExprTree.Proofs.FreeLabels
import ExprTree.Proofs.Computation
import ExprTree.Proofs.Congruence
import ExprTree.Proofs.Comparison
import ExprTree.Proofs.DirectLoop
import ExprTree.Proofs.EndlessLoop
import ExprTree.Proofs.Exceptions
import ExprTree.Proofs.ForLoop
import ExprTree.Proofs.WhileLoop
import ExprTree.Proofs.References
import ExprTree.Proofs.Rules
import ExprTree.Proofs.Assigned
import ExprTree.Proofs.Scoping
import ExprTree.Proofs.LoweredRun
import ExprTree.Proofs.LabelSafety
import ExprTree.Proofs.DirectForEach
import ExprTree.Proofs.ForEachLoop
import ExprTree.Proofs.TypeOrder
import ExprTree.Proofs.Acceptance
import ExprTree.Proofs.Drafting
import ExprTree.Proofs.Refusal
import ExprTree.Proofs.Spelling
import ExprTree.Proofs.Readability
import ExprTree.Proofs.Pieces
import ExprTree.Proofs.RootKind
import ExprTree.Proofs.UsingBlock
import ExprTree.Proofs.Combining
import ExprTree.Proofs.Predicates
import ExprTree.Proofs.VectorLoop
import ExprTree.Proofs.VectorVisits
import ExprTree.Proofs.StaticTypes
import ExprTree.Proofs.Updates
import ExprTree.Proofs.Writing
import ExprTree.Proofs.Wrappers
import ExprTree.Proofs.Indentation
import ExprTree.Proofs.WrittenParts
import ExprTree.Proofs.BlockLines
import ExprTree.Proofs.Brackets
import ExprTree.Proofs.Literals
import ExprTree.Proofs.MadeUpNames
import ExprTree.Proofs.Markup
import ExprTree.Proofs.Integers
import ExprTree.Proofs.Conversions
import ExprTree.Proofs.Shifts
import ExprTree.Proofs.EnumerationProtocol
import ExprTree.Proofs.Rewriting
import ExprTree.Proofs.PlainObjects
import ExprTree.Proofs.LineLayout
