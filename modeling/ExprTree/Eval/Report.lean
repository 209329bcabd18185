import ExprTree.Eval.Heap
import ExprTree.Number.Decimal
import ExprTree.Text.Escape
import ExprTree.Ty.Text

/-!
Reports: values with the name of their kind, and arrays with what they hold.
-/

namespace ExprTree

/-- A value as a report shows it, arrays down to a depth. -/
def Heap.reportWithin (h : Heap) : Nat → Value → String
  | _, .void => "Void"
  | _, .null => "Null"
  | _, .boolean b => "Boolean(" ++ toString b ++ ")"
  | _, .char c => "Char(" ++ Text.reported '\'' [c] ++ ")"
  | _, .string s => "String(" ++ Text.reported '"' s.toList ++ ")"
  | _, .integral k bits => k.name ++ "(" ++ toString (k.toInt bits) ++ ")"
  | _, .single x => "Single(" ++ (readSingle x).text ++ ")"
  | _, .double x => "Double(" ++ (readDouble x).text ++ ")"
  | _, .object o => "Object(" ++ o.type.text ++ ")"
  | _, .type t => "Type(" ++ t.text ++ ")"
  | 0, .array _ element => "Array<" ++ element.text ++ ">[...]"
  | depth + 1, .array r element =>
    "Array<" ++ element.text ++ ">[" ++
      ", ".intercalate ((h.elements r).toList.map (h.reportWithin depth)) ++ "]"

/-- A value as a report shows it. Arrays that do not hold themselves are shown whole. -/
def Heap.report (h : Heap) (v : Value) : String := h.reportWithin h.cells.size v

end ExprTree
