import ExprTree.Number.Decimal
import ExprTree.Text.Escape
import ExprTree.Ty.Text
import ExprTree.Value.Basic

/-!
The source text of a constant, and the text a value becomes when it is joined to a string.
-/

namespace ExprTree.Value

/-- The source text of a constant. -/
def literal : Value → String
  | .void => ""
  | .null => "null"
  | .boolean b => if b then "true" else "false"
  | .char c => Text.quoted '\'' [c]
  | .string s => Text.quoted '"' s.toList
  | .integral k bits => toString (k.toInt bits)
  | .single x => (readSingle x).text
  | .double x => (readDouble x).text
  | .array _ element => (Ty.vector element).text
  | .object o => o.type.text
  | .type t => "typeof(" ++ t.text ++ ")"

/-- What joining a value to a string adds to the string. -/
def joined : Value → String
  | .void | .null => ""
  | .boolean b => if b then "True" else "False"
  | .char c => c.toString
  | .string s => s
  | .integral k bits => toString (k.toInt bits)
  | .single x => (readSingle x).text
  | .double x => (readDouble x).text
  | .array _ element => (Ty.vector element).text
  | .object o => o.type.text
  | .type t => t.text

end ExprTree.Value
