import ExprTree.Ty.Basic

/-!
The text of a type, as messages and reports show it.
-/

namespace ExprTree

/-- The given number of commas. -/
def commas (n : Nat) : String := String.ofList (List.replicate n ',')

mutual

/-- The keyword of a primitive type; an array as its element and one comma less than its rank in
brackets; a declared type as its name and its type arguments. An open definition shows only how
many arguments it takes. -/
def Ty.text : Ty → String
  | .void => "void"
  | .boolean => "bool"
  | .char => "char"
  | .string => "string"
  | .object => "object"
  | .integral k => k.keyword
  | .single => "float"
  | .double => "double"
  | .decimal => "decimal"
  | .array element rank => element.text ++ "[" ++ commas (rank - 1) ++ "]"
  | .parameter name => name
  | .named d => d.text
termination_by structural t => t

/-- The text of a declared type. -/
def Named.text : Named → String
  | ⟨name, _, arguments, definition, _, _, _⟩ =>
    if definition then name ++ "<" ++ commas (arguments.length - 1) ++ ">"
    else if arguments.isEmpty then name
    else name ++ "<" ++ Ty.textList arguments ++ ">"
termination_by structural d => d

/-- Texts separated by a comma and a space. -/
def Ty.textList : List Ty → String
  | [] => ""
  | t :: ts => t.text ++ Ty.textRest ts
termination_by structural ts => ts

/-- Texts with a comma and a space before each. -/
def Ty.textRest : List Ty → String
  | [] => ""
  | t :: ts => ", " ++ t.text ++ Ty.textRest ts
termination_by structural ts => ts

end

end ExprTree
