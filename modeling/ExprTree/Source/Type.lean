import ExprTree.Source.Draft

/-!
Types in source text.
-/

namespace ExprTree.Source

/-- One comma for each argument but the first, in angle brackets. -/
def placeholders (arity : Nat) : List Mark :=
  .step (.token "<") :: List.replicate (arity - 1) (.step (.token ",")) ++ [.step (.token ">")]

/-- Marks that follow each other with a comma and a space between. -/
def commaMarks : List (List Mark) → List Mark
  | [] => []
  | [m] => m
  | m :: ms => m ++ .step (.token ",") :: .step .space :: commaMarks ms

mutual

/-- The marks of a type. Every name in it refers to the type that it names. -/
def typeMarks : Ty → List Mark
  | .array element rank =>
    typeMarks element ++ .step (.token "[") ::
      List.replicate (rank - 1) (.step (.token ",")) ++ [.step (.token "]")]
  | .parameter name => [.step (.reference name (.type (.parameter name)))]
  | .named d => .step (.reference d.name (.type (.named d))) :: argumentMarks d
  | .void => [.step (.reference "void" (.type .void))]
  | .boolean => [.step (.reference "bool" (.type .boolean))]
  | .char => [.step (.reference "char" (.type .char))]
  | .string => [.step (.reference "string" (.type .string))]
  | .object => [.step (.reference "object" (.type .object))]
  | .integral k => [.step (.reference k.keyword (.type (.integral k)))]
  | .single => [.step (.reference "float" (.type .single))]
  | .double => [.step (.reference "double" (.type .double))]
  | .decimal => [.step (.reference "decimal" (.type .decimal))]
termination_by structural t => t

/-- The marks of a declaration's type arguments. -/
def argumentMarks : Named → List Mark
  | ⟨_, _, arguments, definition, _, _, _⟩ =>
    if definition then placeholders arguments.length
    else if arguments.isEmpty then []
    else .step (.token "<") :: commaMarks (typeMarksList arguments) ++ [.step (.token ">")]
termination_by structural d => d

def typeMarksList : List Ty → List (List Mark)
  | [] => []
  | t :: ts => typeMarks t :: typeMarksList ts
termination_by structural ts => ts

end

/-- A type. -/
def writeType (t : Ty) : Draft := .ofMarks (typeMarks t)

/-- The type arguments of a method. -/
def methodArguments (m : Method) : Draft :=
  if m.definition then .ofMarks (placeholders m.genericArguments.length)
  else if m.genericArguments.isEmpty then .empty
  else listed "<" ">" (m.genericArguments.map writeType)

/-- Parameters with their types, in parentheses. -/
def writeParameters (parameters : List Parameter) : Draft :=
  listed "(" ")" (parameters.map fun p => writeType p.type ++ space ++ parameterName p)

end ExprTree.Source
