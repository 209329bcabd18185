import ExprTree.Expr.Children
import ExprTree.Source.Operator
import ExprTree.Value.Literal

/-!
Expressions and lambdas as source text.

Writing goes on with the parts of a node, or with a tree that is built in its place and may be
higher than the node was. `Expr.writingDepth` goes down either way, and bounds how deep writing
goes.
-/

namespace ExprTree

namespace Source

/-- One node, given how to write the nodes below it. -/
def writeNode (write : Expr → Draft) (e : Expr) : Draft :=
  match e.node with
  | .constant value _ => literal value.literal
  | .parameter p => parameterName p
  | .default type => keyword "default" ++ parenthesized (writeType type)
  | .lambda l =>
    writeParameters l.parameters ++ space ++ token "=>" ++ newline ++ lambdaBody write l
  | .unary op inner type => unary write op inner type
  | .binary op left right assign checked _ => binary write op left right assign checked
  | .typeTest op inner tested => typeTest write op inner tested
  | .block locals es type => block write locals es type
  | .conditional test ifTrue ifFalse type => conditional write test ifTrue ifFalse type
  | .loop inner _ _ =>
    keyword "for" ++ space ++ parenthesized (token ";" ++ token ";") ++ newline ++
      bodyLines write .void inner
  | .jump kind destination value => jump write kind destination value
  | .label l _ => labelLine l
  | .switch value cases fallback type => switch write value cases fallback type
  | .attempt inner handlers fault finalizer => attempt write inner handlers fault finalizer
  | .create type es => keyword "new" ++ space ++ writeType type ++ arguments write es
  | .newArray form type items => newArray write form type items
  | .listInit created is => write created ++ space ++ initializers write is
  | .memberInit created bindings =>
    write created ++ newline ++ braced (bindingLines write bindings)
  | .call inner method es => called write (receiver write inner method.declaring) method es
  | .member inner m => accessed (receiver write inner m.declaring) m.name (.member m)
  | .invocation inner es _ => target write inner ++ arguments write es
  | .index inner es _ => target write inner ++ listed "[" "]" (es.map write)
  | .forLoop counter start test step inner _ _ =>
    headed write "for"
      (between (writeType counter.type ++ space ++ parameterName counter) "=" (write start) ++
        token ";" ++ space ++ write test ++ token ";" ++ space ++ write step)
      inner
  | .forEach item source inner _ _ =>
    headed write "foreach"
      (writeType item.type ++ space ++ parameterName item ++ space ++ keyword "in" ++ space ++
        write source)
      inner
  | .whileLoop test inner _ _ => headed write "while" (write test) inner
  | .doWhile inner test _ _ =>
    introduced write "do" .void inner ++ keyword "while" ++ space ++ parenthesized (write test) ++
      token ";" ++ newline
  | .usingBlock resource inner => headed write "using" (write resource) inner

end Source

/-- How many nodes are written one inside the other, from a node of this kind down to one of its
children: itself, and those of a tree that is built in its place. -/
def Kind.writingSteps : Kind → Nat
  | .unary .isTrue | .unary .isFalse | .unary .increment | .unary .decrement
  | .unary .arrayLength | .typeTest .typeEqual | .binary .power false _ => 2
  | .binary .power true _ => 3
  | _ => 1

/-- How many nodes are written one inside the other, at most. -/
def Expr.writingDepth : Expr → Nat :=
  Expr.recurse (fun _ => 0) fun depth e =>
    e.kind.writingSteps + (e.children.map depth).foldr max 0

/-- An expression as source text. -/
def Expr.draft : Expr → Source.Draft :=
  Expr.recurseBy Expr.writingDepth (fun _ => .empty) Source.writeNode

open Source in
/-- A lambda as a method: what it returns, its name if it has one, its parameters and its body. -/
def Lambda.draft (l : Lambda) : Source.Draft :=
  let name : Draft :=
    match l.name with
    | some name => identifier name (.lambda l)
    | none => .empty
  writeType l.returns ++ space ++ name ++ writeParameters l.parameters ++ newline ++
    lambdaBody Expr.draft l

end ExprTree
