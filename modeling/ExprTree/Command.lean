import ExprTree.Command.Arguments
import ExprTree.Command.Problem
import ExprTree.Eval.Run
import ExprTree.Sample
import ExprTree.Source.Render

/-!
The command line tool: list the samples, show one as source text, run one.

`respond` is the whole tool as a function from arguments to what is printed.
-/

namespace ExprTree.Command

/-- What the tool prints, and the code it ends with. -/
structure Response where
  code : Nat
  output : String
  diagnosis : Option String := none

def version : String := "v0.3.0"

/-! ### Shapes -/

/-- Every command can be asked to say what it is doing. -/
def debugSwitch : Switch := { name := "debug" }

def listShape : Shape := { switches := [debugSwitch] }

def showShape : Shape where
  switches :=
    [debugSwitch, { name := "reduce" }, { name := "raw-control-chars", short := some 'R' },
      { name := "output", short := some 'o', values := some ["native", "typst", "plain"] }]
  places := 1

def runShape : Shape := { switches := [debugSwitch], places := 1, takesMore := true }

/-! ### Listing -/

/-- Text with blanks after it up to a width. -/
def padded (width : Nat) (text : String) : String :=
  text ++ String.ofList (List.replicate (width - text.length) ' ')

def listing : String :=
  String.join (Sample.all.map fun s => padded 12 s.name ++ s.summary ++ "\n")

/-! ### Showing -/

/-- A sample of the catalogue with its lambda, and the identities not used yet. -/
def buildSample (name : String) : Except Problem (Sample × Lambda × Supply) :=
  match Sample.find? name with
  | none => .error (.unknownSample name)
  | some sample =>
    match sample.build 0 with
    | .ok (l, supply) => .ok (sample, l, supply)
    | .error e => .error (.build e)

/-- Write a sample as source text. Colours are for terminals, unless they are asked for. -/
def showSample (name : String) (given : Given) (isTerminal : Bool) : Except Problem String := do
  let (sample, l, supply) ← buildSample name
  let l ←
    if given.has "reduce" then
      match l.lower supply with
      | .ok (lowered, _) => pure lowered
      | .error e => throw (.lowering e)
    else pure l
  let text :=
    match given.options.lookup "output" with
    | some "typst" => l.document sample.summary
    | some "plain" => l.render .plain
    | _ => l.render (if given.has "raw-control-chars" || isTerminal then .terminal else .plain)
  match text with
  | .ok text => return text ++ "\n"
  | .error e => throw (.render e)

/-! ### Running -/

/-- An integer in decimal, with a sign or without. -/
def readInteger? (text : String) : Option Int :=
  let digits? (cs : List Char) : Option Nat :=
    if cs.isEmpty || !cs.all Char.isDigit then none
    else some (cs.foldl (fun n c => 10 * n + (c.toNat - '0'.toNat)) 0)
  match text.toList with
  | '-' :: cs => (digits? cs).map fun n => -n
  | '+' :: cs => (digits? cs).map fun n => n
  | cs => (digits? cs).map fun n => n

/-- An argument as a value of the parameter's type. -/
def readArgument (text : String) (type : Ty) : Except Problem Value :=
  let read : Option Value :=
    match type with
    | .integral k =>
      match readInteger? text with
      | some i => if k.holds i then some (.ofInt k i) else none
      | none => none
    | .boolean =>
      if text = "true" then some (.boolean true)
      else if text = "false" then some (.boolean false)
      else none
    | .string | .object => some (.string text)
    | _ => none
  match read with
  | some v => .ok v
  | none => .error (.argument text type)

/-- The arguments of a lambda. -/
def readArguments (l : Lambda) (texts : List String) : Except Problem (List Value) :=
  if texts.length ≠ l.parameters.length then
    .error (.evaluation (.argumentCount l.parameters.length texts.length))
  else (texts.zip l.parameters).mapM fun (text, p) => readArgument text p.type

/-- The host of a sample: it takes what is printed. -/
def console : Host where
  answer
    | _, heap, .function .. => some ⟨.value .void, heap⟩
    | _, _, _ => none

/-- The line that a printed value becomes. -/
def printedLine : Value → String
  | .string text => text ++ "\n"
  | v => v.literal ++ "\n"

/-- What was printed in the course of some calls, latest first. -/
def printed (history : List HostCall) : String :=
  String.join (history.reverse.map fun call =>
    match call.request with
    | .function _ arguments => String.join (arguments.map printedLine)
    | _ => "")

/-- The line that shows a result. Nothing is shown of nothing. -/
def resultLine : Value → String
  | .void => ""
  | v => Source.Paint.ansi.emboldened "=>" ++ " " ++ v.literal ++ "\n"

/-- How long a sample may run. -/
def fuel : Nat := 1000000000000

/-- Run a sample: what it prints, and the problem that it ends with, if any. -/
def runSample (name : String) (texts : List String) : String × Option Problem :=
  let prepared : Except Problem (Lambda × List Value × Supply) := do
    let (_, l, supply) ← buildSample name
    return (l, ← readArguments l texts, supply)
  match prepared with
  | .error p => ("", some p)
  | .ok (l, arguments, supply) =>
    let frame : Frame := ({} : Frame).define "Console.WriteLine" 0
    match l.invoke console fuel arguments { frame, supply } with
    | some (.value v, s) => (printed s.history ++ resultLine v, none)
    | some (.fail f, s) => (printed s.history, some (.evaluation f))
    | some (.throw v, s) => (printed s.history, some (.evaluation (.uncaught v)))
    | some (.jump target _, s) =>
      (printed s.history, some (.evaluation (.unresolvedLabel (target.name.getD "(anonymous)"))))
    | none => ("", some .unfinished)

/-! ### The tool -/

def usage : String :=
  "usage: exprfmt [COMMAND] ...\nTry '--help' for more information.\n"

def helpText : String :=
  "Render expression trees as readable C# source.\n\n" ++
    "exprfmt list\n" ++
    "exprfmt show [--reduce] [-R] [-o native|typst|plain] SAMPLE\n" ++
    "exprfmt run SAMPLE [ARGUMENT]...\n"

/-- What is printed when reading the arguments stops. -/
def halted (name : String) : Halt → Response
  | .version => ⟨0, name ++ " " ++ version ++ "\n", none⟩
  | .help => ⟨0, helpText, none⟩
  | .misuse => ⟨2, "", some "usage: exprfmt [COMMAND] ..."⟩

/-- What is printed for a sample and the problem with it, if any. -/
def concluded (name output : String) : Option Problem → Response
  | none => ⟨0, output, none⟩
  | some p => ⟨1, output, some (p.report name)⟩

/-- Run a command on the words after its name. -/
def perform (command : String) (words : List String) (isTerminal : Bool) : Response :=
  match command with
  | "list" =>
    match listShape.read words with
    | .ok _ => ⟨0, listing, none⟩
    | .error h => halted "exprfmt-list" h
  | "show" =>
    match showShape.read words with
    | .ok given =>
      let name := given.positionals.headD ""
      match showSample name given isTerminal with
      | .ok text => ⟨0, text, none⟩
      | .error p => concluded name "" (some p)
    | .error h => halted "exprfmt-show" h
  | "run" =>
    match runShape.read words with
    | .ok given =>
      let name := given.positionals.headD ""
      let (output, problem) := runSample name given.positionals.tail
      concluded name output problem
    | .error h => halted "exprfmt-run" h
  | _ => halted "exprfmt" .misuse

/-- Read options up to the name of a command, and run it. -/
def respondFrom (isTerminal : Bool) : Progress → List String → Response
  | _, [] => ⟨0, usage, none⟩
  | p, word :: words =>
    match p.trailing, Word.of word with
    | false, .plain command => perform command words isTerminal
    | _, _ =>
      match p.read listShape word with
      | .ok next => respondFrom isTerminal next words
      | .error h => halted "exprfmt" h

/-- What the tool does with its arguments. -/
def respond (isTerminal : Bool) (arguments : List String) : Response :=
  respondFrom isTerminal {} arguments

end ExprTree.Command
