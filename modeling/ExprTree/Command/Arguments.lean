/-!
Command-line arguments.

A command takes options and positional arguments. Options come before, between or after the
positional arguments; after a lone `--` everything is positional. Reading goes from left to right
and stops at the first word that asks for the version or for help, or that does not fit.
-/

namespace ExprTree.Command

/-- An option. A flag takes no value, any other option takes one of the values listed. -/
structure Switch where
  name : String
  short : Option Char := none
  values : Option (List String) := none

/-- What a command takes: options, and positional arguments, each required and perhaps more. -/
structure Shape where
  switches : List Switch := []
  places : Nat := 0
  takesMore : Bool := false

/-- Why reading stopped. -/
inductive Halt where
  | version | help | misuse
deriving DecidableEq, Repr

/-- What was given to a command. -/
structure Given where
  options : List (String × String) := []
  positionals : List String := []

def Given.has (g : Given) (name : String) : Bool := (g.options.lookup name).isSome

/-- One word of a command line. -/
inductive Word where
  | separator
  | long (name : String) (value : Option String)
  | cluster (letters : List Char)
  | plain (text : String)
deriving DecidableEq, Repr

/-- What a word is. A lone `-` is plain. -/
def Word.of (text : String) : Word :=
  match text.toList with
  | ['-', '-'] => .separator
  | '-' :: '-' :: rest =>
    let name := rest.takeWhile (· ≠ '=')
    match rest.drop name.length with
    | _ :: value => .long (.ofList name) (some (.ofList value))
    | [] => .long (.ofList name) none
  | '-' :: c :: cs => .cluster (c :: cs)
  | _ => .plain text

/-- Where reading stands: what was given so far, the option that waits for its value, and whether
the separator was seen. -/
structure Progress where
  given : Given := {}
  waiting : Option Switch := none
  trailing : Bool := false

namespace Progress

/-- Take an option with its value. No option is given twice, and its value is one it takes. -/
def record (p : Progress) (s : Switch) (value : String) : Except Halt Progress :=
  let fits := (s.values.map (·.contains value)).getD true
  if p.given.has s.name || !fits then .error .misuse
  else .ok { p with given.options := (s.name, value) :: p.given.options, waiting := none }

/-- No option waits for its value. -/
def settled (p : Progress) : Except Halt Unit :=
  if p.waiting.isSome then .error .misuse else .ok ()

/-- A long option. -/
def readLong (shape : Shape) (p : Progress) (name : String) (value : Option String) :
    Except Halt Progress := do
  p.settled
  match shape.switches.find? (·.name == name) with
  | some s =>
    match s.values, value with
    | none, none => p.record s ""
    | none, some _ => .error .misuse
    | some _, some value => p.record s value
    | some _, none => .ok { p with waiting := some s }
  | none =>
    match value with
    | some _ => .error .misuse
    | none =>
      if name = "version" then .error .version
      else if name = "help" then .error .help
      else .error .misuse

/-- Short options written together. What follows an option that takes a value is its value. -/
def readCluster (shape : Shape) (p : Progress) : List Char → Except Halt Progress
  | [] => .ok p
  | c :: cs => do
    p.settled
    match shape.switches.find? (·.short == some c) with
    | some s =>
      match s.values, cs with
      | none, _ => readCluster shape (← p.record s "") cs
      | some _, [] => .ok { p with waiting := some s }
      | some _, '=' :: value => p.record s (.ofList value)
      | some _, value => p.record s (.ofList value)
    | none =>
      if c = 'V' then .error .version
      else if c = 'h' then .error .help
      else .error .misuse

/-- A positional argument, if there is a place for it. -/
def readPositional (shape : Shape) (p : Progress) (text : String) : Except Halt Progress := do
  p.settled
  if p.given.positionals.length < shape.places || shape.takesMore then
    .ok { p with given.positionals := p.given.positionals ++ [text] }
  else .error .misuse

/-- One more word. -/
def read (shape : Shape) (p : Progress) (text : String) : Except Halt Progress :=
  if p.trailing then readPositional shape p text
  else
    match Word.of text, p.waiting with
    | .separator, _ => .ok { p with trailing := true }
    | .long name value, _ => readLong shape p name value
    | .cluster letters, _ => readCluster shape p letters
    | .plain text, some s => p.record s text
    | .plain text, none => readPositional shape p text

end Progress

/-- All the words of a command. -/
def Shape.read (shape : Shape) (words : List String) : Except Halt Given := do
  let p ← words.foldlM (Progress.read shape) {}
  p.settled
  if p.given.positionals.length < shape.places then .error .misuse else .ok p.given

end ExprTree.Command
