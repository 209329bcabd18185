import ExprTree.Source.Draft

/-!
Names for what has none.

Parameters and labels without a name are called `var_$0`, `var_$1`, ... and `label_$0`,
`label_$1`, ... in the order in which they are first written. One table serves for all that is
written to one output.
-/

namespace ExprTree.Source

/-- The names made up so far, latest first, and how many of each sort. -/
structure NameTable where
  assigned : List (Identity × String) := []
  parameters : Nat := 0
  labels : Nat := 0

namespace NameTable

/-- The next name for a symbol that has none. -/
def nextName (t : NameTable) : Symbol → String
  | .parameter _ => "var_$" ++ toString t.parameters
  | .label _ => "label_$" ++ toString t.labels

/-- The table with the next name given to a symbol. -/
def assign (t : NameTable) (s : Symbol) : NameTable :=
  let assigned := (s.id, t.nextName s) :: t.assigned
  match s with
  | .parameter _ => ⟨assigned, t.parameters + 1, t.labels⟩
  | .label _ => ⟨assigned, t.parameters, t.labels + 1⟩

/-- The name of a symbol: its own, the one made up earlier, or a new one. -/
def name (t : NameTable) (s : Symbol) : String × NameTable :=
  match s.ownName with
  | some name => (name, t)
  | none =>
    match t.assigned.lookup s.id with
    | some name => (name, t)
    | none => (t.nextName s, t.assign s)

/-- The directives of marks, with every symbol named. -/
def settle (t : NameTable) : List Mark → List Directive × NameTable
  | [] => ([], t)
  | .step d :: marks =>
    let (rest, last) := t.settle marks
    (d :: rest, last)
  | .symbol s :: marks =>
    let (name, next) := t.name s
    let (rest, last) := next.settle marks
    (.identifier name s.referent :: rest, last)

theorem settle_append (t : NameTable) (a b : List Mark) :
    t.settle (a ++ b) =
      ((t.settle a).1 ++ ((t.settle a).2.settle b).1, ((t.settle a).2.settle b).2) := by
  induction a generalizing t with
  | nil => rfl
  | cons m marks ih => cases m <;> simp [settle, ih]

end NameTable

/-- The directives of a draft written to an output of its own, or why it cannot be written. -/
def Draft.directives (d : Draft) : Except RenderError (List Directive) :=
  match d.error with
  | some e => .error e
  | none => .ok (NameTable.settle {} d.marks).1

end ExprTree.Source
