import ExprTree.Proofs.Writing

/-!
Brackets of what is written.

The tokens that are brackets are well nested: every bracket that opens is closed by one of its own
kind, and the brackets between the two are well nested again. Reading the brackets with a stack of
those that are open tells whether they are (`wellNested_iff`). Whatever the writer does keeps them
well nested, so they are in every tree and in every lambda that has a source form.
-/

namespace ExprTree

namespace Source

/-! ### Brackets -/

inductive BracketKind where
  | round | square | curly
deriving DecidableEq, Repr

inductive Bracket where
  | opening (kind : BracketKind)
  | closing (kind : BracketKind)
deriving DecidableEq, Repr

/-- The bracket that a directive writes as a token. -/
def Directive.bracket? : Directive → Option Bracket
  | .token "(" => some (.opening .round)
  | .token ")" => some (.closing .round)
  | .token "[" => some (.opening .square)
  | .token "]" => some (.closing .square)
  | .token "\x7b" => some (.opening .curly)
  | .token "\x7d" => some (.closing .curly)
  | _ => none

/-- The brackets among the tokens, in the order in which they are written. -/
def bracketsOf (ds : List Directive) : List Bracket := ds.filterMap Directive.bracket?

/-- Every bracket belongs to a pair of its own kind, and pairs do not cross. -/
inductive WellNested : List Bracket → Prop
  | nil : WellNested []
  | pair {inner rest : List Bracket} (kind : BracketKind) (inside : WellNested inner)
      (after : WellNested rest) :
      WellNested (.opening kind :: (inner ++ .closing kind :: rest))

theorem WellNested.append {a b : List Bracket} (first : WellNested a) (second : WellNested b) :
    WellNested (a ++ b) := by
  induction first with
  | nil => exact second
  | pair kind inside _ _ ih =>
      simpa only [List.cons_append, List.append_assoc] using .pair kind inside ih

/-! ### Reading with a stack -/

/-- The brackets that are open after one more, innermost first. Only the innermost one can be
closed, by a bracket of its own kind. -/
def Bracket.openAfter? (opened : List BracketKind) : Bracket → Option (List BracketKind)
  | .opening kind => some (kind :: opened)
  | .closing kind => if opened.head? = some kind then some opened.tail else none

def openAfter? (opened : List BracketKind) (bs : List Bracket) : Option (List BracketKind) :=
  bs.foldlM Bracket.openAfter? opened

theorem WellNested.openAfter? {bs : List Bracket} (nested : WellNested bs)
    (opened : List BracketKind) : openAfter? opened bs = some opened := by
  induction nested generalizing opened with
  | nil => rfl
  | @pair inner rest kind _ _ ihInside ihAfter =>
      calc Source.openAfter? opened (.opening kind :: (inner ++ .closing kind :: rest))
          = Source.openAfter? (kind :: opened) (inner ++ .closing kind :: rest) := rfl
        _ = Source.openAfter? (kind :: opened) (.closing kind :: rest) := by
            rw [Source.openAfter?, List.foldlM_append]
            exact congrArg (· >>= _) (ihInside (kind :: opened))
        _ = Source.openAfter? opened rest := by
            simp [Source.openAfter?, Bracket.openAfter?]
        _ = some opened := ihAfter opened

/-- The brackets close those that are open, one after the other, and all that is opened between. -/
inductive Closes : List BracketKind → List Bracket → Prop
  | nil {bs : List Bracket} (nested : WellNested bs) : Closes [] bs
  | cons {kind : BracketKind} {opened : List BracketKind} {inner rest : List Bracket}
      (inside : WellNested inner) (after : Closes opened rest) :
      Closes (kind :: opened) (inner ++ .closing kind :: rest)

theorem Closes.pair {opened : List BracketKind} {inner rest : List Bracket} (kind : BracketKind)
    (inside : WellNested inner) (after : Closes opened rest) :
    Closes opened (.opening kind :: (inner ++ .closing kind :: rest)) := by
  cases after with
  | nil nested => exact .nil (.pair kind inside nested)
  | @cons other opened between rest next after =>
      have whole : Closes (other :: opened) _ := .cons (.pair kind inside next) after
      simpa only [List.cons_append, List.append_assoc] using whole

theorem closes_of_openAfter? {opened : List BracketKind} {bs : List Bracket}
    (read : openAfter? opened bs = some []) : Closes opened bs := by
  induction bs generalizing opened with
  | nil =>
      cases read
      exact .nil .nil
  | cons b bs ih =>
      obtain ⟨next, step, read⟩ := Option.bind_eq_some_iff.mp read
      cases b with
      | opening kind =>
          cases step
          cases ih read with
          | cons inside after => exact .pair kind inside after
      | closing kind =>
          obtain ⟨innermost, same⟩ := Option.ite_none_right_eq_some.mp step
          cases same
          cases opened with
          | nil => cases innermost
          | cons other opened =>
              cases innermost
              exact .cons .nil (ih read)

/-- Brackets are well nested if none closes another kind than the innermost one that is open, and
none is left open. -/
theorem wellNested_iff {bs : List Bracket} : WellNested bs ↔ openAfter? [] bs = some [] := by
  constructor
  · intro nested
    exact nested.openAfter? []
  · intro read
    cases closes_of_openAfter? read with
    | nil nested => exact nested

instance (bs : List Bracket) : Decidable (WellNested bs) := decidable_of_iff' _ wellNested_iff

example : ¬ WellNested [.opening .round, .opening .square, .closing .round, .closing .square] := by
  decide

/-! ### Writing -/

/-- The brackets of a complete draft are well nested, whatever names are made up. -/
def Nested (d : Draft) : Prop :=
  d.error = none → ∀ t : NameTable, WellNested (bracketsOf (t.settle d.marks).1)

theorem Nested.append {a b : Draft} (first : Nested a) (second : Nested b) : Nested (a ++ b) := by
  intro ok t
  obtain ⟨aOk, bOk⟩ := Draft.error_append_eq_none_iff.mp ok
  rw [Draft.append_marks_of_ok aOk, NameTable.settle_append, bracketsOf, List.filterMap_append]
  exact (first aOk t).append (second bOk _)

theorem Nested.step {d : Directive} (plain : d.bracket? = none) : Nested (.ofDirective d) := by
  intro _ t
  have none : bracketsOf [d] = [] := by simp [bracketsOf, plain]
  show WellNested (bracketsOf [d])
  rw [none]
  exact .nil

theorem Nested.pair {o c : String} {kind : BracketKind} {b : Draft}
    (opens : (Directive.token o).bracket? = some (.opening kind))
    (closes : (Directive.token c).bracket? = some (.closing kind)) (inside : Nested b) :
    Nested (token o ++ b ++ token c) := by
  intro ok t
  have bOk : b.error = none := by simpa using ok
  have marks : (token o ++ b ++ token c).marks =
      .step (.token o) :: (b.marks ++ [.step (.token c)]) := by
    simp [bOk, token, Draft.ofDirective, Draft.ofMarks]
  have read : bracketsOf (t.settle (token o ++ b ++ token c).marks).1 =
      .opening kind :: (bracketsOf (t.settle b.marks).1 ++ [.closing kind]) := by
    rw [marks]
    simp [NameTable.settle, NameTable.settle_append, bracketsOf, opens, closes]
  rw [read]
  exact .pair kind (inside bOk t) .nil

theorem bracket?_of_isPlain {d : Directive} (plain : d.isPlain = true) : d.bracket? = none := by
  unfold Directive.bracket?
  split
  case h_7 => rfl
  all_goals exact absurd plain (by decide)

theorem Nested.braced {b : Draft} (inside : Nested b) : Nested (braced b) := by
  have lines : Nested (newline ++ indent ++ b ++ dedent) :=
    .append (.append (.append (.step rfl) (.step rfl)) inside) (.step rfl)
  have whole := lines.pair (o := "\x7b") (c := "\x7d") rfl rfl
  simpa only [Source.braced, Draft.append_assoc] using whole

theorem Nested.checkedBlock {b : Draft} (inside : Nested b) : Nested (checkedBlock b) := by
  have spaced : Nested (space ++ b ++ space) := .append (.append (.step rfl) inside) (.step rfl)
  have word : Nested (keyword "checked" ++ space) := .append (.step rfl) (.step rfl)
  have whole := word.append (spaced.pair (o := "\x7b") (c := "\x7d") rfl rfl)
  simpa only [Source.checkedBlock, Draft.append_assoc] using whole

theorem Nested.labelLine (l : Label) : Nested (labelLine l) :=
  .append (.append (.append (.append (.step rfl) fun _ _ => .nil) (.step rfl)) (.step rfl))
    (.step rfl)

theorem writingRules_nested :
    WritingRules (fun _ => True) (fun d _ => Nested d) (fun d _ => Nested d) where
  empty := fun _ _ => .nil
  append := .append
  plain := fun plain => .step (bracket?_of_isPlain plain)
  symbol := fun _ _ _ _ => .nil
  failure := fun _ _ ok => nomatch ok
  bracketed := fun pair inside => by
    simp only [brackets, List.mem_cons, Prod.mk.injEq, List.not_mem_nil, or_false] at pair
    rcases pair with ⟨rfl, rfl⟩ | ⟨rfl, rfl⟩ | ⟨rfl, rfl⟩ <;> exact .pair rfl rfl inside
  braced := .braced
  inside := fun nested => nested
  appendInside := .append
  label := fun l _ => .labelLine l

end Source

open Source

/-- The brackets of every tree and of every lambda that can be written are well nested, whatever was
written before. -/
theorem brackets_are_well_nested (t : NameTable) :
    (∀ e : Expr, e.draft.error = none → WellNested (bracketsOf (t.settle e.draft.marks).1)) ∧
    ∀ l : Lambda, l.draft.error = none → WellNested (bracketsOf (t.settle l.draft.marks).1) := by
  have rules := writingRules_nested
  constructor
  · intro e ok
    have stands := rules.stands_self .checkedBlock e.namesOnly_true (.inl fun l _ => .labelLine l)
    exact stands.line ok t
  · intro l ok
    exact rules.lambda_self .checkedBlock (fun l _ => .labelLine l) (fun _ _ => ⟨⟩)
      l.body.namesOnly_true ok t

namespace NegatedElement

def values : Parameter := ⟨0, some "values", .vector .int32⟩

def index : Parameter := ⟨1, some "index", .int32⟩

def element : Expr :=
  ⟨4, .binary .arrayIndex ⟨2, .parameter values⟩ ⟨3, .parameter index⟩ false false .int32⟩

def twice : Expr := ⟨5, .binary .add element element false false .int32⟩

def vector : Expr :=
  ⟨7, .newArray .elements (.vector .int32) [⟨6, .unary .negateChecked twice .int32⟩]⟩

def lambda : Lambda := ⟨some "F", [values, index], vector, .vector .int32⟩

def text : String := "new int[] \x7bchecked \x7b -(values[index] + values[index]) \x7d\x7d"

/-- The braces of the vector and of the wrapper are closed in turn, the parentheses within them. -/
theorem vector_closes_in_turn :
    vector.render = .ok text ∧
    bracketsOf (NameTable.settle {} vector.draft.marks).1 =
      [.opening .square, .closing .square, .opening .curly, .opening .curly, .opening .round,
        .opening .square, .closing .square, .opening .square, .closing .square, .closing .round,
        .closing .curly, .closing .curly] ∧
    WellNested (bracketsOf (NameTable.settle {} vector.draft.marks).1) ∧
    lambda.draft.error = none ∧
    WellNested (bracketsOf (NameTable.settle {} lambda.draft.marks).1) := by
  obtain ⟨trees, lambdas⟩ := brackets_are_well_nested {}
  exact ⟨rfl, rfl, trees vector rfl, rfl, lambdas lambda rfl⟩

end NegatedElement

end ExprTree
