import ExprTree.Proofs.Traversal
import ExprTree.Proofs.Writing

/-!
Wrappers around operators that report overflow.

Such an operator is written as the same operator without checks, within a wrapper: the keyword
`checked` and a pair of braces, with spaces between. Nothing else depends on whether overflow is
reported, neither parentheses nor names nor lines. So to write a tree without its checks is to write
the tree and delete the wrappers.
-/

namespace ExprTree

/-! ### Trees without checks -/

/-- The same operator, without checks. -/
def UnaryOp.unchecked : UnaryOp → UnaryOp
  | .negateChecked => .negate
  | .convertChecked => .convert
  | op => op

/-- The same node, without checks of its own. -/
def Node.unchecked : Node → Node
  | .unary op operand t => .unary op.unchecked operand t
  | .binary op left right assign _ t => .binary op left right assign false t
  | node => node

def Expr.uncheckedStep (below : Expr → Expr) (e : Expr) : Expr :=
  ⟨e.id, (Id.run (e.node.traverse (fun c => pure (below c)) pure)).unchecked⟩

/-- The same tree, without checks. -/
def Expr.unchecked : Expr → Expr := Expr.recurse (fun e => e) Expr.uncheckedStep

/-- Whether a node of this kind reports overflow of an operator that may overflow, if of any. -/
def Kind.isCheckable : Kind → Bool
  | .binary op _ checked => !checked || op.hasCheckedForm
  | _ => true

theorem Node.Alike.unchecked {r : Expr → Expr → Prop} {n n' : Node} (alike : n.Alike r Eq n') :
    n.unchecked.Alike r Eq n'.unchecked := by
  cases alike with
  | unary operand => exact .unary operand
  | binary left right => exact .binary left right
  | _ => constructor <;> assumption

theorem Expr.unchecked_eq (e : Expr) : e.unchecked = Expr.uncheckedStep Expr.unchecked e := by
  refine Expr.recurse_eq (fun f g e same => ?_) e
  simp only [Expr.uncheckedStep]
  rw [Node.traverse_congr fun c mem => congrArg pure (same c mem)]

/-- The nodes of a tree without checks. -/
theorem Expr.alike_unchecked (e : Expr) :
    e.node.unchecked.Alike (fun c c' => c' = c.unchecked) Eq e.unchecked.node := by
  have traversed : e.node.Alike (fun c c' => c' = c.unchecked) Eq
      (Id.run (e.node.traverse (fun c => pure c.unchecked) pure)) :=
    Node.rel_traverse .id (fun _ _ => rfl) fun _ _ => rfl
  rw [Expr.unchecked_eq]
  exact traversed.unchecked

/-! ### What depends on checks -/

theorem Node.children_unchecked (node : Node) : node.unchecked.children = node.children := by
  cases node <;> rfl

theorem Node.unchecked_of_not_checked {node : Node} (plain : node.kind.isChecked = false) :
    node.unchecked = node := by
  cases node with
  | unary op =>
      cases op with
      | negateChecked | convertChecked => cases plain
      | _ => rfl
  | binary op left right assign checked =>
      cases plain
      rfl
  | _ => rfl

theorem Node.not_checked_unchecked (node : Node) : node.unchecked.kind.isChecked = false := by
  cases node with
  | unary op => cases op <;> rfl
  | _ => rfl

/-- Nothing that the writer asks of a part depends on whether its root reports overflow. -/
theorem Node.sameForm_unchecked (id : Identity) (node : Node) :
    Expr.SameForm ⟨id, node⟩ ⟨id, node.unchecked⟩ := by
  cases node with
  | unary op =>
      refine ⟨?_, ?_, rfl, by simp [Expr.isReturn, Expr.kind, Node.kind, Node.unchecked], rfl,
        by simp [Expr.kind, Node.kind, Node.unchecked],
        by simp [Expr.kind, Node.kind, Node.unchecked]⟩
      all_goals cases op <;> rfl
  | binary op left right assign checked =>
      refine ⟨?_, ?_, rfl, by simp [Expr.isReturn, Expr.kind, Node.kind, Node.unchecked], rfl,
        by simp [Expr.kind, Node.kind, Node.unchecked],
        by simp [Expr.kind, Node.kind, Node.unchecked]⟩
      all_goals cases op <;> cases assign <;> rfl
  | _ => exact .refl _

theorem Expr.sameForm_unchecked (e : Expr) : e.SameForm e.unchecked := by
  induction e using Expr.inductionOnChildren with
  | _ e ih =>
      have root : e.SameForm ⟨e.id, e.node.unchecked⟩ := by
        obtain ⟨id, node⟩ := e
        exact node.sameForm_unchecked id
      refine root.trans (Node.Alike.sameForm e.alike_unchecked ?_)
      rintro c mem c' rfl
      rw [Expr.children, Node.children_unchecked] at mem
      exact ih c mem

namespace Source

/-- A node that reports overflow is written as the one that does not, in a wrapper. -/
theorem writeNode_of_checked {e : Expr} (write : Expr → Draft) (checked : e.kind.isChecked = true)
    (checkable : e.kind.isCheckable = true) :
    writeNode write e = checkedBlock (writeNode write ⟨e.id, e.node.unchecked⟩) := by
  obtain ⟨id, node⟩ := e
  cases node with
  | unary op =>
      cases op with
      | negateChecked | convertChecked => rfl
      | _ => cases checked
  | binary op left right assign reports =>
      cases checked
      cases op with
      | add | subtract | multiply => cases assign <;> rfl
      | _ => cases checkable
  | _ => cases checked

/-! ### Deleting wrappers -/

/-- The directives without wrappers. Of the braces that are open it is known, innermost first,
whether they belong to a wrapper. -/
def unwrap : List Bool → List Directive → List Directive
  | opened, .keyword "checked" :: .space :: .token "\x7b" :: .space :: ds =>
    unwrap (true :: opened) ds
  | true :: opened, .space :: .token "\x7d" :: ds => unwrap opened ds
  | opened, .token "\x7b" :: ds => .token "\x7b" :: unwrap (false :: opened) ds
  | _ :: opened, .token "\x7d" :: ds => .token "\x7d" :: unwrap opened ds
  | opened, d :: ds => d :: unwrap opened ds
  | _, [] => []

/-- Whether a directive neither is a brace nor opens a wrapper. -/
def Directive.isBare : Directive → Bool
  | .token text => text ≠ "\x7b" && text ≠ "\x7d"
  | .keyword text => text ≠ "checked"
  | _ => true

/-- Marks with matching braces, before and after their wrappers are deleted. -/
inductive Unwraps : List Mark → List Mark → Prop
  | nil : Unwraps [] []
  | step {d : Directive} {ms ms' : List Mark} (bare : d.isBare = true) (rest : Unwraps ms ms') :
      Unwraps (.step d :: ms) (.step d :: ms')
  | symbol {s : Symbol} {ms ms' : List Mark} (rest : Unwraps ms ms') :
      Unwraps (.symbol s :: ms) (.symbol s :: ms')
  | braces {inner inner' ms ms' : List Mark} (inside : Unwraps inner inner')
      (rest : Unwraps ms ms') :
      Unwraps (.step (.token "\x7b") :: (inner ++ .step (.token "\x7d") :: ms))
        (.step (.token "\x7b") :: (inner' ++ .step (.token "\x7d") :: ms'))
  | wrapper {inner inner' ms ms' : List Mark} (inside : Unwraps inner inner')
      (rest : Unwraps ms ms') :
      Unwraps (.step (.keyword "checked") :: .step .space :: .step (.token "\x7b") ::
        .step .space :: (inner ++ .step .space :: .step (.token "\x7d") :: ms)) (inner' ++ ms')

theorem Unwraps.append {a a' b b' : List Mark} (first : Unwraps a a') (second : Unwraps b b') :
    Unwraps (a ++ b) (a' ++ b') := by
  induction first with
  | nil => exact second
  | step bare rest ih => exact .step bare ih
  | symbol rest ih => exact .symbol ih
  | braces inside rest _ ih =>
      simpa only [List.cons_append, List.append_assoc] using .braces inside ih
  | wrapper inside rest _ ih =>
      simpa only [List.cons_append, List.append_assoc] using .wrapper inside ih

theorem unwrap_bare {d : Directive} {ds : List Directive} {opened : List Bool}
    (bare : d.isBare = true)
    (inside : d = .space → opened.head? = some true → ds.head? ≠ some (.token "\x7d")) :
    unwrap opened (d :: ds) = d :: unwrap opened ds := by
  rw [unwrap.eq_def]
  split
  case h_1 same =>
      cases same
      exact absurd bare (by decide)
  case h_2 same =>
      cases same
      exact absurd rfl (inside rfl rfl)
  case h_3 same =>
      cases same
      exact absurd bare (by decide)
  case h_4 same =>
      cases same
      exact absurd bare (by decide)
  case h_5 same =>
      cases same
      rfl
  case h_6 same => cases same

/-- Marks with matching braces do not begin with one that closes. -/
theorem Unwraps.head?_settle {ms ms' : List Mark} (unwraps : Unwraps ms ms') (t : NameTable)
    {rest : List Directive} (last : rest.head? ≠ some (.token "\x7d")) :
    ((t.settle ms).1 ++ rest).head? ≠ some (.token "\x7d") := by
  cases unwraps with
  | nil => exact last
  | step bare =>
      rintro ⟨⟩
      exact absurd bare (by decide)
  | symbol => simp [NameTable.settle]
  | braces => simp [NameTable.settle]
  | wrapper => simp [NameTable.settle]

/-- Symbols are not deleted, so the same names are made up. -/
theorem Unwraps.settle_snd {ms ms' : List Mark} (unwraps : Unwraps ms ms') (t : NameTable) :
    (t.settle ms').2 = (t.settle ms).2 := by
  induction unwraps generalizing t with
  | nil => rfl
  | step _ _ ih => exact ih t
  | symbol _ ih => exact ih _
  | braces _ _ ihInside ihRest =>
      simp only [NameTable.settle, NameTable.settle_append, ihInside, ihRest]
  | wrapper _ _ ihInside ihRest =>
      simp only [NameTable.settle, NameTable.settle_append, ihInside, ihRest]

/-- Deleting the wrappers of marks deletes those of their directives. -/
theorem Unwraps.unwrap_settle {ms ms' : List Mark} (unwraps : Unwraps ms ms') (t : NameTable)
    (opened : List Bool) {rest : List Directive}
    (last : opened.head? = some true → rest.head? ≠ some (.token "\x7d")) :
    unwrap opened ((t.settle ms).1 ++ rest) = (t.settle ms').1 ++ unwrap opened rest := by
  induction unwraps generalizing t opened rest with
  | nil => rfl
  | step bare following ih =>
      simp only [NameTable.settle, List.cons_append]
      rw [unwrap_bare bare fun _ wraps => following.head?_settle t (last wraps), ih t opened last]
  | symbol following ih =>
      simp only [NameTable.settle, List.cons_append]
      rw [unwrap_bare rfl (by simp), ih _ opened last]
  | braces inside following ihInside ihRest =>
      simp only [NameTable.settle, NameTable.settle_append, List.cons_append, List.append_assoc]
      rw [unwrap, ihInside t (false :: opened) (by simp), unwrap, ihRest _ opened last,
        inside.settle_snd]
  | wrapper inside following ihInside ihRest =>
      simp only [NameTable.settle, NameTable.settle_append, List.cons_append, List.append_assoc]
      rw [unwrap, ihInside t (true :: opened) (by simp), unwrap, ihRest _ opened last,
        inside.settle_snd]

/-! ### Writing without checks -/

/-- If the first draft is complete then so is the second, which is the first without wrappers. -/
def Unwrapped (d d' : Draft) : Prop :=
  d.error = none → d'.error = none ∧ Unwraps d.marks d'.marks

theorem Unwrapped.append {a a' b b' : Draft} (first : Unwrapped a a') (second : Unwrapped b b') :
    Unwrapped (a ++ b) (a' ++ b') := by
  intro ok
  obtain ⟨aOk, bOk⟩ := Draft.error_append_eq_none_iff.mp ok
  obtain ⟨aOk', unwraps⟩ := first aOk
  obtain ⟨bOk', unwraps'⟩ := second bOk
  rw [Draft.append_marks_of_ok aOk, Draft.append_marks_of_ok aOk', Draft.append_error_of_ok aOk']
  exact ⟨bOk', unwraps.append unwraps'⟩

theorem Unwrapped.step {d : Directive} (bare : d.isBare = true) :
    Unwrapped (.ofDirective d) (.ofDirective d) :=
  fun _ => ⟨rfl, .step bare .nil⟩

theorem Unwrapped.symbol (s : Symbol) : Unwrapped (.ofMarks [.symbol s]) (.ofMarks [.symbol s]) :=
  fun _ => ⟨rfl, .symbol .nil⟩

theorem Unwrapped.braces {b b' : Draft} (inside : Unwrapped b b') :
    Unwrapped (token "\x7b" ++ b ++ token "\x7d") (token "\x7b" ++ b' ++ token "\x7d") := by
  have marks {d : Draft} (ok : d.error = none) : (token "\x7b" ++ d ++ token "\x7d").marks =
      .step (.token "\x7b") :: (d.marks ++ [.step (.token "\x7d")]) := by
    simp [ok, token, Draft.ofDirective, Draft.ofMarks]
  intro ok
  obtain ⟨ok', unwraps⟩ := inside (by simpa using ok)
  rw [marks (by simpa using ok), marks ok']
  exact ⟨by simpa using ok', .braces unwraps .nil⟩

/-- The wrapper of the first draft is deleted. -/
theorem Unwrapped.checkedBlock {b b' : Draft} (inside : Unwrapped b b') :
    Unwrapped (checkedBlock b) b' := by
  intro ok
  have bOk : b.error = none := by simpa using ok
  obtain ⟨ok', unwraps⟩ := inside bOk
  have marks : (Source.checkedBlock b).marks = .step (.keyword "checked") :: .step .space ::
      .step (.token "\x7b") :: .step .space ::
        (b.marks ++ [.step .space, .step (.token "\x7d")]) := by
    simp [Source.checkedBlock, bOk, token, keyword, space, Draft.ofDirective, Draft.ofMarks]
  rw [marks]
  exact ⟨ok', by simpa using Unwraps.wrapper unwraps .nil⟩

theorem writingRules_unwrapped : WritingRules (fun _ => True) Unwrapped Unwrapped where
  empty := fun _ => ⟨rfl, .nil⟩
  append := .append
  plain := fun {d} plain => .step (by
    cases d with
    | token text => simp_all [Directive.isPlain, Directive.isBare, brackets]
    | keyword text => exact plain
    | _ => rfl)
  symbol := fun s _ => .symbol s
  failure := fun _ _ ok => nomatch ok
  bracketed := fun pair inside => by
    simp only [brackets, List.mem_cons, Prod.mk.injEq, List.not_mem_nil, or_false] at pair
    rcases pair with ⟨rfl, rfl⟩ | ⟨rfl, rfl⟩ | ⟨rfl, rfl⟩
    · exact .append (.append (.step (by decide)) inside) (.step (by decide))
    · exact .append (.append (.step (by decide)) inside) (.step (by decide))
    · exact .braces inside
  braced := fun {b b'} inside => by
    have starts : Unwrapped (newline ++ indent) (newline ++ indent) :=
      .append (.step rfl) (.step rfl)
    have ends : Unwrapped dedent dedent := .step rfl
    simpa only [Source.braced, Draft.append_assoc] using ((starts.append inside).append ends).braces
  inside := fun unwrapped => unwrapped
  appendInside := .append
  label := fun _ _ => .append (.append (.append (.append (.step rfl) (.symbol _))
    (.step (by decide))) (.step rfl)) (.step rfl)

end Source

open Source

/-- To write a tree without its checks is to write the tree and delete the wrappers. -/
theorem Expr.stands_unchecked {e : Expr} (checkable : e.All fun d => d.kind.isCheckable = true) :
    e.Stands Unwrapped Unwrapped e.unchecked := by
  have rules := writingRules_unwrapped
  induction e using Expr.inductionOnChildren with
  | _ e ih =>
      obtain ⟨root, below⟩ := Expr.all_iff.mp checkable
      have child (c : Expr) (mem : c ∈ e.node.unchecked.children) :
          c.Stands Unwrapped Unwrapped c.unchecked := by
        rw [Node.children_unchecked] at mem
        exact ih c mem (below c mem)
      have form := e.sameForm_unchecked
      have alike := e.alike_unchecked
      by_cases kind : e.kind = .label
      · obtain ⟨l, fallback, node⟩ := exists_of_label kind
        rw [node] at alike child
        generalize node' : e.unchecked.node = n' at alike
        cases alike with
        | label known =>
            refine rules.stands_of_label node node' ⟨⟩ form (rel_imp_of_mem known ?_)
            rintro c mem c' rfl
            exact child c mem
      · refine rules.stands kind ⟨form, ?_⟩
        have inner : Unwrapped (writeNode Expr.draft ⟨e.id, e.node.unchecked⟩)
            e.unchecked.draft := by
          have kind' : e.node.unchecked.kind ≠ .label := by
            rw [alike.kind_eq]
            exact mt form.label.mpr kind
          rw [Expr.draft_eq e.unchecked]
          refine rules.writeNode (e := ⟨e.id, e.node.unchecked⟩) alike kind' (fun _ _ => ⟨⟩) ?_ ?_
            fun checked => ?_
          · rintro c mem c' rfl
            exact ⟨c.sameForm_unchecked, (child c (Node.mem_children_of_mem_places mem)).line⟩
          · rintro place c mem - c' rfl
            exact child c (Node.mem_children_of_mem_places mem)
          · exact absurd checked (by simp [Expr.kind, Node.not_checked_unchecked])
        rw [Expr.draft_eq e]
        cases checked : e.kind.isChecked with
        | true =>
            rw [writeNode_of_checked _ checked root]
            exact inner.checkedBlock
        | false =>
            rw [Node.unchecked_of_not_checked checked] at inner
            exact inner

/-- If a tree can be written then so can the tree without its checks, and on every output what is
written of it is what is written of the tree, with the wrappers deleted. -/
theorem unchecked_writes_without_wrappers {e : Expr}
    (checkable : e.All fun d => d.kind.isCheckable = true) (ok : e.draft.error = none) :
    e.unchecked.draft.error = none ∧ ∀ t : NameTable, t.settle e.unchecked.draft.marks =
      (unwrap [] (t.settle e.draft.marks).1, (t.settle e.draft.marks).2) := by
  obtain ⟨ok', unwraps⟩ := (Expr.stands_unchecked checkable).line ok
  refine ⟨ok', fun t => Prod.ext ?_ (unwraps.settle_snd t)⟩
  have deleted : unwrap [] ((t.settle e.draft.marks).1 ++ []) =
      (t.settle e.unchecked.draft.marks).1 ++ unwrap [] [] :=
    unwraps.unwrap_settle t [] (by simp)
  simpa [unwrap] using deleted.symm

/-! ### Wrappers within wrappers

`new int[] {checked { -(checked { a * checked { (int)b } }) }}` -/

namespace NestedWrappers

def a : Parameter := ⟨0, some "a", .int32⟩

def b : Parameter := ⟨1, some "b", .object⟩

def product : Expr :=
  ⟨5, .binary .multiply ⟨2, .parameter a⟩ ⟨4, .unary .convertChecked ⟨3, .parameter b⟩ .int32⟩
    false true .int32⟩

def vector : Expr :=
  ⟨7, .newArray .elements (.vector .int32) [⟨6, .unary .negateChecked product .int32⟩]⟩

def text : String :=
  "new int[] \x7bchecked \x7b -(checked \x7b a * " ++ "checked \x7b (int)b \x7d \x7d) \x7d\x7d"

/-- The braces of the array are kept. -/
theorem vector_writes_without_wrappers :
    vector.render = .ok text ∧
    vector.unchecked.render = .ok "new int[] \x7b-(a * (int)b)\x7d" ∧
    vector.unchecked.draft.error = none ∧
    ∀ t : NameTable, t.settle vector.unchecked.draft.marks =
      (unwrap [] (t.settle vector.draft.marks).1, (t.settle vector.draft.marks).2) := by
  refine ⟨rfl, rfl, ?_⟩
  exact unchecked_writes_without_wrappers (by decide) rfl

end NestedWrappers

end ExprTree
