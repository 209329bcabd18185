import ExprTree.Proofs.Writing

/-!
Depth and lines of what is written.

Whatever is written leaves the depth where it was, from depth one on, and never goes below zero.
Text that begins a line is put there at the depth at which it was begun, unless a label within a
line comes first: labels are written one level further out. What is written as a statement of its
own lines ends at the beginning of a line.
-/

namespace ExprTree.Source

/-! ### Steps -/

/-- Whether fragments of the category are text, and not blanks between lines. -/
def Category.isText : Category → Bool
  | .newline | .indent => false
  | _ => true

theorem Category.isText_iff {category : Category} :
    category.isText = true ↔ category ≠ .newline ∧ category ≠ .indent := by
  cases category <;> decide

theorem Category.isText_ofLiteral (text : String) : (Category.ofLiteral text).isText = true := by
  unfold Category.ofLiteral
  split
  · rfl
  · split <;> rfl

theorem Category.isText_ofToken (text : String) : (Category.ofToken text).isText = true := by
  unfold Category.ofToken
  split <;> rfl

theorem Category.isText_ofReferent (referent : Referent) :
    (Category.ofReferent referent).isText = true := by
  cases referent <;> rfl

/-- A directive puts text, ends the line or changes the depth. -/
theorem Layout.step_cases (l : Layout) (d : Directive) :
    (∃ category content, category.isText = true ∧ l.step d = l.put category content) ∨
      d = .newline ∨ d = .indent ∨ d = .dedent := by
  cases d with
  | write text => exact .inl ⟨_, text, rfl, rfl⟩
  | space => exact .inl ⟨_, " ", rfl, rfl⟩
  | keyword text => exact .inl ⟨_, text, rfl, rfl⟩
  | token text => exact .inl ⟨_, text, Category.isText_ofToken text, rfl⟩
  | literal text => exact .inl ⟨_, text, Category.isText_ofLiteral text, rfl⟩
  | reference text referent => exact .inl ⟨_, text, Category.isText_ofReferent referent, rfl⟩
  | identifier text referent => exact .inl ⟨_, text, Category.isText_ofReferent referent, rfl⟩
  | newline => exact .inr (.inl rfl)
  | indent => exact .inr (.inr (.inl rfl))
  | dedent => exact .inr (.inr (.inr rfl))

/-! ### Depth -/

/-- The depth after a directive. There is none after one that dedents at depth zero. -/
def Directive.depthAfter? (n : Nat) : Directive → Option Nat
  | .indent => some (n + 1)
  | .dedent => if n = 0 then none else some (n - 1)
  | _ => some n

/-- The depth after directives, unless one of them dedents at depth zero. -/
def depthAfter? (n : Nat) (ds : List Directive) : Option Nat := ds.foldlM Directive.depthAfter? n

theorem depthAfter?_append (n : Nat) (a b : List Directive) :
    depthAfter? n (a ++ b) = depthAfter? n a >>= fun m => depthAfter? m b :=
  List.foldlM_append

theorem depthAfter?_of_isPlain {d : Directive} (plain : d.isPlain = true) (n : Nat) :
    d.depthAfter? n = some n := by
  cases d with
  | indent | dedent => cases plain
  | _ => rfl

theorem Layout.put_snd (l : Layout) (category : Category) (content : String) :
    (l.put category content).2 = { l with atLineStart := l.atLineStart && content.isEmpty } := by
  unfold Layout.put
  split
  case isTrue empty => rw [empty, Bool.and_true]
  case isFalse text => rw [Bool.eq_false_iff.mpr text, Bool.and_false]

theorem Layout.depth_step {l : Layout} {d : Directive} {m : Nat}
    (after : d.depthAfter? l.depth = some m) : (l.step d).2.depth = m := by
  cases d with
  | indent => cases after; rfl
  | dedent =>
      simp only [Directive.depthAfter?] at after
      split at after
      · cases after
      · cases after
        rfl
  | newline => cases after; rfl
  | _ =>
      cases after
      simp only [Layout.step, Layout.put_snd]

theorem Layout.run_cons (l : Layout) (d : Directive) (ds : List Directive) :
    l.run (d :: ds) = ((l.step d).1 ++ ((l.step d).2.run ds).1, ((l.step d).2.run ds).2) :=
  rfl

theorem Layout.depth_run {l : Layout} {ds : List Directive} {m : Nat}
    (after : depthAfter? l.depth ds = some m) : (l.run ds).2.depth = m := by
  induction ds generalizing l with
  | nil =>
      cases after
      rfl
  | cons d ds ih =>
      obtain ⟨k, first, rest⟩ := Option.bind_eq_some_iff.mp after
      rw [← Layout.depth_step first] at rest
      rw [Layout.run_cons]
      exact ih rest

/-- From this depth on, the draft leaves the depth as it is and never goes below zero. -/
def BalancedFrom (k : Nat) (d : Draft) : Prop :=
  d.error = none → ∀ (t : NameTable) (n : Nat), k ≤ n →
    depthAfter? n (t.settle d.marks).1 = some n

section

variable {k : Nat} {a b : Draft}

theorem BalancedFrom.append (first : BalancedFrom k a) (second : BalancedFrom k b) :
    BalancedFrom k (a ++ b) := by
  intro ok t n le
  obtain ⟨aOk, bOk⟩ := Draft.error_append_eq_none_iff.mp ok
  rw [Draft.append_marks_of_ok aOk, NameTable.settle_append, depthAfter?_append, first aOk t n le]
  exact second bOk _ n le

theorem BalancedFrom.step {d : Directive} (plain : ∀ n, d.depthAfter? n = some n) :
    BalancedFrom k (.ofDirective d) := by
  intro _ t n _
  show d.depthAfter? n >>= some = some n
  rw [plain n]
  rfl

/-- The contents of braces are written one level deeper. -/
theorem BalancedFrom.braced (inside : BalancedFrom 1 b) : BalancedFrom k (braced b) := by
  intro ok t n _
  have bOk : b.error = none := by simpa using ok
  have marks : (Source.braced b).marks = .step (.token "\x7b") :: .step .newline ::
      .step .indent :: (b.marks ++ [.step .dedent, .step (.token "\x7d")]) := by
    simp [Source.braced, bOk, token, newline, indent, dedent, Draft.ofDirective, Draft.ofMarks]
  have within := inside bOk t (n + 1) (Nat.le_add_left 1 n)
  rw [marks]
  simp only [NameTable.settle, NameTable.settle_append]
  show depthAfter? (n + 1) _ = _
  rw [depthAfter?_append, within]
  rfl

/-- A label is written one level further out. -/
theorem BalancedFrom.labelLine (l : Label) : BalancedFrom 1 (labelLine l) := by
  intro _ t n le
  obtain ⟨m, rfl⟩ : ∃ m, n = m + 1 := ⟨n - 1, by omega⟩
  rfl

theorem writingRules_balancedFrom (le : k ≤ 1) :
    WritingRules (fun _ => True) (fun d _ => BalancedFrom k d) (fun d _ => BalancedFrom 1 d) where
  empty := fun _ _ _ _ => rfl
  append := .append
  plain := fun plain => .step (depthAfter?_of_isPlain plain)
  symbol := fun _ _ _ _ _ _ => rfl
  failure := fun _ _ ok => nomatch ok
  bracketed := fun _ inside => .append (.append (.step fun _ => rfl) inside) (.step fun _ => rfl)
  braced := .braced
  inside := fun balanced ok t n deep => balanced ok t n (Nat.le_trans le deep)
  appendInside := .append
  label := fun l _ => .labelLine l

theorem balancedFrom_checkedBlock (inside : BalancedFrom k b) : BalancedFrom k (checkedBlock b) :=
  .append (.append (.append (.append (.append (.append (.step fun _ => rfl) (.step fun _ => rfl))
    (.step fun _ => rfl)) (.step fun _ => rfl)) inside) (.step fun _ => rfl)) (.step fun _ => rfl)

end

/-- All that is written of a tree is balanced, from depth one on. -/
theorem stands_balanced (e : Expr) :
    e.Stands (fun d _ => BalancedFrom 1 d) (fun d _ => BalancedFrom 1 d) e :=
  (writingRules_balancedFrom (Nat.le_refl 1)).stands_self balancedFrom_checkedBlock
    e.namesOnly_true (.inl fun l _ => .labelLine l)

theorem balancedFrom_block (locals : List Parameter) (es : List Expr) (type : Ty) :
    BalancedFrom 0 (block Expr.draft locals es type) := by
  have rules := writingRules_balancedFrom (Nat.le_refl 1)
  have stands : List.Forall₂ (Expr.Stands (fun d _ => BalancedFrom 1 d)
      (fun d _ => BalancedFrom 1 d)) es es :=
    List.forall₂_same.mpr fun e _ => stands_balanced e
  exact .braced (.append (rules.declarations fun _ _ => ⟨⟩) (rules.statements type stands))

/-- A lambda is balanced from every depth. -/
theorem balancedFrom_lambda (l : Lambda) : BalancedFrom 0 l.draft := by
  have rules := writingRules_balancedFrom (Nat.le_of_lt Nat.zero_lt_one)
  obtain ⟨locals, es, type, isBlock⟩ := exists_block_of_body l.returns l.body
  refine .append (.append (.append (.append (.append (rules.writeType _) rules.space) ?_)
    (rules.writeParameters fun _ _ => ⟨⟩)) rules.newline) ?_
  · cases l.name with
    | none => exact rules.empty
    | some name => exact rules.plain rfl
  · rw [lambdaBody, isBlock]
    exact balancedFrom_block locals es type

/-! ### The first text of a line -/

/-- The depth at which the first text is put on a line that has none yet. -/
def Layout.textDepth? (l : Layout) : List Directive → Option Nat
  | [] => none
  | d :: ds => if (l.step d).2.atLineStart then (l.step d).2.textDepth? ds else some l.depth

theorem Layout.textDepth?_append (l : Layout) (a b : List Directive) :
    l.textDepth? (a ++ b) = (l.textDepth? a).or ((l.run a).2.textDepth? b) := by
  induction a generalizing l with
  | nil => rfl
  | cons d ds ih =>
      simp only [List.cons_append, Layout.textDepth?, Layout.run_cons]
      split
      · exact ih _
      · rfl

/-- Begun on a line without text, the draft puts its first text at the depth at which it was begun,
or it puts none and leaves the line as it is. -/
def Flush (d : Draft) : Prop :=
  ∀ (t : NameTable) (l : Layout), l.atLineStart = true →
    l.textDepth? (t.settle d.marks).1 = some l.depth ∨
      l.textDepth? (t.settle d.marks).1 = none ∧ (l.run (t.settle d.marks).1).2 = l

/-- Begun on a line without text, the draft puts text at this depth, counted from where it was
begun. -/
def Begins (shift : Nat → Nat) (d : Draft) : Prop :=
  ∀ (t : NameTable) (l : Layout), l.atLineStart = true →
    l.textDepth? (t.settle d.marks).1 = some (shift l.depth)

theorem Begins.append {shift : Nat → Nat} {a b : Draft} (begins : Begins shift a) :
    Begins shift (a ++ b) := by
  intro t l start
  cases failed : a.error with
  | none =>
      rw [Draft.append_marks_of_ok failed, NameTable.settle_append, Layout.textDepth?_append,
        begins t l start]
      rfl
  | some error =>
      rw [Draft.append_of_error failed]
      exact begins t l start

theorem Flush.append_begins {a b : Draft} (flush : Flush a) (ok : a.error = none)
    (begins : Begins id b) : Begins id (a ++ b) := by
  intro t l start
  rw [Draft.append_marks_of_ok ok, NameTable.settle_append, Layout.textDepth?_append]
  rcases flush t l start with text | ⟨none, same⟩
  · rw [text]
    rfl
  · rw [none, same]
    exact begins _ l start

theorem Begins.flush {d : Draft} (begins : Begins id d) : Flush d :=
  fun t l start => .inl (begins t l start)

theorem Flush.append {a b : Draft} (first : Flush a) (second : Flush b) : Flush (a ++ b) := by
  cases failed : a.error with
  | none =>
      intro t l start
      rw [Draft.append_marks_of_ok failed, NameTable.settle_append, Layout.textDepth?_append,
        Layout.run_append]
      rcases first t l start with text | ⟨none, same⟩
      · rw [text]
        exact .inl rfl
      · rw [none, same]
        exact second _ l start
  | some error =>
      rw [Draft.append_of_error failed]
      exact first

theorem Layout.put_of_atLineStart {l : Layout} {category : Category} {content : String}
    (blank : (l.put category content).2.atLineStart = true) :
    l.put category content = ([], l) := by
  have empty : content.isEmpty = true := by
    rw [Layout.put_snd] at blank
    exact (Bool.and_eq_true_iff.mp blank).2
  rw [Layout.put, if_pos empty]

/-- A directive that leaves the depth puts text, or it leaves a line without text as it is. -/
theorem Layout.step_eq {l : Layout} {d : Directive} (keeps : ∀ n, d.depthAfter? n = some n)
    (start : l.atLineStart = true) (none : (l.step d).2.atLineStart = true) :
    (l.step d).2 = l := by
  cases d with
  | newline =>
      obtain ⟨unit, depth, atLineStart⟩ := l
      cases start
      rfl
  | indent => cases keeps 0
  | dedent => cases keeps 0
  | _ => exact congrArg Prod.snd (Layout.put_of_atLineStart none)

theorem Flush.step {d : Directive} (keeps : ∀ n, d.depthAfter? n = some n) :
    Flush (.ofDirective d) := by
  intro t l start
  show (if (l.step d).2.atLineStart then none else some l.depth) = _ ∨
    (if (l.step d).2.atLineStart then none else some l.depth) = _ ∧ (l.step d).2 = l
  cases begun : (l.step d).2.atLineStart with
  | false => exact .inl rfl
  | true => exact .inr ⟨rfl, Layout.step_eq keeps start begun⟩

/-- A symbol is written as a name, whatever the name is. -/
theorem Flush.symbol (s : Symbol) : Flush (.ofMarks [.symbol s]) := by
  intro t
  exact Flush.step (d := .identifier (t.name s).1 s.referent) (fun _ => rfl) t

theorem Begins.step {d : Directive}
    (text : ∀ l : Layout, l.atLineStart = true → (l.step d).2.atLineStart = false) :
    Begins id (.ofDirective d) := by
  intro t l start
  show (if (l.step d).2.atLineStart then none else some l.depth) = some l.depth
  rw [text l start]
  rfl

theorem Layout.atLineStart_put {content : String} (text : content.isEmpty = false) (l : Layout)
    (category : Category) : (l.put category content).2.atLineStart = false := by
  simp [Layout.put_snd, text]

theorem Begins.keyword {word : String} (text : word.isEmpty = false) : Begins id (keyword word) :=
  .step fun l _ => Layout.atLineStart_put text l _

theorem Begins.token {symbol : String} (text : symbol.isEmpty = false) : Begins id (token symbol) :=
  .step fun l _ => Layout.atLineStart_put text l _

theorem Begins.braced (b : Draft) : Begins id (braced b) :=
  .append (.append (.append (.append (.append (.token rfl)))))

theorem Begins.headed {word : String} (text : word.isEmpty = false) (write : Expr → Draft)
    (head : Draft) (e : Expr) : Begins id (headed write word head e) :=
  .append (.append (.append (.append (.keyword text))))

theorem Begins.introduced {word : String} (text : word.isEmpty = false) (write : Expr → Draft)
    (type : Ty) (e : Expr) : Begins id (introduced write word type e) :=
  .append (.append (.keyword text))

theorem writingRules_flush :
    WritingRules (fun _ => True) (fun d _ => Flush d) (fun _ _ => True) where
  empty := fun _ _ _ => .inr ⟨rfl, rfl⟩
  append := .append
  plain := fun plain => .step (depthAfter?_of_isPlain plain)
  symbol := fun s _ => .symbol s
  failure := fun _ _ _ _ _ => .inr ⟨rfl, rfl⟩
  bracketed := fun _ inside => .append (.append (.step fun _ => rfl) inside) (.step fun _ => rfl)
  braced := fun {b _} _ => (Begins.braced b).flush
  inside := fun _ => ⟨⟩
  appendInside := fun _ _ => ⟨⟩
  label := fun _ _ => ⟨⟩

/-- Where labels stand only as statements, all else begins at the depth at which it is begun. -/
theorem flush_draft {e : Expr} (labels : e.LabelsStand) (kind : e.kind ≠ .label) :
    Flush e.draft := by
  have wraps {b : Draft} (_ : Flush b) : Flush (checkedBlock b) :=
    Begins.flush (.append (.append (.append (.append (.append (.append (.keyword rfl)))))))
  exact (writingRules_flush.stands_self wraps e.namesOnly_true (.inr labels)).draft kind

/-- A statement that ends its own lines begins with a word or a brace. -/
theorem begins_of_isStatement {e : Expr} (isStatement : e.isStatement = true) :
    Begins id e.draft := by
  rw [Expr.draft_eq]
  obtain ⟨id, node⟩ := e
  cases node with
  | block => exact .braced _
  | conditional test ifTrue ifFalse type =>
      have form : isTernary ifTrue ifFalse type = false := by
        simpa [Expr.isStatement] using isStatement
      simp only [writeNode, conditional, form]
      exact .append (.append (.append (.append (.append (.keyword rfl)))))
  | loop => exact .append (.append (.append (.append (.keyword rfl))))
  | switch => exact .append (.append (.append (.append (.append (.keyword rfl)))))
  | attempt => exact .append (.introduced rfl _ _ _)
  | forLoop => exact .headed rfl _ _ _
  | forEach => exact .headed rfl _ _ _
  | whileLoop => exact .headed rfl _ _ _
  | doWhile =>
      exact .append (.append (.append (.append (.append (.introduced rfl _ _ _)))))
  | usingBlock => exact .headed rfl _ _ _
  | _ => cases isStatement

theorem begins_statement {e : Expr} (labels : e.LabelsStand) (kind : e.kind ≠ .label)
    (ok : e.draft.error = none) (valued : Bool) : Begins id (statement Expr.draft valued e) := by
  cases isStatement : e.isStatement with
  | true =>
      rw [statement_of_isStatement isStatement]
      exact (begins_of_isStatement isStatement).append
  | false =>
      have returned : Flush (if valued && !e.isReturn then keyword "return" ++ space else .empty) ∧
          (if valued && !e.isReturn then keyword "return" ++ space else .empty).error = none := by
        split
        · exact ⟨.append (.step fun _ => rfl) (.step fun _ => rfl), rfl⟩
        · exact ⟨writingRules_flush.empty, rfl⟩
      rw [statement_of_plain isStatement kind]
      refine Flush.append_begins (.append returned.1 (flush_draft labels kind)) ?_
        (.append (.token rfl))
      rw [Draft.error_append, returned.2, ok]
      rfl

/-- A label is written one level further out than it is begun. -/
theorem begins_labelLine (l : Label) : Begins (· - 1) (labelLine l) := by
  have named : Begins id (labelName l ++ token ":") :=
    Flush.append_begins (.symbol _) rfl (.token rfl)
  have line : labelLine l = dedent ++ (labelName l ++ token ":" ++ newline ++ indent) := by
    simp only [labelLine, Draft.append_assoc]
  intro t layout start
  have blank : layout.textDepth? (t.settle dedent.marks).1 = none := by
    show (if layout.atLineStart then none else some layout.depth) = none
    rw [start]
    rfl
  rw [line, Draft.append_marks_of_ok rfl, NameTable.settle_append, Layout.textDepth?_append, blank]
  exact named.append.append t { layout with depth := layout.depth - 1 } start

/-! ### Ends of lines -/

/-- Wherever the draft is begun, it ends at the beginning of a line. -/
def EndsLine (d : Draft) : Prop :=
  d.error = none → ∀ (t : NameTable) (l : Layout),
    (l.run (t.settle d.marks).1).2.atLineStart = true

/-- Begun at the beginning of a line, the draft ends at the beginning of a line. -/
def KeepsLine (d : Draft) : Prop :=
  d.error = none → ∀ (t : NameTable) (l : Layout), l.atLineStart = true →
    (l.run (t.settle d.marks).1).2.atLineStart = true

theorem EndsLine.keepsLine {d : Draft} (ends : EndsLine d) : KeepsLine d :=
  fun ok t l _ => ends ok t l

theorem EndsLine.after {b : Draft} (a : Draft) (ends : EndsLine b) : EndsLine (a ++ b) := by
  intro ok t l
  obtain ⟨aOk, bOk⟩ := Draft.error_append_eq_none_iff.mp ok
  rw [Draft.append_marks_of_ok aOk, NameTable.settle_append, Layout.run_append]
  exact ends bOk _ _

theorem EndsLine.append {a b : Draft} (ends : EndsLine a) (keeps : KeepsLine b) :
    EndsLine (a ++ b) := by
  intro ok t l
  obtain ⟨aOk, bOk⟩ := Draft.error_append_eq_none_iff.mp ok
  rw [Draft.append_marks_of_ok aOk, NameTable.settle_append, Layout.run_append]
  exact keeps bOk _ _ (ends aOk t l)

theorem KeepsLine.append {a b : Draft} (first : KeepsLine a) (second : KeepsLine b) :
    KeepsLine (a ++ b) := by
  intro ok t l start
  obtain ⟨aOk, bOk⟩ := Draft.error_append_eq_none_iff.mp ok
  rw [Draft.append_marks_of_ok aOk, NameTable.settle_append, Layout.run_append]
  exact second bOk _ _ (first aOk t l start)

theorem KeepsLine.empty : KeepsLine .empty := fun _ _ _ start => start

theorem EndsLine.newline : EndsLine newline := fun _ _ _ => rfl

theorem EndsLine.bodyLines (type : Ty) (e : Expr) : EndsLine (bodyLines Expr.draft type e) :=
  .after _ .newline

theorem EndsLine.headed (word : String) (head : Draft) (e : Expr) :
    EndsLine (headed Expr.draft word head e) :=
  .after _ (.bodyLines _ _)

theorem EndsLine.introduced (word : String) (type : Ty) (e : Expr) :
    EndsLine (introduced Expr.draft word type e) :=
  .after _ (.bodyLines _ _)

theorem EndsLine.attempt (e : Expr) (handlers : List Handler) (fault finalizer : Option Expr) :
    EndsLine (attempt Expr.draft e handlers fault finalizer) := by
  refine .append (.introduced _ _ _) ?_
  induction handlers with
  | nil =>
      refine .append ?_ ?_
      · cases fault with
        | none => exact .empty
        | some part => exact (EndsLine.introduced _ _ part).keepsLine
      · cases finalizer with
        | none => exact .empty
        | some part => exact (EndsLine.introduced _ _ part).keepsLine
  | cons h hs ih => exact .append (EndsLine.after _ (.bodyLines _ _)).keepsLine ih

/-- A statement that is not a block ends its own lines. -/
theorem endsLine_of_isStatement {e : Expr} (isStatement : e.isStatement = true)
    (kind : e.kind ≠ .block) : EndsLine e.draft := by
  rw [Expr.draft_eq]
  obtain ⟨id, node⟩ := e
  cases node with
  | block => exact absurd rfl kind
  | conditional test ifTrue ifFalse type =>
      have form : isTernary ifTrue ifFalse type = false := by
        simpa [Expr.isStatement] using isStatement
      simp only [writeNode, conditional, form]
      refine .append (.after _ (.bodyLines _ _)) ?_
      cases ifFalse with
      | none => exact .empty
      | some ifFalse => exact (EndsLine.introduced _ _ ifFalse).keepsLine
  | loop => exact .after _ (.bodyLines _ _)
  | switch => exact .after _ .newline
  | attempt => exact .attempt _ _ _ _
  | forLoop => exact .headed _ _ _
  | forEach => exact .headed _ _ _
  | whileLoop => exact .headed _ _ _
  | doWhile => exact .after _ .newline
  | usingBlock => exact .headed _ _ _
  | _ => cases isStatement

theorem endsLine_statement {e : Expr} (kind : e.kind ≠ .label) (valued : Bool) :
    EndsLine (statement Expr.draft valued e) := by
  cases isStatement : e.isStatement with
  | true =>
      rw [statement_of_isStatement isStatement]
      by_cases block : e.kind = .block
      · rw [if_pos block]
        exact .after _ .newline
      · rw [if_neg block]
        exact .append (endsLine_of_isStatement isStatement block) .empty
  | false =>
      rw [statement_of_plain isStatement kind]
      exact .after _ (.after _ .newline)

theorem endsLine_labelLine (l : Label) : EndsLine (labelLine l) :=
  .append (.after _ .newline) fun _ _ _ start => start

theorem keepsLine_declarations (locals : List Parameter) : KeepsLine (declarations locals) := by
  have last : KeepsLine (if locals.isEmpty then .empty else newline) := by
    split
    · exact .empty
    · exact EndsLine.newline.keepsLine
  unfold declarations
  generalize (if locals.isEmpty then Draft.empty else newline) = blank at last ⊢
  induction locals with
  | nil => exact last
  | cons p ps ih => exact .append (EndsLine.after _ .newline).keepsLine ih

end ExprTree.Source
