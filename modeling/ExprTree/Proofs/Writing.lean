import ExprTree.Proofs.Alike
import ExprTree.Proofs.Refusal
import ExprTree.Proofs.Symbols

/-!
What holds of everything that is written.

The writer makes drafts of single steps, puts them one after the other, and puts them in brackets or
in braces on lines of their own. A property that all of this keeps holds of whatever is written. It
is stated here for two drafts side by side, so that it can compare what is written of two trees with
the same nodes: `WritingRules.writeNode` goes from the drafts of the children to those of the nodes.
-/

namespace ExprTree

namespace Source

/-! ### Rules -/

/-- The brackets that stand around what is written. -/
def brackets : List (String × String) := [("(", ")"), ("[", "]"), ("\x7b", "\x7d")]

/-- Whether a directive neither is a bracket, nor changes the depth, nor opens a wrapper, nor names
a symbol. -/
def Directive.isPlain : Directive → Bool
  | .token text => !(brackets.any fun pair => text = pair.1 || text = pair.2)
  | .keyword text => text ≠ "checked"
  | .write _ | .indent | .dedent => false
  | .identifier _ (.parameter _) | .identifier _ (.label _) => false
  | _ => true

end Source

/-- Whether a node of this kind is written in a wrapper, so that its overflows are reported. -/
def Kind.isChecked : Kind → Bool
  | .unary .negateChecked | .unary .convertChecked => true
  | .binary _ _ checked => checked
  | _ => false

namespace Source

/-- A property of two drafts that is kept by what the writer does where it names only certain
symbols, together with a weaker one of what stands in braces on lines of its own. -/
structure WritingRules (N : Symbol → Prop) (R Q : Draft → Draft → Prop) : Prop where
  empty : R .empty .empty
  append : ∀ {a a' b b'}, R a a' → R b b' → R (a ++ b) (a' ++ b')
  plain : ∀ {d : Directive}, d.isPlain = true → R (.ofDirective d) (.ofDirective d)
  symbol : ∀ s, N s → R (.ofMarks [.symbol s]) (.ofMarks [.symbol s])
  failure : ∀ kind lack, R (.failure kind lack) (.failure kind lack)
  bracketed : ∀ {o c : String} {b b'}, (o, c) ∈ brackets → R b b' →
    R (token o ++ b ++ token c) (token o ++ b' ++ token c)
  braced : ∀ {b b'}, Q b b' → R (braced b) (braced b')
  inside : ∀ {b b'}, R b b' → Q b b'
  appendInside : ∀ {a a' b b'}, Q a a' → Q b b' → Q (a ++ b) (a' ++ b')
  label : ∀ l, N (.label l) → Q (labelLine l) (labelLine l)

end Source

open Source

/-! ### Statements -/

namespace Source

/-- What is written of an expression that stands as a statement. A label is followed by its
default. -/
def single (valued : Bool) (e : Expr) : Draft :=
  match e.node with
  | .label _ (some fallback) => e.draft ++ statement Expr.draft valued fallback
  | .label _ none => e.draft
  | _ => statement Expr.draft valued e

theorem statements_cons (type : Ty) (e : Expr) (es : List Expr) :
    statements Expr.draft type (e :: es) =
      single (es.isEmpty && !type.isVoid) e ++ statements Expr.draft type es :=
  rfl

theorem draft_of_label {e : Expr} {l : Label} {fallback : Option Expr}
    (node : e.node = .label l fallback) : e.draft = labelLine l := by
  rw [Expr.draft_eq, writeNode, node]

theorem exists_of_label {e : Expr} (kind : e.kind = .label) :
    ∃ l fallback, e.node = .label l fallback := by
  obtain ⟨id, node⟩ := e
  cases node with
  | label l fallback => exact ⟨l, fallback, rfl⟩
  | _ => cases kind

theorem single_of_not_label {e : Expr} (kind : e.kind ≠ .label) (valued : Bool) :
    single valued e = statement Expr.draft valued e := by
  obtain ⟨id, node⟩ := e
  cases node with
  | label => exact absurd rfl kind
  | _ => rfl

theorem statement_of_label {e : Expr} (kind : e.kind = .label) (valued : Bool) :
    statement Expr.draft valued e = e.draft := by
  simp [statement, kind]

/-- A statement that ends its own lines takes neither `return` nor `;`. -/
theorem statement_of_isStatement {e : Expr} (isStatement : e.isStatement = true) (valued : Bool) :
    statement Expr.draft valued e =
      e.draft ++ if e.kind = .block then newline else .empty := by
  simp [statement, isStatement]

/-- Anything else but a label is ended, and returned if it is a value. -/
theorem statement_of_plain {e : Expr} (plain : e.isStatement = false) (kind : e.kind ≠ .label)
    (valued : Bool) :
    statement Expr.draft valued e =
      (if valued && !e.isReturn then keyword "return" ++ space else .empty) ++ e.draft ++
        (token ";" ++ newline) := by
  simp [statement, plain, kind]

theorem body_of_block {e : Expr} (kind : e.kind = .block) (type : Ty) :
    body Expr.draft type e = e.draft := by
  obtain ⟨id, node⟩ := e
  cases node with
  | block => rw [Expr.draft_eq, writeNode, body]
  | _ => cases kind

theorem body_of_not_block {e : Expr} (kind : e.kind ≠ .block) (type : Ty) :
    body Expr.draft type e = block Expr.draft [] [e] type := by
  obtain ⟨id, node⟩ := e
  cases node with
  | block => exact absurd rfl kind
  | _ => simp only [body, block, declarations, List.foldr_nil, List.isEmpty_nil, if_true,
      Draft.empty_append]

/-- Every body is written as a block. -/
theorem exists_block_of_body (type : Ty) (e : Expr) :
    ∃ locals es t, body Expr.draft type e = block Expr.draft locals es t := by
  unfold body
  split
  · exact ⟨_, _, _, rfl⟩
  · exact ⟨[], [e], type, rfl⟩

end Source

/-! ### Parts of cases and handlers -/

theorem SwitchCase.places_subset {value : Expr} {cases : List SwitchCase} {fallback : Option Expr}
    {type : Ty} {c : SwitchCase} (mem : c ∈ cases) :
    c.places ⊆ (Node.switch value cases fallback type).places := by
  intro part inside
  simp only [Node.places, List.cons_append, List.mem_cons, List.mem_append, List.mem_flatMap]
  exact .inr (.inl ⟨c, mem, inside⟩)

theorem Handler.places_subset {body : Expr} {handlers : List Handler}
    {fault finalizer : Option Expr} {h : Handler} (mem : h ∈ handlers) :
    h.places ⊆ (Node.attempt body handlers fault finalizer).places := by
  intro part inside
  simp only [Node.places, List.cons_append, List.mem_cons, List.mem_append, List.mem_flatMap]
  exact .inr (.inl (.inl ⟨h, mem, inside⟩))

/-! ### Expressions that are written alike -/

/-- Two expressions are put in parentheses, ended and returned at the same places. -/
structure Expr.SameForm (e e' : Expr) : Prop where
  operand : e.kind.isGroupedAsOperand = e'.kind.isGroupedAsOperand
  target : e.kind.isGroupedAsTarget = e'.kind.isGroupedAsTarget
  statement : e.isStatement = e'.isStatement
  returns : e.isReturn = e'.isReturn
  type : e.type = e'.type
  block : e.kind = .block ↔ e'.kind = .block
  label : e.kind = .label ↔ e'.kind = .label

theorem Expr.SameForm.refl (e : Expr) : e.SameForm e := ⟨rfl, rfl, rfl, rfl, rfl, .rfl, .rfl⟩

theorem Expr.SameForm.trans {a b c : Expr} (first : a.SameForm b) (second : b.SameForm c) :
    a.SameForm c where
  operand := first.operand.trans second.operand
  target := first.target.trans second.target
  statement := first.statement.trans second.statement
  returns := first.returns.trans second.returns
  type := first.type.trans second.type
  block := first.block.trans second.block
  label := first.label.trans second.label

theorem isTernary_congr {ifTrue ifTrue' : Expr} {ifFalse ifFalse' : Option Expr} (type : Ty)
    (trues : ifTrue.SameForm ifTrue') (falses : Option.Rel Expr.SameForm ifFalse ifFalse') :
    isTernary ifTrue ifFalse type = isTernary ifTrue' ifFalse' type := by
  cases falses with
  | none => rfl
  | some falses => simp only [isTernary, ne_eq, trues.block, falses.block]

theorem Node.Alike.sameForm {r : Expr → Expr → Prop} {e e' : Expr}
    (alike : e.node.Alike r Eq e'.node)
    (each : ∀ c ∈ e.children, ∀ c', r c c' → c.SameForm c') : e.SameForm e' := by
  have kind : e.kind = e'.kind := alike.kind_eq
  have statement : e.isStatement = e'.isStatement := by
    obtain ⟨id, node⟩ := e
    obtain ⟨id', node'⟩ := e'
    cases alike with
    | conditional test ifTrue ifFalse =>
        simp only [Expr.children, Node.children, List.forall_mem_cons] at each
        simp only [Expr.isStatement]
        rw [isTernary_congr _ (each.2.1 _ ifTrue) (rel_imp_of_mem ifFalse each.2.2)]
    | _ => rfl
  have type : e.type = e'.type := by
    rw [Expr.type_of_node rfl, Expr.type_of_node rfl]
    refine alike.type_eq (fun c mem c' related => (each c mem c' related).type) ?_
    exact fun p q same => congrArg Parameter.type same
  refine ⟨?_, ?_, statement, ?_, type, ?_, ?_⟩ <;> simp only [Expr.isReturn, kind]

section

variable (R Q : Draft → Draft → Prop)

/-- The property holds of two expressions within a line. -/
structure Expr.Inline (e e' : Expr) : Prop where
  form : e.SameForm e'
  draft : R e.draft e'.draft

/-- The property holds of two expressions that stand as statements. -/
structure Expr.Stands (e e' : Expr) : Prop where
  form : e.SameForm e'
  draft : e.kind ≠ .label → R e.draft e'.draft
  line : Q e.draft e'.draft
  single : ∀ valued, Q (single valued e) (single valued e')

end

namespace Source

namespace WritingRules

variable {N : Symbol → Prop} {R Q : Draft → Draft → Prop} {a a' b b' : Draft} {e e' : Expr}
  {es es' : List Expr}

/-! ### Single steps -/

theorem space (rules : WritingRules N R Q) : R space space := rules.plain rfl

theorem newline (rules : WritingRules N R Q) : R newline newline := rules.plain rfl

theorem token {text : String} (rules : WritingRules N R Q)
    (plain : (Directive.token text).isPlain = true) : R (token text) (token text) :=
  rules.plain plain

theorem keyword {text : String} (rules : WritingRules N R Q)
    (plain : (Directive.keyword text).isPlain = true) : R (keyword text) (keyword text) :=
  rules.plain plain

theorem literal (rules : WritingRules N R Q) (text : String) : R (literal text) (literal text) :=
  rules.plain rfl

theorem reference (rules : WritingRules N R Q) (text : String) (referent : Referent) :
    R (reference text referent) (reference text referent) :=
  rules.plain rfl

theorem parameterName (rules : WritingRules N R Q) {p : Parameter} (named : N (.parameter p)) :
    R (parameterName p) (parameterName p) :=
  rules.symbol _ named

theorem parenthesized (rules : WritingRules N R Q) (body : R b b') :
    R (parenthesized b) (parenthesized b') :=
  rules.bracketed (by decide) body

theorem commaSeparated {items items' : List Draft} (rules : WritingRules N R Q)
    (each : List.Forall₂ R items items') : R (commaSeparated items) (commaSeparated items') := by
  induction each with
  | nil => exact rules.empty
  | cons first rest ih =>
      cases rest with
      | nil => exact first
      | cons =>
          exact rules.append (rules.append (rules.append first (rules.token rfl)) rules.space) ih

theorem listed {o c : String} {items items' : List Draft} (rules : WritingRules N R Q)
    (pair : (o, c) ∈ brackets) (each : List.Forall₂ R items items') :
    R (listed o c items) (listed o c items') :=
  rules.bracketed pair (rules.commaSeparated each)

/-! ### Types -/

theorem commas (rules : WritingRules N R Q) (n : Nat) :
    let marks := List.replicate n (Mark.step (.token ","))
    R (.ofMarks marks) (.ofMarks marks) := by
  induction n with
  | zero => exact rules.empty
  | succ n ih => exact rules.append (a := .ofMarks [.step (.token ",")]) (rules.token rfl) ih

/-- Type arguments, or the places for them, in angle brackets. -/
theorem angled {marks : List Mark} (rules : WritingRules N R Q)
    (inner : R (.ofMarks marks) (.ofMarks marks)) :
    let angled := Mark.step (.token "<") :: marks ++ [.step (.token ">")]
    R (.ofMarks angled) (.ofMarks angled) :=
  rules.append (rules.append (a := .ofMarks [.step (.token "<")]) (rules.token rfl) inner)
    (rules.token rfl)

mutual

theorem typeMarks (rules : WritingRules N R Q) :
    (t : Ty) → R (.ofMarks (typeMarks t)) (.ofMarks (typeMarks t))
  | .array element rank => by
      have dimensions := rules.bracketed (o := "[") (c := "]") (by decide) (rules.commas (rank - 1))
      have whole := rules.append (typeMarks rules element) dimensions
      rw [← Draft.append_assoc] at whole
      exact whole
  | .named d => rules.append (a := .ofMarks [_]) (rules.reference _ _) (argumentMarks rules d)
  | .parameter _ | .void | .boolean | .char | .string | .object | .integral _ | .single | .double
  | .decimal => rules.reference _ _

theorem argumentMarks (rules : WritingRules N R Q) :
    (d : Named) → R (.ofMarks (argumentMarks d)) (.ofMarks (argumentMarks d))
  | ⟨_, _, arguments, definition, _, _, _⟩ => by
      unfold Source.argumentMarks
      split
      · exact rules.angled (rules.commas _)
      · split
        · exact rules.empty
        · exact rules.angled (commaMarks rules arguments)

theorem commaMarks (rules : WritingRules N R Q) :
    (ts : List Ty) → R (.ofMarks (commaMarks (typeMarksList ts)))
      (.ofMarks (commaMarks (typeMarksList ts)))
  | [] => rules.empty
  | [t] => typeMarks rules t
  | t :: t' :: ts => by
      have rest := commaMarks rules (t' :: ts)
      have comma := rules.append (a := .ofMarks [.step (.token ",")]) (rules.token rfl)
        (rules.append rules.space rest)
      exact rules.append (typeMarks rules t) comma

end

theorem writeType (rules : WritingRules N R Q) (t : Ty) : R (writeType t) (writeType t) :=
  rules.typeMarks t

theorem methodArguments (rules : WritingRules N R Q) (m : Method) :
    R (methodArguments m) (methodArguments m) := by
  unfold Source.methodArguments
  split
  · exact rules.angled (rules.commas _)
  · split
    · exact rules.empty
    · refine rules.append (rules.append (rules.token rfl) (rules.commaSeparated ?_))
        (rules.token rfl)
      simp only [List.forall₂_map_left_iff, List.forall₂_map_right_iff]
      exact List.forall₂_same.mpr fun t _ => rules.writeType t

theorem typedName (rules : WritingRules N R Q) {p : Parameter} (named : N (.parameter p)) :
    R (Source.writeType p.type ++ Source.space ++ Source.parameterName p)
      (Source.writeType p.type ++ Source.space ++ Source.parameterName p) :=
  rules.append (rules.append (rules.writeType _) rules.space) (rules.parameterName named)

theorem writeParameters (rules : WritingRules N R Q) {ps : List Parameter}
    (named : ∀ p ∈ ps, N (.parameter p)) : R (writeParameters ps) (writeParameters ps) := by
  refine rules.listed (by decide) ?_
  simp only [List.forall₂_map_left_iff, List.forall₂_map_right_iff]
  exact List.forall₂_same.mpr fun p mem => rules.typedName (named p mem)

theorem declarations (rules : WritingRules N R Q) {locals : List Parameter}
    (named : ∀ p ∈ locals, N (.parameter p)) :
    R (declarations locals) (declarations locals) := by
  have ended : R (if locals.isEmpty then .empty else Source.newline)
      (if locals.isEmpty then .empty else Source.newline) := by
    split
    · exact rules.empty
    · exact rules.newline
  unfold Source.declarations
  generalize (if locals.isEmpty then Draft.empty else Source.newline) = last at ended ⊢
  induction locals with
  | nil => exact ended
  | cons p ps ih =>
      obtain ⟨first, rest⟩ := List.forall_mem_cons.mp named
      exact rules.append (rules.append (rules.append (rules.typedName first) (rules.token rfl))
        rules.newline) (ih rest)

/-! ### Operands -/

theorem operand (rules : WritingRules N R Q) (known : e.Inline R e') :
    R (operand Expr.draft e) (operand Expr.draft e') := by
  unfold Source.operand
  rw [known.form.operand]
  split
  · exact rules.parenthesized known.draft
  · exact known.draft

theorem target (rules : WritingRules N R Q) (known : e.Inline R e') :
    R (target Expr.draft e) (target Expr.draft e') := by
  unfold Source.target
  rw [known.form.target]
  split
  · exact rules.parenthesized known.draft
  · exact known.draft

theorem items {o c : String} (rules : WritingRules N R Q) (pair : (o, c) ∈ brackets)
    (known : List.Forall₂ (Expr.Inline R) es es') :
    R (Source.listed o c (es.map Expr.draft)) (Source.listed o c (es'.map Expr.draft)) := by
  refine rules.listed pair ?_
  simp only [List.forall₂_map_left_iff, List.forall₂_map_right_iff]
  exact known.imp fun _ _ h => h.draft

theorem between {symbol : String} (rules : WritingRules N R Q)
    (plain : (Directive.token symbol).isPlain = true) (left : R a a') (right : R b b') :
    R (between a symbol b) (between a' symbol b') :=
  rules.append (rules.append (rules.append (rules.append left rules.space) (rules.token plain))
    rules.space) right

theorem accessed (rules : WritingRules N R Q) (receiver : R a a') (name : String)
    (referent : Referent) : R (accessed a name referent) (accessed a' name referent) :=
  rules.append (rules.append receiver (rules.token rfl)) (rules.reference _ _)

theorem called (rules : WritingRules N R Q) (receiver : R a a') (m : Method)
    (known : List.Forall₂ (Expr.Inline R) es es') :
    R (called Expr.draft a m es) (called Expr.draft a' m es') :=
  rules.append (rules.append (rules.accessed receiver _ _) (rules.methodArguments m))
    (rules.items (by decide) known)

theorem receiver {inner inner' : Option Expr} (rules : WritingRules N R Q)
    (known : Option.Rel (Expr.Inline R) inner inner') (declaring : Ty) :
    R (receiver Expr.draft inner declaring) (receiver Expr.draft inner' declaring) := by
  cases known with
  | none => exact rules.writeType declaring
  | some known => exact rules.target known

/-! ### Operators -/

theorem conversion (rules : WritingRules N R Q) (known : e.Inline R e') (type : Ty) :
    R (conversion Expr.draft type e) (conversion Expr.draft type e') :=
  rules.append (rules.parenthesized (rules.writeType type)) (rules.operand known)

theorem leading {symbol : String} (rules : WritingRules N R Q)
    (plain : (Directive.token symbol).isPlain = true) (known : e.Inline R e') :
    R (leading Expr.draft symbol e) (leading Expr.draft symbol e') :=
  rules.append (rules.token plain) (rules.operand known)

theorem unary {op : UnaryOp} (rules : WritingRules N R Q) (known : e.Inline R e') (type : Ty)
    (wraps : (Kind.unary op).isChecked = true → ∀ {a a'}, R a a' →
      R (checkedBlock a) (checkedBlock a')) :
    R (unary Expr.draft op e type) (unary Expr.draft op e' type) := by
  rw [unary_draft, unary_draft]
  cases op with
  | throw => exact rules.append (rules.append (rules.keyword rfl) rules.space) known.draft
  | isTrue | isFalse | increment | decrement =>
      exact rules.between rfl (rules.operand known) (rules.literal _)
  | arrayLength =>
      simp only [unaryExpanded, known.form.type]
      exact rules.accessed (rules.target known) _ _
  | typeAs =>
      exact rules.append (rules.append (rules.append (rules.append known.draft rules.space)
        (rules.keyword rfl)) rules.space) (rules.writeType type)
  | convert | unbox => exact rules.conversion known type
  | convertChecked => exact wraps rfl (rules.conversion known type)
  | quote => exact known.draft
  | preIncrementAssign | preDecrementAssign => exact rules.append (rules.token rfl) known.draft
  | postIncrementAssign | postDecrementAssign => exact rules.append known.draft (rules.token rfl)
  | negateChecked => exact wraps rfl (rules.leading rfl known)
  | negate | unaryPlus | not | onesComplement => exact rules.leading rfl known

theorem binaryToken {left left' right right' : Expr} (rules : WritingRules N R Q) (op : BinaryOp)
    (lefts : left.Inline R left') (rights : right.Inline R right') (assign checked : Bool) :
    R (binaryToken Expr.draft op left right assign checked)
      (binaryToken Expr.draft op left' right' assign checked) := by
  have plain {symbol : String} (found : op.token? = some symbol) :
      (Directive.token symbol).isPlain = true ∧
        (Directive.token (symbol ++ "=")).isPlain = true := by
    cases op <;> cases found <;> decide
  unfold Source.binaryToken
  cases found : op.token? with
  | none => exact rules.failure _ _
  | some symbol =>
      cases assign with
      | true => exact rules.between (plain found).2 lefts.draft rights.draft
      | false => exact rules.between (plain found).1 (rules.operand lefts) (rules.operand rights)

theorem power {left left' right right' : Expr} (rules : WritingRules N R Q)
    (lefts : left.Inline R left') (rights : right.Inline R right') :
    R (powerExpanded Expr.draft left right) (powerExpanded Expr.draft left' right') :=
  rules.called (rules.writeType _) .pow (.cons lefts (.cons rights .nil))

theorem binary {left left' right right' : Expr} (rules : WritingRules N R Q) (op : BinaryOp)
    (lefts : left.Inline R left') (rights : right.Inline R right') (assign checked : Bool)
    (wraps : checked = true → ∀ {a a'}, R a a' → R (checkedBlock a) (checkedBlock a')) :
    R (binary Expr.draft op left right assign checked)
      (binary Expr.draft op left' right' assign checked) := by
  have tokens := rules.binaryToken op lefts rights assign checked
  unfold Source.binary
  split
  · exact rules.failure _ _
  · cases checked with
    | true => exact wraps rfl tokens
    | false =>
        cases op with
        | assign => exact rules.between rfl lefts.draft rights.draft
        | power =>
            cases assign with
            | true =>
                simp only [if_true, draft_madeBinary_madePower]
                exact rules.between rfl lefts.draft (rules.power lefts rights)
            | false =>
                simp only [Bool.false_eq_true, if_false, draft_madePower]
                exact rules.power lefts rights
        | arrayIndex =>
            have index := rules.bracketed (o := "[") (c := "]") (by decide) rights.draft
            have whole := rules.append (rules.target lefts) index
            rw [← Draft.append_assoc, ← Draft.append_assoc, ← Draft.append_assoc,
              ← Draft.append_assoc] at whole
            exact whole
        | _ => exact tokens

theorem typeTest (rules : WritingRules N R Q) (op : TypeOp) (known : e.Inline R e') (tested : Ty) :
    R (typeTest Expr.draft op e tested) (typeTest Expr.draft op e' tested) := by
  cases op with
  | typeIs =>
      exact rules.append (rules.append (rules.append (rules.append known.draft rules.space)
        (rules.keyword rfl)) rules.space) (rules.writeType tested)
  | typeEqual =>
      simp only [Source.typeTest, draft_madeTypeQuery]
      exact rules.between rfl (rules.called (rules.target known) .getType .nil)
        (rules.append (rules.keyword rfl) (rules.parenthesized (rules.writeType tested)))

/-! ### Statements and bodies -/

theorem statement (rules : WritingRules N R Q) (known : e.Inline R e') (valued : Bool) :
    R (statement Expr.draft valued e) (statement Expr.draft valued e') := by
  obtain ⟨form, draft⟩ := known
  simp only [Source.statement, form.statement, ne_eq, form.label, form.block, form.returns]
  refine rules.append (rules.append ?_ draft) ?_
  · split
    · exact rules.append (rules.keyword rfl) rules.space
    · exact rules.empty
  · split
    · exact rules.append (rules.token rfl) rules.newline
    · split
      · exact rules.newline
      · exact rules.empty

theorem stands (rules : WritingRules N R Q) (kind : e.kind ≠ .label) (known : e.Inline R e') :
    e.Stands R Q e' where
  form := known.form
  draft := fun _ => known.draft
  line := rules.inside known.draft
  single := fun valued => by
    rw [single_of_not_label kind, single_of_not_label (mt known.form.label.mpr kind)]
    exact rules.inside (rules.statement known valued)

theorem stands_of_label {l : Label} {fallback fallback' : Option Expr} (rules : WritingRules N R Q)
    (node : e.node = .label l fallback) (node' : e'.node = .label l fallback')
    (named : N (.label l)) (form : e.SameForm e')
    (known : Option.Rel (Expr.Stands R Q) fallback fallback') :
    e.Stands R Q e' := by
  have line : Q e.draft e'.draft := by
    rw [draft_of_label node, draft_of_label node']
    exact rules.label l named
  refine ⟨form, fun other => ?_, line, fun valued => ?_⟩
  · exact absurd (by rw [Expr.kind, node]; rfl) other
  · simp only [Source.single, node, node']
    cases known with
    | none => exact line
    | @some f f' known =>
        refine rules.appendInside line ?_
        by_cases kind : f.kind = .label
        · rw [statement_of_label kind, statement_of_label (known.form.label.mp kind)]
          exact known.line
        · exact rules.inside (rules.statement ⟨known.form, known.draft kind⟩ valued)

theorem statements (rules : WritingRules N R Q) (type : Ty)
    (known : List.Forall₂ (Expr.Stands R Q) es es') :
    Q (statements Expr.draft type es) (statements Expr.draft type es') := by
  induction known with
  | nil => exact rules.inside rules.empty
  | @cons e e' es es' first rest ih =>
      have last : es.isEmpty = es'.isEmpty := by cases rest <;> rfl
      rw [statements_cons, statements_cons, last]
      exact rules.appendInside (first.single _) ih

theorem block (rules : WritingRules N R Q) {locals : List Parameter}
    (named : ∀ p ∈ locals, N (.parameter p)) (type : Ty)
    (known : List.Forall₂ (Expr.Stands R Q) es es') :
    R (block Expr.draft locals es type) (block Expr.draft locals es' type) :=
  rules.braced (rules.appendInside (rules.inside (rules.declarations named))
    (rules.statements type known))

theorem body (rules : WritingRules N R Q) (type : Ty) (known : e.Stands R Q e') :
    R (body Expr.draft type e) (body Expr.draft type e') := by
  by_cases kind : e.kind = .block
  · rw [body_of_block kind, body_of_block (known.form.block.mp kind)]
    exact known.draft (by simp [kind])
  · rw [body_of_not_block kind, body_of_not_block (mt known.form.block.mpr kind)]
    exact rules.block (List.forall_mem_nil _) type (.cons known .nil)

theorem bodyLines (rules : WritingRules N R Q) (type : Ty) (known : e.Stands R Q e') :
    R (bodyLines Expr.draft type e) (bodyLines Expr.draft type e') :=
  rules.append (rules.body type known) rules.newline

theorem headed {word : String} (rules : WritingRules N R Q)
    (plain : (Directive.keyword word).isPlain = true) (head : R a a') (known : e.Stands R Q e') :
    R (headed Expr.draft word a e) (headed Expr.draft word a' e') :=
  rules.append (rules.append (rules.append (rules.append (rules.keyword plain) rules.space)
    (rules.parenthesized head)) rules.newline) (rules.bodyLines .void known)

theorem introduced {word : String} (rules : WritingRules N R Q)
    (plain : (Directive.keyword word).isPlain = true) (type : Ty) (known : e.Stands R Q e') :
    R (introduced Expr.draft word type e) (introduced Expr.draft word type e') :=
  rules.append (rules.append (rules.keyword plain) rules.newline) (rules.bodyLines type known)

/-! ### Choices -/

theorem ternary {test test' ifTrue ifTrue' ifFalse ifFalse' : Expr} {type : Ty}
    (rules : WritingRules N R Q) (isTernary : isTernary ifTrue (some ifFalse) type = true)
    (tests : test.Inline R test') (trues : ifTrue.Inline R ifTrue')
    (falses : ifFalse.Inline R ifFalse') :
    R (conditional Expr.draft test ifTrue (some ifFalse) type)
      (conditional Expr.draft test' ifTrue' (some ifFalse') type) := by
  have same := isTernary_congr type trues.form (.some falses.form)
  simp only [conditional, isTernary, ← same, if_true]
  exact rules.append (rules.append (rules.append (rules.append (rules.append (rules.append
    (rules.append (rules.append tests.draft rules.space) (rules.token rfl)) rules.space)
    trues.draft) rules.space) (rules.token rfl)) rules.space) falses.draft

theorem branches {test test' ifTrue ifTrue' : Expr} {ifFalse ifFalse' : Option Expr} {type : Ty}
    (rules : WritingRules N R Q) (branching : isTernary ifTrue ifFalse type = false)
    (tests : test.Inline R test') (trues : ifTrue.Stands R Q ifTrue')
    (falses : Option.Rel (Expr.Stands R Q) ifFalse ifFalse') :
    R (conditional Expr.draft test ifTrue ifFalse type)
      (conditional Expr.draft test' ifTrue' ifFalse' type) := by
  have same := isTernary_congr type trues.form (rel_imp_of_mem falses fun _ _ _ h => h.form)
  simp only [conditional, branching, ← same]
  refine rules.append (rules.append (rules.append (rules.append (rules.append (rules.keyword rfl)
    rules.space) (rules.parenthesized tests.draft)) rules.newline) (rules.bodyLines type trues)) ?_
  cases falses with
  | none => exact rules.empty
  | some falses => exact rules.introduced rfl type falses

/-- Only a return writes its value. -/
theorem jump {kind : JumpKind} {value value' : Option Expr} (rules : WritingRules N R Q)
    {destination : Label} (named : N (.label destination))
    (known : kind = .returning → Option.Rel (Expr.Inline R) value value') :
    R (jump Expr.draft kind destination value) (jump Expr.draft kind destination value') := by
  cases kind with
  | returning =>
      refine rules.append (rules.keyword rfl) ?_
      cases known rfl with
      | none => exact rules.empty
      | some value => exact rules.append rules.space value.draft
  | breaking | continuing => exact rules.keyword rfl
  | goto => exact rules.append (rules.append (rules.keyword rfl) rules.space) (rules.symbol _ named)

/-- The property holds of what two cases write. -/
structure CaseKnown (R Q : Draft → Draft → Prop) (c c' : SwitchCase) : Prop where
  tests : List.Forall₂ (Expr.Inline R) c.tests c'.tests
  body : c.body.Stands R Q c'.body

theorem switchCase {c c' : SwitchCase} (rules : WritingRules N R Q) (type : Ty)
    (known : CaseKnown R Q c c') :
    R (switchCase Expr.draft type c) (switchCase Expr.draft type c') := by
  obtain ⟨tests, body⟩ := c
  obtain ⟨tests', body'⟩ := c'
  have last : R (Source.bodyLines Expr.draft type body) (Source.bodyLines Expr.draft type body') :=
    rules.bodyLines type known.body
  have each : List.Forall₂ (Expr.Inline R) tests tests' := known.tests
  unfold Source.switchCase
  clear known
  induction each with
  | nil => exact last
  | cons first rest ih =>
      exact rules.append (rules.append (rules.append (rules.append (rules.append
        (rules.keyword rfl) rules.space) first.draft) (rules.token rfl)) rules.newline) ih

theorem switch {cases cases' : List SwitchCase} {fallback fallback' : Option Expr}
    (rules : WritingRules N R Q) (type : Ty) (value : e.Inline R e')
    (known : List.Forall₂ (CaseKnown R Q) cases cases')
    (last : Option.Rel (Expr.Stands R Q) fallback fallback') :
    R (switch Expr.draft e cases fallback type) (switch Expr.draft e' cases' fallback' type) := by
  refine rules.append (rules.append (rules.append (rules.append (rules.append (rules.keyword rfl)
    rules.space) (rules.parenthesized value.draft)) rules.newline)
    (rules.braced (rules.inside ?_))) rules.newline
  induction known with
  | nil =>
      cases last with
      | none => exact rules.empty
      | some last =>
          exact rules.append (rules.append (rules.append (rules.keyword rfl) (rules.token rfl))
            rules.newline) (rules.bodyLines type last)
  | cons first rest ih => exact rules.append (rules.switchCase type first) ih

/-- The property holds of what two handlers write. -/
structure HandlerKnown (N : Symbol → Prop) (R Q : Draft → Draft → Prop) (h h' : Handler) :
    Prop where
  tested : h.tested = h'.tested
  caught : Option.Rel Eq h.caught h'.caught
  named : ∀ p ∈ h.caught, N (.parameter p)
  filter : Option.Rel (Expr.Inline R) h.filter h'.filter
  body : h.body.Stands R Q h'.body

theorem handler {h h' : Handler} (rules : WritingRules N R Q) (type : Ty)
    (known : HandlerKnown N R Q h h') :
    R (handler Expr.draft type h) (handler Expr.draft type h') := by
  obtain ⟨tested, caught, filter, body⟩ := h
  obtain ⟨tested', caught', filter', body'⟩ := h'
  obtain ⟨rfl, same, named, filters, bodies⟩ := known
  refine rules.append (rules.append (rules.append (rules.append (rules.append (rules.keyword rfl)
    rules.space) (rules.parenthesized (rules.append (rules.writeType _) ?_))) ?_) rules.newline)
    (rules.bodyLines type bodies)
  · cases same with
    | none => exact rules.empty
    | some same =>
        cases same
        exact rules.append rules.space (rules.parameterName (named _ rfl))
  · cases filters with
    | none => exact rules.empty
    | some filter =>
        exact rules.append (rules.append (rules.append rules.space (rules.keyword rfl)) rules.space)
          (rules.parenthesized filter.draft)

theorem attempt {handlers handlers' : List Handler}
    {fault fault' finalizer finalizer' : Option Expr} (rules : WritingRules N R Q)
    (tried : e.Stands R Q e') (known : List.Forall₂ (HandlerKnown N R Q) handlers handlers')
    (faults : Option.Rel (Expr.Stands R Q) fault fault')
    (finalizers : Option.Rel (Expr.Stands R Q) finalizer finalizer') :
    R (attempt Expr.draft e handlers fault finalizer)
      (attempt Expr.draft e' handlers' fault' finalizer') := by
  simp only [Source.attempt, tried.form.type]
  refine rules.append (rules.introduced rfl _ tried) ?_
  induction known with
  | nil =>
      refine rules.append ?_ ?_
      · cases faults with
        | none => exact rules.empty
        | some part => exact rules.introduced rfl .void part
      · cases finalizers with
        | none => exact rules.empty
        | some part => exact rules.introduced rfl .void part
  | cons first rest ih => exact rules.append (rules.handler _ first) ih

/-! ### Objects -/

theorem newArray (rules : WritingRules N R Q) (form : ArrayForm) (type : Ty)
    (known : List.Forall₂ (Expr.Inline R) es es') :
    R (newArray Expr.draft form type es) (newArray Expr.draft form type es') := by
  refine rules.append (rules.append (rules.keyword rfl) rules.space) ?_
  cases form with
  | elements =>
      exact rules.append (rules.append (rules.writeType _) rules.space)
        (rules.items (by decide) known)
  | bounds => exact rules.append (rules.writeType _) (rules.items (by decide) known)

theorem elementInit {i i' : ElementInit} (rules : WritingRules N R Q)
    (known : i.Alike (Expr.Inline R) i') :
    R (elementInit Expr.draft i) (elementInit Expr.draft i') := by
  have several := rules.items (o := "\x7b") (c := "\x7d") (by decide) known.arguments
  obtain ⟨m, arguments⟩ := i
  obtain ⟨m', arguments'⟩ := i'
  cases known.arguments with
  | nil => exact several
  | cons first rest =>
      cases rest with
      | nil => exact first.draft
      | cons => exact several

theorem initializers {is is' : List ElementInit} (rules : WritingRules N R Q)
    (known : List.Forall₂ (ElementInit.Alike (Expr.Inline R)) is is') :
    R (initializers Expr.draft is) (initializers Expr.draft is') := by
  refine rules.listed (by decide) ?_
  simp only [List.forall₂_map_left_iff, List.forall₂_map_right_iff]
  exact known.imp fun _ _ known => rules.elementInit known

mutual

theorem bindingValue (rules : WritingRules N R Q) :
    {b b' : Binding} → b.Alike (Expr.Inline R) b' →
      R (bindingValue Expr.draft b) (bindingValue Expr.draft b')
  | _, _, .assignment known => rules.append rules.space known.draft
  | _, _, .elements known => rules.append rules.space (rules.initializers known)
  | _, _, .members known =>
      rules.append rules.newline (rules.braced (rules.inside (bindingLines rules known)))

theorem bindingLines (rules : WritingRules N R Q) :
    {bs bs' : List Binding} → List.Forall₂ (Binding.Alike (Expr.Inline R)) bs bs' →
      R (bindingLines Expr.draft bs) (bindingLines Expr.draft bs')
  | _, _, .nil => rules.empty
  | _, _, @List.Forall₂.cons _ _ _ b b' bs bs' first rest => by
      have filled : b.filled = b'.filled := by cases first <;> rfl
      have last : bs.isEmpty = bs'.isEmpty := by cases rest <;> rfl
      have value := bindingValue rules first
      have others := bindingLines rules rest
      simp only [Source.bindingLines, filled, last]
      refine rules.append (rules.append (rules.append (rules.append (rules.append (rules.append
        (rules.reference _ _) rules.space) (rules.token rfl)) value) ?_) rules.newline) others
      split
      · exact rules.empty
      · exact rules.token rfl

end

/-! ### Nodes -/

theorem lambda {l l' : Lambda} {r : Expr → Expr → Prop} (rules : WritingRules N R Q)
    (alike : l.Alike r Eq l') (named : ∀ p ∈ l.parameters, N (.parameter p))
    (known : l.body.Stands R Q l'.body) :
    let written (l : Lambda) := Source.writeParameters l.parameters ++ Source.space ++
      Source.token "=>" ++ Source.newline ++ lambdaBody Expr.draft l
    R (written l) (written l') := by
  obtain ⟨name, parameters, body, returns⟩ := l
  obtain ⟨name', parameters', body', returns'⟩ := l'
  obtain ⟨rfl, same, -, rfl⟩ := alike
  rw [List.forall₂_eq_eq_eq] at same
  cases same
  exact rules.append (rules.append (rules.append (rules.append (rules.writeParameters named)
    rules.space) (rules.token rfl)) rules.newline) (rules.body _ known)

/-- What holds of the drafts of the children holds of those of two nodes. -/
theorem writeNode {r : Expr → Expr → Prop} (rules : WritingRules N R Q)
    (alike : e.node.Alike r Eq e'.node) (kind : e.kind ≠ .label)
    (named : ∀ s ∈ e.node.symbols, N s)
    (inline : ∀ c, (.inline, c) ∈ e.node.places → ∀ c', r c c' → c.Inline R c')
    (stands : ∀ place c, (place, c) ∈ e.node.places → place.isStatement = true →
      ∀ c', r c c' → c.Stands R Q c')
    (wraps : e.kind.isChecked = true → ∀ {a a'}, R a a' → R (checkedBlock a) (checkedBlock a')) :
    R (writeNode Expr.draft e) (writeNode Expr.draft e') := by
  obtain ⟨id, node⟩ := e
  obtain ⟨id', node'⟩ := e'
  cases alike with
  | constant => exact rules.literal _
  | parameter same =>
      cases same
      exact rules.parameterName (named _ (by simp [Node.symbols, Node.parameters]))
  | default => exact rules.append (rules.keyword rfl) (rules.parenthesized (rules.writeType _))
  | lambda alike =>
      exact rules.lambda alike (fun p mem => named _ (Node.parameter_mem_symbols mem))
        (stands .lambdaBody _ (by simp [Node.places]) rfl _ alike.body)
  | unary operand =>
      exact rules.unary (inline _ (by simp [Node.places, Node.children]) _ operand) _ wraps
  | binary left right =>
      exact rules.binary _ (inline _ (by simp [Node.places, Node.children]) _ left)
        (inline _ (by simp [Node.places, Node.children]) _ right) _ _ wraps
  | typeTest operand =>
      exact rules.typeTest _ (inline _ (by simp [Node.places, Node.children]) _ operand) _
  | block locals statements =>
      rw [List.forall₂_eq_eq_eq] at locals
      cases locals
      exact rules.block (fun p mem => named _ (Node.parameter_mem_symbols mem)) _
        (forall₂_imp_of_mem statements fun c mem =>
          stands .statement c (by simp [Node.places, mem]) rfl)
  | @conditional test test' ifTrue ifTrue' ifFalse ifFalse' type tests trues falses =>
      have known := inline test (by simp [Node.places]) _ tests
      cases form : isTernary ifTrue ifFalse type with
      | true =>
          cases falses with
          | none => cases form
          | some falses =>
              exact rules.ternary form known (inline _ (by simp [Node.places, form]) _ trues)
                (inline _ (by simp [Node.places, form]) _ falses)
      | false =>
          refine rules.branches form known
            (stands .branch _ (by simp [Node.places, form]) rfl _ trues)
            (rel_imp_of_mem falses fun c mem => stands .branch c ?_ rfl)
          simp_all [Node.places]
  | loop body =>
      exact rules.append (rules.append (rules.append (rules.append (rules.keyword rfl) rules.space)
        (rules.parenthesized (rules.append (rules.token rfl) (rules.token rfl)))) rules.newline)
        (rules.bodyLines _ (stands .loopBody _ (by simp [Node.places]) rfl _ body))
  | jump value =>
      refine rules.jump (named _ (by simp [Node.symbols, Node.labels])) fun returns =>
        rel_imp_of_mem value fun c mem => inline c ?_
      cases returns
      simpa [Node.places] using mem
  | label => exact absurd rfl kind
  | switch value cases fallback =>
      refine rules.switch _ (inline _ (by simp [Node.places]) _ value) ?_ ?_
      · refine forall₂_imp_of_mem cases fun c mem c' alike => ⟨?_, ?_⟩
        · exact forall₂_imp_of_mem alike.tests fun d part =>
            inline d (SwitchCase.places_subset mem (by simp [SwitchCase.places, part]))
        · exact stands .caseBody _ (SwitchCase.places_subset mem (by simp [SwitchCase.places])) rfl
            _ alike.body
      · exact rel_imp_of_mem fallback fun c mem =>
          stands .caseBody c (by simp_all [Node.places]) rfl
  | attempt body handlers fault finalizer =>
      refine rules.attempt (stands .tryBody _ (by simp [Node.places]) rfl _ body) ?_ ?_ ?_
      · refine forall₂_imp_of_mem handlers fun h mem h' alike =>
          ⟨alike.tested, alike.caught, fun p caught => ?_, ?_, ?_⟩
        · exact named _ (Node.parameter_mem_symbols (List.mem_filterMap.mpr ⟨h, mem, caught⟩))
        · exact rel_imp_of_mem alike.filter fun c part =>
            inline c (Handler.places_subset mem (by simp_all [Handler.places]))
        · exact stands .handlerBody _ (Handler.places_subset mem (by simp [Handler.places])) rfl
            _ alike.body
      · exact rel_imp_of_mem fault fun c mem => stands .faultBody c (by simp_all [Node.places]) rfl
      · exact rel_imp_of_mem finalizer fun c mem =>
          stands .finallyBody c (by simp_all [Node.places]) rfl
  | create arguments =>
      exact rules.append (rules.append (rules.append (rules.keyword rfl) rules.space)
        (rules.writeType _)) (rules.items (by decide) (forall₂_imp_of_mem arguments fun c mem =>
          inline c (by simp [Node.places, Node.children, mem])))
  | newArray items =>
      exact rules.newArray _ _ (forall₂_imp_of_mem items fun c mem =>
        inline c (by simp [Node.places, Node.children, mem]))
  | listInit created initializers =>
      exact rules.append (rules.append
        (inline _ (by simp [Node.places, Node.children]) _ created).draft rules.space)
        (rules.initializers (ElementInit.Alike.imp initializers fun c mem =>
          inline c (by simp_all [Node.places, Node.children])))
  | memberInit created bindings =>
      exact rules.append (rules.append
        (inline _ (by simp [Node.places, Node.children]) _ created).draft rules.newline)
        (rules.braced (rules.inside (rules.bindingLines (Binding.Alike.impList bindings
          fun c mem => inline c (by simp [Node.places, Node.children, mem])))))
  | call target arguments =>
      refine rules.called (rules.receiver (rel_imp_of_mem target fun c mem => inline c ?_) _) _
        (forall₂_imp_of_mem arguments fun c mem => inline c ?_)
      · simp_all [Node.places, Node.children]
      · simp [Node.places, Node.children, mem]
  | member target =>
      refine rules.accessed (rules.receiver (rel_imp_of_mem target fun c mem => inline c ?_) _) _ _
      simp_all [Node.places, Node.children]
  | invocation target arguments =>
      exact rules.append (rules.target (inline _ (by simp [Node.places, Node.children]) _ target))
        (rules.items (by decide) (forall₂_imp_of_mem arguments fun c mem =>
          inline c (by simp [Node.places, Node.children, mem])))
  | index target arguments =>
      exact rules.append (rules.target (inline _ (by simp [Node.places, Node.children]) _ target))
        (rules.items (by decide) (forall₂_imp_of_mem arguments fun c mem =>
          inline c (by simp [Node.places, Node.children, mem])))
  | forLoop same start test step body =>
      cases same
      have counter := named _ (Node.parameter_mem_symbols List.mem_cons_self)
      refine rules.headed rfl (rules.append (rules.append (rules.append (rules.append (rules.append
        (rules.append (rules.between rfl (rules.typedName counter) ?_) (rules.token rfl))
        rules.space) ?_) (rules.token rfl)) rules.space) ?_)
        (stands .loopBody _ (by simp [Node.places]) rfl _ body)
      · exact (inline _ (by simp [Node.places]) _ start).draft
      · exact (inline _ (by simp [Node.places]) _ test).draft
      · exact (inline _ (by simp [Node.places]) _ step).draft
  | forEach same source body =>
      cases same
      have item := named _ (Node.parameter_mem_symbols List.mem_cons_self)
      exact rules.headed rfl (rules.append (rules.append (rules.append (rules.append
        (rules.typedName item) rules.space) (rules.keyword rfl)) rules.space)
        (inline _ (by simp [Node.places]) _ source).draft)
        (stands .loopBody _ (by simp [Node.places]) rfl _ body)
  | whileLoop test body =>
      exact rules.headed rfl (inline _ (by simp [Node.places]) _ test).draft
        (stands .loopBody _ (by simp [Node.places]) rfl _ body)
  | doWhile body test =>
      exact rules.append (rules.append (rules.append (rules.append (rules.append
        (rules.introduced rfl .void (stands .loopBody _ (by simp [Node.places]) rfl _ body))
        (rules.keyword rfl)) rules.space)
        (rules.parenthesized (inline _ (by simp [Node.places]) _ test).draft)) (rules.token rfl))
        rules.newline
  | usingBlock resource body =>
      exact rules.headed rfl (inline _ (by simp [Node.places]) _ resource).draft
        (stands .usingBody _ (by simp [Node.places]) rfl _ body)

end WritingRules

end Source

/-! ### Trees -/

/-- Labels stand only where statements do, in all of the tree. -/
def Expr.LabelsStand (e : Expr) : Prop :=
  e.All fun d => ∀ part ∈ d.node.places, part.1 = .inline → part.2.kind ≠ .label

instance (e : Expr) : Decidable e.LabelsStand :=
  inferInstanceAs (Decidable (e.All fun d =>
    ∀ part ∈ d.node.places, part.1 = .inline → part.2.kind ≠ .label))

namespace Source.WritingRules

variable {N : Symbol → Prop} {R Q : Draft → Draft → Prop}

/-- What the rules say holds of every tree that names no other symbols, if it holds of labels within
a line or there are none. -/
theorem stands_self (rules : WritingRules N R Q)
    (wraps : ∀ {a a'}, R a a' → R (checkedBlock a) (checkedBlock a')) {e : Expr}
    (named : e.NamesOnly N)
    (labels : (∀ l, N (.label l) → R (labelLine l) (labelLine l)) ∨ e.LabelsStand) :
    e.Stands R Q e := by
  induction e using Expr.inductionOnChildren with
  | _ e ih =>
      obtain ⟨own, below⟩ := Expr.all_iff.mp named
      have child (c : Expr) (mem : c ∈ e.children) : c.Stands R Q c :=
        ih c mem (below c mem) (labels.imp_right fun stand => (Expr.all_iff.mp stand).2 c mem)
      by_cases kind : e.kind = .label
      · obtain ⟨l, fallback, node⟩ := exists_of_label kind
        simp only [Expr.children, node] at child
        exact rules.stands_of_label node node (own _ (Node.label_mem_symbols node)) (.refl _)
          (rel_of_mem child)
      · refine rules.stands kind ⟨.refl e, ?_⟩
        rw [Expr.draft_eq]
        refine rules.writeNode (r := Eq) ?_ kind own ?_ ?_ fun _ => wraps
        · exact Node.alike_of_mem (fun _ _ => rfl) fun _ _ => rfl
        · rintro c mem _ rfl
          refine ⟨.refl c, ?_⟩
          by_cases label : c.kind = .label
          · rcases labels with holds | stand
            · obtain ⟨l, fallback, node⟩ := exists_of_label label
              have inside := below c (Node.mem_children_of_mem_places mem)
              rw [draft_of_label node]
              exact holds l ((Expr.all_iff.mp inside).1 _ (Node.label_mem_symbols node))
            · exact absurd label ((Expr.all_iff.mp stand).1 _ mem rfl)
          · exact (child c (Node.mem_children_of_mem_places mem)).draft label
        · rintro place c mem - _ rfl
          exact child c (Node.mem_children_of_mem_places mem)

/-- What the rules say holds of every lambda that names no other symbols, if it holds of labels
within a line. -/
theorem lambda_self (rules : WritingRules N R Q)
    (wraps : ∀ {a a'}, R a a' → R (checkedBlock a) (checkedBlock a'))
    (labels : ∀ l, N (.label l) → R (labelLine l) (labelLine l)) {l : Lambda}
    (parameters : ∀ p ∈ l.parameters, N (.parameter p)) (named : l.body.NamesOnly N) :
    R l.draft l.draft := by
  refine rules.append (rules.append (rules.append (rules.append (rules.append (rules.writeType _)
    rules.space) ?_) (rules.writeParameters parameters)) rules.newline)
    (rules.body _ (rules.stands_self wraps named (.inl labels)))
  cases l.name with
  | none => exact rules.empty
  | some name => exact rules.plain rfl

end Source.WritingRules

end ExprTree
