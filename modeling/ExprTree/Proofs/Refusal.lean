import ExprTree.Proofs.Drafting
import ExprTree.Proofs.Nodes
import ExprTree.Source.Render

/-!
Which trees have no source form.

Writing fails at a binary operator with a flag it has no form for, and at nothing else. It goes
through a tree in source order, so the failure is that of the first such node among the nodes that
are written (`Expr.draft_error`). Two sorts of children are not written: the value of a jump that
is not a return, and the default of a label, unless the label stands where statements do.
-/

namespace ExprTree

open Source

/-! ### Refused kinds -/

/-- Whether a node of this kind has no source form: it assigns with an operator that has no compound
form, or reports overflow of one that has no token. -/
def Kind.isRefused : Kind → Bool
  | .binary op assign checked =>
    assign && !op.hasCompoundForm || checked && (op = .power || op = .arrayIndex)
  | _ => false

/-- Why a node has no source form, if it has none. -/
def Expr.refusal? (e : Expr) : Option RenderError :=
  match e.kind with
  | .binary op assign checked =>
    if assign && !op.hasCompoundForm then some ⟨.binary op assign checked, .compoundForm⟩
    else if checked && (op = .power || op = .arrayIndex) then
      some ⟨.binary op assign checked, .token⟩
    else none
  | _ => none

/-- Whether the flags of a node of this kind are ones that its operator has forms for. -/
def Kind.hasForms : Kind → Bool
  | .binary op assign checked =>
    (!checked || op.hasCheckedForm) && (!assign || op.hasCompoundForm)
  | _ => true

theorem Expr.isSome_refusal? (e : Expr) : e.refusal?.isSome = e.kind.isRefused := by
  unfold Expr.refusal? Kind.isRefused
  split
  · next op assign checked _ =>
      cases assign && !op.hasCompoundForm <;>
        cases checked && (decide (op = .power) || decide (op = .arrayIndex)) <;> rfl
  · rfl

theorem Kind.isRefused_of_hasForms {kind : Kind} (forms : kind.hasForms = true) :
    kind.isRefused = false := by
  cases kind with
  | binary op assign checked =>
      revert forms
      cases op <;> cases assign <;> cases checked <;> decide
  | _ => rfl

/-! ### Places -/

/-- Where a child is written: within a line, as a statement of a block, as a body in braces, or
after the label whose default it is. The value of a jump that is not a return is discarded. -/
inductive Place where
  | inline | statement
  | lambdaBody | loopBody | branch | caseBody | handlerBody
  | tryBody | faultBody | finallyBody | usingBody
  | fallback | discarded
deriving DecidableEq, Repr

/-- Whether what stands at this place is written as a statement, so that the default of a label
follows it. -/
def Place.isStatement : Place → Bool
  | .inline | .fallback | .discarded => false
  | _ => true

def SwitchCase.places (c : SwitchCase) : List (Place × Expr) :=
  c.tests.map (.inline, ·) ++ [(.caseBody, c.body)]

def Handler.places (h : Handler) : List (Place × Expr) :=
  h.filter.toList.map (.inline, ·) ++ [(.handlerBody, h.body)]

/-- The children of a node with their places, in source order. -/
def Node.places : Node → List (Place × Expr)
  | .lambda l => [(.lambdaBody, l.body)]
  | .block _ statements _ => statements.map (.statement, ·)
  | .conditional test ifTrue ifFalse type =>
    let place : Place := if isTernary ifTrue ifFalse type then .inline else .branch
    (.inline, test) :: (place, ifTrue) :: ifFalse.toList.map (place, ·)
  | .loop body _ _ => [(.loopBody, body)]
  | .jump kind _ value =>
    value.toList.map (if kind = .returning then .inline else .discarded, ·)
  | .label _ fallback => fallback.toList.map (.fallback, ·)
  | .switch value cases fallback _ =>
    (.inline, value) :: cases.flatMap SwitchCase.places ++ fallback.toList.map (.caseBody, ·)
  | .attempt body handlers fault finalizer =>
    (.tryBody, body) :: handlers.flatMap Handler.places ++ fault.toList.map (.faultBody, ·) ++
      finalizer.toList.map (.finallyBody, ·)
  | .forLoop _ start test step body _ _ =>
    [(.inline, start), (.inline, test), (.inline, step), (.loopBody, body)]
  | .forEach _ source body _ _ => [(.inline, source), (.loopBody, body)]
  | .whileLoop test body _ _ => [(.inline, test), (.loopBody, body)]
  | .doWhile body test _ _ => [(.loopBody, body), (.inline, test)]
  | .usingBlock resource body => [(.inline, resource), (.usingBody, body)]
  | node => node.children.map (.inline, ·)

/-- Every child has one place. -/
theorem Node.map_snd_places (node : Node) : node.places.map Prod.snd = node.children := by
  cases node <;>
    simp [Node.places, SwitchCase.places, Handler.places, Node.children, Function.comp_def,
      List.map_flatMap]

theorem Node.mem_children_of_mem_places {node : Node} {place : Place} {c : Expr}
    (mem : (place, c) ∈ node.places) : c ∈ node.children := by
  rw [← Node.map_snd_places]
  exact List.mem_map_of_mem mem

/-! ### Written nodes -/

/-- The nodes written of a node and of what stands below it, if defaults of labels are written at
the places that `opens` tells. -/
def Expr.writtenStep (opens : Place → Bool) (below : Expr → Place → List Expr) (e : Expr)
    (place : Place) : List Expr :=
  e :: e.node.places.flatMap fun inner =>
    match inner with
    | (.discarded, _) => []
    | (.fallback, c) => if opens place then below c .inline else []
    | (inner, c) => below c inner

/-- The nodes written of a tree at a place, in the order in which they are written. -/
def Expr.writtenAt (opens : Place → Bool) : Expr → Place → List Expr :=
  Expr.recurse (fun _ _ => []) (Expr.writtenStep opens)

/-- The nodes that are written when the tree is, in the order in which they are written. -/
def Expr.written (e : Expr) : List Expr := e.writtenAt Place.isStatement .inline

/-- The nodes that are written when the lambda is. -/
def Lambda.written (l : Lambda) : List Expr := l.body.writtenAt Place.isStatement .lambdaBody

theorem Expr.writtenAt_eq (opens : Place → Bool) (e : Expr) (place : Place) :
    e.writtenAt opens place = Expr.writtenStep opens (Expr.writtenAt opens) e place := by
  have asks : Expr.AsksChildren (Expr.writtenStep opens) := by
    intro f g e same
    funext place
    unfold Expr.writtenStep
    refine congrArg (e :: ·) ?_
    refine List.flatMap_congr fun inner mem => ?_
    have child : inner.2 ∈ e.children := Node.mem_children_of_mem_places mem
    split
    · rfl
    · rw [same _ child]
    · rw [same _ child]
  exact congrFun (Expr.recurse_eq asks e) place

/-- The first failure among the nodes written of a tree at a place. -/
def Expr.firstRefusal (e : Expr) (place : Place) : Option RenderError :=
  (e.writtenAt Place.isStatement place).findSome? Expr.refusal?

/-- The first failure in a child, for a node at a place. -/
@[simp] def Place.refusalBelow (place : Place) : Place × Expr → Option RenderError
  | (.discarded, _) => none
  | (.fallback, c) => if place.isStatement then c.firstRefusal .inline else none
  | (inner, c) => c.firstRefusal inner

@[simp] theorem findSome?_cons_eq_or {α β : Type} (f : α → Option β) (a : α) (as : List α) :
    (a :: as).findSome? f = (f a).or (as.findSome? f) := by
  rw [List.findSome?_cons]
  cases f a <;> rfl

theorem findSome?_flatMap {α β γ : Type} (f : β → Option γ) (g : α → List β) (as : List α) :
    (as.flatMap g).findSome? f = as.findSome? fun a => (g a).findSome? f := by
  induction as with
  | nil => rfl
  | cons a as ih =>
      rw [List.flatMap_cons, List.findSome?_append, ih, findSome?_cons_eq_or]

theorem findSome?_congr {α β : Type} {f g : α → Option β} {as : List α}
    (same : ∀ a ∈ as, f a = g a) : as.findSome? f = as.findSome? g := by
  induction as with
  | nil => rfl
  | cons a as ih =>
      rw [findSome?_cons_eq_or, findSome?_cons_eq_or, same a (List.mem_cons_self ..),
        ih fun a mem => same a (List.mem_cons_of_mem _ mem)]

theorem Expr.firstRefusal_eq (e : Expr) (place : Place) :
    e.firstRefusal place = e.refusal?.or (e.node.places.findSome? place.refusalBelow) := by
  rw [Expr.firstRefusal, Expr.writtenAt_eq, Expr.writtenStep, findSome?_cons_eq_or,
    findSome?_flatMap]
  congr 2
  funext inner
  unfold Place.refusalBelow
  split
  · rfl
  · split <;> rfl
  · rfl

theorem Node.ne_fallback_of_mem_places {node : Node} (kind : node.kind ≠ .label)
    {inner : Place × Expr} (mem : inner ∈ node.places) : inner.1 ≠ .fallback := by
  obtain ⟨place, c⟩ := inner
  rintro rfl
  cases node with
  | label => exact kind rfl
  | conditional =>
      simp only [Node.places] at mem
      split at mem <;> simp at mem
  | jump =>
      simp only [Node.places] at mem
      split at mem <;> simp at mem
  | _ => simp [Node.places, SwitchCase.places, Handler.places] at mem

/-- Only for a label does it matter where it stands. -/
theorem Expr.firstRefusal_of_not_label {e : Expr} (kind : e.kind ≠ .label) (place place' : Place) :
    e.firstRefusal place = e.firstRefusal place' := by
  rw [Expr.firstRefusal_eq, Expr.firstRefusal_eq]
  refine congrArg _ (findSome?_congr fun inner mem => ?_)
  have ne := Node.ne_fallback_of_mem_places kind mem
  unfold Place.refusalBelow
  split
  · rfl
  · exact absurd rfl ne
  · rfl

/-! ### Failures of drafts -/

namespace Source

@[simp] theorem Draft.error_append (a b : Draft) : (a ++ b).error = a.error.or b.error := by
  cases failed : a.error with
  | none => rw [Draft.append_error_of_ok failed, Option.none_or]
  | some error => rw [Draft.append_of_error failed, failed, Option.some_or]

theorem Draft.error_append_eq_none_iff {a b : Draft} :
    (a ++ b).error = none ↔ a.error = none ∧ b.error = none := by
  rw [Draft.error_append, Option.or_eq_none_iff]

@[simp] theorem error_empty : Draft.empty.error = none := rfl

@[simp] theorem error_ofMarks (marks : List Mark) : (Draft.ofMarks marks).error = none := rfl

@[simp] theorem error_ofDirective (d : Directive) : (Draft.ofDirective d).error = none := rfl

@[simp] theorem error_space : space.error = none := rfl

@[simp] theorem error_newline : newline.error = none := rfl

@[simp] theorem error_token (text : String) : (token text).error = none := rfl

@[simp] theorem error_keyword (text : String) : (keyword text).error = none := rfl

@[simp] theorem error_literal (text : String) : (literal text).error = none := rfl

@[simp] theorem error_reference (text : String) (referent : Referent) :
    (reference text referent).error = none := rfl

@[simp] theorem error_parameterName (p : Parameter) : (parameterName p).error = none := rfl

@[simp] theorem error_labelName (l : Label) : (labelName l).error = none := rfl

@[simp] theorem error_writeType (t : Ty) : (writeType t).error = none := rfl

@[simp] theorem error_labelLine (l : Label) : (labelLine l).error = none := rfl

@[simp] theorem error_parenthesized (body : Draft) : (parenthesized body).error = body.error := by
  simp [parenthesized]

@[simp] theorem error_braced (body : Draft) : (braced body).error = body.error := by
  simp [braced, indent, dedent]

@[simp] theorem error_checkedBlock (body : Draft) : (checkedBlock body).error = body.error := by
  simp [checkedBlock]

@[simp] theorem error_commaSeparated (items : List Draft) :
    (commaSeparated items).error = items.findSome? Draft.error := by
  induction items with
  | nil => rfl
  | cons d ds ih =>
      cases ds with
      | nil => simp [commaSeparated]
      | cons => simp [commaSeparated, ih]

@[simp] theorem error_listed (opening closing : String) (items : List Draft) :
    (listed opening closing items).error = items.findSome? Draft.error := by
  simp [listed]

@[simp] theorem error_methodArguments (m : Method) : (methodArguments m).error = none := by
  unfold methodArguments
  split
  · rfl
  · split
    · rfl
    · simp

@[simp] theorem error_writeParameters (parameters : List Parameter) :
    (writeParameters parameters).error = none := by
  simp [writeParameters]

theorem error_foldr {α : Type} (write : α → Draft) (items : List α) (last : Draft) :
    (items.foldr (fun item rest => write item ++ rest) last).error =
      (items.findSome? fun item => (write item).error).or last.error := by
  induction items with
  | nil => rfl
  | cons item items ih =>
      rw [List.foldr_cons, Draft.error_append, ih, findSome?_cons_eq_or, Option.or_assoc]

@[simp] theorem error_declarations (locals : List Parameter) :
    (declarations locals).error = none := by
  rw [declarations, error_foldr]
  cases locals <;> simp

variable {write : Expr → Draft}

@[simp] theorem error_operand (e : Expr) : (operand write e).error = (write e).error := by
  unfold operand
  split <;> simp

@[simp] theorem error_target (e : Expr) : (target write e).error = (write e).error := by
  unfold target
  split <;> simp

@[simp] theorem error_between (left right : Draft) (symbol : String) :
    (between left symbol right).error = left.error.or right.error := by
  simp [between]

@[simp] theorem error_accessed (receiver : Draft) (name : String) (referent : Referent) :
    (accessed receiver name referent).error = receiver.error := by
  simp [accessed]

@[simp] theorem error_statement (valued : Bool) (e : Expr) :
    (statement write valued e).error = (write e).error := by
  simp only [statement, Draft.error_append]
  split <;> split <;> try split
  all_goals simp

theorem error_unary (op : UnaryOp) (e : Expr) (type : Ty) :
    (unary Expr.draft op e type).error = e.draft.error := by
  rw [unary_draft]
  cases op <;> simp [unaryExpanded, unary, conversion, leading]

theorem error_binary (op : BinaryOp) (left right : Expr) (assign checked : Bool) (id : Identity)
    (type : Ty) :
    (binary Expr.draft op left right assign checked).error =
      (Expr.refusal? ⟨id, .binary op left right assign checked type⟩).or
        (left.draft.error.or right.draft.error) := by
  cases op <;> cases assign <;> cases checked <;>
    simp [binary, binaryToken, BinaryOp.token?, BinaryOp.hasCompoundForm, Expr.refusal?, Expr.kind,
      Node.kind, Draft.failure, powerExpanded, called, arguments, ← Option.or_assoc]

theorem error_typeTest (op : TypeOp) (e : Expr) (tested : Ty) :
    (typeTest Expr.draft op e tested).error = e.draft.error := by
  cases op <;> simp [typeTest, called, arguments]

end Source

/-! ### Failures of writing -/

/-- Failures are known for a tree and for its children: what the step for a node above it needs. -/
def Expr.RefusalKnown (e : Expr) : Prop :=
  e.draft.error = e.firstRefusal .inline ∧
    ∀ c ∈ e.children, c.draft.error = c.firstRefusal .inline

namespace Source

/-- A statement, where the default of a label is a statement after it. -/
theorem error_single {e : Expr} (known : e.RefusalKnown) {place : Place}
    (opens : place.isStatement = true) (valued : Bool) :
    (match e.node with
      | .label _ (some fallback) => e.draft ++ statement Expr.draft valued fallback
      | .label _ none => e.draft
      | _ => statement Expr.draft valued e).error = e.firstRefusal place := by
  have same : e.kind ≠ .label →
      (statement Expr.draft valued e).error = e.firstRefusal place := by
    intro kind
    rw [error_statement, known.1, Expr.firstRefusal_of_not_label kind]
  obtain ⟨id, node⟩ := e
  cases node with
  | label l fallback =>
      have line : Expr.draft ⟨id, .label l fallback⟩ = labelLine l := Expr.draft_eq _
      cases fallback with
      | none =>
          rw [line, Expr.firstRefusal_eq]
          rfl
      | some fallback =>
          have after := known.2 fallback (List.mem_singleton_self _)
          have opened : Expr.firstRefusal ⟨id, .label l (some fallback)⟩ place =
              fallback.firstRefusal .inline := by
            rw [Expr.firstRefusal_eq]
            simp [Expr.refusal?, Expr.kind, Node.kind, Node.places, opens]
          rw [Draft.error_append, line, error_labelLine, error_statement, after, opened,
            Option.none_or]
  | _ => exact same (by simp [Expr.kind, Node.kind])

theorem error_statements (type : Ty) (place : Place) (opens : place.isStatement = true)
    {es : List Expr} (known : ∀ e ∈ es, e.RefusalKnown) :
    (statements Expr.draft type es).error = es.findSome? fun e => e.firstRefusal place := by
  induction es with
  | nil => rfl
  | cons e es ih =>
      have rest := ih fun d mem => known d (List.mem_cons_of_mem _ mem)
      have first : e.RefusalKnown := known e (List.mem_cons_self ..)
      rw [statements, Draft.error_append, rest, findSome?_cons_eq_or]
      exact congrArg₂ Option.or (error_single first opens _) rfl

/-- A body in braces. -/
theorem error_body (type : Ty) (place : Place) (opens : place.isStatement = true) {e : Expr}
    (known : e.RefusalKnown) : (body Expr.draft type e).error = e.firstRefusal place := by
  unfold body
  split
  · next locals es blockType node =>
      have written : e.draft = block Expr.draft locals es blockType := by
        rw [Expr.draft_eq, writeNode, node]
      have kind : e.kind ≠ .label := by
        rw [Expr.kind, node]
        exact Kind.noConfusion
      rw [← written, known.1, Expr.firstRefusal_of_not_label kind]
  · have inside : ∀ d ∈ [e], d.RefusalKnown := fun d mem => by rwa [List.mem_singleton.mp mem]
    rw [error_braced, error_statements type place opens inside, findSome?_cons_eq_or,
      List.findSome?_nil, Option.or_none]

theorem error_bodyLines (type : Ty) (place : Place) (opens : place.isStatement = true) {e : Expr}
    (known : e.RefusalKnown) : (bodyLines Expr.draft type e).error = e.firstRefusal place := by
  rw [bodyLines, Draft.error_append, error_body type place opens known, error_newline,
    Option.or_none]

theorem error_introduced (word : String) (type : Ty) (place : Place)
    (opens : place.isStatement = true) {e : Expr} (known : e.RefusalKnown) :
    (introduced Expr.draft word type e).error = e.firstRefusal place := by
  simp [introduced, error_bodyLines type place opens known]

theorem error_headed (word : String) (head : Draft) (place : Place)
    (opens : place.isStatement = true) {e : Expr} (known : e.RefusalKnown) :
    (headed Expr.draft word head e).error = head.error.or (e.firstRefusal place) := by
  simp [headed, error_bodyLines .void place opens known]

theorem error_map (place : Place) {es : List Expr} (known : ∀ e ∈ es, e.RefusalKnown) :
    (es.map Expr.draft).findSome? Draft.error =
      (es.map (.inline, ·)).findSome? place.refusalBelow := by
  rw [List.findSome?_map, List.findSome?_map]
  exact findSome?_congr fun e mem => (known e mem).1

theorem error_conditional (place : Place) {test ifTrue : Expr} {ifFalse : Option Expr} {type : Ty}
    (tests : test.RefusalKnown) (trues : ifTrue.RefusalKnown)
    (falses : ∀ e ∈ ifFalse.toList, e.RefusalKnown) :
    (conditional Expr.draft test ifTrue ifFalse type).error =
      (Node.conditional test ifTrue ifFalse type).places.findSome? place.refusalBelow := by
  have body := error_bodyLines type .branch rfl trues
  unfold conditional
  cases ifFalse with
  | none => simp [isTernary, tests.1, body, Node.places]
  | some ifFalse =>
      have falses := falses ifFalse (List.mem_singleton_self _)
      have last := error_introduced "else" type .branch rfl falses
      split
      · next ternary => simp [ternary, tests.1, trues.1, falses.1, Node.places, Option.or_assoc]
      · next ternary => simp [ternary, tests.1, body, last, Node.places, Option.or_assoc]

/-- Only a return writes its value. -/
theorem error_jump (place : Place) {kind : JumpKind} {destination : Label} {value : Option Expr}
    (known : ∀ e ∈ value.toList, e.RefusalKnown) :
    (jump Expr.draft kind destination value).error =
      (Node.jump kind destination value).places.findSome? place.refusalBelow := by
  cases value with
  | none => cases kind <;> rfl
  | some value =>
      have written := (known value (List.mem_singleton_self _)).1
      cases kind <;> simp [jump, written, Node.places]

theorem error_switchCase (type : Ty) (place : Place) {c : SwitchCase}
    (known : ∀ e ∈ c.tests ++ [c.body], e.RefusalKnown) :
    (switchCase Expr.draft type c).error = c.places.findSome? place.refusalBelow := by
  have bodies := known c.body (List.mem_append_right _ (List.mem_singleton_self _))
  have tests : (c.tests.findSome? fun e => e.draft.error) =
      c.tests.findSome? fun e => e.firstRefusal .inline :=
    findSome?_congr fun e mem => (known e (List.mem_append_left _ mem)).1
  simp [switchCase, error_foldr, tests, error_bodyLines type .caseBody rfl bodies,
    SwitchCase.places, List.findSome?_append, List.findSome?_map, Function.comp_def]

theorem error_handler (type : Ty) (place : Place) {h : Handler}
    (known : ∀ e ∈ h.filter.toList ++ [h.body], e.RefusalKnown) :
    (handler Expr.draft type h).error = h.places.findSome? place.refusalBelow := by
  obtain ⟨tested, caught, filter, body⟩ := h
  simp only [List.forall_mem_append, List.forall_mem_singleton] at known
  obtain ⟨filters, bodies⟩ := known
  have last := error_bodyLines type .handlerBody rfl bodies
  cases filter with
  | none =>
      cases caught <;>
        simp [handler, last, Handler.places]
  | some filter =>
      have tested := (filters filter (List.mem_singleton_self _)).1
      cases caught <;>
        simp [handler, last, tested, Handler.places]

theorem error_switch (place : Place) {value : Expr} {cases : List SwitchCase}
    {fallback : Option Expr} {type : Ty} (values : value.RefusalKnown)
    (inner : ∀ e ∈ cases.flatMap fun c => c.tests ++ [c.body], e.RefusalKnown)
    (fallbacks : ∀ e ∈ fallback.toList, e.RefusalKnown) :
    (switch Expr.draft value cases fallback type).error =
      (Node.switch value cases fallback type).places.findSome? place.refusalBelow := by
  have each : (cases.findSome? fun c => (switchCase Expr.draft type c).error) =
      (cases.flatMap SwitchCase.places).findSome? place.refusalBelow := by
    rw [findSome?_flatMap]
    exact findSome?_congr fun c mem =>
      error_switchCase type place fun e here => inner e (List.mem_flatMap.mpr ⟨c, mem, here⟩)
  cases fallback with
  | none =>
      simp [switch, error_foldr, each, values.1, Node.places]
  | some fallback =>
      have known : fallback.RefusalKnown := fallbacks fallback (List.mem_singleton_self _)
      have last := error_bodyLines type .caseBody rfl known
      simp [switch, error_foldr, each, values.1, last, Node.places, List.findSome?_append]

theorem error_attempt (place : Place) {e : Expr} {handlers : List Handler}
    {fault finalizer : Option Expr} (tried : e.RefusalKnown)
    (inner : ∀ e ∈ handlers.flatMap fun h => h.filter.toList ++ [h.body], e.RefusalKnown)
    (faults : ∀ e ∈ fault.toList, e.RefusalKnown)
    (finalizers : ∀ e ∈ finalizer.toList, e.RefusalKnown) :
    (attempt Expr.draft e handlers fault finalizer).error =
      (Node.attempt e handlers fault finalizer).places.findSome? place.refusalBelow := by
  have each : (handlers.findSome? fun h => (handler Expr.draft e.type h).error) =
      (handlers.flatMap Handler.places).findSome? place.refusalBelow := by
    rw [findSome?_flatMap]
    exact findSome?_congr fun h mem =>
      error_handler e.type place fun e here => inner e (List.mem_flatMap.mpr ⟨h, mem, here⟩)
  have first := error_introduced "try" e.type .tryBody rfl tried
  simp only [Option.mem_toList] at faults finalizers
  cases fault with
  | none =>
      cases finalizer with
      | none =>
          simp [attempt, error_foldr, first, each, Node.places]
      | some last =>
          have ended := error_introduced "finally" .void .finallyBody rfl (finalizers last rfl)
          simp [attempt, error_foldr, first, each, ended, Node.places, List.findSome?_append]
  | some fault =>
      have failed := error_introduced "fault" .void .faultBody rfl (faults fault rfl)
      cases finalizer with
      | none =>
          simp [attempt, error_foldr, first, each, failed, Node.places, List.findSome?_append]
      | some last =>
          have ended := error_introduced "finally" .void .finallyBody rfl (finalizers last rfl)
          simp [attempt, error_foldr, first, each, failed, ended, Node.places,
            List.findSome?_append]

theorem error_initializers (place : Place) {is : List ElementInit}
    (known : ∀ e ∈ is.flatMap ElementInit.arguments, e.RefusalKnown) :
    (initializers Expr.draft is).error =
      ((is.flatMap ElementInit.arguments).map (.inline, ·)).findSome? place.refusalBelow := by
  rw [initializers, error_listed, List.findSome?_map, List.map_flatMap, findSome?_flatMap]
  refine findSome?_congr fun i mem => ?_
  rw [← error_map place fun e here => known e (List.mem_flatMap.mpr ⟨i, mem, here⟩)]
  show (elementInit Expr.draft i).error = _
  unfold elementInit
  split
  · next single arguments => simp [arguments]
  · exact error_listed ..

mutual

theorem error_bindingValue (place : Place) :
    (b : Binding) → (∀ e ∈ b.children, e.RefusalKnown) →
      (bindingValue Expr.draft b).error = (b.children.map (.inline, ·)).findSome? place.refusalBelow
  | .assignment _ value, known => by
      have values : value.RefusalKnown := known value (List.mem_singleton_self _)
      simp [bindingValue, values.1, Binding.children]
  | .elements _ is, known => by
      simp [bindingValue, error_initializers place known, Binding.children]
  | .members _ nested, known => by
      simp [bindingValue, error_bindingLines place nested known, Binding.children]

theorem error_bindingLines (place : Place) :
    (bs : List Binding) → (∀ e ∈ Binding.childrenList bs, e.RefusalKnown) →
      (bindingLines Expr.draft bs).error =
        ((Binding.childrenList bs).map (.inline, ·)).findSome? place.refusalBelow
  | [], _ => rfl
  | b :: bs, known => by
      have first := error_bindingValue place b fun e mem => known e (List.mem_append_left _ mem)
      have rest := error_bindingLines place bs fun e mem => known e (List.mem_append_right _ mem)
      have comma : (if bs.isEmpty then Draft.empty else token ",").error = none := by
        split <;> rfl
      simp only [bindingLines, Binding.childrenList, List.map_append, List.findSome?_append,
        Draft.error_append, first, comma, rest, error_reference, error_space, error_token,
        error_newline, Option.none_or, Option.or_none]

end

theorem error_receiver (declaring : Ty) (place : Place) {e : Option Expr}
    (known : ∀ c ∈ e.toList, c.RefusalKnown) :
    (receiver Expr.draft e declaring).error =
      (e.toList.map (.inline, ·)).findSome? place.refusalBelow := by
  cases e with
  | none => rfl
  | some e =>
      have inner := (known e (List.mem_singleton_self _)).1
      simp [receiver, inner]

end Source

/-- The failure of a node is its own, or the first one of its children. -/
theorem Expr.draft_error_of_known {e : Expr} (known : ∀ c ∈ e.children, c.RefusalKnown) :
    e.draft.error = e.firstRefusal .inline := by
  rw [Expr.draft_eq, Expr.firstRefusal_eq]
  obtain ⟨id, node⟩ := e
  cases node <;>
    simp only [Expr.children, Node.children, List.forall_mem_cons, List.forall_mem_append,
      List.not_mem_nil, false_implies, implies_true, and_true] at known
  case binary op left right assign checked type =>
    simp [writeNode, error_binary op left right assign checked id type, known.1.1, known.2.1,
      Node.places, Node.children]
  -- No other node has a failure of its own.
  all_goals simp only [writeNode, Expr.refusal?, Expr.kind, Node.kind, Option.none_or]
  case constant | parameter | default => simp [Node.places, Node.children]
  case lambda l =>
    simp [lambdaBody, error_body _ .lambdaBody rfl known, Node.places]
  case unary op inner type => simp [error_unary, known.1, Node.places, Node.children]
  case typeTest op inner tested => simp [error_typeTest, known.1, Node.places, Node.children]
  case block locals es type =>
    simp [block, error_statements type .statement rfl known, Node.places, List.findSome?_map,
      Function.comp_def]
  case conditional => exact error_conditional .inline known.1 known.2.1 known.2.2
  case loop => simp [error_bodyLines .void .loopBody rfl known, Node.places]
  case jump kind destination value => exact error_jump .inline known
  case label l fallback => cases fallback <;> simp [Node.places, Place.isStatement]
  case switch => exact error_switch .inline known.1.1 known.1.2 known.2
  case attempt => exact error_attempt .inline known.1.1.1 known.1.1.2 known.1.2 known.2
  case create => simp [arguments, error_map .inline known, Node.places, Node.children]
  case newArray form _ _ =>
    cases form <;> simp [newArray, error_map .inline known, Node.places, Node.children]
  case listInit =>
    simp [known.1.1, error_initializers .inline known.2, Node.places, Node.children]
  case memberInit =>
    simp [known.1.1, error_bindingLines .inline _ known.2, Node.places, Node.children]
  case call =>
    simp [called, arguments, error_receiver _ .inline known.1, error_map .inline known.2,
      Node.places, Node.children, List.findSome?_append]
  case member => simp [error_receiver _ .inline known, Node.places, Node.children]
  case invocation =>
    simp [arguments, known.1.1, error_map .inline known.2, Node.places, Node.children]
  case index => simp [known.1.1, error_map .inline known.2, Node.places, Node.children]
  case forLoop =>
    obtain ⟨starts, tests, steps, bodies⟩ := known
    simp [error_headed _ _ .loopBody rfl bodies, starts.1, tests.1, steps.1, Node.places,
      Option.or_assoc]
  case forEach => simp [error_headed _ _ .loopBody rfl known.2, known.1.1, Node.places]
  case whileLoop => simp [error_headed _ _ .loopBody rfl known.2, known.1.1, Node.places]
  case doWhile => simp [error_introduced _ _ .loopBody rfl known.1, known.2.1, Node.places]
  case usingBlock => simp [error_headed _ _ .usingBody rfl known.2, known.1.1, Node.places]

theorem Expr.refusalKnown (e : Expr) : e.RefusalKnown := by
  induction e using Expr.inductionOnChildren with
  | step e ih => exact ⟨Expr.draft_error_of_known ih, fun c mem => (ih c mem).1⟩

/-- Writing a tree fails with the first failure among the nodes that are written. -/
theorem Expr.draft_error (e : Expr) : e.draft.error = e.written.findSome? Expr.refusal? :=
  e.refusalKnown.1

theorem Lambda.draft_error (l : Lambda) : l.draft.error = l.written.findSome? Expr.refusal? := by
  have bodies : (lambdaBody Expr.draft l).error = l.written.findSome? Expr.refusal? :=
    error_body l.returns .lambdaBody rfl l.body.refusalKnown
  unfold Lambda.draft
  cases l.name <;> simp [bodies, identifier]

/-! ### Rendering -/

theorem Expr.nodes_of_mem_writtenAt {opens : Place → Bool} {e d : Expr} {place : Place}
    (mem : d ∈ e.writtenAt opens place) : d ∈ e.nodes := by
  induction e using Expr.inductionOnChildren generalizing place with
  | step e ih =>
      rw [Expr.writtenAt_eq, Expr.writtenStep] at mem
      rcases List.mem_cons.mp mem with rfl | mem
      · exact Expr.mem_nodes_self _
      · obtain ⟨⟨inner, c⟩, child, inside⟩ := List.mem_flatMap.mp mem
        have child : c ∈ e.children := Node.mem_children_of_mem_places child
        have below : ∃ place, d ∈ c.writtenAt opens place := by
          cases inner with
          | discarded => exact absurd inside List.not_mem_nil
          | fallback =>
              have inside : d ∈ if opens place then c.writtenAt opens .inline else [] := inside
              split at inside
              · exact ⟨_, inside⟩
              · exact absurd inside List.not_mem_nil
          | _ => exact ⟨_, inside⟩
        obtain ⟨inner, inside⟩ := below
        exact Expr.nodes_subset_of_child child (ih c child inside)

namespace Source

variable {d : Draft} {written : List Expr} (style : Style)

theorem Draft.text_eq_error_iff {err : RenderError} :
    d.text style = .error err ↔ d.error = some err := by
  unfold Draft.text Draft.fragments Draft.directives
  cases d.error <;> simp [Except.map]

theorem Draft.exists_text_eq_ok_iff : (∃ text, d.text style = .ok text) ↔ d.error = none := by
  unfold Draft.text Draft.fragments Draft.directives
  cases d.error <;> simp [Except.map]

/-- A draft that fails as the first refused node does is rendered unless there is one. -/
theorem Draft.rendered_of_error (failure : d.error = written.findSome? Expr.refusal?) :
    ((∃ err, d.text style = .error err) ↔ ∃ e ∈ written, e.kind.isRefused = true) ∧
    ((∃ text, d.text style = .ok text) ↔ ∀ e ∈ written, e.kind.isRefused = false) := by
  constructor
  · simp only [Draft.text_eq_error_iff, failure, ← Option.isSome_iff_exists,
      List.findSome?_isSome_iff, Expr.isSome_refusal?]
  · rw [Draft.exists_text_eq_ok_iff, failure, List.findSome?_eq_none_iff]
    simp only [← Expr.isSome_refusal?, Option.isSome_eq_false_iff, Option.isNone_iff_eq_none]

end Source

/-- Rendering a tree goes by one step for each node, and ends: whether a step goes on with parts of
the node or with a tree that is built in its place, the writing depth goes down, so the steps say
what is written and nothing else does. It fails exactly if a node that is written assigns with an
operator that has no compound form, or reports overflow of a power or of an array element, and it
fails for the first such node. So a tree is rendered if its operators carry only flags that they
have forms for. The same holds for a lambda. -/
theorem rendered_unless_written_node_refused (e : Expr) (l : Lambda) (style : Style) :
    (Expr.AsksBelow Expr.writingDepth writeNode ∧ e.draft = writeNode Expr.draft e ∧
      ∀ write : Expr → Draft, (∀ d, write d = writeNode write d) → write e = e.draft) ∧
    (((∃ err, e.render style = .error err) ↔ ∃ d ∈ e.written, d.kind.isRefused = true) ∧
      ((∃ text, e.render style = .ok text) ↔ ∀ d ∈ e.written, d.kind.isRefused = false) ∧
      (∀ err, e.render style = .error err ↔ e.written.findSome? Expr.refusal? = some err) ∧
      (e.All (fun d => d.kind.hasForms = true) → ∃ text, e.render style = .ok text)) ∧
    ((∃ err, l.render style = .error err) ↔ ∃ d ∈ l.written, d.kind.isRefused = true) ∧
    ((∃ text, l.render style = .ok text) ↔ ∀ d ∈ l.written, d.kind.isRefused = false) ∧
    (∀ err, l.render style = .error err ↔ l.written.findSome? Expr.refusal? = some err) ∧
    (l.body.All (fun d => d.kind.hasForms = true) → ∃ text, l.render style = .ok text) := by
  obtain ⟨fails, rendered⟩ := Draft.rendered_of_error style e.draft_error
  obtain ⟨lambdaFails, lambdaRendered⟩ := Draft.rendered_of_error style l.draft_error
  refine ⟨⟨writeNode_asksBelow, e.draft_eq, fun write equation => Expr.eq_draft equation e⟩,
    ⟨fails, rendered, fun err => ?_, fun forms => ?_⟩, lambdaFails, lambdaRendered,
    fun err => ?_, fun forms => ?_⟩
  · rw [← e.draft_error]
    exact Draft.text_eq_error_iff style
  · refine rendered.mpr fun d mem => Kind.isRefused_of_hasForms ?_
    exact forms d (Expr.nodes_of_mem_writtenAt mem)
  · rw [← l.draft_error]
    exact Draft.text_eq_error_iff style
  · refine lambdaRendered.mpr fun d mem => Kind.isRefused_of_hasForms ?_
    exact forms d (Expr.nodes_of_mem_writtenAt mem)

/-! ### The default of a label in a body

`try { l: a == b } finally { 0 }`, where the default of `l` assigns with an operator that has no
compound form. -/

namespace DefaultInTry

def equality (assign : Bool) : Expr :=
  ⟨2, .binary .equal ⟨0, .constant (.int32 1) .int32⟩ ⟨1, .constant (.int32 2) .int32⟩ assign false
    .boolean⟩

def labelled (assign : Bool) : Expr := ⟨4, .label ⟨3, some "l", .boolean⟩ (some (equality assign))⟩

def tree (assign : Bool) : Expr :=
  ⟨6, .attempt (labelled assign) [] none (some ⟨5, .constant (.int32 0) .int32⟩)⟩

/-- The places at which a label has its default written, but for the bodies of `try`, `fault`,
`finally` and `using`. -/
def opensElsewhere : Place → Bool
  | .statement | .lambdaBody | .loopBody | .branch | .caseBody | .handlerBody => true
  | _ => false

theorem default_written_in_try_body :
    ¬ ∀ e : Expr, (∃ err, e.render = .error err) ↔
      ∃ d ∈ e.writtenAt opensElsewhere .inline, d.kind.isRefused = true := by
  intro elsewhere
  have refused : (tree true).draft.error = some ⟨.binary .equal true false, .compoundForm⟩ := by
    rw [Expr.draft_error]
    decide
  obtain ⟨d, mem, kind⟩ :=
    (elsewhere (tree true)).mp ⟨_, (Draft.text_eq_error_iff .plain).mpr refused⟩
  have accepted : ∀ d ∈ (tree true).writtenAt opensElsewhere .inline, d.kind.isRefused = false := by
    decide
  rw [accepted d mem] at kind
  cases kind

/-- The label as the body of a lambda. -/
def lambda : Lambda := ⟨none, [], labelled true, .boolean⟩

/-- With the flag, the label is refused as a body. By itself it is rendered, since its default is
not written then. -/
theorem refused_as_body_only :
    (∃ err, (tree true).render = .error err) ∧ (∃ err, lambda.render = .error err) ∧
      (∃ text, (labelled true).render = .ok text) ∧ ∃ text, (tree false).render = .ok text := by
  have body := rendered_unless_written_node_refused (tree true) lambda .plain
  have alone := rendered_unless_written_node_refused (labelled true) lambda .plain
  have unflagged := rendered_unless_written_node_refused (tree false) lambda .plain
  exact ⟨body.2.1.1.mpr (by decide), body.2.2.1.mpr (by decide), alone.2.1.2.1.mpr (by decide),
    unflagged.2.1.2.2.2 (by decide)⟩

end DefaultInTry

end ExprTree
