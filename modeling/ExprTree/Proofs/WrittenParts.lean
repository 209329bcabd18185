import ExprTree.Proofs.Writing

/-!
Parts of what is written.

What is written of a child is part of what is written of its node, unless the child is discarded.
So every node that is written of a lambda has its draft in that of the lambda, and every body has
there the braces that it stands in.
-/

namespace ExprTree

/-- Whether what stands at this place is written as a body in braces. -/
def Place.isBody (place : Place) : Bool := place.isStatement && place ≠ .statement

theorem Node.exists_block_of_statement {node : Node} {c : Expr}
    (mem : (.statement, c) ∈ node.places) :
    ∃ locals es type, node = .block locals es type ∧ c ∈ es := by
  cases node with
  | block locals es type =>
      have inside : c ∈ es := by simpa [Node.places] using mem
      exact ⟨locals, es, type, rfl, inside⟩
  | conditional test ifTrue ifFalse type =>
      simp only [Node.places] at mem
      split at mem <;> simp at mem
  | jump kind l value =>
      simp only [Node.places] at mem
      split at mem <;> simp at mem
  | _ => simp [Node.places, SwitchCase.places, Handler.places] at mem

theorem Node.exists_label_of_fallback {node : Node} {c : Expr}
    (mem : (.fallback, c) ∈ node.places) : ∃ l, node = .label l (some c) := by
  cases node with
  | label l fallback =>
      have same : fallback = some c := by simpa [Node.places] using mem
      exact ⟨l, same ▸ rfl⟩
  | conditional test ifTrue ifFalse type =>
      simp only [Node.places] at mem
      split at mem <;> simp at mem
  | jump kind l value =>
      simp only [Node.places] at mem
      split at mem <;> simp at mem
  | _ => simp [Node.places, SwitchCase.places, Handler.places] at mem

namespace Source

/-- The first draft is part of the second. -/
def Draft.IsPart (p d : Draft) : Prop := ∃ before after, d = before ++ p ++ after

namespace Draft.IsPart

variable {p a b : Draft}

@[grind .] theorem refl (p : Draft) : IsPart p p := ⟨.empty, .empty, by simp⟩

@[grind ←] theorem left (part : IsPart p a) (b : Draft) : IsPart p (a ++ b) := by
  obtain ⟨before, after, rfl⟩ := part
  exact ⟨before, after ++ b, by rw [Draft.append_assoc]⟩

@[grind ←] theorem right (a : Draft) (part : IsPart p b) : IsPart p (a ++ b) := by
  obtain ⟨before, after, rfl⟩ := part
  exact ⟨a ++ before, after, by simp only [Draft.append_assoc]⟩

theorem trans (first : IsPart p a) (second : IsPart a b) : IsPart p b := by
  obtain ⟨before, after, rfl⟩ := first
  obtain ⟨before', after', rfl⟩ := second
  exact ⟨before' ++ before, after ++ after', by simp only [Draft.append_assoc]⟩

/-- The parts of a complete draft are complete. -/
theorem ok (part : IsPart p a) (ok : a.error = none) : p.error = none := by
  obtain ⟨before, after, rfl⟩ := part
  simp only [Draft.error_append, Option.or_eq_none_iff] at ok
  exact ok.1.2

@[grind ←] theorem parenthesized (part : IsPart p a) : IsPart p (parenthesized a) :=
  .left (.right _ part) _

theorem braced (part : IsPart p a) : IsPart p (braced a) := .left (.left (.right _ part) _) _

@[grind ←] theorem checkedBlock (part : IsPart p a) : IsPart p (checkedBlock a) :=
  .left (.left (.right _ part) _) _

@[grind ←] theorem between_left (part : IsPart p a) (symbol : String) (b : Draft) :
    IsPart p (between a symbol b) :=
  .left (.left (.left (.left part _) _) _) _

@[grind ←] theorem between_right (a : Draft) (symbol : String) (part : IsPart p b) :
    IsPart p (between a symbol b) :=
  .right _ part

@[grind ←] theorem accessed (part : IsPart p a) (name : String) (referent : Referent) :
    IsPart p (accessed a name referent) :=
  .left (.left part _) _

theorem commaSeparated {items : List Draft} (mem : p ∈ items) :
    IsPart p (commaSeparated items) := by
  induction items with
  | nil => cases mem
  | cons d ds ih =>
      cases ds with
      | nil =>
          rw [List.mem_singleton.mp mem]
          exact .refl d
      | cons d' ds =>
          rcases List.mem_cons.mp mem with rfl | mem
          · exact .left (.left (.left (.refl p) _) _) _
          · exact .right _ (ih mem)

theorem foldr {α : Type} {write : α → Draft} {items : List α} {item : α} (mem : item ∈ items)
    (part : IsPart p (write item)) (last : Draft) :
    IsPart p (items.foldr (fun item rest => write item ++ rest) last) := by
  induction items with
  | nil => cases mem
  | cons first rest ih =>
      rcases List.mem_cons.mp mem with rfl | mem
      · exact .left part _
      · exact .right _ (ih mem)

theorem foldr_last {α : Type} (write : α → Draft) (items : List α) {last : Draft}
    (part : IsPart p last) : IsPart p (items.foldr (fun item rest => write item ++ rest) last) := by
  induction items with
  | nil => exact part
  | cons first rest ih => exact .right _ ih

end Draft.IsPart

open Draft (IsPart)

/-! ### Parts within a line -/

section

variable (write : Expr → Draft)

@[grind .] theorem isPart_operand (e : Expr) : IsPart (write e) (operand write e) := by
  unfold operand
  split <;> grind

@[grind .] theorem isPart_target (e : Expr) : IsPart (write e) (target write e) := by
  unfold target
  split <;> grind

theorem isPart_items {e : Expr} {es : List Expr} (mem : e ∈ es) (o c : String) :
    IsPart (write e) (listed o c (es.map write)) :=
  .left (.right _ (.commaSeparated (List.mem_map_of_mem mem))) _

@[grind ←] theorem isPart_called {p receiver : Draft} (part : IsPart p receiver) (m : Method)
    (es : List Expr) : IsPart p (called write receiver m es) :=
  .left (.left (.accessed part _ _) _) _

theorem isPart_called_items {e : Expr} {es : List Expr} (mem : e ∈ es) (receiver : Draft)
    (m : Method) : IsPart (write e) (called write receiver m es) :=
  .right _ (isPart_items write mem _ _)

theorem isPart_receiver {e : Option Expr} {c : Expr} (mem : c ∈ e.toList) (declaring : Ty) :
    IsPart (write c) (receiver write e declaring) := by
  cases e with
  | none => cases mem
  | some e =>
      rw [List.mem_singleton.mp mem]
      exact isPart_target write e

theorem isPart_headed {p head : Draft} (part : IsPart p head) (word : String) (e : Expr) :
    IsPart p (headed write word head e) :=
  .left (.left (.right _ (.parenthesized part)) _) _

theorem isPart_unary (op : UnaryOp) (e : Expr) (type : Ty) :
    IsPart e.draft (unary Expr.draft op e type) := by
  rw [unary_draft]
  cases op <;> simp only [unaryExpanded, unary, leading, conversion] <;> grind

theorem isPart_binaryToken {op : BinaryOp} {left right e : Expr} {assign checked : Bool}
    (mem : e ∈ [left, right])
    (ok : (binaryToken write op left right assign checked).error = none) :
    IsPart (write e) (binaryToken write op left right assign checked) := by
  unfold binaryToken at ok ⊢
  cases found : op.token? with
  | none => simp [found, Draft.failure] at ok
  | some symbol =>
      rcases List.mem_cons.mp mem with rfl | mem
      · cases assign <;> grind
      · rw [List.mem_singleton.mp mem]
        cases assign <;> grind

theorem isPart_binary {op : BinaryOp} {left right e : Expr} {assign checked : Bool}
    (mem : e ∈ [left, right]) (ok : (binary Expr.draft op left right assign checked).error = none) :
    IsPart e.draft (binary Expr.draft op left right assign checked) := by
  have power : IsPart e.draft (powerExpanded Expr.draft left right) :=
    isPart_called_items Expr.draft mem _ _
  unfold binary at ok ⊢
  split at ok
  case isTrue => simp [Draft.failure] at ok
  case isFalse form =>
      rw [if_neg form]
      split at ok
      case isTrue reports =>
          rw [if_pos reports]
          exact .checkedBlock (isPart_binaryToken Expr.draft mem (by simpa using ok))
      case isFalse plain =>
          rw [if_neg plain]
          have either : e = left ∨ e = right := by simpa using mem
          cases op with
          | assign => rcases either with rfl | rfl <;> grind
          | power =>
              cases assign with
              | true =>
                  simp only [if_true, draft_madeBinary_madePower]
                  exact .right _ power
              | false =>
                  simp only [Bool.false_eq_true, if_false, draft_madePower]
                  exact power
          | arrayIndex => rcases either with rfl | rfl <;> grind
          | _ => exact isPart_binaryToken Expr.draft mem ok

theorem isPart_elementInit {i : ElementInit} {e : Expr} (mem : e ∈ i.arguments) :
    IsPart (write e) (elementInit write i) := by
  unfold elementInit
  split
  case h_1 single arguments =>
      rw [arguments] at mem
      rw [List.mem_singleton.mp mem]
      exact .refl _
  case h_2 => exact isPart_items write mem _ _

theorem isPart_initializers {is : List ElementInit} {e : Expr}
    (mem : e ∈ is.flatMap ElementInit.arguments) : IsPart (write e) (initializers write is) := by
  obtain ⟨i, inside, mem⟩ := List.mem_flatMap.mp mem
  have item : IsPart (elementInit write i) (initializers write is) :=
    .left (.right _ (.commaSeparated (List.mem_map_of_mem inside))) _
  exact (isPart_elementInit write mem).trans item

mutual

theorem isPart_bindingValue {e : Expr} :
    (b : Binding) → e ∈ b.children → IsPart (write e) (bindingValue write b)
  | .assignment _ value, mem => by
      rw [List.mem_singleton.mp mem]
      exact .right _ (.refl _)
  | .elements _ is, mem => .right _ (isPart_initializers write mem)
  | .members _ nested, mem => .right _ (.braced (isPart_bindingLines nested mem))

theorem isPart_bindingLines {e : Expr} :
    (bs : List Binding) → e ∈ Binding.childrenList bs → IsPart (write e) (bindingLines write bs)
  | [], mem => nomatch mem
  | b :: bs, mem => by
      rcases List.mem_append.mp mem with first | rest
      · exact .left (.left (.left (.right _ (isPart_bindingValue b first)) _) _) _
      · exact .right _ (isPart_bindingLines bs rest)

end

theorem isPart_switchCase {s : SwitchCase} {e : Expr} (mem : e ∈ s.tests) (type : Ty) :
    IsPart (write e) (switchCase write type s) :=
  Draft.IsPart.foldr mem (.left (.left (.right _ (.refl _)) _) _) _

theorem isPart_handler {h : Handler} {e : Expr} (filter : h.filter = some e) (type : Ty) :
    IsPart (write e) (handler write type h) := by
  simp only [handler, filter]
  exact .left (.left (.right _ (.right _ (.parenthesized (.refl _)))) _) _

/-- A child within a line is part of its node, if the node has a source form. -/
theorem isPart_inline {e c : Expr} (mem : (.inline, c) ∈ e.node.places)
    (ok : (writeNode Expr.draft e).error = none) : IsPart c.draft (writeNode Expr.draft e) := by
  obtain ⟨id, node⟩ := e
  cases node with
  | constant | parameter | default | lambda | block | loop =>
      simp [Node.places, Node.children] at mem
  | unary op operand type =>
      obtain rfl : c = operand := by simpa [Node.places, Node.children] using mem
      exact isPart_unary op c type
  | binary op left right =>
      exact isPart_binary (by simpa [Node.places, Node.children] using mem) ok
  | typeTest op operand tested =>
      obtain rfl : c = operand := by simpa [Node.places, Node.children] using mem
      cases op <;> simp only [writeNode, typeTest, draft_madeTypeQuery] <;> grind
  | conditional test ifTrue ifFalse type =>
      cases form : isTernary ifTrue ifFalse type with
      | true =>
          cases ifFalse with
          | none => cases form
          | some ifFalse =>
              simp only [writeNode, conditional, form, if_true]
              have which : c = test ∨ c = ifTrue ∨ c = ifFalse := by
                simpa [Node.places, form] using mem
              rcases which with rfl | rfl | rfl
              · exact .left (.left (.left (.left (.left (.left (.left (.left (.refl _)
                  _) _) _) _) _) _) _) _
              · exact .left (.left (.left (.left (.right _ (.refl _)) _) _) _) _
              · exact .right _ (.refl _)
      | false =>
          obtain rfl : c = test := by simpa [Node.places, form] using mem
          simp only [writeNode, conditional, form]
          grind
  | jump kind destination value =>
      cases kind with
      | returning =>
          obtain rfl : value = some c := by simpa [Node.places] using mem
          exact .right _ (.right _ (.refl _))
      | _ => simp [Node.places] at mem
  | label => simp [Node.places] at mem
  | switch value cases fallback type =>
      have which : c = value ∨ ∃ s ∈ cases, c ∈ s.tests := by
        simpa [Node.places, SwitchCase.places] using mem
      rcases which with rfl | ⟨s, inside, tested⟩
      · exact .left (.left (.left (.right _ (.parenthesized (.refl _))) _) _) _
      · have part := isPart_switchCase Expr.draft tested type
        exact .left (.right _ (.braced (.foldr inside part _))) _
  | attempt body handlers fault finalizer =>
      have which : ∃ h ∈ handlers, h.filter = some c := by
        simpa [Node.places, Handler.places] using mem
      obtain ⟨h, inside, filter⟩ := which
      exact .right _ (.foldr inside (isPart_handler Expr.draft filter _) _)
  | create type arguments =>
      exact .right _ (isPart_items Expr.draft (by simpa [Node.places, Node.children] using mem) _ _)
  | newArray form type items =>
      have inside : c ∈ items := by simpa [Node.places, Node.children] using mem
      cases form <;> exact .right _ (.right _ (isPart_items Expr.draft inside _ _))
  | listInit created initializers =>
      have which : c = created ∨ c ∈ initializers.flatMap ElementInit.arguments := by
        simpa [Node.places, Node.children] using mem
      rcases which with rfl | inside
      · exact .left (.left (.refl _) _) _
      · exact .right _ (isPart_initializers Expr.draft inside)
  | memberInit created bindings =>
      have which : c = created ∨ c ∈ Binding.childrenList bindings := by
        simpa [Node.places, Node.children] using mem
      rcases which with rfl | inside
      · exact .left (.left (.refl _) _) _
      · exact .right _ (.braced (isPart_bindingLines Expr.draft bindings inside))
  | call target method arguments =>
      have which : c ∈ target.toList ∨ c ∈ arguments := by
        simpa [Node.places, Node.children] using mem
      rcases which with inside | inside
      · exact isPart_called Expr.draft (isPart_receiver Expr.draft inside _) _ _
      · exact isPart_called_items Expr.draft inside _ _
  | member target accessed =>
      have inside : c ∈ target.toList := by simpa [Node.places, Node.children] using mem
      exact .accessed (isPart_receiver Expr.draft inside _) _ _
  | invocation target arguments type | index target arguments type =>
      have which : c = target ∨ c ∈ arguments := by simpa [Node.places, Node.children] using mem
      rcases which with rfl | inside
      · exact .left (isPart_target Expr.draft c) _
      · exact .right _ (isPart_items Expr.draft inside _ _)
  | forLoop counter start test step body =>
      have which : c = start ∨ c = test ∨ c = step := by simpa [Node.places] using mem
      refine isPart_headed Expr.draft ?_ _ _
      rcases which with rfl | rfl | rfl
      · exact .left (.left (.left (.left (.left (.left (.right _ (.refl _)) _) _) _) _) _) _
      · exact .left (.left (.left (.right _ (.refl _)) _) _) _
      · exact .right _ (.refl _)
  | forEach item source body =>
      obtain rfl : c = source := by simpa [Node.places] using mem
      exact isPart_headed Expr.draft (.right _ (.refl _)) _ _
  | whileLoop test body =>
      obtain rfl : c = test := by simpa [Node.places] using mem
      exact isPart_headed Expr.draft (.refl _) _ _
  | doWhile body test =>
      obtain rfl : c = test := by simpa [Node.places] using mem
      simp only [writeNode]
      grind
  | usingBlock resource body =>
      obtain rfl : c = resource := by simpa [Node.places] using mem
      exact isPart_headed Expr.draft (.refl _) _ _

/-! ### Bodies -/

theorem isPart_bodyLines (type : Ty) (e : Expr) :
    IsPart (body write type e) (bodyLines write type e) :=
  .left (.refl _) _

theorem isPart_headed_body (word : String) (head : Draft) (e : Expr) :
    IsPart (body write .void e) (headed write word head e) :=
  .right _ (isPart_bodyLines write .void e)

theorem isPart_introduced (word : String) (type : Ty) (e : Expr) :
    IsPart (body write type e) (introduced write word type e) :=
  .right _ (isPart_bodyLines write type e)

/-- A body is part of its node, in its braces. -/
theorem isPart_body {e c : Expr} {place : Place} (mem : (place, c) ∈ e.node.places)
    (isBody : place.isBody = true) : ∃ type, IsPart (body write type c) (writeNode write e) := by
  have inline {es : List Expr} (mem : (place, c) ∈ es.map (Place.inline, ·)) : False := by
    obtain ⟨d, -, same⟩ := List.mem_map.mp mem
    cases same
    cases isBody
  obtain ⟨id, node⟩ := e
  cases node with
  | constant | parameter | default | unary | binary | typeTest | create | newArray | listInit
  | memberInit | call | member | invocation | index => exact (inline mem).elim
  | lambda l =>
      obtain ⟨rfl, rfl⟩ : place = .lambdaBody ∧ c = l.body := by simpa [Node.places] using mem
      exact ⟨_, .right _ (.refl _)⟩
  | block locals statements type =>
      obtain ⟨-, rfl⟩ : c ∈ statements ∧ Place.statement = place := by
        simpa [Node.places] using mem
      cases isBody
  | conditional test ifTrue ifFalse type =>
      cases form : isTernary ifTrue ifFalse type with
      | true =>
          have all : (place, c) ∈ (test :: ifTrue :: ifFalse.toList).map (Place.inline, ·) := by
            simpa [Node.places, form] using mem
          exact (inline all).elim
      | false =>
          have which : (place = .inline ∧ c = test) ∨ (place = .branch ∧ c = ifTrue) ∨
              (ifFalse = some c ∧ Place.branch = place) := by
            simpa [Node.places, form] using mem
          simp only [writeNode, conditional, form]
          rcases which with ⟨rfl, -⟩ | ⟨rfl, rfl⟩ | ⟨rfl, -⟩
          · cases isBody
          · exact ⟨_, .left (.right _ (isPart_bodyLines write type c)) _⟩
          · exact ⟨_, .right _ (isPart_introduced write _ type c)⟩
  | loop body =>
      obtain ⟨rfl, rfl⟩ : place = .loopBody ∧ c = body := by simpa [Node.places] using mem
      exact ⟨_, .right _ (isPart_bodyLines write .void c)⟩
  | jump kind destination value =>
      obtain ⟨-, rfl⟩ : value = some c ∧
          (if kind = .returning then .inline else .discarded) = place := by
        simpa [Node.places] using mem
      split at isBody <;> cases isBody
  | label l fallback =>
      obtain ⟨-, rfl⟩ : fallback = some c ∧ Place.fallback = place := by
        simpa [Node.places] using mem
      cases isBody
  | switch value cases fallback type =>
      have which : (place = .inline ∧ c = value) ∨
          (∃ s ∈ cases, c ∈ s.tests ∧ Place.inline = place ∨ place = .caseBody ∧ c = s.body) ∨
          (fallback = some c ∧ Place.caseBody = place) := by
        simpa [Node.places, SwitchCase.places] using mem
      rcases which with ⟨rfl, -⟩ | ⟨s, inside, ⟨-, rfl⟩ | ⟨-, rfl⟩⟩ | ⟨rfl, -⟩
      · cases isBody
      · cases isBody
      · have part : IsPart (body write type s.body) (switchCase write type s) :=
          .foldr_last _ s.tests (isPart_bodyLines write type s.body)
        exact ⟨_, .left (.right _ (.braced (.foldr inside part _))) _⟩
      · have part : IsPart (body write type c)
            (keyword "default" ++ token ":" ++ newline ++ bodyLines write type c) :=
          .right _ (isPart_bodyLines write type c)
        exact ⟨_, .left (.right _ (.braced (.foldr_last _ cases part))) _⟩
  | attempt body handlers fault finalizer =>
      have which : (place = .tryBody ∧ c = body) ∨
          (∃ h ∈ handlers, h.filter = some c ∧ Place.inline = place ∨
            place = .handlerBody ∧ c = h.body) ∨
          (fault = some c ∧ Place.faultBody = place) ∨
          (finalizer = some c ∧ Place.finallyBody = place) := by
        simpa [Node.places, Handler.places] using mem
      rcases which with ⟨-, rfl⟩ | ⟨h, inside, ⟨-, rfl⟩ | ⟨-, rfl⟩⟩ | ⟨rfl, -⟩ | ⟨rfl, -⟩
      · exact ⟨_, .left (isPart_introduced write _ _ c) _⟩
      · cases isBody
      · have part : IsPart (Source.body write body.type h.body) (handler write body.type h) :=
          .right _ (isPart_bodyLines write _ h.body)
        exact ⟨_, .right _ (.foldr inside part _)⟩
      · exact ⟨_, .right _ (.foldr_last _ handlers (.left (isPart_introduced write _ _ c) _))⟩
      · exact ⟨_, .right _ (.foldr_last _ handlers (.right _ (isPart_introduced write _ _ c)))⟩
  | forLoop _ _ _ _ body | forEach _ _ body | whileLoop _ body | usingBlock _ body =>
      have which : place = .inline ∨ c = body := by
        simp only [Node.places, List.mem_cons, Prod.mk.injEq, List.not_mem_nil] at mem
        grind
      rcases which with rfl | rfl
      · cases isBody
      · exact ⟨_, isPart_headed_body write _ _ c⟩
  | doWhile body test =>
      have which : place = .inline ∨ c = body := by
        simp only [Node.places, List.mem_cons, Prod.mk.injEq, List.not_mem_nil] at mem
        grind
      rcases which with rfl | rfl
      · cases isBody
      · exact ⟨_, .left (.left (.left (.left (.left (isPart_introduced write _ _ c) _) _) _) _) _⟩

end

/-! ### Statements -/

/-- A statement and, if it is a label, its default are part of what is written. -/
structure Holds (d : Draft) (e : Expr) : Prop where
  self : IsPart e.draft d
  fallback : ∀ l f, e.node = .label l (some f) → IsPart f.draft d

theorem Holds.trans {a d : Draft} {e : Expr} (holds : Holds a e) (part : IsPart a d) :
    Holds d e where
  self := holds.self.trans part
  fallback := fun l f node => (holds.fallback l f node).trans part

theorem isPart_statement (valued : Bool) (e : Expr) :
    IsPart e.draft (statement Expr.draft valued e) :=
  .left (.right _ (.refl _)) _

theorem holds_single (valued : Bool) (e : Expr) : Holds (single valued e) e := by
  by_cases kind : e.kind = .label
  · obtain ⟨l, fallback, node⟩ := exists_of_label kind
    cases fallback with
    | none =>
        simp only [single, node]
        refine ⟨.refl _, fun l' f other => ?_⟩
        rw [node] at other
        cases other
    | some fallback =>
        simp only [single, node]
        refine ⟨.left (.refl _) _, fun l' f same => ?_⟩
        rw [node] at same
        cases same
        exact .right _ (isPart_statement valued fallback)
  · rw [single_of_not_label kind]
    refine ⟨isPart_statement valued e, fun l f node => ?_⟩
    exact absurd (by rw [Expr.kind, node]; rfl) kind

theorem holds_block {es : List Expr} {e : Expr} (mem : e ∈ es) (locals : List Parameter)
    (type : Ty) : Holds (block Expr.draft locals es type) e := by
  have inside : ∃ valued, IsPart (single valued e) (statements Expr.draft type es) := by
    induction es with
    | nil => cases mem
    | cons first rest ih =>
        rw [statements_cons]
        rcases List.mem_cons.mp mem with rfl | mem
        · exact ⟨_, .left (.refl _) _⟩
        · obtain ⟨valued, part⟩ := ih mem
          exact ⟨valued, .right _ part⟩
  obtain ⟨valued, part⟩ := inside
  exact (holds_single valued e).trans (.braced (.right _ part))

theorem holds_body (type : Ty) (e : Expr) : Holds (body Expr.draft type e) e := by
  by_cases kind : e.kind = .block
  · rw [body_of_block kind]
    refine ⟨.refl _, fun l f node => ?_⟩
    rw [Expr.kind, node] at kind
    cases kind
  · rw [body_of_not_block kind]
    exact holds_block (List.mem_singleton_self e) [] type

/-- A child that stands as a statement is part of its node, with its default. -/
theorem holds_child {e c : Expr} {place : Place} (mem : (place, c) ∈ e.node.places)
    (isStatement : place.isStatement = true) : Holds e.draft c := by
  rw [Expr.draft_eq]
  by_cases statement : place = .statement
  · subst statement
    obtain ⟨locals, es, type, node, inside⟩ := Node.exists_block_of_statement mem
    rw [writeNode, node]
    exact holds_block inside locals type
  · have isBody : place.isBody = true := by simp [Place.isBody, isStatement, statement]
    obtain ⟨type, part⟩ := isPart_body Expr.draft mem isBody
    exact (holds_body type c).trans part

/-- Every node that is written of a tree is part of a draft that holds the tree. -/
theorem isPart_of_mem_writtenAt {e n : Expr} {place : Place} {d : Draft} (ok : d.error = none)
    (part : IsPart e.draft d) (holds : place.isStatement = true → Holds d e)
    (mem : n ∈ e.writtenAt Place.isStatement place) : IsPart n.draft d := by
  induction e using Expr.inductionOnChildren generalizing place with
  | step e ih =>
      rw [Expr.writtenAt_eq, Expr.writtenStep] at mem
      rcases List.mem_cons.mp mem with rfl | below
      · exact part
      · obtain ⟨⟨inner, c⟩, inside, written⟩ := List.mem_flatMap.mp below
        have child : c ∈ e.children := Node.mem_children_of_mem_places inside
        have within_line : Place.inline.isStatement = true → Holds d c := by
          intro isStatement
          cases isStatement
        cases inner with
        | discarded => cases written
        | fallback =>
            have written : n ∈ if place.isStatement then c.writtenAt _ .inline else [] := written
            split at written
            case isFalse => cases written
            case isTrue isStatement =>
              obtain ⟨l, node⟩ := Node.exists_label_of_fallback inside
              exact ih c child ((holds isStatement).fallback l c node) within_line written
        | inline =>
            have within : IsPart c.draft e.draft := by
              rw [Expr.draft_eq e]
              exact isPart_inline inside (Expr.draft_eq e ▸ part.ok ok)
            exact ih c child (within.trans part) within_line written
        | _ =>
            have within : Holds d c := (holds_child inside rfl).trans part
            exact ih c child within.self (fun _ => within) written

theorem Lambda.isPart_of_mem_written {l : Lambda} {n : Expr} (ok : l.draft.error = none)
    (mem : n ∈ l.written) : IsPart n.draft l.draft := by
  have within : Holds l.draft l.body := (holds_body l.returns l.body).trans (.right _ (.refl _))
  exact isPart_of_mem_writtenAt ok within.self (fun _ => within) mem

end Source

open Source

/-! ### Blocks -/

/-- A block as it is written: its locals and its statements. -/
structure Block where
  locals : List Parameter
  statements : List Expr

/-- What is written of a block of the given type. -/
def Block.draft (type : Ty) (b : Block) : Draft := block Expr.draft b.locals b.statements type

/-- The blocks that a node writes by itself: one if it is a block, and one for each body that is not
a block already. -/
def Expr.ownBlocks (e : Expr) : List Block :=
  match e.node with
  | .block locals es _ => [⟨locals, es⟩]
  | node => node.places.filterMap fun (place, c) =>
    if place.isBody ∧ c.kind ≠ .block then some ⟨[], [c]⟩ else none

/-- The blocks that are written when the lambda is. -/
def Lambda.blocks (l : Lambda) : List Block :=
  (if l.body.kind = .block then [] else [⟨[], [l.body]⟩]) ++ l.written.flatMap Expr.ownBlocks

theorem Expr.isPart_of_mem_ownBlocks {e : Expr} {b : Block} (mem : b ∈ e.ownBlocks) :
    ∃ type, (b.draft type).IsPart e.draft := by
  unfold Expr.ownBlocks at mem
  split at mem
  case h_1 locals es type node =>
    obtain rfl := List.mem_singleton.mp mem
    refine ⟨type, ?_⟩
    rw [Expr.draft_eq, writeNode, node]
    exact .refl _
  case h_2 =>
    obtain ⟨⟨place, c⟩, inside, own⟩ := List.mem_filterMap.mp mem
    obtain ⟨⟨isBody, kind⟩, same⟩ := Option.ite_none_right_eq_some.mp own
    cases same
    obtain ⟨type, part⟩ := isPart_body Expr.draft inside isBody
    rw [body_of_not_block kind, ← Expr.draft_eq] at part
    exact ⟨type, part⟩

/-- Every block of a lambda is part of what is written. -/
theorem Lambda.isPart_of_mem_blocks {l : Lambda} {b : Block} (ok : l.draft.error = none)
    (mem : b ∈ l.blocks) : ∃ type, (b.draft type).IsPart l.draft := by
  rcases List.mem_append.mp mem with outer | inner
  · split at outer
    case isTrue => cases outer
    case isFalse kind =>
      obtain rfl := List.mem_singleton.mp outer
      refine ⟨l.returns, .right _ ?_⟩
      rw [lambdaBody, body_of_not_block kind]
      exact .refl _
  · obtain ⟨n, written, own⟩ := List.mem_flatMap.mp inner
    obtain ⟨type, part⟩ := Expr.isPart_of_mem_ownBlocks own
    exact ⟨type, part.trans (Lambda.isPart_of_mem_written ok written)⟩

end ExprTree
