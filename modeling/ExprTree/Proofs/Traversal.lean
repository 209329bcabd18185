import ExprTree.Expr.Walk
import ExprTree.Proofs.AlikeNodes
import ExprTree.Proofs.Building

/-!
Laws of traversal.

A traversal asks its visitor for nothing but the children of the node. What it does is settled by
`TraversalRules.traverse`: traversals of nodes that are alike are related in any way in which their
visitors are, as long as results and going on respect it, and they give nodes that are alike again.
With a traversal that changes nothing on one side this says what a traversal makes of a node
(`Node.alike_of_traverse`) and when it makes anything of it (`Node.decides_traverse`).
-/

namespace ExprTree

/-- What a visitor may make of an expression, whatever the supply. -/
def Visited (visit : Expr → Build Expr) (c c' : Expr) : Prop :=
  ∃ k k', visit c k = .ok (c', k')

/-! ### What a traversal asks for -/

section

variable {m : Type → Type} [Monad m] {visit visit' : Expr → m Expr}

theorem mapM_congr_of_mem {α β : Type} {f g : α → m β} {as : List α}
    (agree : ∀ a ∈ as, f a = g a) : as.mapM f = as.mapM g := by
  have loops (done : List β) : List.mapM.loop f as done = List.mapM.loop g as done := by
    induction as generalizing done with
    | nil => rfl
    | cons a as ih =>
        have rest := ih fun b mem => agree b (List.mem_cons_of_mem a mem)
        simp only [List.mapM.loop, agree a List.mem_cons_self, rest]
  exact loops []

theorem mapM_option_congr {e : Option Expr} (agree : ∀ c ∈ e.toList, visit c = visit' c) :
    e.mapM visit = e.mapM visit' := by
  cases e with
  | none => rfl
  | some e => rw [Option.mapM_some, Option.mapM_some, agree e (by simp)]

theorem SwitchCase.mapM_traverse_congr {cs : List SwitchCase}
    (agree : ∀ c ∈ cs.flatMap fun c => c.tests ++ [c.body], visit c = visit' c) :
    cs.mapM (SwitchCase.traverse visit) = cs.mapM (SwitchCase.traverse visit') := by
  refine mapM_congr_of_mem fun c mem => ?_
  have parts : ∀ d ∈ c.tests ++ [c.body], visit d = visit' d := fun d hd =>
    agree d (List.mem_flatMap.mpr ⟨c, mem, hd⟩)
  rw [SwitchCase.traverse, SwitchCase.traverse, parts c.body (by simp),
    mapM_congr_of_mem fun d hd => parts d (List.mem_append_left _ hd)]

theorem Handler.mapM_traverse_congr {rename : Parameter → m Parameter} {hs : List Handler}
    (agree : ∀ c ∈ hs.flatMap fun h => h.filter.toList ++ [h.body], visit c = visit' c) :
    hs.mapM (Handler.traverse visit rename) = hs.mapM (Handler.traverse visit' rename) := by
  refine mapM_congr_of_mem fun h mem => ?_
  have parts : ∀ d ∈ h.filter.toList ++ [h.body], visit d = visit' d := fun d hd =>
    agree d (List.mem_flatMap.mpr ⟨h, mem, hd⟩)
  rw [Handler.traverse, Handler.traverse, parts h.body (by simp),
    mapM_option_congr fun d hd => parts d (List.mem_append_left _ hd)]

theorem ElementInit.mapM_traverse_congr {is : List ElementInit}
    (agree : ∀ c ∈ is.flatMap ElementInit.arguments, visit c = visit' c) :
    is.mapM (ElementInit.traverse visit) = is.mapM (ElementInit.traverse visit') := by
  refine mapM_congr_of_mem fun i mem => ?_
  rw [ElementInit.traverse, ElementInit.traverse,
    mapM_congr_of_mem fun d hd => agree d (List.mem_flatMap.mpr ⟨i, mem, hd⟩)]

mutual

theorem Binding.traverse_congr : (b : Binding) → (∀ c ∈ b.children, visit c = visit' c) →
    b.traverse visit = b.traverse visit'
  | .assignment filled value, agree => by
      rw [Binding.traverse, Binding.traverse, agree value (by simp [Binding.children])]
  | .elements filled initializers, agree => by
      rw [Binding.traverse, Binding.traverse,
        ElementInit.mapM_traverse_congr fun c mem =>
          agree c (by simpa [Binding.children] using mem)]
  | .members filled nested, agree => by
      rw [Binding.traverse, Binding.traverse,
        Binding.traverseList_congr nested fun c mem =>
          agree c (by simpa [Binding.children] using mem)]

theorem Binding.traverseList_congr : (bs : List Binding) →
    (∀ c ∈ Binding.childrenList bs, visit c = visit' c) →
    Binding.traverseList visit bs = Binding.traverseList visit' bs
  | [], _ => by rw [Binding.traverseList, Binding.traverseList]
  | b :: bs, agree => by
      rw [Binding.traverseList, Binding.traverseList,
        Binding.traverse_congr b fun c mem => agree c (by simp [Binding.childrenList, mem]),
        Binding.traverseList_congr bs fun c mem => agree c (by simp [Binding.childrenList, mem])]

end

/-- A traversal asks for nothing but children. -/
theorem Node.traverse_congr {rename : Parameter → m Parameter} {node : Node}
    (agree : ∀ c ∈ node.children, visit c = visit' c) :
    node.traverse visit rename = node.traverse visit' rename := by
  cases node with
  | constant | parameter | default => rfl
  | lambda | unary | binary | typeTest | loop | forLoop | forEach | whileLoop | doWhile
  | usingBlock =>
      simp only [Node.children, List.mem_cons, List.not_mem_nil, or_false, forall_eq_or_imp,
        forall_eq] at agree
      simp only [Node.traverse, agree]
  | block | create | newArray =>
      simp only [Node.children] at agree
      simp only [Node.traverse]
      rw [mapM_congr_of_mem agree]
  | jump | label | member =>
      simp only [Node.children] at agree
      simp only [Node.traverse]
      rw [mapM_option_congr agree]
  | conditional test ifTrue ifFalse t =>
      simp only [Node.children, List.forall_mem_cons] at agree
      simp only [Node.traverse, agree.1, agree.2.1]
      rw [mapM_option_congr agree.2.2]
  | switch value cases fallback t =>
      simp only [Node.children, List.cons_append, List.forall_mem_cons, List.forall_mem_append]
        at agree
      simp only [Node.traverse, agree.1]
      rw [SwitchCase.mapM_traverse_congr agree.2.1, mapM_option_congr agree.2.2]
  | attempt body handlers fault finalizer =>
      simp only [Node.children, List.cons_append, List.forall_mem_cons, List.forall_mem_append]
        at agree
      simp only [Node.traverse, agree.1]
      rw [Handler.mapM_traverse_congr agree.2.1.1, mapM_option_congr agree.2.1.2,
        mapM_option_congr agree.2.2]
  | listInit created initializers =>
      simp only [Node.children, List.forall_mem_cons] at agree
      simp only [Node.traverse, agree.1]
      rw [ElementInit.mapM_traverse_congr agree.2]
  | memberInit created bindings =>
      simp only [Node.children, List.forall_mem_cons] at agree
      simp only [Node.traverse, agree.1]
      rw [Binding.traverseList_congr bindings agree.2]
  | call target method arguments =>
      simp only [Node.children, List.forall_mem_append] at agree
      simp only [Node.traverse]
      rw [mapM_option_congr agree.1, mapM_congr_of_mem agree.2]
  | invocation target arguments t | index target arguments t =>
      simp only [Node.children, List.forall_mem_cons] at agree
      simp only [Node.traverse, agree.1]
      rw [mapM_congr_of_mem agree.2]

end

/-! ### Traversals side by side -/

/-- A way to relate computations that traversals respect: it holds of results that are related, and
it is kept by going on. What a traversal visits does not depend on what came of earlier visits. So
the second step has to be related for all results of the first one, and only what it gives may build
on these being related. -/
structure TraversalRules {m m' : Type → Type} [Monad m] [LawfulMonad m] [Monad m'] [LawfulMonad m']
    (P : (α β : Type) → (α → β → Prop) → m α → m' β → Prop) : Prop where
  pure : ∀ {α β : Type} {Q : α → β → Prop} {a : α} {b : β}, Q a b → P α β Q (pure a) (pure b)
  bind : ∀ {α β γ δ : Type} {Q : α → β → Prop} {R : γ → δ → Prop} {x : m α} {y : m' β}
    {f : α → m γ} {g : β → m' δ}, P α β Q x y →
    (∀ a b, P γ δ (fun c d => Q a b → R c d) (f a) (g b)) → P γ δ R (x >>= f) (y >>= g)

namespace TraversalRules

variable {m m' : Type → Type} [Monad m] [LawfulMonad m] [Monad m'] [LawfulMonad m']
  {P : (α β : Type) → (α → β → Prop) → m α → m' β → Prop} (rules : TraversalRules P)
  {α β γ δ : Type} {q : Expr → Expr → Prop} {w : Parameter → Parameter → Prop}
  {r : Expr → Expr → Prop} {v : Parameter → Parameter → Prop} {visit : Expr → m Expr}
  {visit' : Expr → m' Expr} {rename : Parameter → m Parameter} {rename' : Parameter → m' Parameter}

include rules

theorem mapM {q : α → β → Prop} {R : γ → δ → Prop} {f : α → m γ} {g : β → m' δ} {as : List α}
    {bs : List β} (related : List.Forall₂ q as bs)
    (each : ∀ a ∈ as, ∀ b, q a b → P γ δ R (f a) (g b)) :
    P (List γ) (List δ) (List.Forall₂ R) (as.mapM f) (bs.mapM g) := by
  induction related with
  | nil => exact rules.pure .nil
  | cons first _ ih =>
      rw [List.mapM_cons, List.mapM_cons]
      refine rules.bind (each _ List.mem_cons_self _ first) fun c d => ?_
      refine rules.bind (ih fun a mem => each a (.tail _ mem)) fun cs ds => rules.pure ?_
      exact fun others first => .cons first others

theorem mapM_option {q : α → β → Prop} {R : γ → δ → Prop} {f : α → m γ} {g : β → m' δ}
    {a : Option α} {b : Option β} (related : Option.Rel q a b)
    (each : ∀ c ∈ a.toList, ∀ d, q c d → P γ δ R (f c) (g d)) :
    P (Option γ) (Option δ) (Option.Rel R) (a.mapM f) (b.mapM g) := by
  cases related with
  | none => exact rules.pure .none
  | some related =>
      rw [Option.mapM_some, Option.mapM_some, map_eq_pure_bind, map_eq_pure_bind]
      exact rules.bind (each _ (List.mem_singleton_self _) _ related) fun _ _ => rules.pure .some

theorem switchCase {c c' : SwitchCase} (alike : c.Alike q c')
    (each : ∀ d ∈ c.tests ++ [c.body], ∀ d', q d d' → P Expr Expr r (visit d) (visit' d')) :
    P SwitchCase SwitchCase (SwitchCase.Alike r) (c.traverse visit) (c'.traverse visit') := by
  refine rules.bind (rules.mapM alike.tests fun d mem => each d (List.mem_append_left _ mem))
    fun _ _ => ?_
  refine rules.bind (each c.body (by simp) _ alike.body) fun _ _ => rules.pure ?_
  exact fun body tests => ⟨tests, body⟩

theorem handler {h h' : Handler} (alike : h.Alike q w h')
    (each : ∀ d ∈ h.filter.toList ++ [h.body], ∀ d', q d d' →
      P Expr Expr r (visit d) (visit' d'))
    (locals : ∀ p ∈ h.caught.toList, ∀ p', w p p' →
      P Parameter Parameter v (rename p) (rename' p')) :
    P Handler Handler (Handler.Alike r v) (h.traverse visit rename)
      (h'.traverse visit' rename') := by
  refine rules.bind (rules.mapM_option alike.caught locals) fun _ _ => ?_
  refine rules.bind (rules.mapM_option alike.filter fun d mem =>
    each d (List.mem_append_left _ mem)) fun _ _ => ?_
  refine rules.bind (each h.body (by simp) _ alike.body) fun _ _ => rules.pure ?_
  exact fun body filter caught => ⟨alike.tested, caught, filter, body⟩

theorem elementInits {is is' : List ElementInit}
    (alike : List.Forall₂ (ElementInit.Alike q) is is')
    (each : ∀ d ∈ is.flatMap ElementInit.arguments, ∀ d', q d d' →
      P Expr Expr r (visit d) (visit' d')) :
    P (List ElementInit) (List ElementInit) (List.Forall₂ (ElementInit.Alike r))
      (is.mapM (ElementInit.traverse visit)) (is'.mapM (ElementInit.traverse visit')) := by
  refine rules.mapM alike fun i mem i' alike => ?_
  refine rules.bind (rules.mapM alike.arguments fun d inside =>
    each d (List.mem_flatMap.mpr ⟨i, mem, inside⟩)) fun _ _ => rules.pure ?_
  exact fun arguments => ⟨alike.method, arguments⟩

mutual

theorem binding : {b b' : Binding} → Binding.Alike q b b' →
    (∀ d ∈ b.children, ∀ d', q d d' → P Expr Expr r (visit d) (visit' d')) →
    P Binding Binding (Binding.Alike r) (b.traverse visit) (b'.traverse visit')
  | _, _, .assignment given, each => by
      simp only [Binding.traverse]
      exact rules.bind (each _ (List.mem_singleton_self _) _ given) fun _ _ =>
        rules.pure .assignment
  | _, _, .elements alike, each => by
      simp only [Binding.traverse]
      exact rules.bind (rules.elementInits alike each) fun _ _ => rules.pure .elements
  | _, _, .members alike, each => by
      simp only [Binding.traverse]
      exact rules.bind (bindings alike each) fun _ _ => rules.pure .members

theorem bindings : {bs bs' : List Binding} → List.Forall₂ (Binding.Alike q) bs bs' →
    (∀ d ∈ Binding.childrenList bs, ∀ d', q d d' → P Expr Expr r (visit d) (visit' d')) →
    P (List Binding) (List Binding) (List.Forall₂ (Binding.Alike r))
      (Binding.traverseList visit bs) (Binding.traverseList visit' bs')
  | _, _, .nil, _ => by
      simp only [Binding.traverseList]
      exact rules.pure .nil
  | _, _, .cons first rest, each => by
      simp only [Binding.traverseList]
      refine rules.bind (binding first fun d mem => each d (List.mem_append_left _ mem))
        fun _ _ => ?_
      refine rules.bind (bindings rest fun d mem => each d (List.mem_append_right _ mem))
        fun _ _ => rules.pure ?_
      exact fun others first => .cons first others

end

/-- Traversals of nodes that are alike are related if their visits are, and what they give is alike
again. -/
theorem traverse {n n' : Node} (alike : n.Alike q w n')
    (each : ∀ c ∈ n.children, ∀ c', q c c' → P Expr Expr r (visit c) (visit' c'))
    (locals : ∀ p ∈ n.parameters, ∀ p', w p p' →
      P Parameter Parameter v (rename p) (rename' p')) :
    P Node Node (Node.Alike r v) (n.traverse visit rename) (n'.traverse visit' rename') := by
  cases alike with
  | constant => exact rules.pure .constant
  | parameter reads =>
      exact rules.bind (locals _ (List.mem_singleton_self _) _ reads) fun _ _ =>
        rules.pure .parameter
  | default => exact rules.pure .default
  | lambda lambda =>
      refine rules.bind (rules.mapM lambda.parameters locals) fun _ _ => ?_
      refine rules.bind (each _ (List.mem_singleton_self _) _ lambda.body) fun _ _ =>
        rules.pure ?_
      exact fun body bound => .lambda ⟨lambda.name, bound, body, lambda.returns⟩
  | unary operand =>
      exact rules.bind (each _ (List.mem_singleton_self _) _ operand) fun _ _ => rules.pure .unary
  | typeTest operand =>
      exact rules.bind (each _ (List.mem_singleton_self _) _ operand) fun _ _ =>
        rules.pure .typeTest
  | loop body =>
      exact rules.bind (each _ (List.mem_singleton_self _) _ body) fun _ _ => rules.pure .loop
  | binary left right =>
      simp only [Node.children, List.forall_mem_cons] at each
      refine rules.bind (each.1 _ left) fun _ _ => ?_
      refine rules.bind (each.2.1 _ right) fun _ _ => rules.pure ?_
      exact fun second first => .binary first second
  | block bound statements =>
      refine rules.bind (rules.mapM bound locals) fun _ _ => ?_
      refine rules.bind (rules.mapM statements each) fun _ _ => rules.pure ?_
      exact fun statements bound => .block bound statements
  | conditional test ifTrue ifFalse =>
      simp only [Node.children, List.forall_mem_cons] at each
      refine rules.bind (each.1 _ test) fun _ _ => ?_
      refine rules.bind (each.2.1 _ ifTrue) fun _ _ => ?_
      refine rules.bind (rules.mapM_option ifFalse each.2.2) fun _ _ => rules.pure ?_
      exact fun third second first => .conditional first second third
  | jump value => exact rules.bind (rules.mapM_option value each) fun _ _ => rules.pure .jump
  | label fallback =>
      exact rules.bind (rules.mapM_option fallback each) fun _ _ => rules.pure .label
  | switch value cases fallback =>
      simp only [Node.children, List.cons_append, List.forall_mem_cons, List.forall_mem_append]
        at each
      refine rules.bind (each.1 _ value) fun _ _ => ?_
      refine rules.bind (rules.mapM cases fun c mem _ alike => rules.switchCase alike
        fun d inside => each.2.1 d (List.mem_flatMap.mpr ⟨c, mem, inside⟩)) fun _ _ => ?_
      refine rules.bind (rules.mapM_option fallback each.2.2) fun _ _ => rules.pure ?_
      exact fun third second first => .switch first second third
  | attempt body handlers fault finalizer =>
      simp only [Node.children, List.cons_append, List.forall_mem_cons, List.forall_mem_append]
        at each
      refine rules.bind (each.1 _ body) fun _ _ => ?_
      refine rules.bind (rules.mapM handlers fun h mem _ alike => rules.handler alike
        (fun d inside => each.2.1.1 d (List.mem_flatMap.mpr ⟨h, mem, inside⟩))
        fun p caught => locals p (List.mem_filterMap.mpr ⟨h, mem, Option.mem_toList.mp caught⟩))
        fun _ _ => ?_
      refine rules.bind (rules.mapM_option fault each.2.1.2) fun _ _ => ?_
      refine rules.bind (rules.mapM_option finalizer each.2.2) fun _ _ => rules.pure ?_
      exact fun fourth third second first => .attempt first second third fourth
  | create arguments =>
      exact rules.bind (rules.mapM arguments each) fun _ _ => rules.pure .create
  | newArray items => exact rules.bind (rules.mapM items each) fun _ _ => rules.pure .newArray
  | listInit created initializers =>
      simp only [Node.children, List.forall_mem_cons] at each
      refine rules.bind (each.1 _ created) fun _ _ => ?_
      refine rules.bind (rules.elementInits initializers each.2) fun _ _ => rules.pure ?_
      exact fun second first => .listInit first second
  | memberInit created bindings =>
      simp only [Node.children, List.forall_mem_cons] at each
      refine rules.bind (each.1 _ created) fun _ _ => ?_
      refine rules.bind (rules.bindings bindings each.2) fun _ _ => rules.pure ?_
      exact fun second first => .memberInit first second
  | call target arguments =>
      simp only [Node.children, List.forall_mem_append] at each
      refine rules.bind (rules.mapM_option target each.1) fun _ _ => ?_
      refine rules.bind (rules.mapM arguments each.2) fun _ _ => rules.pure ?_
      exact fun second first => .call first second
  | member target => exact rules.bind (rules.mapM_option target each) fun _ _ => rules.pure .member
  | invocation target arguments =>
      simp only [Node.children, List.forall_mem_cons] at each
      refine rules.bind (each.1 _ target) fun _ _ => ?_
      refine rules.bind (rules.mapM arguments each.2) fun _ _ => rules.pure ?_
      exact fun second first => .invocation first second
  | index target arguments =>
      simp only [Node.children, List.forall_mem_cons] at each
      refine rules.bind (each.1 _ target) fun _ _ => ?_
      refine rules.bind (rules.mapM arguments each.2) fun _ _ => rules.pure ?_
      exact fun second first => .index first second
  | forLoop counter start test step body =>
      simp only [Node.children, List.forall_mem_cons] at each
      refine rules.bind (locals _ (List.mem_singleton_self _) _ counter) fun _ _ => ?_
      refine rules.bind (each.1 _ start) fun _ _ => ?_
      refine rules.bind (each.2.1 _ test) fun _ _ => ?_
      refine rules.bind (each.2.2.1 _ step) fun _ _ => ?_
      refine rules.bind (each.2.2.2.1 _ body) fun _ _ => rules.pure ?_
      exact fun fourth third second first counter => .forLoop counter first second third fourth
  | forEach item source body =>
      simp only [Node.children, List.forall_mem_cons] at each
      refine rules.bind (locals _ (List.mem_singleton_self _) _ item) fun _ _ => ?_
      refine rules.bind (each.1 _ source) fun _ _ => ?_
      refine rules.bind (each.2.1 _ body) fun _ _ => rules.pure ?_
      exact fun second first item => .forEach item first second
  | whileLoop test body =>
      simp only [Node.children, List.forall_mem_cons] at each
      refine rules.bind (each.1 _ test) fun _ _ => ?_
      refine rules.bind (each.2.1 _ body) fun _ _ => rules.pure ?_
      exact fun second first => .whileLoop first second
  | doWhile body test =>
      simp only [Node.children, List.forall_mem_cons] at each
      refine rules.bind (each.1 _ body) fun _ _ => ?_
      refine rules.bind (each.2.1 _ test) fun _ _ => rules.pure ?_
      exact fun second first => .doWhile first second
  | usingBlock resource body =>
      simp only [Node.children, List.forall_mem_cons] at each
      refine rules.bind (each.1 _ resource) fun _ _ => ?_
      refine rules.bind (each.2.1 _ body) fun _ _ => rules.pure ?_
      exact fun second first => .usingBlock first second

end TraversalRules

/-! ### A traversal that changes nothing -/

section

variable {m : Type → Type} [Monad m] [LawfulMonad m]

theorem mapM_eq_pure {α : Type} {step : α → m α} (each : ∀ a, step a = pure a) (as : List α) :
    as.mapM step = pure as := by
  induction as with
  | nil => rfl
  | cons a as ih => simp [List.mapM_cons, each a, ih]

theorem mapM_option_pure {α : Type} (a : Option α) : a.mapM (pure : α → m α) = pure a := by
  cases a <;> simp

theorem SwitchCase.traverse_pure (c : SwitchCase) :
    c.traverse (pure : Expr → m Expr) = pure c := by
  obtain ⟨tests, body⟩ := c
  simp [SwitchCase.traverse, mapM_eq_pure]

theorem Handler.traverse_pure (h : Handler) :
    h.traverse (pure : Expr → m Expr) pure = pure h := by
  obtain ⟨tested, caught, filter, body⟩ := h
  simp [Handler.traverse, mapM_option_pure]

theorem ElementInit.traverse_pure (i : ElementInit) :
    i.traverse (pure : Expr → m Expr) = pure i := by
  obtain ⟨method, arguments⟩ := i
  simp [ElementInit.traverse, mapM_eq_pure]

mutual

theorem Binding.traverse_pure : (b : Binding) → b.traverse (pure : Expr → m Expr) = pure b
  | .assignment filled value => by simp [Binding.traverse]
  | .elements filled initializers => by
      simp [Binding.traverse, mapM_eq_pure ElementInit.traverse_pure]
  | .members filled nested => by simp [Binding.traverse, Binding.traverseList_pure nested]

theorem Binding.traverseList_pure :
    (bs : List Binding) → Binding.traverseList (pure : Expr → m Expr) bs = pure bs
  | [] => by simp [Binding.traverseList]
  | b :: bs => by simp [Binding.traverseList, Binding.traverse_pure b, Binding.traverseList_pure bs]

end

theorem Node.traverse_pure (node : Node) :
    node.traverse (pure : Expr → m Expr) pure = pure node := by
  cases node with
  | lambda l =>
      obtain ⟨name, parameters, body, returns⟩ := l
      simp [Node.traverse, mapM_eq_pure]
  | switch => simp [Node.traverse, mapM_eq_pure SwitchCase.traverse_pure, mapM_option_pure]
  | attempt => simp [Node.traverse, mapM_eq_pure Handler.traverse_pure, mapM_option_pure]
  | listInit => simp [Node.traverse, mapM_eq_pure ElementInit.traverse_pure]
  | memberInit => simp [Node.traverse, Binding.traverseList_pure]
  | _ => simp [Node.traverse, mapM_eq_pure, mapM_option_pure]

/-- A node is related to what a traversal makes of it as its parts are to what the visits make of
them. -/
theorem Node.rel_traverse {m' : Type → Type} [Monad m'] [LawfulMonad m']
    {P : (α β : Type) → (α → β → Prop) → m α → m' β → Prop} (rules : TraversalRules P)
    {r : Expr → Expr → Prop} {v : Parameter → Parameter → Prop} {visit : Expr → m' Expr}
    {rename : Parameter → m' Parameter} {node : Node}
    (each : ∀ c ∈ node.children, P Expr Expr r (pure c) (visit c))
    (locals : ∀ p ∈ node.parameters, P Parameter Parameter v (pure p) (rename p)) :
    P Node Node (Node.Alike r v) (pure node) (node.traverse visit rename) := by
  rw [← Node.traverse_pure node]
  refine rules.traverse (.refl node) ?_ ?_
  · rintro c child _ rfl
    exact each c child
  · rintro p mem _ rfl
    exact locals p mem

end

/-! ### Other relations between nodes -/

theorem TraversalRules.id :
    TraversalRules fun α β Q (x : Id α) (y : Id β) => Q x.run y.run where
  pure given := given
  bind first rest := rest _ _ first

section

variable {r r' : Expr → Expr → Prop} {v v' : Parameter → Parameter → Prop} {n n' : Node}

/-- Nodes stay alike when more is taken to correspond. -/
theorem Node.Alike.imp (alike : n.Alike r v n') (each : ∀ c ∈ n.children, ∀ c', r c c' → r' c c')
    (locals : ∀ p ∈ n.parameters, ∀ q, v p q → v' p q) : n.Alike r' v' n' := by
  have related : Node.Alike r' v' (n.traverse (pure : Expr → Id Expr) pure).run
      (n'.traverse (pure : Expr → Id Expr) pure).run :=
    TraversalRules.id.traverse alike each locals
  rw [Node.traverse_pure, Node.traverse_pure] at related
  exact related

/-- A node is like itself if its children and its variables are. -/
theorem Node.alike_of_mem (each : ∀ c ∈ n.children, r c c) (locals : ∀ p ∈ n.parameters, v p p) :
    n.Alike r v n := by
  refine (Node.Alike.refl n).imp ?_ ?_
  · rintro c child _ rfl
    exact each c child
  · rintro p mem _ rfl
    exact locals p mem

/-- What holds of the children on the right is known of those that correspond. -/
theorem Node.Alike.and_right {p : Expr → Prop} (alike : n.Alike r v n')
    (each : ∀ c ∈ n'.children, p c) : n.Alike (fun c c' => r c c' ∧ p c') v n' := by
  have both : n'.Alike (fun c' c => r c c' ∧ p c') (flip v) n :=
    alike.reversed.imp (fun c' child _ related => ⟨related, each c' child⟩) fun _ _ _ h => h
  exact both.reversed

end

/-! ### What a traversal gives -/

theorem exists_of_forall₂_left {α β : Type} {r : α → β → Prop} {as : List α} {bs : List β} {a : α}
    (related : List.Forall₂ r as bs) (mem : a ∈ as) : ∃ b ∈ bs, r a b := by
  induction related with
  | nil => cases mem
  | cons first _ ih =>
      rcases List.mem_cons.mp mem with rfl | mem
      · exact ⟨_, List.mem_cons_self, first⟩
      · obtain ⟨b, inside, visited⟩ := ih mem
        exact ⟨b, .tail _ inside, visited⟩

theorem exists_of_forall₂_right {α β : Type} {r : α → β → Prop} {as : List α} {bs : List β} {b : β}
    (related : List.Forall₂ r as bs) (mem : b ∈ bs) : ∃ a ∈ as, r a b :=
  exists_of_forall₂_left related.flip mem

section

open Build (Yields Total Decides)

variable {visit : Expr → Build Expr} {rename : Parameter → Parameter} {k k' : Supply}
  {r : Expr → Expr → Prop} {node node' : Node}

theorem Build.Yields.traversalRules (k : Supply) :
    TraversalRules fun α β Q (x : Id α) (y : Build β) => Yields k (Q x.run) y where
  pure given := .pure given
  bind first rest := first.bind fun b given => (rest _ b).imp fun _ holds => holds given

/-- A traversal puts in the place of each child what its visitor made of it. -/
theorem Node.yields_traverse (each : ∀ c ∈ node.children, Yields k (r c) (visit c)) :
    Yields k (node.Alike r fun p q => rename p = q)
      (node.traverse visit fun p => pure (rename p)) :=
  Node.rel_traverse (Yields.traversalRules k) each fun _ _ => .pure rfl

/-- A node is like what a traversal makes of it. -/
theorem Node.alike_of_traverse
    (ok : node.traverse visit (fun p => pure (rename p)) k = .ok (node', k')) :
    node.Alike (Visited visit) (fun p q => rename p = q) node' :=
  (Node.yields_traverse (fun c _ => Build.yields_zero (visit c)) k node' k' (Nat.zero_le k) ok).2

/-- A traversal keeps the kind of a node. -/
theorem Node.kind_of_traverse
    (ok : node.traverse visit (fun p => pure (rename p)) k = .ok (node', k')) :
    node'.kind = node.kind :=
  (Node.alike_of_traverse ok).kind_eq.symm

/-! ### When a traversal succeeds -/

theorem Build.Total.traversalRules :
    TraversalRules fun α β (_ : α → β → Prop) (_ : Id α) (y : Build β) => Total y where
  pure _ := .pure _
  bind {_ _ _ _ _ _ x _ _ _} first rest := first.bind (rest x.run)

theorem Node.total_traverse (each : ∀ c ∈ node.children, Total (visit c)) :
    Total (node.traverse visit fun p => pure (rename p)) :=
  Node.rel_traverse (r := fun _ _ => True) (v := fun _ _ => True) Total.traversalRules each
    fun _ _ => .pure _

/-- A traversal succeeds exactly when its visitor does so on every child. -/
theorem Node.decides_traverse {ok : Expr → Prop}
    (each : ∀ c ∈ node.children, Decides (ok c) (r c) (visit c)) :
    Decides (∀ c ∈ node.children, ok c) (node.Alike r fun p q => rename p = q)
      (node.traverse visit fun p => pure (rename p)) where
  total all := Node.total_traverse fun c child => (each c child).total (all c child)
  sound k node' k' traversed := by
    constructor
    · intro c child
      obtain ⟨c', -, m, m', visited⟩ :=
        exists_of_forall₂_left (Node.alike_of_traverse traversed).forall₂_children child
      exact ((each c child).sound m c' m' visited).1
    · have yields (c : Expr) (child : c ∈ node.children) : Yields 0 (r c) (visit c) :=
        fun m c' m' _ visited => ⟨Nat.zero_le m', ((each c child).sound m c' m' visited).2⟩
      exact (Node.yields_traverse yields k node' k' (Nat.zero_le k) traversed).2

end

end ExprTree
