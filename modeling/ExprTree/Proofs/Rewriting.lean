import ExprTree.Proofs.Alike

/-!
What a rewriting pass does at one node.

A pass rewrites the parts of a node one after another (`Rewriter.all`), children and parameters in
the order of the source, and puts the results in their places. `Rewriter.Follows` says of a
computation that it does what rewriting a list of parts does, with the same effects and failures.
-/

namespace ExprTree

/-! ### Parts -/

/-- What a pass rewrites of a node. -/
inductive Part where
  | child (e : Expr)
  | parameter (p : Parameter)

namespace Part

@[simp]
def child? : Part → Option Expr
  | .child e => some e
  | .parameter _ => none

@[simp]
def parameter? : Part → Option Parameter
  | .child _ => none
  | .parameter p => some p

@[simp] theorem child?_comp_child : child? ∘ child = some := rfl

@[simp] theorem child?_comp_parameter : child? ∘ parameter = fun _ => none := rfl

@[simp] theorem parameter?_comp_child : parameter? ∘ child = fun _ => none := rfl

@[simp] theorem parameter?_comp_parameter : parameter? ∘ parameter = some := rfl

/-- The children come back as the very same nodes, and the parameters as the same parameters. -/
def unchanged (parts parts' : List Part) : Bool :=
  pairwise Expr.same (parts'.filterMap child?) (parts.filterMap child?) &&
    pairwise Parameter.same (parts'.filterMap parameter?) (parts.filterMap parameter?)

end Part

def Handler.parts (h : Handler) : List Part :=
  h.caught.toList.map .parameter ++ (h.filter.toList ++ [h.body]).map .child

/-- The parts of a node in the order in which they are rewritten. The parameters come first, but the
one of a handler stands before the filter and the body of the handler. -/
def Node.parts : Node → List Part
  | .attempt body handlers fault finalizer =>
    .child body :: handlers.flatMap Handler.parts ++ (fault.toList ++ finalizer.toList).map .child
  | node => node.parameters.map .parameter ++ node.children.map .child

section

variable {a : Expr} {b c : Option Expr} {es : List Expr} {m : Method} {t : Ty}

theorem Node.parts_call : (Node.call b m es).parts = b.toList.map .child ++ es.map .child := by
  simp [Node.parts, Node.parameters, Node.children]

theorem Node.parts_switch {cs : List SwitchCase} : (Node.switch a cs b t).parts =
    .child a ::
      (cs.flatMap (fun c => (c.tests ++ [c.body]).map .child) ++ b.toList.map .child) := by
  simp [Node.parts, Node.parameters, Node.children, List.map_flatMap]

theorem Node.parts_attempt {hs : List Handler} : (Node.attempt a hs b c).parts =
    .child a :: (hs.flatMap Handler.parts ++ (b.toList.map .child ++ c.toList.map .child)) := by
  simp [Node.parts]

end

theorem Handler.filterMap_child?_parts (hs : List Handler) :
    (hs.flatMap Handler.parts).filterMap Part.child? =
      hs.flatMap fun h => h.filter.toList ++ [h.body] := by
  induction hs with
  | nil => rfl
  | cons h hs ih =>
      rw [List.flatMap_cons, List.filterMap_append, ih]
      simp [Handler.parts]

theorem Handler.filterMap_parameter?_parts (hs : List Handler) :
    (hs.flatMap Handler.parts).filterMap Part.parameter? = hs.filterMap Handler.caught := by
  induction hs with
  | nil => rfl
  | cons h hs ih =>
      rw [List.flatMap_cons, List.filterMap_append, ih]
      cases caught : h.caught <;> simp [Handler.parts, caught]

theorem Node.filterMap_child?_parts (n : Node) : n.parts.filterMap Part.child? = n.children := by
  cases n with
  | attempt => simp [Node.parts, Node.children, Handler.filterMap_child?_parts]
  | _ => simp [Node.parts]

theorem Node.filterMap_parameter?_parts (n : Node) :
    n.parts.filterMap Part.parameter? = n.parameters := by
  cases n with
  | attempt =>
      simp [Node.parts, Node.parameters, List.filterMap_cons, Handler.filterMap_parameter?_parts]
  | _ => simp [Node.parts]

theorem Node.sameParts_eq (n n' : Node) : n'.sameParts n = Part.unchanged n.parts n'.parts := by
  rw [Node.sameParts, Part.unchanged, n.filterMap_child?_parts, n'.filterMap_child?_parts,
    n.filterMap_parameter?_parts, n'.filterMap_parameter?_parts]

/-- A node that is built anew takes the next identity, and is checked if it is derived. -/
theorem Node.renewed_eq (n : Node) (k : Supply) : n.renewed k =
    (if n.kind.isDerived then n.check else .ok ()).map fun _ => (⟨k, n⟩, k + 1) := by
  unfold Node.renewed
  split
  · unfold Build.checked
    cases n.check <;> rfl
  · rfl

theorem Node.of_renewed_eq_ok {n : Node} {k k' : Supply} {e : Expr}
    (made : n.renewed k = .ok (e, k')) :
    (n.kind.isDerived = true → n.check = .ok ()) ∧ e = ⟨k, n⟩ ∧ k' = k + 1 := by
  rw [Node.renewed_eq] at made
  split at made
  · cases checked : n.check <;> rw [checked] at made <;> cases made
    exact ⟨fun _ => rfl, rfl, rfl⟩
  · next plain =>
      cases made
      exact ⟨fun derived => absurd derived plain, rfl, rfl⟩

theorem Node.of_renewed_eq_error {n : Node} {k : Supply} {f : BuildError}
    (failed : n.renewed k = .error f) : n.kind.isDerived = true ∧ n.check = .error f := by
  rw [Node.renewed_eq] at failed
  split at failed
  · next derived =>
      cases checked : n.check <;> rw [checked] at failed <;> cases failed
      exact ⟨derived, rfl⟩
  · cases failed

/-! ### Rewriters -/

/-- A rewriting pass, which has a state and draws identities. An expression may be refused, a
parameter may not. -/
structure Rewriter (σ : Type) where
  expression : Expr → StateT σ Build Expr
  parameter : Parameter → StateT σ (StateM Supply) Parameter

namespace Rewriter

variable {σ α β : Type} (r : Rewriter σ)

def rename (p : Parameter) : StateT σ Build Parameter := fun s k => .ok (r.parameter p s k)

/-- One step of the pass. -/
def walk (e : Expr) : StateT σ Build Expr := e.walk r.expression r.rename

def part : Part → StateT σ Build Part
  | .child e => return .child (← r.expression e)
  | .parameter p => return .parameter (← r.rename p)

/-- Rewrite each part once, in order. -/
def all (parts : List Part) : StateT σ Build (List Part) := parts.mapM r.part

theorem bind_run (x : StateT σ Build α) (f : α → StateT σ Build β) (s : σ) (k : Supply) :
    (x >>= f) s k = x s k >>= fun ended => f ended.1.1 ended.1.2 ended.2 := rfl

theorem bind_eq_error {x : Except BuildError α} {f : α → Except BuildError β} {e : BuildError} :
    x >>= f = .error e ↔ x = .error e ∨ ∃ a, x = .ok a ∧ f a = .error e := by
  cases x <;> simp [bind, Except.bind]

theorem all_append (parts others : List Part) :
    r.all (parts ++ others) = do return (← r.all parts) ++ (← r.all others) := by
  simp [all, List.mapM_append]

theorem all_cons (p : Part) (parts : List Part) :
    r.all (p :: parts) = do return (← r.part p) :: (← r.all parts) := by
  simp [all, List.mapM_cons]

/-- How a computation ends next to the rewriting of some parts. -/
inductive Ended (Q : List Part → α → Prop) : Except BuildError ((List Part × σ) × Supply) →
    Except BuildError ((α × σ) × Supply) → Prop
  | error {e : BuildError} : Ended Q (.error e) (.error e)
  | ok {parts : List Part} {a : α} {s : σ} {k : Supply} (given : Q parts a) :
      Ended Q (.ok ((parts, s), k)) (.ok ((a, s), k))

/-- The computation does what rewriting the parts does: it fails if that fails, and otherwise ends
in the same state with a result that is related to the rewritten parts. -/
def Follows (parts : List Part) (x : StateT σ Build α) (Q : List Part → α → Prop) : Prop :=
  ∀ s k, Ended Q (r.all parts s k) (x s k)

variable {r} {parts others : List Part} {Q : List Part → α → Prop} {R : List Part → β → Prop}
  {x : StateT σ Build α}

namespace Follows

theorem pure {a : α} (given : Q [] a) : r.Follows [] (pure a) Q := fun _ _ => .ok given

theorem imp {P : List Part → α → Prop} (follows : r.Follows parts x P)
    (weaker : ∀ parts' a, P parts' a → Q parts' a) : r.Follows parts x Q := by
  intro s k
  have ended := follows s k
  generalize r.all parts s k = run, x s k = run' at ended ⊢
  cases ended with
  | error => exact .error
  | ok given => exact .ok (weaker _ _ given)

/-- One computation after another rewrites the parts of both. -/
theorem bind {f : α → StateT σ Build β} (first : r.Follows parts x Q)
    (rest : ∀ parts' a, Q parts' a → r.Follows others (f a) fun others' => R (parts' ++ others')) :
    r.Follows (parts ++ others) (x >>= f) R := by
  intro s k
  have ended := first s k
  rw [all_append]
  change Ended R (r.all parts s k >>= _) (x s k >>= fun p => f p.1.1 p.1.2 p.2)
  generalize r.all parts s k = run, x s k = run' at ended ⊢
  cases ended with
  | error => exact .error
  | @ok parts' a s' k' given =>
      have ended := rest parts' a given s' k'
      change Ended R (r.all others s' k' >>= _) (f a s' k')
      generalize r.all others s' k' = run, f a s' k' = run' at ended ⊢
      cases ended with
      | error => exact .error
      | ok given => exact .ok given

/-- To make something of a result rewrites nothing. -/
theorem map {g : α → β} (first : r.Follows parts x Q)
    (made : ∀ parts' a, Q parts' a → R parts' (g a)) :
    r.Follows parts (x >>= fun a => Pure.pure (g a)) R := by
  rw [← List.append_nil parts]
  exact first.bind fun parts' a given => .pure (by simpa using made parts' a given)

theorem expression (c : Expr) :
    r.Follows [.child c] (r.expression c) fun parts' c' => parts' = [.child c'] := by
  intro s k
  rw [all_cons, bind_run, part, bind_run]
  cases r.expression c s k with
  | error => exact .error
  | ok => exact .ok rfl

theorem rename (p : Parameter) :
    r.Follows [.parameter p] (r.rename p) fun parts' p' => parts' = [.parameter p'] := by
  intro s k
  rw [all_cons]
  exact .ok rfl

theorem child {c : Expr} {f : Expr → StateT σ Build β}
    (rest : ∀ c', r.Follows others (f c') fun others' => R (.child c' :: others')) :
    r.Follows (.child c :: others) (r.expression c >>= f) R := by
  refine (expression c).bind ?_
  rintro _ c' rfl
  exact rest c'

theorem parameter {p : Parameter} {f : Parameter → StateT σ Build β}
    (rest : ∀ p', r.Follows others (f p') fun others' => R (.parameter p' :: others')) :
    r.Follows (.parameter p :: others) (r.rename p >>= f) R := by
  refine (Follows.rename p).bind ?_
  rintro _ p' rfl
  exact rest p'

/-- Things that are rewritten one after another. -/
theorem mapM {parts : α → List Part} {alike : α → α → Prop} {step : α → StateT σ Build α}
    (each : ∀ a, r.Follows (parts a) (step a) fun parts' a' => alike a a' ∧ parts a' = parts')
    (as : List α) :
    r.Follows (as.flatMap parts) (as.mapM step) fun parts' as' =>
      List.Forall₂ alike as as' ∧ as'.flatMap parts = parts' := by
  induction as with
  | nil => exact .pure ⟨.nil, rfl⟩
  | cons a as ih =>
      rw [List.flatMap_cons, List.mapM_cons]
      refine (each a).bind ?_
      rintro _ a' ⟨first, rfl⟩
      refine ih.map ?_
      rintro _ as' ⟨others, rfl⟩
      exact ⟨.cons first others, List.flatMap_cons⟩

end Follows

/-- No more is asked of two things than that both are there. -/
def Any {α : Type} (_ _ : α) : Prop := True

section

variable {part : α → Part} {step : α → StateT σ Build α}
  (each : ∀ a, r.Follows [part a] (step a) fun parts' a' => parts' = [part a'])

include each

theorem follows_list (as : List α) :
    r.Follows (as.map part) (as.mapM step) fun parts' as' =>
      List.Forall₂ Any as as' ∧ as'.map part = parts' := by
  simp only [List.map_eq_flatMap]
  exact Follows.mapM (fun a => (each a).imp fun _ _ same => ⟨trivial, same.symm⟩) as

theorem follows_option (a : Option α) :
    r.Follows (a.toList.map part) (a.mapM step) fun parts' a' =>
      Option.Rel Any a a' ∧ a'.toList.map part = parts' := by
  cases a with
  | none => exact .pure ⟨.none, rfl⟩
  | some a =>
      rw [Option.mapM_some]
      refine (each a).map ?_
      rintro _ a' rfl
      exact ⟨.some trivial, rfl⟩

end

theorem follows_children (es : List Expr) :
    r.Follows (es.map .child) (es.mapM r.expression) fun parts' es' =>
      List.Forall₂ Any es es' ∧ es'.map .child = parts' :=
  follows_list .expression es

theorem follows_optional (e : Option Expr) :
    r.Follows (e.toList.map .child) (e.mapM r.expression) fun parts' e' =>
      Option.Rel Any e e' ∧ e'.toList.map .child = parts' :=
  follows_option .expression e

theorem follows_parameters (ps : List Parameter) :
    r.Follows (ps.map .parameter) (ps.mapM r.rename) fun parts' ps' =>
      List.Forall₂ Any ps ps' ∧ ps'.map .parameter = parts' :=
  follows_list .rename ps

/-! ### Traversals -/

theorem follows_switchCase (c : SwitchCase) :
    r.Follows ((c.tests ++ [c.body]).map .child) (c.traverse r.expression) fun parts' c' =>
      c.Alike Any c' ∧ (c'.tests ++ [c'.body]).map .child = parts' := by
  rw [List.map_append]
  refine (follows_children c.tests).bind ?_
  rintro _ tests ⟨first, rfl⟩
  refine .child fun body => .pure ⟨⟨first, trivial⟩, ?_⟩
  rw [List.map_append]
  rfl

theorem follows_handler (h : Handler) :
    r.Follows h.parts (h.traverse r.expression r.rename) fun parts' h' =>
      h.Alike Any Any h' ∧ h'.parts = parts' := by
  rw [Handler.parts, List.map_append]
  refine (follows_option .rename h.caught).bind ?_
  rintro _ caught ⟨first, rfl⟩
  refine (follows_optional h.filter).bind ?_
  rintro _ filter ⟨second, rfl⟩
  refine .child fun body => .pure ⟨⟨rfl, first, second, trivial⟩, ?_⟩
  rw [Handler.parts, List.map_append]
  rfl

theorem follows_elementInit (i : ElementInit) :
    r.Follows (i.arguments.map .child) (i.traverse r.expression) fun parts' i' =>
      i.Alike Any i' ∧ i'.arguments.map .child = parts' := by
  refine (follows_children i.arguments).map ?_
  rintro _ arguments ⟨related, rfl⟩
  exact ⟨⟨rfl, related⟩, rfl⟩

theorem follows_elementInits (is : List ElementInit) :
    r.Follows ((is.flatMap ElementInit.arguments).map .child)
      (is.mapM (ElementInit.traverse r.expression)) fun parts' is' =>
        List.Forall₂ (ElementInit.Alike Any) is is' ∧
          (is'.flatMap ElementInit.arguments).map .child = parts' := by
  simp only [List.map_flatMap]
  exact .mapM follows_elementInit is

mutual

theorem follows_binding : (b : Binding) →
    r.Follows (b.children.map .child) (b.traverse r.expression) fun parts' b' =>
      b.Alike Any b' ∧ b'.children.map .child = parts'
  | .assignment filled value => by
      simp only [Binding.traverse, Binding.children]
      exact .child fun value' => .pure ⟨.assignment trivial, by simp [Binding.children]⟩
  | .elements filled initializers => by
      simp only [Binding.traverse, Binding.children]
      refine (follows_elementInits initializers).map ?_
      rintro _ is ⟨related, rfl⟩
      exact ⟨.elements related, by simp only [Binding.children]⟩
  | .members filled nested => by
      simp only [Binding.traverse, Binding.children]
      refine (follows_bindings nested).map ?_
      rintro _ bs ⟨related, rfl⟩
      exact ⟨.members related, by simp only [Binding.children]⟩

theorem follows_bindings : (bs : List Binding) →
    r.Follows ((Binding.childrenList bs).map .child) (Binding.traverseList r.expression bs)
      fun parts' bs' => List.Forall₂ (Binding.Alike Any) bs bs' ∧
        (Binding.childrenList bs').map .child = parts'
  | [] => by
      simp only [Binding.traverseList, Binding.childrenList]
      exact .pure ⟨.nil, by simp [Binding.childrenList]⟩
  | b :: bs => by
      simp only [Binding.traverseList, Binding.childrenList, List.map_append]
      refine (follows_binding b).bind ?_
      rintro _ b' ⟨first, rfl⟩
      refine (follows_bindings bs).map ?_
      rintro _ bs' ⟨others, rfl⟩
      exact ⟨.cons first others, by simp only [Binding.childrenList, List.map_append]⟩

end

/-- A traversal rewrites the parts of a node and gives a node with the same data around the
results. -/
theorem follows_traverse (n : Node) :
    r.Follows n.parts (n.traverse r.expression r.rename) fun parts' n' =>
      n.Alike Any Any n' ∧ n'.parts = parts' := by
  -- The rules are applied as the traversal binds. The parts are a list of the shape that the rules
  -- ask for, except in the last three cases, where an equation brings them into it.
  cases n with
  | constant => exact .pure ⟨.constant, rfl⟩
  | default => exact .pure ⟨.default, rfl⟩
  | parameter => exact .parameter fun p' => .pure ⟨.parameter trivial, rfl⟩
  | lambda l =>
      refine (follows_parameters l.parameters).bind ?_
      rintro _ parameters ⟨bound, rfl⟩
      exact .child fun body => .pure ⟨.lambda ⟨rfl, bound, trivial, rfl⟩, rfl⟩
  | unary => exact .child fun _ => .pure ⟨.unary trivial, rfl⟩
  | typeTest => exact .child fun _ => .pure ⟨.typeTest trivial, rfl⟩
  | loop => exact .child fun _ => .pure ⟨.loop trivial, rfl⟩
  | binary => exact .child fun _ => .child fun _ => .pure ⟨.binary trivial trivial, rfl⟩
  | whileLoop => exact .child fun _ => .child fun _ => .pure ⟨.whileLoop trivial trivial, rfl⟩
  | doWhile => exact .child fun _ => .child fun _ => .pure ⟨.doWhile trivial trivial, rfl⟩
  | usingBlock => exact .child fun _ => .child fun _ => .pure ⟨.usingBlock trivial trivial, rfl⟩
  | forEach =>
      refine .parameter fun _ => .child fun _ => .child fun _ => .pure ?_
      exact ⟨.forEach trivial trivial trivial, rfl⟩
  | forLoop =>
      refine .parameter fun _ => .child fun _ => .child fun _ => .child fun _ => .child fun _ => ?_
      exact .pure ⟨.forLoop trivial trivial trivial trivial trivial, rfl⟩
  | block locals statements =>
      refine (follows_parameters locals).bind ?_
      rintro _ locals' ⟨bound, rfl⟩
      refine (follows_children statements).map ?_
      rintro _ statements' ⟨related, rfl⟩
      exact ⟨.block bound related, rfl⟩
  | create t arguments =>
      refine (follows_children arguments).map ?_
      rintro _ arguments' ⟨related, rfl⟩
      exact ⟨.create related, rfl⟩
  | newArray form t items =>
      refine (follows_children items).map ?_
      rintro _ items' ⟨related, rfl⟩
      exact ⟨.newArray related, rfl⟩
  | jump kind target value =>
      refine (follows_optional value).map ?_
      rintro _ value' ⟨related, rfl⟩
      exact ⟨.jump related, rfl⟩
  | label target fallback =>
      refine (follows_optional fallback).map ?_
      rintro _ fallback' ⟨related, rfl⟩
      exact ⟨.label related, rfl⟩
  | member target accessed =>
      refine (follows_optional target).map ?_
      rintro _ target' ⟨related, rfl⟩
      exact ⟨.member related, rfl⟩
  | conditional test ifTrue ifFalse =>
      refine .child fun _ => .child fun _ => (follows_optional ifFalse).map ?_
      rintro _ ifFalse' ⟨related, rfl⟩
      exact ⟨.conditional trivial trivial related, rfl⟩
  | invocation target arguments =>
      refine .child fun _ => (follows_children arguments).map ?_
      rintro _ arguments' ⟨related, rfl⟩
      exact ⟨.invocation trivial related, rfl⟩
  | index target arguments =>
      refine .child fun _ => (follows_children arguments).map ?_
      rintro _ arguments' ⟨related, rfl⟩
      exact ⟨.index trivial related, rfl⟩
  | listInit created initializers =>
      refine .child fun _ => (follows_elementInits initializers).map ?_
      rintro _ initializers' ⟨related, rfl⟩
      exact ⟨.listInit trivial related, rfl⟩
  | memberInit created bindings =>
      refine .child fun _ => (follows_bindings bindings).map ?_
      rintro _ bindings' ⟨related, rfl⟩
      exact ⟨.memberInit trivial related, rfl⟩
  | call target method arguments =>
      rw [Node.parts_call]
      refine (follows_optional target).bind ?_
      rintro _ target' ⟨first, rfl⟩
      refine (follows_children arguments).map ?_
      rintro _ arguments' ⟨second, rfl⟩
      exact ⟨.call first second, Node.parts_call⟩
  | switch value cases fallback =>
      rw [Node.parts_switch]
      refine .child fun value' => (Follows.mapM follows_switchCase cases).bind ?_
      rintro _ cases' ⟨first, rfl⟩
      refine (follows_optional fallback).map ?_
      rintro _ fallback' ⟨second, rfl⟩
      exact ⟨.switch trivial first second, Node.parts_switch⟩
  | attempt body handlers fault finalizer =>
      rw [Node.parts_attempt]
      refine .child fun body' => (Follows.mapM follows_handler handlers).bind ?_
      rintro _ handlers' ⟨first, rfl⟩
      refine (follows_optional fault).bind ?_
      rintro _ fault' ⟨second, rfl⟩
      refine (follows_optional finalizer).map ?_
      rintro _ finalizer' ⟨third, rfl⟩
      exact ⟨.attempt trivial first second third, Node.parts_attempt⟩

/-! ### One step of a pass -/

theorem part_eq_error {p : Part} {s : σ} {k : Supply} {f : BuildError}
    (failed : r.part p s k = .error f) : ∃ c, p = .child c ∧ r.expression c s k = .error f := by
  cases p with
  | child c =>
      rcases bind_eq_error.mp failed with refused | ⟨_, _, impossible⟩
      · exact ⟨c, rfl, refused⟩
      · cases impossible
  | parameter => cases failed

/-- If the rewriting of parts fails, then that of a child fails when all before it is rewritten. -/
theorem all_eq_error {s : σ} {k : Supply} {f : BuildError} (failed : r.all parts s k = .error f) :
    ∃ before c after before' s' k', parts = before ++ .child c :: after ∧
      r.all before s k = .ok ((before', s'), k') ∧ r.expression c s' k' = .error f := by
  induction parts generalizing s k with
  | nil => cases failed
  | cons p parts ih =>
      rw [all_cons] at failed
      -- Either the first part is refused, or it is the first of those that were rewritten.
      rcases bind_eq_error.mp failed with first | ⟨⟨⟨p', t⟩, m⟩, first, failed⟩
      · obtain ⟨c, rfl, refused⟩ := part_eq_error first
        exact ⟨[], c, parts, [], s, k, rfl, rfl, refused⟩
      · rcases bind_eq_error.mp failed with rest | ⟨_, _, impossible⟩
        · obtain ⟨before, c, after, before', s', k', rfl, ended, refused⟩ := ih rest
          refine ⟨p :: before, c, after, p' :: before', s', k', rfl, ?_, refused⟩
          rw [all_cons, bind_run, first]
          change (r.all before t m >>= _) = _
          rw [ended]
          rfl
        · cases impossible

/-- If a part is refused, so is the node. -/
theorem walk_of_error {e : Expr} {s : σ} {k : Supply} {f : BuildError}
    (failed : r.all e.node.parts s k = .error f) : r.walk e s k = .error f := by
  have ended := follows_traverse (r := r) e.node s k
  rw [walk, Expr.walk, bind_run]
  rw [failed] at ended
  generalize e.node.traverse r.expression r.rename s k = run at ended ⊢
  cases ended
  rfl

/-- When the parts are rewritten, the node is kept if none has changed, and otherwise built anew. -/
theorem walk_of_ok {e : Expr} {s s' : σ} {k k' : Supply} {parts' : List Part}
    (ended : r.all e.node.parts s k = .ok ((parts', s'), k')) :
    ∃ n, e.node.Alike Any Any n ∧ n.parts = parts' ∧ r.walk e s k =
      if Part.unchanged e.node.parts parts' then .ok ((e, s'), k')
      else (n.renewed k').map fun made => ((made.1, s'), made.2) := by
  have follows := follows_traverse (r := r) e.node s k
  rw [ended] at follows
  rw [walk, Expr.walk, bind_run]
  generalize e.node.traverse r.expression r.rename s k = run at follows ⊢
  cases follows with
  | @ok _ n _ _ given =>
      refine ⟨n, given.1, given.2, ?_⟩
      rw [← given.2, ← Node.sameParts_eq]
      change (if n.sameParts e.node then pure e else liftM n.renewed : StateT σ Build Expr) s' k' =
        _
      split
      · rfl
      · change (n.renewed k' >>= _) = _
        cases n.renewed k' <;> rfl

/-- What becomes of a node when its parts are rewritten. The data stay; the node itself stays if no
part has changed, and otherwise a new node has the rewritten parts and, if it is derived, passes the
checks. -/
structure Rebuilds (e : Expr) (parts' : List Part) (m : Supply) (e' : Expr) (k' : Supply) :
    Prop where
  alike : e.node.Alike Any Any e'.node
  kept : Part.unchanged e.node.parts parts' = true → e' = e ∧ k' = m
  renewed : Part.unchanged e.node.parts parts' = false →
    e'.children = parts'.filterMap Part.child? ∧
    e'.node.parameters = parts'.filterMap Part.parameter? ∧
    (e.isDerived = true → e'.node.check = .ok ()) ∧ e'.id = m ∧ k' = m + 1

theorem rebuilds_self {e : Expr} {parts' : List Part} {m : Supply}
    (same : Part.unchanged e.node.parts parts' = true) : Rebuilds e parts' m e m where
  alike := Node.alike_of_mem (fun _ _ => trivial) fun _ _ => trivial
  kept _ := ⟨rfl, rfl⟩
  renewed changed := by
    rw [same] at changed
    cases changed

theorem rebuilds_of_renewed {e e' : Expr} {n : Node} {m k' : Supply}
    (alike : e.node.Alike Any Any n) (changed : Part.unchanged e.node.parts n.parts = false)
    (made : n.renewed m = .ok (e', k')) : Rebuilds e n.parts m e' k' := by
  obtain ⟨passed, rfl, rfl⟩ := Node.of_renewed_eq_ok made
  refine ⟨alike, fun same => ?_, fun _ => ?_⟩
  · rw [changed] at same
    cases same
  · refine ⟨n.filterMap_child?_parts.symm, n.filterMap_parameter?_parts.symm, ?_, rfl, rfl⟩
    intro derived
    exact passed (alike.kind_eq ▸ derived)

theorem walk_eq_ok {e e' : Expr} {s s' : σ} {k k' : Supply}
    (walked : r.walk e s k = .ok ((e', s'), k')) :
    ∃ parts' m, r.all e.node.parts s k = .ok ((parts', s'), m) ∧ Rebuilds e parts' m e' k' := by
  cases run : r.all e.node.parts s k with
  | error f =>
      rw [walk_of_error run] at walked
      cases walked
  | ok ended =>
      obtain ⟨⟨parts', t⟩, m⟩ := ended
      obtain ⟨n, alike, rfl, step⟩ := walk_of_ok run
      rw [step] at walked
      split at walked
      · next same =>
          cases walked
          exact ⟨_, _, rfl, rebuilds_self same⟩
      · next changed =>
          cases made : n.renewed m with
          | error f =>
              rw [made] at walked
              cases walked
          | ok result =>
              rw [made] at walked
              cases walked
              exact ⟨_, _, rfl, rebuilds_of_renewed alike (Bool.eq_false_iff.mpr changed) made⟩

theorem walk_of_unchanged {e : Expr} {s s' : σ} {k m : Supply} {parts' : List Part}
    (run : r.all e.node.parts s k = .ok ((parts', s'), m))
    (same : Part.unchanged e.node.parts parts' = true) : r.walk e s k = .ok ((e, s'), m) := by
  obtain ⟨n, -, -, step⟩ := walk_of_ok run
  rw [step, if_pos same]

theorem walk_eq_error {e : Expr} {s : σ} {k : Supply} {f : BuildError}
    (failed : r.walk e s k = .error f) :
    r.all e.node.parts s k = .error f ∨
      (e.isDerived = true ∧ ∃ n s' m, r.all e.node.parts s k = .ok ((n.parts, s'), m) ∧
        Part.unchanged e.node.parts n.parts = false ∧ e.node.Alike Any Any n ∧
        n.check = .error f) := by
  cases run : r.all e.node.parts s k with
  | error f' =>
      rw [walk_of_error run] at failed
      cases failed
      exact .inl rfl
  | ok ended =>
      obtain ⟨⟨parts', s'⟩, m⟩ := ended
      obtain ⟨n, alike, rfl, step⟩ := walk_of_ok run
      rw [step] at failed
      split at failed
      · cases failed
      · next changed =>
          cases made : n.renewed m with
          | error f' =>
              rw [made] at failed
              cases failed
              obtain ⟨derived, refused⟩ := Node.of_renewed_eq_error made
              rw [← alike.kind_eq] at derived
              exact .inr ⟨derived, n, s', m, rfl, Bool.eq_false_iff.mpr changed, alike, refused⟩
          | ok result =>
              rw [made] at failed
              cases failed

end Rewriter

open Rewriter in
/-- One step of a pass at a node, for any rewriter. A step that succeeds has rewritten the parts of
the node, which are its children and its parameters, each once and in order, and gives the node that
has the results for parts. It fails only if the rewriting of a child fails, or if the node is
derived and what it is rewritten to does not pass the checks. -/
theorem walk_rewrites_each_part_once {σ : Type} (r : Rewriter σ) (e : Expr) (s : σ) (k : Supply) :
    e.node.parts.filterMap Part.child? = e.children ∧
    e.node.parts.filterMap Part.parameter? = e.node.parameters ∧
    (∀ e' s' k', r.walk e s k = .ok ((e', s'), k') →
      ∃ parts' m, r.all e.node.parts s k = .ok ((parts', s'), m) ∧ Rebuilds e parts' m e' k') ∧
    (∀ parts' s' m, r.all e.node.parts s k = .ok ((parts', s'), m) →
      Part.unchanged e.node.parts parts' = true → r.walk e s k = .ok ((e, s'), m)) ∧
    (∀ f, r.walk e s k = .error f →
      (∃ before c after before' s' m, e.node.parts = before ++ .child c :: after ∧
        r.all before s k = .ok ((before', s'), m) ∧ r.expression c s' m = .error f) ∨
      (e.isDerived = true ∧ ∃ n s' m, r.all e.node.parts s k = .ok ((n.parts, s'), m) ∧
        Part.unchanged e.node.parts n.parts = false ∧ e.node.Alike Any Any n ∧
        n.check = .error f)) := by
  refine ⟨e.node.filterMap_child?_parts, e.node.filterMap_parameter?_parts, ?_, ?_, ?_⟩
  · intro e' s' k' walked
    exact walk_eq_ok walked
  · intro parts' s' m run same
    exact walk_of_unchanged run same
  · intro f failed
    exact (walk_eq_error failed).imp_left all_eq_error

/-! `try { 1; } catch (Exception x) { x; }` and `while (true) 1;`. -/

namespace RewrittenParts

def x : Parameter := ⟨0, some "x", .exception⟩

def one : Expr := ⟨1, .constant (.int32 1) .int32⟩

def caught : Expr := ⟨2, .parameter x⟩

def guarded : Expr := ⟨3, .attempt one [⟨.exception, some x, none, caught⟩] none none⟩

def endless : Expr := ⟨5, .whileLoop ⟨4, .constant (.boolean true) .boolean⟩ one none none⟩

/-- Notes what it is asked for, keeps every expression and makes a new parameter of each. -/
def noting : Rewriter (List Identity) where
  expression e := fun asked => return (e, asked ++ [e.id])
  parameter p := fun asked k => ((⟨k, p.name, p.type⟩, asked ++ [p.id]), k + 1)

/-- Puts a number in the place of every expression. -/
def numbering : Rewriter Unit where
  expression _ := pure one
  parameter := pure

theorem handler_after_its_variable :
    (∃ e', noting.walk guarded [] 6 = .ok ((e', [1, 0, 2]), 8) ∧ e'.children = [one, caught] ∧
      e'.node.parameters = [⟨6, some "x", .exception⟩] ∧ e'.id = 7) ∧
    noting.walk endless [] 6 = .ok ((endless, [4, 1]), 6) ∧
    ∃ n, endless.node.Alike Rewriter.Any Rewriter.Any n ∧
      numbering.walk endless () 6 = .error (.notBoolean .loop .int32) ∧
      n.check = .error (.notBoolean .loop .int32) := by
  refine ⟨⟨_, rfl, ?_⟩, ?_, ?_⟩
  · obtain ⟨parts', m, run, rebuilt⟩ :=
      (walk_rewrites_each_part_once noting guarded [] 6).2.2.1 _ _ _ rfl
    cases run
    obtain ⟨children, parameters, -, id, -⟩ := rebuilt.renewed rfl
    exact ⟨children, parameters, id⟩
  · exact (walk_rewrites_each_part_once noting endless [] 6).2.2.2.1 _ _ _ rfl rfl
  · rcases (walk_rewrites_each_part_once numbering endless () 6).2.2.2.2 _ rfl with
      ⟨_, _, _, _, _, _, -, -, refused⟩ | ⟨-, n, _, _, -, -, alike, refused⟩
    · cases refused
    · exact ⟨n, alike, rfl, refused⟩

end RewrittenParts

end ExprTree
