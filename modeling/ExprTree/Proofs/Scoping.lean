import ExprTree.Proofs.Assigned
import ExprTree.Proofs.Congruence

/-!
Scoping: what evaluation leaves of the variables in scope.

However an evaluation ends, the variables that were in scope before are in scope again, and all but
those that the tree assigns have the values that they had (`keepsBut_run`). Blocks and handlers put
back what they hide, whichever way they are left. So an interpreter that starts without variables
has none after any number of calls.
-/

namespace ExprTree

/-- The same variables are in scope, and all but these have the same values. -/
structure Scope.KeptBut (ids : List Identity) (before after : Scope) : Prop where
  bound : ∀ id, (after.find? id).isSome = (before.find? id).isSome
  value : ∀ id, id ∉ ids → after.find? id = before.find? id

namespace Scope

theorem KeptBut.refl (ids : List Identity) (scope : Scope) : KeptBut ids scope scope :=
  ⟨fun _ => rfl, fun _ _ => rfl⟩

theorem KeptBut.trans {ids : List Identity} {a b c : Scope} (first : KeptBut ids a b)
    (second : KeptBut ids b c) : KeptBut ids a c where
  bound := fun id => (second.bound id).trans (first.bound id)
  value := fun id other => (second.value id other).trans (first.value id other)

theorem KeptBut.subset {ids ids' : List Identity} {a b : Scope} (kept : KeptBut ids a b)
    (subset : ids ⊆ ids') : KeptBut ids' a b where
  bound := kept.bound
  value := fun id other => kept.value id fun mem => other (subset mem)

/-- A variable that is put back afterwards does not count. -/
theorem KeptBut.restore {ids ids' : List Identity} {scope after : Scope} {id : Identity} {v : Value}
    (kept : KeptBut ids (scope.insert id v) after) (within : ∀ x ∈ ids, x = id ∨ x ∈ ids') :
    KeptBut ids' scope (after.restore id (scope.find? id)) := by
  constructor
  · intro x
    rw [find?_restore]
    by_cases same : x = id
    · rw [if_pos same, same]
    · rw [if_neg same, kept.bound x, find?_insert, if_neg same]
  · intro x other
    rw [find?_restore]
    by_cases same : x = id
    · rw [if_pos same, same]
    · have notIn : x ∉ ids := fun mem => (within x mem).elim same other
      rw [if_neg same, kept.value x notIn, find?_insert, if_neg same]

/-- A scope in which no variable is bound is empty. -/
theorem eq_nil_of_unbound {scope : Scope} (unbound : ∀ id, scope.find? id = none) :
    scope = [] := by
  cases scope with
  | nil => rfl
  | cons b rest =>
      have found := unbound b.1
      simp [find?] at found

theorem KeptBut.eq_nil {ids : List Identity} {after : Scope} (kept : KeptBut ids [] after) :
    after = [] := by
  apply eq_nil_of_unbound
  intro id
  have same := kept.bound id
  rw [show find? [] id = none from rfl, Option.isSome_none] at same
  exact Option.isNone_iff_eq_none.mp (by simpa using same)

end Scope

namespace Eval

variable {α β : Type} {ids ids' : List Identity}

/-- However the computation ends, it leaves the scope as it was but for these variables. -/
def KeepsBut (ids : List Identity) (x : Eval α) : Prop :=
  ∀ s o s', x s = some (o, s') → Scope.KeptBut ids s.frame.scope s'.frame.scope

theorem Steady.keepsBut {x : Eval α} (steady : Steady x) (ids : List Identity) :
    KeepsBut ids x := by
  intro s o s' ended
  rw [(steady _ _ _ ended).1]
  exact .refl ids _

theorem KeepsBut.bind_of_gives {Q : α → Prop} {x : Eval α} {f : α → Eval β}
    (first : KeepsBut ids x) (gives : Gives Q x) (rest : ∀ a, Q a → KeepsBut ids (f a)) :
    KeepsBut ids (x >>= f) := by
  intro s o s' ended
  rcases bind_eq_some.mp ended with ⟨a, m, h, h'⟩ | ⟨o', h, -⟩
  · exact (first _ _ _ h).trans (rest a (gives _ _ _ h) _ _ _ h')
  · exact first _ _ _ h

theorem KeepsBut.bind {x : Eval α} {f : α → Eval β} (first : KeepsBut ids x)
    (rest : ∀ a, KeepsBut ids (f a)) : KeepsBut ids (x >>= f) :=
  first.bind_of_gives (.trivial x) fun a _ => rest a

theorem KeepsBut.subset {x : Eval α} (keeps : KeepsBut ids x) (subset : ids ⊆ ids') :
    KeepsBut ids' x :=
  fun _ _ _ ended => (keeps _ _ _ ended).subset subset

theorem KeepsBut.settle {x : Eval α} (keeps : KeepsBut ids x) : KeepsBut ids x.settle := by
  intro s o s' ended
  obtain ⟨⟨o', m⟩, h, made⟩ := Option.map_eq_some_iff.mp ended
  cases made
  exact keeps _ _ _ h

theorem KeepsBut.concluded {x : Eval α} (keeps : KeepsBut ids x) : KeepsBut ids x.concluded := by
  intro s o s' ended
  obtain ⟨⟨o', m⟩, h, made⟩ := Option.map_eq_some_iff.mp ended
  cases made
  exact keeps _ _ _ h

theorem KeepsBut.jump (target : Label) (v : Value) : KeepsBut ids (jump target v : Eval α) := by
  rintro s o s' ⟨⟩
  exact .refl ids _

theorem KeepsBut.outOfFuel : KeepsBut ids (outOfFuel : Eval α) := by
  rintro s o s' ⟨⟩

theorem KeepsBut.assign {p : Parameter} (mem : p.id ∈ ids) (v : Value) :
    KeepsBut ids (assign p v) := by
  intro s o s' ended
  unfold Eval.assign at ended
  split at ended
  case h_1 old found =>
      cases ended
      constructor
      · intro id
        simp only [setScope, Scope.find?_insert]
        by_cases same : id = p.id
        · rw [if_pos same, same, found, Option.isSome_some, Option.isSome_some]
        · rw [if_neg same]
      · intro id other
        simp only [setScope, Scope.find?_insert]
        rw [if_neg]
        rintro rfl
        exact other mem
  case h_2 =>
      cases ended
      exact .refl ids _

/-- A variable that a computation runs with is put back, so it does not count. -/
theorem KeepsBut.withVariable {p : Parameter} {x : Eval α} (keeps : KeepsBut ids x)
    (within : ∀ id ∈ ids, id = p.id ∨ id ∈ ids') (v : Value) :
    KeepsBut ids' (withVariable p v x) := by
  intro s o s' ended
  obtain ⟨⟨o', m⟩, h, made⟩ := Option.map_eq_some_iff.mp ended
  cases made
  exact (keeps _ _ _ h).restore within

theorem KeepsBut.withVariables {bound : List (Parameter × Value)} {x : Eval α}
    (keeps : KeepsBut ids x) (within : ∀ id ∈ ids, (∃ b ∈ bound, b.1.id = id) ∨ id ∈ ids') :
    KeepsBut ids' (withVariables bound x) := by
  induction bound generalizing ids' with
  | nil =>
      apply keeps.subset
      intro id mem
      simpa using within id mem
  | cons b rest ih =>
      have inner : KeepsBut (b.1.id :: ids') (Eval.withVariables rest x) := by
        apply ih
        intro id mem
        rcases within id mem with ⟨b', inside, same⟩ | mem
        · rcases List.mem_cons.mp inside with rfl | inside
          · exact .inr (by simp [same])
          · exact .inl ⟨b', inside, same⟩
        · exact .inr (List.mem_cons_of_mem _ mem)
      exact inner.withVariable (fun id mem => List.mem_cons.mp mem) b.2

/-! ### Nodes -/

theorem compatible_keepsBut (ids : List Identity) :
    Compatible fun α (x : Unit → Eval α) => KeepsBut ids (x ()) where
  steady := fun steady => steady.keepsBut ids
  bind := fun first rest => first.bind rest

theorem controlRules_keepsBut (host : Host) (ids : List Identity) :
    ControlRules host .nothing fun α Q (x : Unit → Eval α) =>
      KeepsBut ids (x ()) ∧ ∀ i, Gives Q (x i) :=
  (compatible_keepsBut ids).controlRules host (fun _ _ => .jump _ _) .outOfFuel fun first =>
    first.settle

theorem KeepsBut.known {x : Eval Value} (keeps : KeepsBut ids x) :
    KeepsBut ids x ∧ ∀ _ : Unit, Gives Knowledge.nothing.Clear x :=
  ⟨keeps, fun _ _ v _ _ => Knowledge.clear_nothing v⟩

theorem declares_of_isPlain {kind : Kind} (plain : kind.isPlain = true) :
    kind.declares = false := by
  cases kind with
  | lambda | block | attempt | forLoop | forEach => cases plain
  | _ => rfl

variable {run : Expr → Eval Value}

/-- Storing changes the variable that is stored to, and what the parts of its target assign. -/
theorem KeepsBut.store (host : Host) {target : Expr} (parts : ∀ e, KeepsBut e.assigned (run e))
    (within : target.assigned ⊆ ids) (stored : ∀ x, target.local? = some x → x ∈ ids)
    (v : Value) : KeepsBut ids (store host run target v) := by
  let once : Unit → Expr → Eval Value := fun _ => run
  apply @Compatible.store Unit _ once host target (compatible_keepsBut ids)
  · intro e mem
    refine (parts e).subset (List.Subset.trans ?_ within)
    obtain ⟨id, node⟩ := target
    cases node with
    | member receiver m =>
        cases receiver with
        | none => cases mem
        | some receiver => exact Expr.assigned_subset_of_child rfl mem
    | binary op left right =>
        cases op with
        | arrayIndex => exact Expr.assigned_subset_of_child rfl mem
        | _ => cases mem
    | index receiver arguments => exact Expr.assigned_subset_of_child rfl mem
    | _ => cases mem
  · intro l frame arguments
    exact (Steady.applyWith run l frame arguments).keepsBut ids
  · intro p v reads
    apply KeepsBut.assign
    apply stored
    simp only [Expr.local?, reads]

/-- A handler changes what its filter and its body assign, but for the variable that holds the
exception. -/
theorem KeepsBut.tryHandler {h : Handler}
    (parts : ∀ e ∈ h.filter.toList ++ [h.body], KeepsBut ids (run e))
    (within : ∀ id ∈ ids, (∃ p ∈ h.caught.toList, p.id = id) ∨ id ∈ ids') (exception : Value) :
    KeepsBut ids' (tryHandler run h exception) := by
  have handled : KeepsBut ids (Eval.handled run h) :=
    let once : Unit → Expr → Eval Value := fun _ => run
    (@ControlRules.handled Unit .absent _ _ once h (controlRules_keepsBut .absent ids)
      fun e mem => KeepsBut.known (parts e mem)).1
  cases caught : h.caught with
  | none =>
      rw [tryHandler_of_none run caught]
      apply handled.subset
      intro id mem
      simpa [caught] using within id mem
  | some p =>
      rw [tryHandler_of_caught run caught]
      apply handled.withVariable
      intro id mem
      simpa [caught, eq_comm] using within id mem

/-- If every tree leaves the scope as it was but for what it assigns, so does a node that evaluates
trees. -/
theorem KeepsBut.runNode (host : Host) (parts : ∀ e, KeepsBut e.assigned (run e)) (fuel : Nat)
    (e : Expr) : KeepsBut e.assigned (runNode host run fuel e) := by
  let once : Unit → Expr → Eval Value := fun _ => run
  cases plain : e.kind.isPlain with
  | true =>
      have child (c : Expr) (mem : c ∈ e.children) : c.assigned ⊆ e.assigned :=
        Expr.assigned_subset_of_child (declares_of_isPlain plain) mem
      refine @Compatible.runNode Unit _ once host e (compatible_keepsBut _) plain ?_ ?_ ?_
        fun _ => fuel
      · intro c mem
        exact (parts c).subset (child c mem)
      · intro l frame arguments
        exact (Steady.applyWith run l frame arguments).keepsBut _
      · intro target mem v
        apply KeepsBut.store host parts (child target (e.node.stored_subset mem))
        intro x reads
        exact (Expr.mem_assigned_of_node rfl).mpr (.inl ⟨target, mem, reads⟩)
  | false =>
      obtain ⟨id, node⟩ := e
      cases node with
      | lambda l => exact (Steady.newClosure l).keepsBut _
      | block locals statements type =>
          have inside : KeepsBut (statements.flatMap Expr.assigned)
              (runStatements run statements fuel statements .void) := by
            refine (@ControlRules.runStatements Unit host _ _ once statements
              (controlRules_keepsBut host _) (fun c mem => KeepsBut.known ?_) fuel _
              (List.Subset.refl _) _ (Knowledge.clear_nothing .void)).1
            exact (parts c).subset fun x mem' => List.mem_flatMap.mpr ⟨c, mem, mem'⟩
          refine .bind (inside.withVariables fun x mem => ?_) fun v => (Steady.pure _).keepsBut _
          obtain ⟨c, within, mem⟩ := List.mem_flatMap.mp mem
          by_cases declared : ∃ p ∈ locals, p.id = x
          · obtain ⟨p, local', same⟩ := declared
            exact .inl ⟨(p, .defaultOf p.type), List.mem_map.mpr ⟨p, local', rfl⟩, same⟩
          · refine .inr ((Lowering.mem_assigned_of_block rfl).mpr ⟨⟨c, within, mem⟩, ?_⟩)
            intro p local' same
            exact declared ⟨p, local', same⟩
      | loop body breakTo continueTo =>
          refine (@ControlRules.runLoop Unit host _ _ once body (controlRules_keepsBut host _)
            (KeepsBut.known ?_) breakTo continueTo fuel).1
          exact (parts body).subset (Expr.assigned_subset_of_child rfl List.mem_cons_self)
      | jump kind target value =>
          cases value with
          | none => exact .jump target .void
          | some value =>
              refine .bind ((parts value).subset ?_) fun v => .jump target v
              exact Expr.assigned_subset_of_child rfl List.mem_cons_self
      | attempt body handlers fault finalizer =>
          have part (bound : List Parameter) (c : Expr)
              (mem : (bound, c) ∈ (Node.attempt body handlers fault finalizer).openParts)
              (x : Identity) (assigns : x ∈ c.assigned) : (∃ p ∈ bound, p.id = x) ∨
                x ∈ Expr.assigned ⟨id, .attempt body handlers fault finalizer⟩ := by
            by_cases declared : ∃ p ∈ bound, p.id = x
            · exact .inl declared
            · refine .inr ((Expr.mem_assigned_of_node rfl).mpr (.inr ⟨_, mem, assigns, ?_⟩))
              intro p inside same
              exact declared ⟨p, inside, same⟩
          have outside (c : Expr)
              (mem : ([], c) ∈ (Node.attempt body handlers fault finalizer).openParts) :
              KeepsBut (Expr.assigned ⟨id, .attempt body handlers fault finalizer⟩) (run c) := by
            apply (parts c).subset
            intro x assigns
            simpa using part [] c mem x assigns
          refine (@ControlRules.runAttempt Unit host _ _ once body handlers fault finalizer
            (controlRules_keepsBut host _) (KeepsBut.known (outside body ?_))
            (fun h mem exception _ => ⟨?_, fun _ _ _ _ _ o _ => Knowledge.ends_nothing o⟩)
            (fun c mem => KeepsBut.known (outside c ?_))
            fun c mem => KeepsBut.known (outside c ?_)).1
          · exact List.mem_cons_self
          · have handling (c : Expr) (inside : c ∈ h.filter.toList ++ [h.body]) :
                KeepsBut ((h.filter.toList ++ [h.body]).flatMap Expr.assigned) (run c) :=
              (parts c).subset fun x assigns => List.mem_flatMap.mpr ⟨c, inside, assigns⟩
            apply KeepsBut.tryHandler handling
            intro x mem'
            obtain ⟨c, inside, assigns⟩ := List.mem_flatMap.mp mem'
            refine part _ c ?_ x assigns
            refine List.mem_append_left _ (.tail _ (List.mem_flatMap.mpr ⟨h, mem, ?_⟩))
            exact List.mem_map.mpr ⟨c, inside, rfl⟩
          · refine List.mem_append_right _ (List.mem_map.mpr ⟨c, ?_, rfl⟩)
            exact List.mem_append_left _ mem
          · refine List.mem_append_right _ (List.mem_map.mpr ⟨c, ?_, rfl⟩)
            exact List.mem_append_right _ mem
      | forLoop | forEach | whileLoop | doWhile | usingBlock =>
          refine .bind_of_gives ((Steady.build _).keepsBut _) (.build _) ?_
          rintro e' ⟨k, k', ok⟩
          apply (parts e').subset
          apply Expr.assigned_subset_of_reduce _ ok
          intro c _ c' lowers
          exact Expr.assigned_subset_of_lowersTo lowers
      | _ => cases plain

/-- An evaluation leaves the scope as it was but for what the tree assigns. -/
theorem keepsBut_run (host : Host) (n : Nat) (e : Expr) :
    KeepsBut e.assigned (Eval.run host n e) := by
  induction n generalizing e with
  | zero => exact .outOfFuel
  | succ n ih => exact .runNode host ih n e

/-- A call of a lambda leaves the scope as it was but for what its body assigns beside the
parameters. -/
theorem keepsBut_invoke (host : Host) (n : Nat) (l : Lambda) (arguments : List Value) :
    KeepsBut (Parameter.without l.parameters l.body.assigned) (l.invoke host n arguments) := by
  unfold Lambda.invoke invokeWith
  split
  · exact (Steady.fail _).keepsBut _
  case isFalse count =>
      refine .bind_of_gives ((Steady.build _).keepsBut _) (.build _) ?_
      rintro body ⟨k, k', ok⟩
      refine KeepsBut.concluded (((keepsBut_run host n body).subset
        (Expr.assigned_subset_of_lowersTo ⟨k, k', ok⟩)).withVariables fun x mem => ?_)
      by_cases bound : ∃ p ∈ l.parameters, p.id = x
      · obtain ⟨p, inside, same⟩ := bound
        have first : p ∈ (l.parameters.zip arguments).map Prod.fst := by
          rwa [List.map_fst_zip (by omega)]
        obtain ⟨b, zipped, rfl⟩ := List.mem_map.mp first
        exact .inl ⟨b, zipped, same⟩
      · refine .inr (Parameter.mem_without.mpr ⟨mem, ?_⟩)
        intro p inside same
        exact bound ⟨p, inside, same⟩

theorem keepsBut_evaluate (host : Host) (n : Nat) (e : Expr) :
    KeepsBut e.assigned (e.evaluate host n) := by
  refine .bind_of_gives ((Steady.build _).keepsBut _) (.build _) ?_
  rintro e' ⟨k, k', ok⟩
  apply KeepsBut.concluded
  exact (keepsBut_run host n e').subset (Expr.assigned_subset_of_lowersTo ⟨k, k', ok⟩)

end Eval

/-! ### Sessions -/

/-- The states of an interpreter from its start on. It is called any number of times, with whatever
end; in between, functions are defined, and objects and trees are made outside of it. -/
inductive Session : State → Prop
  | new (heap : Heap) (supply : Supply) (history : List HostCall) :
      Session { heap, supply, history }
  | define {s : State} (name : String) (handle : Handle) (before : Session s) :
      Session { s with frame := s.frame.define name handle }
  | outside {s : State} (heap : Heap) (supply : Supply) (history : List HostCall)
      (before : Session s) : Session { s with heap, supply, history }
  | invoke {s s' : State} {o : Outcome Value} (l : Lambda) (host : Host) (fuel : Nat)
      (arguments : List Value) (before : Session s)
      (ended : l.invoke host fuel arguments s = some (o, s')) : Session s'
  | evaluate {s s' : State} {o : Outcome Value} (e : Expr) (host : Host) (fuel : Nat)
      (before : Session s) (ended : e.evaluate host fuel s = some (o, s')) : Session s'

/-- No call leaves a variable behind. -/
theorem Session.scope_eq_nil {s : State} (session : Session s) : s.frame.scope = [] := by
  induction session with
  | new => rfl
  | define name handle _ ih => exact ih
  | outside heap supply history _ ih => exact ih
  | invoke l host fuel arguments _ ended ih =>
      have kept := Eval.keepsBut_invoke host fuel l arguments _ _ _ ended
      rw [ih] at kept
      exact kept.eq_nil
  | evaluate e host fuel _ ended ih =>
      have kept := Eval.keepsBut_evaluate host fuel e _ _ _ ended
      rw [ih] at kept
      exact kept.eq_nil

namespace Eval

/-- Scoping. However an evaluation ends, the same variables are in scope as before, and all but
those that the tree assigns have their values; calls and evaluations of unlowered trees included. To
make or to call a closure changes no variable. A session without variables never gets any. -/
theorem scope_kept_but_assigned (host : Host) (n : Nat) :
    (∀ e : Expr, KeepsBut e.assigned (run host n e)) ∧
    (∀ e : Expr, KeepsBut e.assigned (e.evaluate host n)) ∧
    (∀ (l : Lambda) (arguments : List Value),
      KeepsBut (Parameter.without l.parameters l.body.assigned) (l.invoke host n arguments)) ∧
    (∀ l, KeepsBut [] (newClosure l)) ∧
    (∀ l frame arguments, KeepsBut [] (applyWith (run host n) l frame arguments)) ∧
    ∀ s, Session s → s.frame.scope = [] := by
  refine ⟨keepsBut_run host n, keepsBut_evaluate host n, keepsBut_invoke host n, ?_, ?_, ?_⟩
  · intro l
    exact (Steady.newClosure l).keepsBut []
  · intro l frame arguments
    exact (Steady.applyWith _ l frame arguments).keepsBut []
  · intro s session
    exact session.scope_eq_nil

/-! ### A block that is left by a jump

`{ int x; x = 7; y = x; goto out; }`, where both `x` and `y` are in scope outside. -/

namespace ShadowingBlock

def x : Parameter := ⟨0, some "x", .int32⟩

def y : Parameter := ⟨1, some "y", .int32⟩

def out : Label := ⟨2, some "out", .void⟩

def block : Expr :=
  ⟨10, .block [x]
    [⟨5, .binary .assign ⟨3, .parameter x⟩ ⟨4, .constant (.int32 7) .int32⟩ false false .int32⟩,
      ⟨8, .binary .assign ⟨6, .parameter y⟩ ⟨7, .parameter x⟩ false false .int32⟩,
      ⟨9, .jump .goto out none⟩] .void⟩

def start : State := { frame := { scope := [(x.id, .int32 1), (y.id, .int32 2)] } }

theorem jump_restores_shadowed :
    ∃ s', run .absent 4 block start = some (.jump out .void, s') ∧
      Scope.KeptBut [y.id] start.frame.scope s'.frame.scope ∧
      s'.frame.scope = [(x.id, .int32 1), (y.id, .int32 7)] ∧
      ∃ s'', block.evaluate .absent 4 {} = some (.fail (.unbound "y"), s'') ∧
        s''.frame.scope = [] := by
  have kept := scope_kept_but_assigned .absent 4
  refine ⟨_, rfl, kept.1 block _ _ _ rfl, rfl, _, rfl, ?_⟩
  exact kept.2.2.2.2.2 _ (.evaluate block .absent 4 (.new {} 0 []) rfl)

end ShadowingBlock

end Eval

end ExprTree
