import ExprTree.Proofs.FreeLabels
import ExprTree.Proofs.Fuel

/-!
Where evaluation may jump to.

A tree that ends with a jump ends with a jump to one of its free labels (`confined_run`). The
evaluation of most nodes passes on the jumps of its parts; blocks and loops stop those to their own
labels, and exception handling holds back the end of a part until the final block has run.
-/

namespace ExprTree

theorem Expr.freeLabels_subset_of_child {e c : Expr} (passes : e.kind.passesJumps = true)
    (child : c ∈ e.children) : c.freeLabels ⊆ e.freeLabels :=
  fun _ mem => (Expr.mem_freeLabels_iff passes).mpr ⟨c, child, mem⟩

theorem Kind.passesJumps_of_isPlain {kind : Kind} (plain : kind.isPlain = true) :
    kind.passesJumps = true := by
  cases kind with
  | lambda | block | loop | jump | forLoop | forEach | whileLoop | doWhile => cases plain
  | _ => rfl

/-- If the outcome is a jump, it is to one of the labels. -/
def Outcome.Within {α : Type} (labels : List Label) (o : Outcome α) : Prop :=
  ∀ target v, o = .jump target v → target ∈ labels

namespace Eval

variable {α β : Type} {labels : List Label}

/-! ### Held back outcomes -/

theorem Gives.withVariable {post : α → Prop} {x : Eval α} (p : Parameter) (v : Value)
    (gives : Gives post x) : Gives post (withVariable p v x) := by
  intro s a s' ended
  obtain ⟨⟨o, m⟩, h, made⟩ := Option.map_eq_some_iff.mp ended
  cases made
  exact gives _ _ _ h

theorem Confined.gives_settle {x : Eval α} (confined : Confined labels x) :
    Gives (Outcome.Within labels) x.settle := by
  intro s o s' ended
  obtain ⟨⟨o', m⟩, h, made⟩ := Option.map_eq_some_iff.mp ended
  cases made
  rintro target v rfl
  exact confined _ _ _ _ h

theorem Confined.bind_of_gives {pre : α → Prop} {x : Eval α} {f : α → Eval β}
    (first : Confined labels x) (gives : Gives pre x)
    (rest : ∀ a, pre a → Confined labels (f a)) : Confined labels (x >>= f) := by
  intro s target v s' ended
  rcases bind_eq_some.mp ended with ⟨a, m, h, h'⟩ | ⟨o, h, passed⟩
  · exact rest a (gives _ _ _ h) _ _ _ _ h'
  · cases passed
    exact first _ _ _ _ h

/-- To go on after the end of a confined computation, whatever it is. -/
theorem Confined.settle_bind {inner : List Label} {x : Eval α} {f : Outcome α → Eval β}
    (first : Confined inner x) (rest : ∀ o, o.Within inner → Confined labels (f o)) :
    Confined labels (x.settle >>= f) :=
  (Confined.settle labels x).bind_of_gives first.gives_settle rest

theorem Confined.resume {o : Outcome α} (within : o.Within labels) : Confined labels o.resume := by
  rintro s target v s' ⟨⟩
  exact within target v rfl

theorem Confined.jump {target : Label} (mem : target ∈ labels) (v : Value) :
    Confined labels (jump target v : Eval α) := by
  rintro s target' v' s' ⟨⟩
  exact mem

theorem Confined.assign (p : Parameter) (v : Value) : Confined labels (assign p v) := by
  intro s target v' s' ended
  unfold Eval.assign at ended
  split at ended <;> cases ended

/-- What goes on leaves exceptions, failures and jumps to the labels as they are. -/
structure Passes (labels : List Label) (k : Outcome α → Eval β) : Prop where
  jump : ∀ target ∈ labels, ∀ v, k (.jump target v) = Eval.jump target v
  throw : ∀ exception, k (.throw exception) = throwing exception
  fail : ∀ f, k (.fail f) = Eval.fail f

theorem Passes.settle_bind {x : Eval α} {k : Outcome α → Eval β} (passes : Passes labels k)
    (confined : Confined labels x) : x.settle >>= k = x >>= fun a => k (.value a) := by
  rw [bind_eq_settle_bind x fun a => k (.value a)]
  refine settle_bind_congr fun s o s' ended => ?_
  cases o with
  | value a => rfl
  | jump target v => exact passes.jump target (confined _ _ _ _ ended) v
  | throw exception => exact passes.throw exception
  | fail f => exact passes.fail f

/-- To go on after the end of two computations, one after the other, is to go on after the second
if the ends of the first are passed on. -/
theorem Passes.bind_settle_bind {γ : Type} {x : Eval α} {f : α → Eval γ} {k : Outcome γ → Eval β}
    (passes : Passes labels k) (confined : Confined labels x) :
    (x >>= f).settle >>= k = x >>= fun a => (f a).settle >>= k := by
  rw [Eval.bind_settle_bind]
  exact Passes.settle_bind ⟨passes.jump, passes.throw, passes.fail⟩ confined

/-! ### Places in a list of statements -/

theorem reaches_eq_false {l : Option Label} {target : Label} :
    reaches l target = false ↔ ∀ m ∈ l.toList, m.same target = false := by
  cases l <;> simp [reaches]

theorem isPlaceOf_eq (target : Label) (e : Expr) :
    isPlaceOf target e = reaches e.placed? target := by
  obtain ⟨id, node⟩ := e
  cases node <;> rfl

theorem after?_cons_of_unplaced {e : Expr} (unplaced : e.placed? = none) (target : Label)
    (es : List Expr) : after? target (e :: es) = after? target es := by
  rw [after?, isPlaceOf_eq, unplaced]
  rfl

theorem after?_cons_of_placed {e : Expr} {l : Label} (placed : e.placed? = some l) (target : Label)
    (es : List Expr) :
    after? target (e :: es) = if l.same target then some es else after? target es := by
  rw [after?, isPlaceOf_eq, placed]
  rfl

/-- No statement is the place of the label. -/
theorem after?_eq_none {target : Label} {es : List Expr} :
    after? target es = none ↔ ∀ l ∈ es.filterMap Expr.placed?, l.same target = false := by
  induction es with
  | nil => simp [after?]
  | cons e es ih =>
      cases placed : e.placed? with
      | none => simpa [after?_cons_of_unplaced placed, placed] using ih
      | some l =>
          cases same : l.same target with
          | false => simpa [after?_cons_of_placed placed, placed, same] using ih
          | true => simp [after?_cons_of_placed placed, placed, same]

variable {run : Expr → Eval Value}

/-- The jumps that leave a list of statements. -/
theorem Confined.runStatements {whole : List Expr}
    (parts : ∀ e ∈ whole, Confined e.freeLabels (run e)) (fuel : Nat) {es : List Expr}
    (subset : es ⊆ whole) (last : Value) :
    Confined (Label.without (whole.filterMap Expr.placed?) (whole.flatMap Expr.freeLabels))
      (runStatements run whole fuel es last) := by
  induction fuel generalizing es last with
  | zero =>
      cases es with
      | nil => exact (Steady.pure last).confined _
      | cons => exact fun _ _ _ _ ended => nomatch ended
  | succ fuel ih =>
      cases es with
      | nil => exact (Steady.pure last).confined _
      | cons e es =>
          have mem : e ∈ whole := subset List.mem_cons_self
          rw [runStatements_cons]
          refine .settle_bind (parts e mem) fun o within => ?_
          cases o with
          | value v => exact ih (List.subset_of_cons_subset subset) v
          | jump target v =>
              simp only [afterStatement]
              cases found : after? target whole with
              | none =>
                  refine .jump (Label.mem_without.mpr ⟨?_, after?_eq_none.mp found⟩) v
                  exact List.mem_flatMap.mpr ⟨e, mem, within target v rfl⟩
              | some rest => exact ih (after?_subset found) v
          | throw exception => exact (Steady.throwing exception).confined _
          | fail f => exact (Steady.fail f).confined _

/-- The jumps that leave a loop. -/
theorem Confined.runLoop {body : Expr} (part : Confined body.freeLabels (run body))
    (breakTo continueTo : Option Label) (fuel : Nat) :
    Confined (Label.without (breakTo.toList ++ continueTo.toList) body.freeLabels)
      (runLoop run body breakTo continueTo fuel) := by
  induction fuel with
  | zero => exact fun _ _ _ _ ended => nomatch ended
  | succ fuel ih =>
      rw [runLoop_succ]
      refine .settle_bind part fun o within => ?_
      cases o with
      | value v => exact ih
      | jump target v =>
          simp only [afterRound]
          cases stays : reaches breakTo target with
          | true => exact (Steady.pure v).confined _
          | false =>
              cases passes : reaches continueTo target with
              | true => exact ih
              | false =>
                  refine .jump (Label.mem_without.mpr ⟨within target v rfl, fun l mem => ?_⟩) v
                  rcases List.mem_append.mp mem with mem | mem
                  · exact reaches_eq_false.mp stays l mem
                  · exact reaches_eq_false.mp passes l mem
      | throw exception => exact (Steady.throwing exception).confined _
      | fail f => exact (Steady.fail f).confined _

/-! ### Exception handling -/

theorem Steady.exceptionOf (o : Outcome Value) : Steady (exceptionOf o) := by
  unfold Eval.exceptionOf
  split
  · exact .pure _
  · split
    · exact .map _ (.newObject _ _)
    · exact .pure _
  · exact .pure _
  · exact .pure _

theorem Confined.accepts (run : Expr → Eval Value) (filter : Option Expr) :
    Confined labels (accepts run filter) := by
  cases filter with
  | none => exact (Steady.pure _).confined _
  | some e =>
      refine .bind (.settle _ _) fun o => ?_
      split <;> exact (Steady.pure _).confined _

/-- Whatever the filter and the body do, a handler ends with a value that tells of it. -/
theorem Confined.tryHandler (run : Expr → Eval Value) (h : Handler) (exception : Value) :
    Confined labels (tryHandler run h exception) := by
  have handle : Confined labels (do
      if ← Eval.accepts run h.filter then return some (← (run h.body).settle)
      else return none : Eval (Option (Outcome Value))) := by
    refine .bind (.accepts run h.filter) fun accepted => ?_
    split
    · exact .bind (.settle _ _) fun o => (Steady.pure _).confined _
    · exact (Steady.pure _).confined _
  unfold Eval.tryHandler
  split
  · exact .withVariable _ exception handle
  · exact handle

/-- What a handler tells of its body is what the body may do. -/
theorem Gives.tryHandler {h : Handler} (body : Confined labels (run h.body)) (exception : Value) :
    Gives (fun handled => ∀ o ∈ handled, o.Within labels) (tryHandler run h exception) := by
  have handle : Gives (fun handled => ∀ o ∈ handled, o.Within labels) (do
      if ← accepts run h.filter then return some (← (run h.body).settle)
      else return none : Eval (Option (Outcome Value))) := by
    refine .bind (.trivial _) fun accepted _ => ?_
    split
    · refine .bind body.gives_settle fun o within => .pure ?_
      rintro o' ⟨⟩
      exact within
    · refine .pure ?_
      rintro o ⟨⟩
  unfold Eval.tryHandler
  split
  · exact .withVariable _ exception handle
  · exact handle

theorem Confined.runHandlers (run : Expr → Eval Value) (exception : Value) (hs : List Handler) :
    Confined labels (runHandlers run exception hs) := by
  induction hs with
  | nil => exact (Steady.pure _).confined _
  | cons h hs ih =>
      unfold Eval.runHandlers
      split
      · refine .bind (.tryHandler run h exception) fun handled => ?_
        cases handled with
        | none => exact ih
        | some o => exact (Steady.pure _).confined _
      · exact ih

theorem Gives.runHandlers {hs : List Handler} (bodies : ∀ h ∈ hs, Confined labels (run h.body))
    (exception : Value) :
    Gives (fun handled => ∀ o ∈ handled, o.Within labels) (runHandlers run exception hs) := by
  induction hs with
  | nil =>
      refine .pure ?_
      rintro o ⟨⟩
  | cons h hs ih =>
      have rest := ih fun h' mem => bodies h' (.tail _ mem)
      unfold Eval.runHandlers
      split
      · refine .bind (.tryHandler (bodies h List.mem_cons_self) exception) fun handled within => ?_
        cases handled with
        | none => exact rest
        | some o => exact .pure within
      · exact rest

theorem compatible_confined (labels : List Label) :
    Compatible fun α (x : Unit → Eval α) => Confined labels (x ()) where
  steady := fun steady => steady.confined labels
  bind := fun first rest => first.bind rest

theorem Confined.runOptional {e : Option Expr} (part : ∀ e' ∈ e.toList, Confined labels (run e')) :
    Confined labels (runOptional run e) :=
  let once : Unit → Expr → Eval Value := fun _ => run
  @Compatible.runOptional Unit _ once e (compatible_confined labels) part

/-- The jumps that leave exception handling are those of its parts, filters apart. -/
theorem Confined.runAttempt {body : Expr} {handlers : List Handler} {fault finalizer : Option Expr}
    (first : Confined labels (run body)) (bodies : ∀ h ∈ handlers, Confined labels (run h.body))
    (faulty : ∀ e ∈ fault.toList, Confined labels (run e))
    (final : ∀ e ∈ finalizer.toList, Confined labels (run e)) :
    Confined labels (runAttempt run body handlers fault finalizer) := by
  have leave (handled : Outcome Value) (within : handled.Within labels) :
      Confined labels (Eval.runOptional run finalizer >>= fun _ => handled.resume) :=
    .bind (.runOptional final) fun _ => .resume within
  refine .settle_bind first fun ended within => ?_
  refine .bind ((Steady.exceptionOf ended).confined _) fun caught => ?_
  cases caught with
  | none => exact leave ended within
  | some exception =>
      refine .bind_of_gives (.runHandlers run exception handlers) (.runHandlers bodies exception)
        fun handled told => ?_
      cases handled with
      | some o => exact leave o (told o rfl)
      | none => exact .bind (.runOptional faulty) fun _ => leave ended within

/-! ### Nodes -/

/-- Storing jumps where the parts of its target do. -/
theorem Confined.store (host : Host) {target : Expr}
    (parts : ∀ e, Confined e.freeLabels (run e)) (v : Value) :
    Confined target.freeLabels (store host run target v) := by
  have within : ∀ e ∈ target.storeParts, e.freeLabels ⊆ target.freeLabels := by
    obtain ⟨id, node⟩ := target
    cases node with
    | member receiver m =>
        cases receiver with
        | none => exact fun e mem => nomatch mem
        | some receiver => exact fun e mem => Expr.freeLabels_subset_of_child rfl mem
    | binary op left right =>
        cases op with
        | arrayIndex => exact fun e mem => Expr.freeLabels_subset_of_child rfl mem
        | _ => exact fun e mem => nomatch mem
    | index receiver arguments => exact fun e mem => Expr.freeLabels_subset_of_child rfl mem
    | _ => exact fun e mem => nomatch mem
  let once : Unit → Expr → Eval Value := fun _ => run
  exact @Compatible.store Unit _ once host target (compatible_confined _)
    (fun e mem => (parts e).subset (within e mem))
    (fun l frame arguments => (Steady.applyWith run l frame arguments).confined _)
    (fun p v _ => .assign p v) v

/-- If every tree jumps to its free labels only, so does a node that evaluates trees. -/
theorem Confined.runNode (host : Host) (parts : ∀ e, Confined e.freeLabels (run e)) (fuel : Nat)
    (e : Expr) : Confined e.freeLabels (runNode host run fuel e) := by
  cases plain : e.kind.isPlain with
  | true =>
      have child (c : Expr) (mem : c ∈ e.children) : c.freeLabels ⊆ e.freeLabels :=
        Expr.freeLabels_subset_of_child (Kind.passesJumps_of_isPlain plain) mem
      let once : Unit → Expr → Eval Value := fun _ => run
      exact @Compatible.runNode Unit _ once host e (compatible_confined _) plain
        (fun c mem => (parts c).subset (child c mem))
        (fun l frame arguments => (Steady.applyWith run l frame arguments).confined _)
        (fun target mem v =>
          (Confined.store host parts v).subset (child target (e.node.stored_subset mem)))
        fun _ => fuel
  | false =>
      obtain ⟨id, node⟩ := e
      cases node with
      | lambda l => exact (Steady.newClosure l).confined _
      | block locals statements type =>
          rw [Expr.freeLabels_of_node rfl]
          refine .bind (.withVariables _ ?_) fun v => (Steady.pure _).confined _
          exact .runStatements (fun e _ => parts e) fuel (List.Subset.refl _) .void
      | loop body breakTo continueTo =>
          rw [Expr.freeLabels_of_node rfl]
          exact .runLoop (parts body) breakTo continueTo fuel
      | jump kind target value =>
          rw [Expr.freeLabels_of_node rfl]
          cases value with
          | none => exact .jump List.mem_cons_self _
          | some value =>
              refine .bind ((parts value).subset ?_) fun v => .jump List.mem_cons_self v
              exact fun t mem => .tail _ (List.mem_flatMap.mpr ⟨value, List.mem_cons_self, mem⟩)
      | attempt body handlers fault finalizer =>
          have child (c : Expr) (mem : c ∈ (Node.attempt body handlers fault finalizer).children) :
              Confined (Expr.freeLabels ⟨id, .attempt body handlers fault finalizer⟩) (run c) :=
            (parts c).subset (Expr.freeLabels_subset_of_child rfl mem)
          refine .runAttempt (child body ?_) (fun h mem => child h.body ?_)
            (fun e mem => child e ?_) fun e mem => child e ?_
          · simp [Node.children]
          · simp only [Node.children, List.cons_append, List.mem_cons, List.mem_append,
              List.mem_flatMap]
            exact .inr (.inl (.inl ⟨h, mem, .inr (.inl rfl)⟩))
          · simp only [Node.children, List.cons_append, List.mem_cons, List.mem_append]
            exact .inr (.inl (.inr mem))
          · simp only [Node.children, List.cons_append, List.mem_cons, List.mem_append]
            exact .inr (.inr mem)
      | forLoop | forEach | whileLoop | doWhile | usingBlock =>
          refine .bind_of_gives ((Steady.build _).confined _) (.build _) ?_
          rintro e' ⟨k, k', ok⟩
          refine (parts e').subset (Expr.freeLabels_subset_of_reduce ?_ ok)
          exact fun c _ c' lowers => Expr.freeLabels_subset_of_lowersTo lowers
      | _ => cases plain

/-- A tree that ends with a jump ends with a jump to one of its free labels. -/
theorem confined_run (host : Host) (n : Nat) (e : Expr) :
    Confined e.freeLabels (Eval.run host n e) := by
  induction n generalizing e with
  | zero => exact fun _ _ _ _ ended => nomatch ended
  | succ n ih => exact .runNode host ih n e

theorem confined_denote (host : Host) (e : Expr) : Confined e.freeLabels (denote host e) := by
  intro s target v s' ended
  obtain ⟨n, ended⟩ := (isLimit_run host e _ _).mp ended
  exact confined_run host n e _ _ _ _ ended

end Eval

end ExprTree
