import ExprTree.Proofs.Fuel

/-!
Final blocks.

`Traced` computations tell which parts of exception handling they evaluate, in order. The traced
form of `Eval.runAttempt` is that function when the steps are forgotten (`erase_runAttempt`), and
its steps show when the final block runs: once and last, unless a fault block was run and did not
complete.
-/

namespace ExprTree

/-- Whether an outcome is a value. -/
def Outcome.completes {α : Type} : Outcome α → Bool
  | .value _ => true
  | _ => false

theorem Outcome.Passed.incomplete {α β : Type} {o : Outcome α} {o' : Outcome β}
    (passed : o.Passed o') : ¬o.completes = true := by
  cases passed <;> exact Bool.false_ne_true

theorem Outcome.not_passed_value {α β : Type} {o : Outcome α} {b : β} : ¬o.Passed (.value b) :=
  nofun

/-- The parts of exception handling. -/
inductive AttemptPart where
  | body
  | filter
  | handler
  | fault
  | finalizer
deriving DecidableEq

/-- One evaluation of a part. -/
structure AttemptStep where
  part : AttemptPart
  evaluated : Expr
  before : State
  outcome : Outcome Value
  after : State

/-- The step is an evaluation of its expression. -/
def AttemptStep.Genuine (run : Expr → Eval Value) (step : AttemptStep) : Prop :=
  run step.evaluated step.before = some (step.outcome, step.after)

/-- A computation that tells its steps. -/
def Traced (α : Type) : Type := State → Option ((Outcome α × State) × List AttemptStep)

namespace Traced

variable {α β : Type}

/-- Go on after a value; the steps add up. -/
def andThen (x : Traced α) (f : α → Traced β) : Traced β := fun s =>
  match x s with
  | some ((.value a, s), steps) => (f a s).map fun r => (r.1, steps ++ r.2)
  | some ((.jump target v, s), steps) => some ((.jump target v, s), steps)
  | some ((.throw exception, s), steps) => some ((.throw exception, s), steps)
  | some ((.fail f, s), steps) => some ((.fail f, s), steps)
  | none => none

/-- A computation without steps. -/
def quiet (x : Eval α) : Traced α := fun s => (x s).map fun r => (r, [])

instance : Monad Traced where
  pure a := quiet (pure a)
  bind := andThen

/-- A computation, its steps forgotten. -/
def erase (x : Traced α) : Eval α := fun s => (x s).map Prod.fst

def settle (x : Traced α) : Traced (Outcome α) := fun s =>
  (x s).map fun r => ((.value r.1.1, r.1.2), r.2)

def withVariable (p : Parameter) (v : Value) (x : Traced α) : Traced α := fun s =>
  let previous := s.frame.scope.find? p.id
  (x (Eval.setScope s (s.frame.scope.insert p.id v))).map fun r =>
    ((r.1.1, Eval.setScope r.1.2 (r.1.2.frame.scope.restore p.id previous)), r.2)

/-! ### Exception handling, step by step -/

variable (run : Expr → Eval Value)

/-- Evaluate a part. -/
def step (part : AttemptPart) (e : Expr) : Traced Value := fun s =>
  (run e s).map fun r => (r, [⟨part, e, s, r.1, r.2⟩])

def accepts (filter : Option Expr) : Traced Bool :=
  match filter with
  | none => return true
  | some e => do
    match ← (step run .filter e).settle with
    | .value (.boolean true) => return true
    | _ => return false

def tryHandler (h : Handler) (exception : Value) : Traced (Option (Outcome Value)) :=
  let handle : Traced (Option (Outcome Value)) := do
    if ← accepts run h.filter then return some (← (step run .handler h.body).settle)
    else return none
  match h.caught with
  | some p => withVariable p exception handle
  | none => handle

def runHandlers (exception : Value) : List Handler → Traced (Option (Outcome Value))
  | [] => return none
  | h :: hs => do
    if h.tested.assignableFrom exception.typeOf then
      match ← tryHandler run h exception with
      | some o => return some o
      | none => runHandlers exception hs
    else runHandlers exception hs

def runOptional (part : AttemptPart) (e : Option Expr) : Traced Unit :=
  match e with
  | some e => discard (step run part e)
  | none => return ()

/-- What the body and its handlers come to, and the fault block if it is still to run. -/
def searched (body : Expr) (handlers : List Handler) (fault : Option Expr) :
    Traced (Outcome Value × Option Expr) := do
  let ended ← (step run .body body).settle
  match ← quiet (Eval.exceptionOf ended) with
  | none => return (ended, none)
  | some exception =>
    match ← runHandlers run exception handlers with
    | some o => return (o, none)
    | none => return (ended, fault)

/-- All that comes before the final block: the outcome that is then at hand. -/
def reached (body : Expr) (handlers : List Handler) (fault : Option Expr) :
    Traced (Outcome Value) := do
  let (handled, left) ← searched run body handlers fault
  runOptional run .fault left
  return handled

def runAttempt (body : Expr) (handlers : List Handler) (fault finalizer : Option Expr) :
    Traced Value := do
  let handled ← reached run body handlers fault
  runOptional run .finalizer finalizer
  quiet handled.resume

/-! ### Forgetting the steps -/

theorem bind_eq_some {x : Traced α} {f : α → Traced β} {s s' : State} {o : Outcome β}
    {steps : List AttemptStep} :
    (x >>= f) s = some ((o, s'), steps) ↔
      (∃ a m first rest, x s = some ((.value a, m), first) ∧ f a m = some ((o, s'), rest) ∧
        steps = first ++ rest) ∨
      ∃ o', x s = some ((o', s'), steps) ∧ o'.Passed o := by
  change andThen x f s = _ ↔ _
  constructor
  · intro ended
    unfold andThen at ended
    split at ended
    case h_1 a m first h =>
        obtain ⟨⟨r, rest⟩, h', made⟩ := Option.map_eq_some_iff.mp ended
        cases made
        exact .inl ⟨a, m, first, rest, h, h', rfl⟩
    case h_2 target v m first h =>
        cases ended
        exact .inr ⟨_, h, .jump target v⟩
    case h_3 exception m first h =>
        cases ended
        exact .inr ⟨_, h, .throw exception⟩
    case h_4 failure m first h =>
        cases ended
        exact .inr ⟨_, h, .fail failure⟩
    case h_5 => cases ended
  · rintro (⟨a, m, first, rest, h, h', rfl⟩ | ⟨o', h, passed⟩)
    · simp only [andThen, h, h', Option.map_some]
    · cases passed <;> simp only [andThen, h]

theorem erase_quiet (x : Eval α) : erase (quiet x) = x := by
  funext s
  simp [erase, quiet, Function.comp_def]

theorem erase_pure (a : α) : erase (pure a) = pure a :=
  erase_quiet (pure a)

theorem erase_bind (x : Traced α) (f : α → Traced β) :
    erase (x >>= f) = erase x >>= fun a => erase (f a) := by
  funext s
  cases h : x s with
  | none =>
      have ended : erase x s = none := by simp only [erase, h, Option.map_none]
      rw [Eval.bind_of_none ended]
      change (andThen x f s).map _ = none
      simp only [andThen, h, Option.map_none]
  | some r =>
      obtain ⟨⟨o, m⟩, steps⟩ := r
      have ended : erase x s = some (o, m) := by simp only [erase, h, Option.map_some]
      change (andThen x f s).map _ = _
      cases o with
      | value a =>
          rw [Eval.bind_of_value ended]
          simp only [andThen, h, Option.map_map, erase]
          rfl
      | jump target v =>
          rw [Eval.bind_of_passed ended (.jump target v)]
          simp only [andThen, h, Option.map_some]
      | throw exception =>
          rw [Eval.bind_of_passed ended (.throw exception)]
          simp only [andThen, h, Option.map_some]
      | fail failure =>
          rw [Eval.bind_of_passed ended (.fail failure)]
          simp only [andThen, h, Option.map_some]

theorem erase_step (part : AttemptPart) (e : Expr) : erase (step run part e) = run e := by
  funext s
  simp [erase, step, Function.comp_def]

theorem erase_settle (x : Traced α) : erase x.settle = (erase x).settle := by
  funext s
  simp only [erase, settle, Eval.settle, Option.map_map]
  rfl

theorem erase_withVariable (p : Parameter) (v : Value) (x : Traced α) :
    erase (withVariable p v x) = Eval.withVariable p v (erase x) := by
  funext s
  simp only [erase, withVariable, Eval.withVariable, Option.map_map]
  rfl

theorem erase_accepts (filter : Option Expr) :
    erase (accepts run filter) = Eval.accepts run filter := by
  cases filter with
  | none => exact erase_pure true
  | some e =>
      refine (erase_bind _ _).trans ?_
      rw [erase_settle, erase_step]
      refine bind_congr fun o => ?_
      cases o with
      | value v =>
          cases v with
          | boolean b => cases b <;> exact erase_pure _
          | _ => exact erase_pure false
      | _ => exact erase_pure false

theorem erase_tryHandler (h : Handler) (exception : Value) :
    erase (tryHandler run h exception) = Eval.tryHandler run h exception := by
  have handle : erase (do
      if ← accepts run h.filter then return some (← (step run .handler h.body).settle)
      else return none : Traced (Option (Outcome Value))) = (do
      if ← Eval.accepts run h.filter then return some (← (run h.body).settle)
      else return none) := by
    refine (erase_bind _ _).trans ?_
    rw [erase_accepts]
    refine bind_congr fun accepted => ?_
    cases accepted with
    | false => exact erase_pure none
    | true =>
        refine (erase_bind _ _).trans ?_
        rw [erase_settle, erase_step]
        exact bind_congr fun o => erase_pure (some o)
  unfold tryHandler Eval.tryHandler
  cases h.caught with
  | none => exact handle
  | some p => exact (erase_withVariable p exception _).trans (congrArg _ handle)

theorem erase_runHandlers (exception : Value) (hs : List Handler) :
    erase (runHandlers run exception hs) = Eval.runHandlers run exception hs := by
  induction hs with
  | nil => exact erase_pure none
  | cons h hs ih =>
      unfold runHandlers Eval.runHandlers
      split
      · refine (erase_bind _ _).trans ?_
        rw [erase_tryHandler]
        refine bind_congr fun handled => ?_
        cases handled with
        | none => exact ih
        | some o => exact erase_pure (some o)
      · exact ih

theorem erase_runOptional (part : AttemptPart) (e : Option Expr) :
    erase (runOptional run part e) = Eval.runOptional run e := by
  cases e with
  | none => exact erase_pure ()
  | some e =>
      refine (erase_bind _ _).trans ?_
      rw [erase_step]
      exact bind_congr fun _ => erase_pure ()

/-- Exception handling is its traced form, the steps forgotten. -/
theorem erase_runAttempt (body : Expr) (handlers : List Handler) (fault finalizer : Option Expr) :
    erase (runAttempt run body handlers fault finalizer) =
      Eval.runAttempt run body handlers fault finalizer := by
  unfold runAttempt reached searched Eval.runAttempt
  simp only [erase_bind, erase_settle, erase_step, erase_quiet, erase_runOptional, bind_assoc]
  refine bind_congr fun ended => bind_congr fun caught => ?_
  cases caught with
  | none =>
      simp only [erase_pure, pure_bind]
      exact pure_bind () _
  | some exception =>
      simp only [erase_bind, erase_runHandlers, bind_assoc]
      refine bind_congr fun handled => ?_
      cases handled with
      | none => simp only [erase_pure, pure_bind]
      | some o =>
          simp only [erase_pure, pure_bind]
          exact pure_bind () _

/-! ### Steps of the parts -/

/-- The steps are evaluations, and of these parts only. -/
def Evaluations (parts : List AttemptPart) (steps : List AttemptStep) : Prop :=
  ∀ st ∈ steps, st.Genuine run ∧ st.part ∈ parts

/-- Give a value whatever happens, after evaluations of these parts only. -/
def Returns (parts : List AttemptPart) (x : Traced α) : Prop :=
  ∀ ⦃s m : State⦄ ⦃o : Outcome α⦄ ⦃steps : List AttemptStep⦄, x s = some ((o, m), steps) →
    o.completes = true ∧ Evaluations run parts steps

variable {run} {parts parts' : List AttemptPart}

theorem Evaluations.nil : Evaluations run parts [] := by
  intro st mem
  cases mem

theorem Evaluations.append {first rest : List AttemptStep} (h : Evaluations run parts first)
    (h' : Evaluations run parts rest) : Evaluations run parts (first ++ rest) := by
  intro st mem
  rcases List.mem_append.mp mem with early | late
  · exact h st early
  · exact h' st late

theorem Evaluations.single {part : AttemptPart} {e : Expr} {s m : State} {o : Outcome Value}
    (genuine : run e s = some (o, m)) (mem : part ∈ parts) :
    Evaluations run parts [⟨part, e, s, o, m⟩] := by
  intro st among
  cases List.mem_singleton.mp among
  exact ⟨genuine, mem⟩

theorem Evaluations.part_ne {steps : List AttemptStep} {part : AttemptPart}
    (h : Evaluations run parts steps) (other : part ∉ parts) : ∀ st ∈ steps, st.part ≠ part := by
  rintro st mem rfl
  exact other (h st mem).2

theorem Evaluations.subset {steps : List AttemptStep} (h : Evaluations run parts steps)
    (incl : parts ⊆ parts') : Evaluations run parts' steps := by
  intro st mem
  obtain ⟨genuine, part⟩ := h st mem
  exact ⟨genuine, incl part⟩

/-- After a computation that returns, the next one goes on. -/
theorem Returns.of_bind {x : Traced α} {f : α → Traced β} {s s' : State} {o : Outcome β}
    {steps : List AttemptStep} (returns : Returns run parts x)
    (ended : (x >>= f) s = some ((o, s'), steps)) :
    ∃ a m first rest, x s = some ((.value a, m), first) ∧ Evaluations run parts first ∧
      f a m = some ((o, s'), rest) ∧ steps = first ++ rest := by
  rcases bind_eq_some.mp ended with ⟨a, m, first, rest, h, h', added⟩ | ⟨o', h, passed⟩
  · exact ⟨a, m, first, rest, h, (returns h).2, h', added⟩
  · have completes := (returns h).1
    cases passed <;> cases completes

theorem Returns.quiet {x : Eval α} (gives : ∀ {s m o}, x s = some (o, m) → o.completes = true) :
    Returns run parts (quiet x) := by
  intro s m o steps ended
  obtain ⟨r, h, made⟩ := Option.map_eq_some_iff.mp ended
  cases made
  exact ⟨gives h, .nil⟩

theorem Returns.pure (a : α) : Returns run parts (pure a : Traced α) := by
  refine .quiet fun ended => ?_
  cases ended
  rfl

theorem Returns.bind {x : Traced α} {f : α → Traced β} (first : Returns run parts x)
    (rest : ∀ a, Returns run parts (f a)) : Returns run parts (x >>= f) := by
  intro s m o steps ended
  obtain ⟨a, m', early, late, -, evaluated, h, rfl⟩ := first.of_bind ended
  obtain ⟨completes, evaluated'⟩ := rest a h
  exact ⟨completes, evaluated.append evaluated'⟩

theorem Returns.withVariable {x : Traced α} (p : Parameter) (v : Value)
    (returns : Returns run parts x) : Returns run parts (withVariable p v x) := by
  intro s m o steps ended
  obtain ⟨r, h, made⟩ := Option.map_eq_some_iff.mp ended
  cases made
  exact returns h

theorem settle_step_eq_some {part : AttemptPart} {e : Expr} {s m : State}
    {o : Outcome (Outcome Value)} {steps : List AttemptStep}
    (ended : (step run part e).settle s = some ((o, m), steps)) :
    ∃ o', o = .value o' ∧ run e s = some (o', m) ∧ steps = [⟨part, e, s, o', m⟩] := by
  obtain ⟨r, h, made⟩ := Option.map_eq_some_iff.mp ended
  obtain ⟨⟨o', m'⟩, h', made'⟩ := Option.map_eq_some_iff.mp h
  cases made'
  cases made
  exact ⟨o', rfl, h', rfl⟩

theorem Returns.settle_step (part : AttemptPart) (mem : part ∈ parts) (e : Expr) :
    Returns run parts (step run part e).settle := by
  intro s m o steps ended
  obtain ⟨o', rfl, genuine, rfl⟩ := settle_step_eq_some ended
  exact ⟨rfl, .single genuine mem⟩

theorem Returns.exceptionOf (ended : Outcome Value) :
    Returns run parts (Traced.quiet (Eval.exceptionOf ended)) := by
  refine .quiet fun h => ?_
  unfold Eval.exceptionOf at h
  split at h
  case h_1 => cases h; rfl
  case h_2 f =>
      cases type : f.exceptionType? with
      | none =>
          rw [type] at h
          cases h
          rfl
      | some type' =>
          rw [type] at h
          cases h
          rfl
  case h_3 => cases h; rfl
  case h_4 => cases h; rfl

theorem Returns.accepts (mem : .filter ∈ parts) (filter : Option Expr) :
    Returns run parts (accepts run filter) := by
  cases filter with
  | none => exact .pure true
  | some e =>
      refine .bind (.settle_step .filter mem e) fun o => ?_
      split
      · exact .pure true
      · exact .pure false

theorem Returns.tryHandler (filtering : .filter ∈ parts) (handling : .handler ∈ parts)
    (h : Handler) (exception : Value) : Returns run parts (tryHandler run h exception) := by
  have handle : Returns run parts (do
      if ← Traced.accepts run h.filter then return some (← (step run .handler h.body).settle)
      else return none : Traced (Option (Outcome Value))) := by
    refine .bind (.accepts filtering h.filter) fun accepted => ?_
    split
    · exact .bind (.settle_step .handler handling h.body) fun o => .pure (some o)
    · exact .pure none
  unfold Traced.tryHandler
  cases h.caught with
  | none => exact handle
  | some p => exact handle.withVariable p exception

/-- The search for a handler evaluates filters and handlers, and gives a value however these end. -/
theorem Returns.runHandlers (filtering : .filter ∈ parts) (handling : .handler ∈ parts)
    (exception : Value) (hs : List Handler) : Returns run parts (runHandlers run exception hs) := by
  induction hs with
  | nil => exact .pure none
  | cons h hs ih =>
      unfold Traced.runHandlers
      split
      · refine .bind (.tryHandler filtering handling h exception) fun handled => ?_
        cases handled with
        | none => exact ih
        | some o => exact .pure (some o)
      · exact ih

theorem Returns.searched (body : Expr) (handlers : List Handler) (fault : Option Expr) :
    Returns run [.body, .filter, .handler] (searched run body handlers fault) := by
  refine .bind (.settle_step .body (by decide) body) fun ended => ?_
  refine .bind (.exceptionOf ended) fun caught => ?_
  cases caught with
  | none => exact .pure (ended, none)
  | some exception =>
      refine .bind (.runHandlers (by decide) (by decide) exception handlers) fun handled => ?_
      cases handled with
      | none => exact .pure (ended, fault)
      | some o => exact .pure (o, none)

/-- An optional part: nothing, or one evaluation that is left as it ended. -/
theorem runOptional_eq_some {part : AttemptPart} {e : Option Expr} {s m : State} {o : Outcome Unit}
    {steps : List AttemptStep} (ended : runOptional run part e s = some ((o, m), steps)) :
    (e = none ∧ o = .value () ∧ m = s ∧ steps = []) ∨
      ∃ e' o', e = some e' ∧ steps = [⟨part, e', s, o', m⟩] ∧ run e' s = some (o', m) ∧
        ((o'.completes = true ∧ o = .value ()) ∨ o'.Passed o) := by
  cases e with
  | none =>
      cases ended
      exact .inl ⟨rfl, rfl, rfl, rfl⟩
  | some e =>
      refine .inr ⟨e, ?_⟩
      rcases bind_eq_some.mp ended with ⟨v, m', first, rest, h, h', added⟩ | ⟨o', h, passed⟩
      · obtain ⟨r, h'', made⟩ := Option.map_eq_some_iff.mp h
        cases made
        cases h'
        exact ⟨_, rfl, added, h'', .inl ⟨rfl, rfl⟩⟩
      · obtain ⟨r, h'', made⟩ := Option.map_eq_some_iff.mp h
        cases made
        exact ⟨_, rfl, rfl, h'', .inr passed⟩

/-- Before the final block, either an outcome is reached and no fault block stopped short, or the
last thing done is a fault block that stopped short. -/
theorem reached_eq_some {body : Expr} {handlers : List Handler} {fault : Option Expr} {s m : State}
    {o : Outcome (Outcome Value)} {steps : List AttemptStep}
    (ended : reached run body handlers fault s = some ((o, m), steps)) :
    Evaluations run [.body, .filter, .handler, .fault] steps ∧
      ((o.completes = true ∧ ∀ st ∈ steps, st.part = .fault → st.outcome.completes = true) ∨
        ∃ earlier last, steps = earlier ++ [last] ∧ last.part = .fault ∧ last.after = m ∧
          last.outcome.Passed o ∧ ∀ st ∈ earlier, st.part ≠ .fault) := by
  obtain ⟨⟨handled, left⟩, m', first, rest, -, evaluated, h, rfl⟩ :=
    (Returns.searched body handlers fault).of_bind ended
  have early : ∀ st ∈ first, st.part ≠ .fault := evaluated.part_ne (by decide)
  have evaluated' : Evaluations run [.body, .filter, .handler, .fault] first :=
    evaluated.subset (by decide)
  rcases bind_eq_some.mp h with ⟨⟨⟩, m'', last, rest, h', h'', rfl⟩ | ⟨o', h', passed⟩
  · cases h''
    rw [List.append_nil]
    rcases runOptional_eq_some h' with ⟨-, -, -, rfl⟩ | ⟨e, o', -, rfl, genuine, left⟩
    · rw [List.append_nil]
      exact ⟨evaluated', .inl ⟨rfl, fun st mem isFault => absurd isFault (early st mem)⟩⟩
    · rcases left with ⟨completes, -⟩ | passed
      · refine ⟨evaluated'.append (.single genuine (by decide)),
          .inl ⟨rfl, fun st mem isFault => ?_⟩⟩
        rcases List.mem_append.mp mem with among | among
        · exact absurd isFault (early st among)
        · cases List.mem_singleton.mp among
          exact completes
      · cases passed
  · rcases runOptional_eq_some h' with ⟨-, rfl, -⟩ | ⟨e, o'', -, rfl, genuine, left⟩
    · cases passed
    · rcases left with ⟨-, rfl⟩ | passed'
      · cases passed
      · exact ⟨evaluated'.append (.single genuine (by decide)),
          .inr ⟨first, _, rfl, rfl, rfl, passed'.trans passed, early⟩⟩

/-- Without a final block, the outcome at hand is the whole's. -/
theorem runAttempt_none_of_reached {body : Expr} {handlers : List Handler} {fault : Option Expr}
    {s m : State} {handled : Outcome Value} {steps : List AttemptStep}
    (ended : reached run body handlers fault s = some ((.value handled, m), steps)) :
    Eval.runAttempt run body handlers fault none s = some (handled, m) := by
  have whole : runAttempt run body handlers fault none s = some ((handled, m), steps) :=
    bind_eq_some.mpr (.inl ⟨handled, m, steps, [], ended, rfl, (List.append_nil steps).symm⟩)
  rw [← erase_runAttempt]
  simp only [erase, whole, Option.map_some]

/-- The final block decides how the whole ends, unless it completes. -/
theorem finalized_eq_some {final : Expr} {handled o : Outcome Value} {m s' : State}
    {steps : List AttemptStep}
    (ended : (runOptional run .finalizer (some final) >>= fun _ => quiet handled.resume) m =
      some ((o, s'), steps)) :
    ∃ last, steps = [⟨.finalizer, final, m, last, s'⟩] ∧ run final m = some (last, s') ∧
      o = if last.completes then handled else last := by
  rcases bind_eq_some.mp ended with ⟨⟨⟩, m', first, rest, h, h', rfl⟩ | ⟨o', h, passed⟩
  · cases h'
    rcases runOptional_eq_some h with ⟨absent, -⟩ | ⟨e, last, present, rfl, genuine, left⟩
    · cases absent
    · cases present
      rcases left with ⟨completes, -⟩ | passed
      · exact ⟨last, rfl, genuine, (if_pos completes).symm⟩
      · cases passed
  · rcases runOptional_eq_some h with ⟨absent, -⟩ | ⟨e, last, present, rfl, genuine, left⟩
    · cases absent
    · cases present
      rcases left with ⟨-, rfl⟩ | passed'
      · cases passed
      · have passed := passed'.trans passed
        refine ⟨last, rfl, genuine, ?_⟩
        rw [if_neg passed.incomplete, passed.eq]

end Traced

theorem Eval.run_attempt (host : Host) (fuel : Nat) {e body : Expr} {handlers : List Handler}
    {fault finalizer : Option Expr} (guarded : e.node = .attempt body handlers fault finalizer) :
    run host (fuel + 1) e = runAttempt (run host fuel) body handlers fault finalizer := by
  simp only [run, runNode, guarded]

/-- An evaluation that ends has its steps. -/
theorem Traced.exists_steps {host : Host} {fuel : Nat} {e body : Expr} {handlers : List Handler}
    {fault finalizer : Option Expr} {s s' : State} {o : Outcome Value}
    (guarded : e.node = .attempt body handlers fault finalizer)
    (ended : Eval.run host (fuel + 1) e s = some (o, s')) :
    ∃ steps, Traced.runAttempt (Eval.run host fuel) body handlers fault finalizer s =
      some ((o, s'), steps) := by
  rw [Eval.run_attempt host fuel guarded, ← erase_runAttempt] at ended
  obtain ⟨⟨r, steps⟩, traced, rfl⟩ := Option.map_eq_some_iff.mp ended
  exact ⟨steps, traced⟩

/-- A final block runs once, and last, unless a fault block ran before it and did not complete.

The steps are those of the evaluation, part by part. The final block starts where all that comes
before it ended, and decides how the whole ends unless it completes. After a fault block that does
not complete there is no final block: the whole ends as the fault block did. -/
theorem Eval.finalizer_runs_once_unless_fault_stops (host : Host) (fuel : Nat)
    {e body final : Expr} {handlers : List Handler} {fault : Option Expr} {s s' : State}
    {o : Outcome Value} (guarded : e.node = .attempt body handlers fault (some final))
    (ended : run host (fuel + 1) e s = some (o, s')) :
    ∃ steps, Traced.runAttempt (run host fuel) body handlers fault (some final) s =
        some ((o, s'), steps) ∧
      (∀ st ∈ steps, st.Genuine (run host fuel)) ∧
      (((∀ st ∈ steps, st.part = .fault → st.outcome.completes = true) ∧
          ∃ earlier m handled last, steps = earlier ++ [⟨.finalizer, final, m, last, s'⟩] ∧
            (∀ st ∈ earlier, st.part ≠ .finalizer) ∧
            runAttempt (run host fuel) body handlers fault none s = some (handled, m) ∧
            o = if last.completes then handled else last) ∨
        ∃ earlier last, steps = earlier ++ [last] ∧ last.part = .fault ∧
          last.outcome.completes = false ∧ o = last.outcome ∧ s' = last.after ∧
          ∀ st ∈ steps, st.part ≠ .finalizer) := by
  obtain ⟨steps, traced⟩ := Traced.exists_steps guarded ended
  refine ⟨steps, traced, ?_⟩
  rcases Traced.bind_eq_some.mp traced with ⟨handled, m, first, rest, h, h', rfl⟩ | ⟨o', h, passed⟩
  · -- An outcome was reached, so the final block is next.
    obtain ⟨last, rfl, genuine, decided⟩ := Traced.finalized_eq_some h'
    obtain ⟨evaluated, ⟨-, completed⟩ | ⟨earlier, st, -, -, -, passed, -⟩⟩ :=
      Traced.reached_eq_some h
    · have noFinalizer : ∀ st ∈ first, st.part ≠ .finalizer := evaluated.part_ne (by decide)
      refine ⟨?_, .inl ⟨?_, first, m, handled, last, rfl, noFinalizer,
        Traced.runAttempt_none_of_reached h, decided⟩⟩
      · rw [List.forall_mem_append]
        exact ⟨fun st mem => (evaluated st mem).1, List.forall_mem_singleton.mpr genuine⟩
      · rw [List.forall_mem_append]
        exact ⟨completed, List.forall_mem_singleton.mpr nofun⟩
    · exact absurd passed Outcome.not_passed_value
  · -- No outcome was reached: only a fault block stops short of one.
    obtain ⟨evaluated, ⟨completes, -⟩ | ⟨earlier, last, rfl, isFault, rfl, passed', -⟩⟩ :=
      Traced.reached_eq_some h
    · cases passed <;> cases completes
    · have passed := passed'.trans passed
      have noFinalizer : ∀ st ∈ earlier ++ [last], st.part ≠ .finalizer :=
        evaluated.part_ne (by decide)
      exact ⟨fun st mem => (evaluated st mem).1, .inr ⟨earlier, last, rfl, isFault,
        Bool.eq_false_iff.mpr passed.incomplete, passed.eq, rfl, noFinalizer⟩⟩

/-! ### Exceptions without a handler

`try { throw 1; } finally { 2; }` and `try { throw 1; } fault { throw 3; } finally { 2; }` -/

namespace Unhandled

def throwOne : Expr := ⟨1, .unary .throw ⟨0, .constant (.int32 1) .int32⟩ .void⟩

def throwThree : Expr := ⟨3, .unary .throw ⟨2, .constant (.int32 3) .int32⟩ .void⟩

def final : Expr := ⟨4, .constant (.int32 2) .int32⟩

/-- With this fault block, if any. -/
def guarded (fault : Option Expr) : Expr := ⟨5, .attempt throwOne [] fault (some final)⟩

theorem finalizer_runs_last_or_not_at_all :
    (∃ steps, Traced.runAttempt (Eval.run Host.absent 2) throwOne [] none (some final) {} =
        some ((.throw (.int32 1), {}), steps) ∧
      ∃ earlier last, steps = earlier ++ [last] ∧ last.part = .finalizer ∧
        ∀ st ∈ earlier, st.part ≠ .finalizer) ∧
    ∃ steps, Traced.runAttempt (Eval.run Host.absent 2) throwOne [] (some throwThree) (some final)
        {} = some ((.throw (.int32 3), {}), steps) ∧
      ∀ st ∈ steps, st.part ≠ .finalizer := by
  constructor
  · obtain ⟨steps, traced, -, ⟨-, earlier, m, handled, last, added, unseen, -⟩ | stopped⟩ :=
      Eval.finalizer_runs_once_unless_fault_stops Host.absent 2 (e := guarded none) (s := {})
        rfl rfl
    · exact ⟨steps, traced, earlier, _, added, rfl, unseen⟩
    · obtain ⟨-, -, -, -, -, -, -, unseen⟩ := stopped
      cases traced
      exact absurd rfl (unseen _ (.tail _ (.head _)))
  · obtain ⟨steps, traced, -, ⟨completed, -⟩ | ⟨-, -, -, -, -, -, -, unseen⟩⟩ :=
      Eval.finalizer_runs_once_unless_fault_stops Host.absent 2 (e := guarded (some throwThree))
        (s := {}) rfl rfl
    · cases traced
      exact absurd (completed _ (.tail _ (.head _)) rfl) Bool.false_ne_true
    · exact ⟨steps, traced, unseen⟩

end Unhandled

end ExprTree
