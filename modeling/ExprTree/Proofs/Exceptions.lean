import ExprTree.Proofs.Finally

/-!
Exceptions and calls.

An exception that a body throws is handed to the handlers around the body. One that leaves a closure
is not handed to the handlers around the call: the call ends with a failure that stands for no
exception, so that handlers and fault blocks are passed over.
-/

namespace ExprTree

/-! ### Handlers that run -/

namespace Traced

variable {run : Expr → Eval Value}

/-- A handler that is tried runs, unless it has a filter. -/
theorem tryHandler_eq_some {h : Handler} {exception : Value} {handled : Option (Outcome Value)}
    {s m : State} {steps : List AttemptStep}
    (ended : tryHandler run h exception s = some ((.value handled, m), steps)) :
    (handled.isSome = true ∧ ∃ st ∈ steps, st.part = .handler ∧ st.evaluated = h.body) ∨
      (handled = none ∧ h.filter ≠ none) := by
  have handle {s m : State} (ended : (do
      if ← accepts run h.filter then return some (← (step run .handler h.body).settle)
      else return none : Traced (Option (Outcome Value))) s = some ((.value handled, m), steps)) :
      (handled.isSome = true ∧ ∃ st ∈ steps, st.part = .handler ∧ st.evaluated = h.body) ∨
        (handled = none ∧ h.filter ≠ none) := by
    have accepting : Returns run [.filter] (accepts run h.filter) := .accepts (by decide) h.filter
    have handling : Returns run [.handler] (step run .handler h.body).settle :=
      .settle_step .handler (by decide) h.body
    obtain ⟨accepted, m', first, rest, decided, -, ended', rfl⟩ := accepting.of_bind ended
    cases accepted with
    | false =>
        cases ended'
        refine .inr ⟨rfl, fun unfiltered => ?_⟩
        rw [unfiltered] at decided
        cases decided
    | true =>
        obtain ⟨o, m'', second, last, ran, -, ended'', rfl⟩ := handling.of_bind ended'
        obtain ⟨o', -, -, rfl⟩ := settle_step_eq_some ran
        cases ended''
        exact .inl ⟨rfl, _, List.mem_append_right _ (.head _), rfl, rfl⟩
  unfold tryHandler at ended
  cases caught : h.caught with
  | none =>
      rw [caught] at ended
      exact handle ended
  | some p =>
      rw [caught] at ended
      obtain ⟨⟨⟨o, m'⟩, steps'⟩, ended', made⟩ := Option.map_eq_some_iff.mp ended
      cases made
      exact handle ended'

/-- Among handlers with one that takes the exception for its type alone, one runs. -/
theorem runHandlers_eq_some {exception : Value} {hs : List Handler} {h : Handler} (mem : h ∈ hs)
    (unfiltered : h.filter = none) (taken : h.tested.assignableFrom exception.typeOf = true)
    {handled : Option (Outcome Value)} {s m : State} {steps : List AttemptStep}
    (ended : runHandlers run exception hs s = some ((.value handled, m), steps)) :
    handled.isSome = true ∧ ∃ st ∈ steps, st.part = .handler ∧
      ∃ h ∈ hs, h.tested.assignableFrom exception.typeOf = true ∧ st.evaluated = h.body := by
  induction hs generalizing s steps with
  | nil => cases mem
  | cons h' hs ih =>
      have later {s : State} {steps : List AttemptStep} (mem : h ∈ hs)
          (ended : runHandlers run exception hs s = some ((.value handled, m), steps)) :
          handled.isSome = true ∧ ∃ st ∈ steps, st.part = .handler ∧ ∃ h ∈ h' :: hs,
            h.tested.assignableFrom exception.typeOf = true ∧ st.evaluated = h.body := by
        obtain ⟨ran, st, among, part, h'', mem', rest⟩ := ih mem ended
        exact ⟨ran, st, among, part, h'', .tail _ mem', rest⟩
      unfold runHandlers at ended
      split at ended
      case isTrue taken' =>
          have trying : Returns run [.filter, .handler] (tryHandler run h' exception) :=
            .tryHandler (by decide) (by decide) h' exception
          obtain ⟨tried, m', first, rest, tries, -, ended', rfl⟩ := trying.of_bind ended
          rcases tryHandler_eq_some tries with ⟨ran, st, among, part, evaluated⟩ | ⟨rfl, filtered⟩
          · cases tried with
            | none => cases ran
            | some o =>
                cases ended'
                exact ⟨rfl, st, List.mem_append_left _ among, part, h', .head _, taken', evaluated⟩
          · -- This handler's filter refused, so the one without a filter is a later one.
            rcases List.mem_cons.mp mem with rfl | mem
            · exact absurd unfiltered filtered
            · obtain ⟨ran, st, among, which⟩ := later mem ended'
              exact ⟨ran, st, List.mem_append_right _ among, which⟩
      case isFalse refused =>
          rcases List.mem_cons.mp mem with rfl | mem
          · exact absurd taken refused
          · exact later mem ended

section

variable {body : Expr} {handlers : List Handler} {fault : Option Expr} {s s' m : State}
  {exception : Value} {steps : List AttemptStep} {h : Handler}

theorem searched_of_throw (thrown : run body s = some (.throw exception, m)) (mem : h ∈ handlers)
    (unfiltered : h.filter = none) (taken : h.tested.assignableFrom exception.typeOf = true)
    {handled : Outcome Value} {left : Option Expr}
    (ended : searched run body handlers fault s = some ((.value (handled, left), s'), steps)) :
    left = none ∧ ∃ st ∈ steps, st.part = .handler ∧
      ∃ h ∈ handlers, h.tested.assignableFrom exception.typeOf = true ∧ st.evaluated = h.body := by
  have starting : Returns run [.body] (step run .body body).settle :=
    .settle_step .body (by decide) body
  have raising : Returns run [] (quiet (Eval.exceptionOf (.throw exception))) := .exceptionOf _
  have searching : Returns run [.filter, .handler] (runHandlers run exception handlers) :=
    .runHandlers (by decide) (by decide) exception handlers
  obtain ⟨o, m₁, first, rest, started, -, ended₁, rfl⟩ := starting.of_bind ended
  obtain ⟨o', made, started', rfl⟩ := settle_step_eq_some started
  cases made
  cases thrown.symm.trans started'
  obtain ⟨caught, m₂, second, rest, raised, -, ended₂, rfl⟩ := raising.of_bind ended₁
  cases raised
  obtain ⟨tried, m₃, third, last, tries, -, ended₃, rfl⟩ := searching.of_bind ended₂
  obtain ⟨ran, st, among, which⟩ := runHandlers_eq_some mem unfiltered taken tries
  cases tried with
  | none => cases ran
  | some o =>
      cases ended₃
      refine ⟨rfl, st, ?_, which⟩
      simp only [List.mem_append]
      exact .inr (.inr (.inl among))

/-- Where a handler takes the exception for its type alone, one runs, and the fault block does
not. -/
theorem runAttempt_of_throw (thrown : run body s = some (.throw exception, m)) (mem : h ∈ handlers)
    (unfiltered : h.filter = none) (taken : h.tested.assignableFrom exception.typeOf = true)
    {finalizer : Option Expr} {o : Outcome Value}
    (ended : runAttempt run body handlers fault finalizer s = some ((o, s'), steps)) :
    (∀ st ∈ steps, st.part ≠ .fault) ∧
      ∃ st ∈ steps, st.part = .handler ∧ st.Genuine run ∧ ∃ h ∈ handlers,
        h.tested.assignableFrom exception.typeOf = true ∧ st.evaluated = h.body := by
  have search : Returns run _ (searched run body handlers fault) := .searched body handlers fault
  rcases bind_eq_some.mp ended with ⟨handled, m₁, first, rest, h₁, h₂, rfl⟩ | ⟨o', h₁, passed⟩
  · obtain ⟨⟨handled', left⟩, m₂, early, late, searches, evaluated, h₃, rfl⟩ := search.of_bind h₁
    obtain ⟨rfl, st, among, part, which⟩ := searched_of_throw thrown mem unfiltered taken searches
    cases h₃
    have noFault : ∀ st ∈ early, st.part ≠ .fault := evaluated.part_ne (by decide)
    have final : ∀ st ∈ rest, st.part ≠ .fault := by
      cases finalizer with
      | none =>
          cases h₂
          exact List.forall_mem_nil _
      | some e =>
          obtain ⟨last, rfl, -⟩ := finalized_eq_some h₂
          exact List.forall_mem_singleton.mpr nofun
    simp only [List.append_nil, List.mem_append]
    exact ⟨fun st => Or.rec (noFault st) (final st), st, .inl among, part, (evaluated st among).1,
      which⟩
  · obtain ⟨⟨handled', left⟩, m₂, early, late, searches, -, h₃, -⟩ := search.of_bind h₁
    obtain ⟨rfl, -⟩ := searched_of_throw thrown mem unfiltered taken searches
    cases h₃
    cases passed

end

end Traced

/-! ### Calls of closures -/

/-- The expression calls what its target gives. -/
inductive Expr.Invokes (e target : Expr) (arguments : List Expr) : Prop
  | invocation (type : Ty) (node : e.node = .invocation target arguments type)
  | call (m : Method) (named : m.name = "Invoke") (node : e.node = .call (some target) m arguments)

namespace Eval

/-- The state with variables in scope. -/
def bindAll : List (Parameter × Value) → State → State
  | [], s => s
  | (p, v) :: rest, s => bindAll rest (setScope s (s.frame.scope.insert p.id v))

/-- Variables that go out of scope leave the rest of the state as it is. -/
theorem withVariables_eq_some {α : Type} {x : Eval α} {vars : List (Parameter × Value)}
    {s m : State} {o : Outcome α} (ended : x (bindAll vars s) = some (o, m)) :
    ∃ frame, withVariables vars x s = some (o, { m with frame }) := by
  induction vars generalizing s with
  | nil => exact ⟨m.frame, ended⟩
  | cons var vars ih =>
      obtain ⟨frame, rest⟩ := ih ended
      exact ⟨_, congrArg (Option.map _) rest⟩

/-- An evaluation that calls a closure with as many arguments as it takes, and whose body throws. -/
structure ThrowingCall (host : Host) (fuel : Nat) (e : Expr) (s : State) where
  target : Expr
  arguments : List Expr
  invokes : e.Invokes target arguments
  closure : ObjectRef
  made : State
  targetEnds : run host fuel target s = some (.value (.object closure), made)
  values : List Value
  called : State
  argumentsEnd : runAll (run host fuel) arguments made = some (.value values, called)
  lambda : Lambda
  frame : Frame
  isClosure : called.heap.get? closure.ref = some (.closure lambda frame)
  fits : values.length = lambda.parameters.length
  body : Expr
  supply : Supply
  lowers : lambda.body.lower called.supply = .ok (body, supply)
  exception : Value
  thrown : State
  throws : run host fuel body (bindAll (lambda.parameters.zip values) { called with frame, supply })
    = some (.throw exception, thrown)

namespace ThrowingCall

variable {host : Host} {fuel : Nat} {e : Expr} {s : State}

/-- The state in which the body starts. -/
def entered (c : ThrowingCall host fuel e s) : State :=
  bindAll (c.lambda.parameters.zip c.values) { c.called with frame := c.frame, supply := c.supply }

/-- The state in which the call ends: the caller's variables are in scope again. -/
def returned (c : ThrowingCall host fuel e s) : State :=
  { c.thrown with frame := c.called.frame }

theorem applyWith_eq (c : ThrowingCall host fuel e s) :
    applyWith (run host fuel) c.lambda c.frame c.values c.called =
      some (.fail (.uncaught c.exception), c.returned) := by
  obtain ⟨frame, ended⟩ := withVariables_eq_some c.throws
  have lowers : build c.lambda.body.lower { c.called with frame := c.frame } =
      some (.value c.body, { c.called with frame := c.frame, supply := c.supply }) := by
    simp only [build, c.lowers]
  have invoked : invokeWith (run host fuel) c.lambda c.values { c.called with frame := c.frame } =
      some (.fail (.uncaught c.exception), { c.thrown with frame }) := by
    unfold invokeWith
    rw [if_neg fun other => other c.fits, bind_of_value lowers]
    exact congrArg (Option.map _) ended
  exact congrArg (Option.map _) invoked

/-- The call fails. -/
theorem run_eq (c : ThrowingCall host fuel e s) :
    run host (fuel + 1) e s = some (.fail (.uncaught c.exception), c.returned) := by
  have calls (m : Method) (named : m.name = "Invoke") :
      callOn host (applyWith (run host fuel)) (.object c.closure) m c.values c.called =
        some (.fail (.uncaught c.exception), c.returned) := by
    have object : (Value.object c.closure).isNull = false := rfl
    have otherName : (decide (m.name = "GetType") && c.values.isEmpty) = false := by
      rw [named]
      rfl
    have found : get c.called = some (.value c.called, c.called) := rfl
    unfold callOn
    rw [if_neg (Bool.eq_false_iff.mp object), if_neg (Bool.eq_false_iff.mp otherName)]
    change objectCall host _ c.closure m c.values c.called = _
    unfold objectCall
    rw [bind_of_value found, c.isClosure]
    dsimp only
    rw [if_pos named, c.applyWith_eq]
  cases c.invokes with
  | invocation type node =>
      simp only [run, runNode, node]
      rw [bind_of_value c.targetEnds, bind_of_value c.argumentsEnd]
      exact calls _ rfl
  | call m named node =>
      simp only [run, runNode, node, runCall]
      rw [bind_of_value c.targetEnds, bind_of_value c.argumentsEnd]
      exact calls m named

end ThrowingCall

/-- A failure that stands for no exception passes every handler and the fault block. -/
theorem runAttempt_of_fail {run : Expr → Eval Value} {body : Expr} {s m : State} {f : Failure}
    (ended : run body s = some (.fail f, m)) (uncatchable : f.exceptionType? = none)
    (handlers : List Handler) (fault finalizer : Option Expr) :
    runAttempt run body handlers fault finalizer s =
      (runOptional run finalizer >>= fun _ => fail f : Eval Value) m := by
  have settled : (run body).settle s = some (.value (.fail f), m) := by
    simp only [settle, ended, Option.map_some]
  have unraised : exceptionOf (.fail f) m = some (.value none, m) := by
    simp only [exceptionOf, uncatchable]
    rfl
  unfold runAttempt
  rw [bind_of_value settled, bind_of_value unraised]
  rfl

/-- A handler around the closure's own body runs; one around the call does not.

Around the call, neither the handlers nor the fault block matter: the final block runs, and the
exception is a failure from then on. So it is further out, wherever the failure ends a body. Were
the closure's body in the place of the call, then a handler would run for the exception as soon as
one takes it for its type alone. -/
theorem ThrowingCall.exception_passes_handlers {host : Host} {fuel : Nat} {call : Expr} {s : State}
    (c : ThrowingCall host fuel call s) {around inside : Expr} {handlers : List Handler}
    {fault finalizer : Option Expr} (guarded : around.node = .attempt call handlers fault finalizer)
    (inlined : inside.node = .attempt c.body handlers fault finalizer) :
    run host (fuel + 2) around s =
        (runOptional (run host (fuel + 1)) finalizer >>= fun _ => fail (.uncaught c.exception) :
          Eval Value) c.returned ∧
      (∀ (n : Nat) (outer body : Expr) handlers fault finalizer s₁ m,
        outer.node = .attempt body handlers fault finalizer →
        run host n body s₁ = some (.fail (.uncaught c.exception), m) →
        run host (n + 1) outer s₁ =
          (runOptional (run host n) finalizer >>= fun _ => fail (.uncaught c.exception) :
            Eval Value) m) ∧
      ∀ h ∈ handlers, h.filter = none → h.tested.assignableFrom c.exception.typeOf = true →
        ∀ o s', run host (fuel + 1) inside c.entered = some (o, s') →
          ∃ steps, Traced.runAttempt (run host fuel) c.body handlers fault finalizer c.entered =
              some ((o, s'), steps) ∧
            (∀ st ∈ steps, st.part ≠ .fault) ∧
            ∃ st ∈ steps, st.part = .handler ∧ st.Genuine (run host fuel) ∧ ∃ h ∈ handlers,
              h.tested.assignableFrom c.exception.typeOf = true ∧ st.evaluated = h.body := by
  refine ⟨?_, ?_, ?_⟩
  · rw [run_attempt host (fuel + 1) guarded, runAttempt_of_fail c.run_eq rfl]
  · intro n outer body handlers fault finalizer s₁ m surrounds ended
    rw [run_attempt host n surrounds, runAttempt_of_fail ended rfl]
  · intro h mem unfiltered taken o s' ended
    obtain ⟨steps, traced⟩ := Traced.exists_steps inlined ended
    exact ⟨steps, traced, Traced.runAttempt_of_throw c.throws mem unfiltered taken traced⟩

/-! ### A closure that throws its argument

`try { (x => throw x)(1); } catch (int) { 7; }` -/

namespace ThrowingLambda

def x : Parameter := ⟨0, some "x", .int32⟩

def throwX : Expr := ⟨2, .unary .throw ⟨1, .parameter x⟩ .void⟩

def thrower : Lambda := ⟨none, [x], throwX, .void⟩

def call : Expr :=
  ⟨5, .invocation ⟨3, .lambda thrower⟩ [⟨4, .constant (.int32 1) .int32⟩] .void⟩

def handler : Handler := ⟨.int32, none, none, ⟨6, .constant (.int32 7) .int32⟩⟩

/-- The call, in the empty state. -/
def throwing : ThrowingCall Host.absent 3 call {} :=
  let made : State := { heap := (Heap.newObject {} thrower.type (.closure thrower {})).2 }
  { target := ⟨3, .lambda thrower⟩
    arguments := [⟨4, .constant (.int32 1) .int32⟩]
    invokes := .invocation .void rfl
    closure := ⟨0, thrower.type⟩
    made
    targetEnds := rfl
    values := [.int32 1]
    called := made
    argumentsEnd := rfl
    lambda := thrower
    frame := {}
    isClosure := rfl
    fits := rfl
    body := throwX
    supply := 0
    lowers := rfl
    exception := .int32 1
    thrown := bindAll [(x, .int32 1)] made
    throws := rfl }

def around : Expr := ⟨7, .attempt call [handler] none none⟩

def inside : Expr := ⟨8, .attempt throwX [handler] none none⟩

theorem handler_runs_inside_only :
    run Host.absent 5 around {} = some (.fail (.uncaught (.int32 1)), throwing.returned) ∧
      run Host.absent 4 inside throwing.entered = some (.value (.int32 7), throwing.entered) ∧
      ∃ steps, Traced.runAttempt (run Host.absent 3) throwX [handler] none none throwing.entered =
          some ((.value (.int32 7), throwing.entered), steps) ∧
        ∃ st ∈ steps, st.part = .handler := by
  have guarded : around.node = .attempt call [handler] none none := rfl
  have inlined : inside.node = .attempt throwing.body [handler] none none := rfl
  obtain ⟨fails, -, catches⟩ := throwing.exception_passes_handlers guarded inlined
  have handled : run Host.absent 4 inside throwing.entered =
      some (.value (.int32 7), throwing.entered) := rfl
  obtain ⟨steps, traced, -, st, mem, part, -⟩ :=
    catches handler (.head _) rfl (by decide) _ _ handled
  exact ⟨fails, handled, steps, traced, st, mem, part⟩

end ThrowingLambda

end Eval

end ExprTree
