import ExprTree.Proofs.Acceptance
import ExprTree.Proofs.ForEachDisposal

/-!
A lowered `using` does what the statement does when it is run directly.

Rules tell what a `using` does, with the steps it takes: the resource, the body, and `Dispose()` in
the end. The block that it is reduced to takes the course of the rules (`UsingShape.executes_iff`).
So the body runs once if the resource can be used, and then the resource is disposed of once unless
it is null, however the body ends.
-/

namespace ExprTree

/-! ### Rules -/

namespace Direct

open Eval

/-- A `using`, with the variable that it has for itself and the type that its body has. -/
structure Using where
  disposable : Parameter
  resource : Expr
  body : Expr
  type : Ty

/-- What a `using` does beside handling its variable. -/
inductive UsingAction where
  | resource
  | body
  | dispose (resource : Value)

/-- One action of a `using`, and how it ended. -/
structure UsingStep where
  action : UsingAction
  before : State
  outcome : Outcome Value
  after : State

namespace Using

/-- Whether a value can be the resource of a `using`. -/
def accepts (v : Value) : Bool := v.isNull || Ty.disposable.assignableFrom v.typeOf

variable (block : Using) (host : Host)

/-- What an action comes to. -/
noncomputable def act : UsingAction → Eval Value
  | .resource => denote host block.resource
  | .body => denote host block.body
  | .dispose resource => ForEach.call host resource .dispose

/-- The steps are what their actions come to, and each starts with the host as the one before left
it. -/
inductive Accounts : List HostCall → List UsingStep → List HostCall → Prop
  | nil {history : List HostCall} : Accounts history [] history
  | cons {s s' : State} {action : UsingAction} {o : Outcome Value} {steps : List UsingStep}
      {last : List HostCall} (genuine : block.act host action s = some (o, s'))
      (rest : Accounts s'.history steps last) :
      Accounts s.history (⟨action, s, o, s'⟩ :: steps) last

/-- Disposing of a resource unless it is null. -/
inductive Disposal (resource : Value) : State → List UsingStep → Outcome Value → State → Prop
  | called {s s' : State} {o : Outcome Value} (present : resource.isNull = false)
      (disposed : block.act host (.dispose resource) s = some (o, s')) :
      Disposal resource s [⟨.dispose resource, s, o, s'⟩] o s'
  | spared {s : State} (null : resource.isNull = true) : Disposal resource s [] (.value .void) s

/-- What the whole comes to when its end is this one: there is no value if the body has none. -/
def closed : Outcome Value → Outcome Value
  | .value v => .value (if block.type.isVoid then .void else v)
  | .jump target v => .jump target v
  | .throw exception => .throw exception
  | .fail f => .fail f

/-- The `using` within the scope of its variable. An exception is at hand while the resource is
disposed of, and what goes wrong then takes the place of how the body ended. -/
inductive Runs : State → List UsingStep → Outcome Value → State → Prop
  | failed {s s' : State} {o : Outcome Value} (given : block.act host .resource s = some (o, s'))
      (stopped : o.completes = false) : Runs s [⟨.resource, s, o, s'⟩] o s'
  | refused {s s' : State} {resource : Value}
      (given : block.act host .resource s = some (.value resource, s'))
      (unfit : accepts resource = false) :
      Runs s [⟨.resource, s, .value resource, s'⟩]
        (.fail (.invalidCast resource.typeOf .disposable)) s'
  | left {s m m' m'' s' : State} {resource : Value} {caught : Option Value}
      {steps : List UsingStep} {ended o : Outcome Value}
      (given : block.act host .resource s = some (.value resource, m))
      (fit : accepts resource = true)
      (ran : block.act host .body (holding block.disposable resource m) = some (ended, m'))
      (noted : exceptionOf ended m' = some (.value caught, m''))
      (disposal : block.Disposal host resource m'' steps o s') :
      Runs s
        (⟨.resource, s, .value resource, m⟩ ::
          ⟨.body, holding block.disposable resource m, ended, m'⟩ :: steps)
        (block.closed (if o.completes then ended else o)) s'

/-- A `using`: its variable holds the default of its type at first, and is put back in the end. -/
def Executes (s : State) (steps : List UsingStep) (o : Outcome Value) (s' : State) : Prop :=
  ∃ m, block.Runs host (holding block.disposable (.defaultOf block.disposable.type) s) steps o m ∧
    s' = setScope m (m.frame.scope.restore block.disposable.id
      (s.frame.scope.find? block.disposable.id))

/-! ### Order of the steps -/

/-- The steps of a `using` and what it comes to. The resource comes first. Unless it fails or cannot
be used, the body comes next, and then the resource is disposed of if it is not null. The body tells
what the whole comes to, unless the disposal goes wrong. -/
inductive Orderly : List UsingStep → Outcome Value → Prop
  | failed {resource : UsingStep} (first : resource.action = .resource)
      (stopped : resource.outcome.completes = false) : Orderly [resource] resource.outcome
  | refused {resource : UsingStep} {v : Value} (first : resource.action = .resource)
      (given : resource.outcome = .value v) (unfit : accepts v = false) :
      Orderly [resource] (.fail (.invalidCast v.typeOf .disposable))
  | spared {resource body : UsingStep} {v : Value} (first : resource.action = .resource)
      (given : resource.outcome = .value v) (null : v.isNull = true)
      (second : body.action = .body) : Orderly [resource, body] (block.closed body.outcome)
  | disposed {resource body last : UsingStep} {v : Value} (first : resource.action = .resource)
      (given : resource.outcome = .value v) (fit : accepts v = true) (present : v.isNull = false)
      (second : body.action = .body) (third : last.action = .dispose v) :
      Orderly [resource, body, last]
        (if last.outcome.completes then block.closed body.outcome else last.outcome)

variable {block host} {s s' : State} {steps : List UsingStep} {o : Outcome Value}

theorem closed_ite (ended : Outcome Value) :
    block.closed (if o.completes then ended else o) =
      if o.completes then block.closed ended else o := by
  cases o <;> rfl

theorem Disposal.accounts {resource : Value}
    (disposal : block.Disposal host resource s steps o s') :
    block.Accounts host s.history steps s'.history := by
  cases disposal with
  | called present disposed => exact .cons disposed .nil
  | spared => exact .nil

/-- The host is called in the steps of a `using` only. -/
theorem Executes.accounts (executes : block.Executes host s steps o s') :
    block.Accounts host s.history steps s'.history := by
  obtain ⟨m, runs, rfl⟩ := executes
  show block.Accounts host (holding block.disposable (.defaultOf block.disposable.type) s).history
    steps m.history
  cases runs with
  | failed given => exact .cons given .nil
  | refused given => exact .cons given .nil
  | left given fit ran noted disposal =>
      refine .cons given (.cons ran ?_)
      rw [← (ForEach.exceptionOf_eq_some noted).2]
      exact disposal.accounts

/-- The steps of a `using` are in order, whatever the host answers and however the body ends. -/
theorem Executes.orderly (executes : block.Executes host s steps o s') :
    block.Orderly steps o := by
  obtain ⟨m, runs, -⟩ := executes
  cases runs with
  | failed given stopped => exact .failed rfl stopped
  | refused given unfit => exact .refused rfl rfl unfit
  | left given fit ran noted disposal =>
      cases disposal with
      | spared null => exact .spared rfl rfl null rfl
      | called present disposed =>
          rw [closed_ite]
          exact .disposed rfl rfl fit present rfl rfl

end Using

end Direct

/-! ### What a lowered `using` means -/

namespace Lowering

open Eval Direct

variable {host : Host} {block : Using} {s s' : State} {o : Outcome Value}

theorem convert_disposable (v : Value) :
    v.convert .disposable false =
      if Using.accepts v then .ok v else .error (.invalidCast v.typeOf .disposable) := by
  unfold Value.convert
  by_cases same : v.typeOf = .disposable
  · have fits : Ty.disposable.assignableFrom .disposable = true := by decide
    rw [if_pos same, Using.accepts, same, fits, Bool.or_true, if_pos rfl]
  · rw [if_neg same]
    cases null : v.isNull with
    | true =>
        obtain rfl : v = .null := by cases v <;> first | rfl | cases null
        rfl
    | false =>
        rw [if_neg Bool.false_ne_true, if_neg (by decide), Value.upcast, Using.accepts, null,
          Bool.false_or]
        rfl

/-- What a lowered `using` means. -/
theorem UsingShape.denote_eq (host : Host) {e : Expr}
    (shape : UsingShape block.disposable block.resource block.body e)
    (typed : block.body.type = block.type) :
    ∃ cleanup, DisposesUnlessNull block.disposable cleanup ∧
      denote host e = withVariable block.disposable (.defaultOf block.disposable.type) (do
        let v ← denote host block.resource
        let resource ← v.convert .disposable false
        assign block.disposable resource
        let ended ← (denote host block.body).settle
        let o ← (leave host (some cleanup) ended).settle
        finish (block.closed o)) := by
  obtain ⟨store, value, guarded, cleanup, node, stores, converts, guards, disposes⟩ := shape
  have guards : Guards (some cleanup) block.body guarded := guards
  have unplaced (t : Label) : after? t [store, guarded] = none := by
    have other : guarded.placed? = none := by
      simp only [Expr.placed?, show guarded.node = _ from guards]
    rw [after?_cons_of_unplaced stores.placed?_eq_none, after?_cons_of_unplaced other, after?]
  have closes (x : Eval Value) :
      (x >>= fun v => pure (if block.type.isVoid then .void else v)) =
        x.settle >>= fun o => finish (block.closed o) := by
    refine (bind_eq_settle_bind x _).trans (bind_congr fun o => ?_)
    cases o <;> rfl
  refine ⟨cleanup, disposes, ?_⟩
  rw [denote_block host node, typed]
  refine (withVariable_bind_pure _ _ _ _).trans ?_
  congr 1
  rw [List.map_nil, withVariables, denoteStatements_cons_of_unplaced host _ _ fun t _ => unplaced t,
    stores.denote_eq, denote_of_node host converts rfl]
  simp only [runNode, runUnary, bind_assoc, pure_bind]
  refine bind_congr fun v => bind_congr fun resource => bind_congr fun _ => ?_
  rw [closes, denoteStatements_last host unplaced, guards.denote_eq, settle_bind_settle_bind]

/-- The final block disposes of what the variable holds. -/
theorem disposal_of_using_iff {cleanup : Expr} {resource : Value}
    (disposes : DisposesUnlessNull block.disposable cleanup)
    (held : s.frame.scope.find? block.disposable.id = some resource) :
    denote host cleanup s = some (o, s') ↔
      ∃ steps, block.Disposal host resource s steps o s' := by
  rw [disposes.denote_eq, bind_of_value (load_of_find? held)]
  cases null : resource.isNull with
  | true =>
      rw [if_pos rfl]
      constructor
      · rintro ⟨⟩
        exact ⟨[], .spared null⟩
      · rintro ⟨steps, disposal⟩
        cases disposal with
        | called present => exact absurd null (by simp [present])
        | spared => rfl
  | false =>
      rw [if_neg Bool.false_ne_true, bind_of_value (load_of_find? held)]
      constructor
      · intro disposed
        exact ⟨_, .called null disposed⟩
      · rintro ⟨steps, disposal⟩
        cases disposal with
        | called _ disposed => exact disposed
        | spared isNull => exact absurd isNull (by simp [null])

/-- What follows once the body has ended. -/
theorem leave_using_iff {cleanup : Expr} {resource : Value} {ended : Outcome Value}
    (disposes : DisposesUnlessNull block.disposable cleanup)
    (held : s.frame.scope.find? block.disposable.id = some resource) :
    leave host (some cleanup) ended s = some (o, s') ↔
      ∃ caught m steps o', exceptionOf ended s = some (.value caught, m) ∧
        block.Disposal host resource m steps o' s' ∧ o = if o'.completes then ended else o' := by
  have follows {caught : Option Value} {m : State}
      (noted : exceptionOf ended s = some (.value caught, m)) :
      (denote host cleanup >>= fun _ => ended.resume) m = some (o, s') ↔
        ∃ steps o', block.Disposal host resource m steps o' s' ∧
          o = if o'.completes then ended else o' := by
    have held : m.frame.scope.find? block.disposable.id = some resource := by
      rwa [(Steady.exceptionOf ended _ _ _ noted).1]
    refine bind_finish_iff.trans ?_
    simp only [disposal_of_using_iff disposes held]
    exact ⟨fun ⟨o', ⟨steps, h⟩, told⟩ => ⟨steps, o', h, told⟩,
      fun ⟨steps, o', h, told⟩ => ⟨o', ⟨steps, h⟩, told⟩⟩
  constructor
  · intro left
    rcases bind_eq_some.mp left with ⟨caught, m, noted, rest⟩ | ⟨o', noted, passed⟩
    · obtain ⟨steps, o', disposal, told⟩ := (follows noted).mp rest
      exact ⟨caught, m, steps, o', noted, disposal, told⟩
    · exact absurd (ForEach.exceptionOf_eq_some noted).1 passed.incomplete
  · rintro ⟨caught, m, steps, o', noted, disposal, told⟩
    exact bind_eq_some.mpr
      (.inl ⟨caught, m, noted, (follows noted).mpr ⟨steps, o', disposal, told⟩⟩)

/-- A lowered `using` takes the course of the rules. -/
theorem UsingShape.executes_iff {e : Expr}
    (shape : UsingShape block.disposable block.resource block.body e)
    (typed : block.body.type = block.type) (apart : block.disposable.id ∉ block.body.assigned) :
    denote host e s = some (o, s') ↔ ∃ steps, block.Executes host s steps o s' := by
  obtain ⟨cleanup, disposes, means⟩ := shape.denote_eq host typed
  rw [means, withVariable_eq_some]
  -- The variable is in scope from the start, and the body does not store to it.
  have assigns {m : State} {o : Outcome Value} (resource : Value)
      (given : block.act host .resource (holding block.disposable
        (.defaultOf block.disposable.type) s) = some (o, m)) :
      assign block.disposable resource m =
        some (.value (), holding block.disposable resource m) := by
    refine assign_of_bound ?_ resource
    rw [(keepsBut_denote host block.resource _ _ _ given).bound, ForEach.find?_holding, if_pos rfl]
    rfl
  have held {m m' : State} {resource : Value} {ended : Outcome Value}
      (ran : block.act host .body (holding block.disposable resource m) = some (ended, m')) :
      m'.frame.scope.find? block.disposable.id = some resource := by
    rw [(keepsBut_denote host block.body _ _ _ ran).value _ apart, ForEach.find?_holding,
      if_pos rfl]
  constructor
  · rintro ⟨m, h, rfl⟩
    suffices ∃ steps, block.Runs host (holding block.disposable
        (.defaultOf block.disposable.type) s) steps o m by
      obtain ⟨steps, runs⟩ := this
      exact ⟨steps, m, runs, rfl⟩
    rcases bind_eq_some.mp h with ⟨resource, m₁, given, rest⟩ | ⟨o', given, passed⟩
    · rw [convert_disposable] at rest
      cases fit : Using.accepts resource with
      | false =>
          rw [fit] at rest
          cases rest
          exact ⟨_, .refused given fit⟩
      | true =>
          rw [fit, if_pos rfl] at rest
          change (assign block.disposable resource >>= _) m₁ = _ at rest
          rw [bind_of_value (assigns resource given)] at rest
          obtain ⟨ended, m₂, ran, rest⟩ := settle_bind_eq_some.mp rest
          obtain ⟨o', m₃, left, rest⟩ := settle_bind_eq_some.mp rest
          cases rest
          obtain ⟨caught, m₄, steps, o'', noted, disposal, rfl⟩ :=
            (leave_using_iff disposes (held ran)).mp left
          exact ⟨_, .left given fit ran noted disposal⟩
    · obtain rfl := passed.eq
      exact ⟨_, .failed given (by simpa using passed.incomplete)⟩
  · rintro ⟨steps, m, runs, rfl⟩
    refine ⟨m, ?_, rfl⟩
    cases runs with
    | failed given stopped => exact bind_of_passed given (.of_incomplete stopped)
    | refused given unfit =>
        refine (bind_of_value given).trans ?_
        rw [convert_disposable, unfit]
        rfl
    | left given fit ran noted disposal =>
        refine (bind_of_value given).trans ?_
        rw [convert_disposable, fit, if_pos rfl]
        refine (bind_of_value (assigns _ given)).trans ?_
        refine settle_bind_eq_some.mpr ⟨_, _, ran, settle_bind_eq_some.mpr ⟨_, _, ?_, rfl⟩⟩
        exact (leave_using_iff disposes (held ran)).mpr ⟨_, _, _, _, noted, disposal, rfl⟩

/-! ### What a `using` is reduced to -/

/-- The rules are for a `using` over its lowered parts, and the variable that it has for itself is
the first that the supply has. -/
structure RepresentsUsing (block : Using) (k : Supply) (e resource body : Expr) : Prop where
  node : e.node = .usingBlock resource body
  type : block.type = body.type
  resource : resource.LowersTo block.resource
  body : body.LowersTo block.body
  disposable : block.disposable = ⟨k, some "disposable", .disposable⟩

/-- The block that a `using` is reduced to takes the course of the rules, and ends if and only if
they do. Whatever the host answers, it is called in their steps only, and these are in order: the
resource once, then the body once unless the resource fails or cannot be used, and then `Dispose()`
once unless the resource is null. It comes to what the body came to, unless `Dispose()` goes wrong.
The supply is beyond the variables that the body assigns. -/
theorem reduced_using_disposes_once (host : Host) {e lowered resource body : Expr} {k k' : Supply}
    (isUsing : e.node = .usingBlock resource body) (older : ∀ x ∈ body.assigned, x < k)
    (reduced : e.reduce k = .ok (lowered, k')) :
    ∃ block : Using, RepresentsUsing block k e resource body ∧
      (∀ s o s', (∃ n, run host n lowered s = some (o, s')) ↔
        ∃ steps, block.Executes host s steps o s') ∧
      ∀ s steps o s', block.Executes host s steps o s' →
        block.Accounts host s.history steps s'.history ∧ block.Orderly steps o := by
  have built : usingBlock Expr.lower resource body k = .ok (lowered, k') := by
    simpa only [Expr.reduce, Expr.reduceWith, isUsing] using reduced
  obtain ⟨resource', body', resourceTo, bodyTo, shape⟩ := usingShape_of_usingBlock built
  have typed : body'.type = body.type := by
    obtain ⟨m, m', ok⟩ := bodyTo
    exact (body.decides_lower.sound m body' m' ok).2.type
  refine ⟨⟨⟨k, some "disposable", .disposable⟩, resource', body', body.type⟩,
    ⟨isUsing, rfl, resourceTo, bodyTo, rfl⟩, ?_, fun s steps o s' executes =>
      ⟨executes.accounts, executes.orderly⟩⟩
  intro s o s'
  rw [← isLimit_run host lowered s (o, s')]
  refine UsingShape.executes_iff shape typed fun mem => ?_
  exact Nat.lt_irrefl k (older k (Expr.assigned_subset_of_lowersTo bodyTo mem))

/-! ### A body that throws

`using (resource) throw "late";` -/

namespace ThrowingUsing

def resource : Expr := ⟨0, .constant (.object ⟨0, .disposable⟩) .disposable⟩

def body : Expr := ⟨2, .unary .throw ⟨1, .constant (.string "late") .string⟩ .void⟩

def whole : Expr := ⟨3, .usingBlock resource body⟩

/-- A host that lets everything be called. -/
def willing : Host := ⟨fun _ heap _ => some ⟨.value .void, heap⟩⟩

def start : State where
  heap := ⟨#[.external]⟩

def lowered : Expr := ((whole.reduce 4).toOption.map Prod.fst).getD whole

/-- The exception that a run ends in, and how often the host was called. -/
def ending : Outcome Value × State → Option Value × Nat
  | (.throw exception, s) => (some exception, s.history.length)
  | (_, s) => (none, s.history.length)

theorem thrown_after_dispose :
    ∃ k' s', whole.reduce 4 = .ok (lowered, k') ∧
      run willing 6 lowered start = some (.throw (.string "late"), s') ∧ s'.history.length = 1 ∧
      ∃ (block : Using) (steps : List UsingStep), RepresentsUsing block 4 whole resource body ∧
        block.Executes willing start steps (.throw (.string "late")) s' ∧
        block.Accounts willing [] steps s'.history ∧
        block.Orderly steps (.throw (.string "late")) := by
  have ends : (run willing 6 lowered start).map ending = some (some (.string "late"), 1) := by
    decide +kernel
  obtain ⟨⟨o, s'⟩, ran, made⟩ := Option.map_eq_some_iff.mp ends
  have reduced : whole.reduce 4 = .ok (lowered, _) := rfl
  obtain ⟨block, represents, same, orderly⟩ :=
    reduced_using_disposes_once willing rfl (by decide) reduced
  obtain ⟨steps, executes⟩ := (same start o s').mp ⟨6, ran⟩
  cases o with
  | throw exception =>
      simp only [ending, Prod.mk.injEq, Option.some.injEq] at made
      obtain ⟨rfl, calls⟩ := made
      exact ⟨_, s', reduced, ran, calls, block, steps, represents, executes,
        orderly _ _ _ _ executes⟩
  | _ => cases made

end ThrowingUsing

end Lowering

end ExprTree
