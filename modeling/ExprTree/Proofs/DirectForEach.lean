import ExprTree.Proofs.DirectLoop
import ExprTree.Proofs.Finally

/-!
A `foreach` that goes by an enumerator, run directly.

Rules tell what the loop does and how it ends, with the steps it takes: the source,
`GetEnumerator()`, then `MoveNext()`, `Current` and the body in turn, and `Dispose()` in the end.
Whatever the host answers, the steps are in order (`ForEach.Executes.orderly`), and the host is
called in no other place (`ForEach.Executes.accounts`).
-/

namespace ExprTree.Direct

open Eval

/-- A `foreach` by an enumerator, with the variables that it has for itself: the enumerator, and the
enumerator as something to dispose of. -/
structure ForEach where
  protocol : Lowering.Protocol
  enumerator : Parameter
  disposable : Parameter
  item : Parameter
  source : Expr
  body : Expr
  breakTo : Option Label
  continueTo : Option Label

/-- What a `foreach` does beside handling its variables. -/
inductive ForEachAction where
  | source
  | getEnumerator (receiver : Value)
  | moveNext (enumerator : Value)
  | current (enumerator : Value)
  | body
  | dispose (enumerator : Value)

namespace ForEachAction

def isDispose : ForEachAction → Bool
  | .dispose _ => true
  | _ => false

/-- Whether the action comes before the first round. -/
def isOpening : ForEachAction → Bool
  | .source | .getEnumerator _ => true
  | _ => false

end ForEachAction

/-- One action of a `foreach`, and how it ended. -/
structure ForEachStep where
  action : ForEachAction
  before : State
  outcome : Outcome Value
  after : State

/-- How a loop may go: from a state, in some steps, to an outcome and a state. -/
abbrev Course := State → List ForEachStep → Outcome Value → State → Prop

/-- The state with a variable at a value. -/
def holding (p : Parameter) (v : Value) (s : State) : State :=
  setScope s (s.frame.scope.insert p.id v)

/-- A variable is in scope meanwhile, and what it hides is put back. -/
def Held (p : Parameter) (v : Value) (course : Course) : Course := fun s steps o s' =>
  ∃ m, course (holding p v s) steps o m ∧
    s' = setScope m (m.frame.scope.restore p.id (s.frame.scope.find? p.id))

namespace ForEach

/-- A value of the one type where the other one is wanted. -/
def cast (given wanted : Ty) (v : Value) : Except Failure Value :=
  if given = wanted then .ok v else v.convert wanted false

/-- Call a method without arguments. None of those that a loop calls is one of a closure. -/
def call (host : Host) (v : Value) (m : Method) : Eval Value :=
  callOn host (fun _ _ _ => outOfFuel) v m []

variable (loop : ForEach) (host : Host)

/-- What an action comes to. -/
noncomputable def act : ForEachAction → Eval Value
  | .source => do
    cast loop.source.type loop.protocol.receiver (← denote host loop.source)
  | .getEnumerator receiver =>
    call host receiver (.getEnumerator loop.protocol.receiver loop.protocol.enumerator)
  | .moveNext enumerator => call host enumerator (.moveNext loop.protocol.enumerator)
  | .current enumerator => do
    cast loop.protocol.element loop.item.type
      (← memberGet host enumerator (.current loop.protocol.enumerator loop.protocol.element))
  | .body => denote host loop.body
  | .dispose enumerator => call host enumerator .dispose

/-- The steps are what their actions come to, and each starts with the host as the one before left
it. -/
inductive Accounts : List HostCall → List ForEachStep → List HostCall → Prop
  | nil {history : List HostCall} : Accounts history [] history
  | cons {s s' : State} {action : ForEachAction} {o : Outcome Value} {steps : List ForEachStep}
      {last : List HostCall} (genuine : loop.act host action s = some (o, s'))
      (rest : Accounts s'.history steps last) :
      Accounts s.history (⟨action, s, o, s'⟩ :: steps) last

/-! ### Rules -/

/-- How the loop is left after an action that ends this way, if it is. -/
def leftBy : ForEachAction → Outcome Value → Option (Outcome Value)
  | .moveNext _, .value v =>
    match truth v with
    | .ok true => none
    | .ok false => some (.value .void)
    | .error f => some (.fail f)
  | .body, .jump target v =>
    if reaches loop.continueTo target then none else some (.jump target v)
  | _, .value _ => none
  | _, o => some o

/-- One round, and how the loop is left then, if it is. The variable of the loop has the value that
was read when the body runs. -/
inductive Round (enumerator : Value) :
    State → List ForEachStep → Option (Outcome Value) → State → Prop
  | unmoved {s s' : State} {o ended : Outcome Value}
      (moved : loop.act host (.moveNext enumerator) s = some (o, s'))
      (left : loop.leftBy (.moveNext enumerator) o = some ended) :
      Round enumerator s [⟨.moveNext enumerator, s, o, s'⟩] (some ended) s'
  | unread {s m s' : State} {o ended : Outcome Value}
      (moved : loop.act host (.moveNext enumerator) s = some (.value (.boolean true), m))
      (read : loop.act host (.current enumerator) m = some (o, s'))
      (left : loop.leftBy (.current enumerator) o = some ended) :
      Round enumerator s
        [⟨.moveNext enumerator, s, .value (.boolean true), m⟩, ⟨.current enumerator, m, o, s'⟩]
        (some ended) s'
  | ran {s m m' s' : State} {x : Value} {o : Outcome Value}
      (moved : loop.act host (.moveNext enumerator) s = some (.value (.boolean true), m))
      (read : loop.act host (.current enumerator) m = some (.value x, m'))
      (ran : loop.act host .body (holding loop.item x m') = some (o, s')) :
      Round enumerator s
        [⟨.moveNext enumerator, s, .value (.boolean true), m⟩,
          ⟨.current enumerator, m, .value x, m'⟩, ⟨.body, holding loop.item x m', o, s'⟩]
        (loop.leftBy .body o) s'

/-- Rounds until one leaves. -/
inductive Rounds (enumerator : Value) : Course
  | last {s s' : State} {steps : List ForEachStep} {ended : Outcome Value}
      (round : loop.Round host enumerator s steps (some ended) s') :
      Rounds enumerator s steps ended s'
  | again {s m s' : State} {steps steps' : List ForEachStep} {ended : Outcome Value}
      (round : loop.Round host enumerator s steps none m)
      (rest : Rounds enumerator m steps' ended s') :
      Rounds enumerator s (steps ++ steps') ended s'

/-- Whether an enumerator is disposed of: always if its type says that it can be, never if it is a
struct otherwise, and else by the type that it turns out to have. -/
def disposes (enumerator : Value) : Bool :=
  loop.enumerator.type.isDisposable ||
    (!loop.enumerator.type.isValueType && Ty.disposable.assignableFrom enumerator.typeOf)

/-- Disposing of an enumerator if it is one that is disposed of. -/
inductive Disposal (enumerator : Value) : Course
  | called {s s' : State} {o : Outcome Value} (wanted : loop.disposes enumerator = true)
      (disposed : loop.act host (.dispose enumerator) s = some (o, s')) :
      Disposal enumerator s [⟨.dispose enumerator, s, o, s'⟩] o s'
  | spared {s : State} (unwanted : loop.disposes enumerator = false) :
      Disposal enumerator s [] (.value .void) s

/-- What is done when the loop is left. An enumerator whose type does not tell is in a variable of
its own meanwhile, as something to dispose of. -/
inductive Cleanup (enumerator : Value) : Course
  | known {s s' : State} {steps : List ForEachStep} {o : Outcome Value}
      (disposable : loop.enumerator.type.isDisposable = true)
      (disposal : loop.Disposal host enumerator s steps o s') : Cleanup enumerator s steps o s'
  | asked {s s' : State} {steps : List ForEachStep} {o : Outcome Value}
      (other : loop.enumerator.type.isDisposable = false)
      (reference : loop.enumerator.type.isValueType = false)
      (disposal : Held loop.disposable (.defaultOf loop.disposable.type)
        (fun s => loop.Disposal host enumerator
          (holding loop.disposable (enumerator.castOrNull .disposable) s)) s steps o s') :
      Cleanup enumerator s steps o s'

/-- Leaving the loop in some way. An exception is at hand while the enumerator is disposed of, and
what goes wrong then takes the place of how the loop was left. -/
inductive Leaving (enumerator : Value) (ended : Outcome Value) : Course
  | needless {s : State} (other : loop.enumerator.type.isDisposable = false)
      (value : loop.enumerator.type.isValueType = true) : Leaving enumerator ended s [] ended s
  | cleaned {s m s' : State} {steps : List ForEachStep} {caught : Option Value} {o : Outcome Value}
      (noted : exceptionOf ended s = some (.value caught, m))
      (cleanup : loop.Cleanup host enumerator m steps o s') :
      Leaving enumerator ended s steps (if o.completes then ended else o) s'

/-- What the whole comes to when the loop is left in some way. -/
def closed : Outcome Value → Outcome Value
  | .value _ => .value (loopValue loop.breakTo none)
  | .jump target v =>
    if reaches loop.breakTo target then .value (loopValue loop.breakTo (some v))
    else .jump target v
  | .throw exception => .throw exception
  | .fail f => .fail f

/-- The loop within the scope of its variables. -/
inductive Runs : Course
  | unsourced {s s' : State} {o : Outcome Value} (given : loop.act host .source s = some (o, s'))
      (stopped : o.completes = false) : Runs s [⟨.source, s, o, s'⟩] o s'
  | unenumerated {s m s' : State} {receiver : Value} {o : Outcome Value}
      (given : loop.act host .source s = some (.value receiver, m))
      (got : loop.act host (.getEnumerator receiver) m = some (o, s'))
      (stopped : o.completes = false) :
      Runs s [⟨.source, s, .value receiver, m⟩, ⟨.getEnumerator receiver, m, o, s'⟩] o s'
  | looped {s m m' m'' s' : State} {receiver enumerator : Value} {steps steps' : List ForEachStep}
      {ended o : Outcome Value}
      (given : loop.act host .source s = some (.value receiver, m))
      (got : loop.act host (.getEnumerator receiver) m = some (.value enumerator, m'))
      (rounds : loop.Rounds host enumerator (holding loop.enumerator enumerator m') steps ended m'')
      (leaving : loop.Leaving host enumerator ended m'' steps' o s') :
      Runs s
        (⟨.source, s, .value receiver, m⟩ ::
          ⟨.getEnumerator receiver, m, .value enumerator, m'⟩ :: (steps ++ steps'))
        (loop.closed o) s'

/-- A `foreach`: its variables hold the defaults of their types at first, and are put back in the
end. -/
def Executes : Course :=
  Held loop.enumerator (.defaultOf loop.enumerator.type)
    (Held loop.item (.defaultOf loop.item.type) (loop.Runs host))

/-! ### Calls of the host -/

variable {loop host} {enumerator : Value}

theorem Accounts.append {first second third : List HostCall} {steps steps' : List ForEachStep}
    (accounts : loop.Accounts host first steps second)
    (accounts' : loop.Accounts host second steps' third) :
    loop.Accounts host first (steps ++ steps') third := by
  induction accounts with
  | nil => exact accounts'
  | cons genuine _ ih => exact .cons genuine (ih accounts')

theorem Accounts.of_held {course : Course} {p : Parameter} {v : Value} {s s' : State}
    {steps : List ForEachStep} {o : Outcome Value} (held : Held p v course s steps o s')
    (accounts : ∀ {s m}, course s steps o m → loop.Accounts host s.history steps m.history) :
    loop.Accounts host s.history steps s'.history := by
  obtain ⟨m, h, rfl⟩ := held
  have inner := accounts h
  exact inner

/-- What an outcome stands for is told without a call of the host. -/
theorem exceptionOf_eq_some {ended : Outcome Value} {s m : State} {o : Outcome (Option Value)}
    (noted : exceptionOf ended s = some (o, m)) :
    o.completes = true ∧ m.history = s.history := by
  unfold exceptionOf at noted
  split at noted
  case h_2 f =>
      cases type : f.exceptionType? with
      | none =>
          rw [type] at noted
          cases noted
          exact ⟨rfl, rfl⟩
      | some type' =>
          rw [type] at noted
          cases noted
          exact ⟨rfl, rfl⟩
  all_goals
    cases noted
    exact ⟨rfl, rfl⟩

theorem Round.accounts {s s' : State} {steps : List ForEachStep} {left : Option (Outcome Value)}
    (round : loop.Round host enumerator s steps left s') :
    loop.Accounts host s.history steps s'.history := by
  cases round with
  | unmoved moved => exact .cons moved .nil
  | unread moved read => exact .cons moved (.cons read .nil)
  | ran moved read ran => exact .cons moved (.cons read (.cons ran .nil))

theorem Rounds.accounts {s s' : State} {steps : List ForEachStep} {o : Outcome Value}
    (rounds : loop.Rounds host enumerator s steps o s') :
    loop.Accounts host s.history steps s'.history := by
  induction rounds with
  | last round => exact round.accounts
  | again round _ ih => exact round.accounts.append ih

theorem Disposal.accounts {s s' : State} {steps : List ForEachStep} {o : Outcome Value}
    (disposal : loop.Disposal host enumerator s steps o s') :
    loop.Accounts host s.history steps s'.history := by
  cases disposal with
  | called wanted disposed => exact .cons disposed .nil
  | spared => exact .nil

theorem Leaving.accounts {ended : Outcome Value} {s s' : State} {steps : List ForEachStep}
    {o : Outcome Value} (leaving : loop.Leaving host enumerator ended s steps o s') :
    loop.Accounts host s.history steps s'.history := by
  cases leaving with
  | needless => exact .nil
  | cleaned noted cleanup =>
      rw [← (exceptionOf_eq_some noted).2]
      cases cleanup with
      | known disposable disposal => exact disposal.accounts
      | asked other reference disposal => exact .of_held disposal fun disposal => disposal.accounts

theorem Runs.accounts {s s' : State} {steps : List ForEachStep} {o : Outcome Value}
    (runs : loop.Runs host s steps o s') : loop.Accounts host s.history steps s'.history := by
  cases runs with
  | unsourced given => exact .cons given .nil
  | unenumerated given got => exact .cons given (.cons got .nil)
  | looped given got rounds leaving =>
      exact .cons given (.cons got (rounds.accounts.append leaving.accounts))

/-- The host is called in the steps of a loop only. -/
theorem Executes.accounts {s s' : State} {steps : List ForEachStep} {o : Outcome Value}
    (executes : loop.Executes host s steps o s') :
    loop.Accounts host s.history steps s'.history :=
  .of_held executes fun inner => .of_held inner fun runs => runs.accounts

/-! ### Order of the steps -/

/-- What comes before a run of the body: directly after the run before it, or at the very beginning,
the enumerator has moved on, and the variable of the loop has the value that was read then. -/
def Readied (loop : ForEach) (enumerator : Value) (earlier : List ForEachStep)
    (step : ForEachStep) : Prop :=
  ∃ before move read x, earlier = before ++ [move, read] ∧
    (∀ last ∈ before.getLast?, last.action = .body) ∧
    move.action = .moveNext enumerator ∧ move.outcome = .value (.boolean true) ∧
    read.action = .current enumerator ∧ read.outcome = .value x ∧
    step.before.frame.scope.find? loop.item.id = some x

/-- What comes before each of the runs of the body. -/
def BodiesReadied (loop : ForEach) (enumerator : Value) (steps : List ForEachStep) : Prop :=
  ∀ earlier step later, steps = earlier ++ step :: later → step.action = .body →
    loop.Readied enumerator earlier step

/-- What is done with an enumerator: it is not asked for again, it moves on and is read before each
run of the body, and it is disposed of once and last, if at all. -/
structure Iterates (loop : ForEach) (enumerator : Value) (steps : List ForEachStep) : Prop where
  opened : ∀ step ∈ steps, step.action.isOpening = false
  bodies : loop.BodiesReadied enumerator steps
  disposal :
    if loop.disposes enumerator then
      ∃ earlier last, steps = earlier ++ [last] ∧ last.action = .dispose enumerator ∧
        ∀ step ∈ earlier, step.action.isDispose = false
    else ∀ step ∈ steps, step.action.isDispose = false

/-- The steps of a loop: the source, then `GetEnumerator()` on what it gives, then what is done with
the enumerator. -/
inductive Orderly (loop : ForEach) : List ForEachStep → Prop
  | unsourced {source : ForEachStep} (first : source.action = .source)
      (stopped : source.outcome.completes = false) : Orderly loop [source]
  | unenumerated {source got : ForEachStep} {receiver : Value} (first : source.action = .source)
      (given : source.outcome = .value receiver) (called : got.action = .getEnumerator receiver)
      (stopped : got.outcome.completes = false) : Orderly loop [source, got]
  | iterated {source got : ForEachStep} {receiver enumerator : Value} {steps : List ForEachStep}
      (first : source.action = .source) (given : source.outcome = .value receiver)
      (called : got.action = .getEnumerator receiver) (returned : got.outcome = .value enumerator)
      (iterates : loop.Iterates enumerator steps) : Orderly loop (source :: got :: steps)

theorem Readied.prepend {earlier steps : List ForEachStep} {step : ForEachStep}
    (readied : loop.Readied enumerator earlier step)
    (ran : ∀ last ∈ steps.getLast?, last.action = .body) :
    loop.Readied enumerator (steps ++ earlier) step := by
  obtain ⟨before, move, read, x, rfl, ranBefore, rest⟩ := readied
  refine ⟨steps ++ before, move, read, x, (List.append_assoc ..).symm, ?_, rest⟩
  intro last mem
  rw [List.getLast?_append] at mem
  cases h : before.getLast? with
  | none =>
      rw [h] at mem
      exact ran last mem
  | some last' =>
      rw [h] at mem
      exact ranBefore last (h.trans mem)

theorem BodiesReadied.append {steps steps' : List ForEachStep}
    (first : loop.BodiesReadied enumerator steps)
    (rest : ∀ earlier step later, steps' = earlier ++ step :: later → step.action = .body →
      loop.Readied enumerator (steps ++ earlier) step) :
    loop.BodiesReadied enumerator (steps ++ steps') := by
  intro earlier step later split isBody
  rcases List.append_eq_append_iff.mp split with ⟨earlier', rfl, split'⟩ | ⟨middle, rfl, split'⟩
  · exact rest earlier' step later split' isBody
  · cases middle with
    | nil => simpa using rest [] step later split'.symm isBody
    | cons step' middle =>
        cases split'
        exact first earlier step middle rfl isBody

theorem BodiesReadied.of_unrun {steps : List ForEachStep}
    (unrun : ∀ step ∈ steps, step.action ≠ .body) : loop.BodiesReadied enumerator steps := by
  intro earlier step later split isBody
  have mem : step ∈ steps := by simp [split]
  exact absurd isBody (unrun step mem)

theorem BodiesReadied.concat {steps : List ForEachStep} {last : ForEachStep}
    (first : loop.BodiesReadied enumerator steps)
    (readied : last.action = .body → loop.Readied enumerator steps last) :
    loop.BodiesReadied enumerator (steps ++ [last]) := by
  apply first.append
  intro earlier step later split isBody
  cases earlier with
  | nil =>
      cases split
      rw [List.append_nil]
      exact readied isBody
  | cons step' earlier => simp at split

/-- What a round consists of. -/
theorem Round.steps_of {s s' : State} {steps : List ForEachStep} {left : Option (Outcome Value)}
    (round : loop.Round host enumerator s steps left s') :
    (∀ step ∈ steps, step.action.isOpening = false ∧ step.action.isDispose = false) ∧
      loop.BodiesReadied enumerator steps ∧
      (left = none → ∀ last ∈ steps.getLast?, last.action = .body) := by
  cases round with
  | unmoved moved =>
      exact ⟨by simp [ForEachAction.isOpening, ForEachAction.isDispose], .of_unrun (by simp), nofun⟩
  | unread moved read =>
      exact ⟨by simp [ForEachAction.isOpening, ForEachAction.isDispose], .of_unrun (by simp), nofun⟩
  | ran moved read ran =>
      refine ⟨by simp [ForEachAction.isOpening, ForEachAction.isDispose], ?_, by simp⟩
      have held (x : Value) (m : State) :
          (holding loop.item x m).frame.scope.find? loop.item.id = some x := by
        simp [holding, setScope, Scope.find?_insert]
      show loop.BodiesReadied enumerator ([_, _] ++ [_])
      apply BodiesReadied.concat (.of_unrun (by simp))
      intro _
      exact ⟨[], _, _, _, rfl, by simp, rfl, rfl, rfl, rfl, held _ _⟩

/-- What the rounds of a loop consist of. -/
theorem Rounds.steps_of {s s' : State} {steps : List ForEachStep} {o : Outcome Value}
    (rounds : loop.Rounds host enumerator s steps o s') :
    (∀ step ∈ steps, step.action.isOpening = false ∧ step.action.isDispose = false) ∧
      loop.BodiesReadied enumerator steps := by
  induction rounds with
  | last round =>
      obtain ⟨actions, readied, -⟩ := round.steps_of
      exact ⟨actions, readied⟩
  | again round _ ih =>
      obtain ⟨actions, readied, ran⟩ := round.steps_of
      obtain ⟨actions', readied'⟩ := ih
      refine ⟨List.forall_mem_append.mpr ⟨actions, actions'⟩, readied.append ?_⟩
      intro earlier step later split isBody
      exact (readied' earlier step later split isBody).prepend (ran rfl)

/-- Leaving a loop takes one step if the enumerator is disposed of, and none otherwise. -/
theorem Leaving.steps_of {ended : Outcome Value} {s s' : State} {steps : List ForEachStep}
    {o : Outcome Value} (leaving : loop.Leaving host enumerator ended s steps o s') :
    (loop.disposes enumerator = true ∧ ∃ last, steps = [last] ∧ last.action = .dispose enumerator) ∨
      loop.disposes enumerator = false ∧ steps = [] := by
  have of_disposal {s s' : State} {o : Outcome Value}
      (disposal : loop.Disposal host enumerator s steps o s') :
      (loop.disposes enumerator = true ∧
        ∃ last, steps = [last] ∧ last.action = .dispose enumerator) ∨
      loop.disposes enumerator = false ∧ steps = [] := by
    cases disposal with
    | called wanted disposed => exact .inl ⟨wanted, _, rfl, rfl⟩
    | spared unwanted => exact .inr ⟨unwanted, rfl⟩
  cases leaving with
  | needless other value => exact .inr ⟨by simp [disposes, other, value], rfl⟩
  | cleaned noted cleanup =>
      cases cleanup with
      | known disposable disposal => exact of_disposal disposal
      | asked other reference held =>
          obtain ⟨m, disposal, -⟩ := held
          exact of_disposal disposal

theorem iterates_of_rounds {ended o : Outcome Value} {s m s' : State}
    {steps steps' : List ForEachStep} (rounds : loop.Rounds host enumerator s steps ended m)
    (leaving : loop.Leaving host enumerator ended m steps' o s') :
    loop.Iterates enumerator (steps ++ steps') := by
  obtain ⟨actions, readied⟩ := rounds.steps_of
  have undisposed : ∀ step ∈ steps, step.action.isDispose = false :=
    fun step mem => (actions step mem).2
  rcases leaving.steps_of with ⟨wanted, last, rfl, disposes⟩ | ⟨unwanted, rfl⟩
  · constructor
    · refine List.forall_mem_append.mpr ⟨fun step mem => (actions step mem).1, ?_⟩
      simp [disposes, ForEachAction.isOpening]
    · apply readied.concat
      rw [disposes]
      nofun
    · rw [if_pos wanted]
      exact ⟨steps, last, rfl, disposes, undisposed⟩
  · rw [List.append_nil]
    refine ⟨fun step mem => (actions step mem).1, readied, ?_⟩
    rw [if_neg (Bool.not_eq_true _ ▸ unwanted)]
    exact undisposed

/-- The steps of a loop are in order, whatever the host answers and however the loop is left. -/
theorem Executes.orderly {s s' : State} {steps : List ForEachStep} {o : Outcome Value}
    (executes : loop.Executes host s steps o s') : loop.Orderly steps := by
  obtain ⟨m, ⟨m', runs, -⟩, -⟩ := executes
  cases runs with
  | unsourced given stopped => exact .unsourced rfl stopped
  | unenumerated given got stopped => exact .unenumerated rfl rfl rfl stopped
  | looped given got rounds leaving =>
      exact .iterated rfl rfl rfl rfl (iterates_of_rounds rounds leaving)

end ForEach

end ExprTree.Direct
