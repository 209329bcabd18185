import ExprTree.Proofs.Fuel

/-!
Loops run directly.

What `for`, `while` and `do ... while` mean, given how their parts are evaluated: one round after
the other, until the test fails or the body leaves. Rounds are counted, so these loops run; with as
many rounds as it takes they are the least computation that repeats the round
(`denoteRounds_bind_le`).
-/

namespace ExprTree.Direct

open Eval

/-- How a round of a loop ends: another one is due, the test has failed, or the body has jumped to
the break label. -/
inductive RoundEnd where
  | again
  | finished
  | left (v : Value)

section

variable (breakTo continueTo : Option Label)

/-- Run the body, and what is next in the round if the body completes or continues. -/
def afterBody (body : Eval Value) (next : Eval RoundEnd) : Eval RoundEnd := do
  match ← body.settle with
  | .value _ => next
  | .jump target v =>
    if reaches continueTo target then next
    else if reaches breakTo target then return .left v
    else jump target v
  | .throw exception => throwing exception
  | .fail f => fail f

/-- A round of `for`: the test, the body, the step. -/
def forRound (test step body : Eval Value) : Eval RoundEnd := do
  if ← truth (← test) then
    afterBody breakTo continueTo body do
      discard step
      return .again
  else return .finished

/-- A round of `while`: the test, the body. -/
def whileRound (test body : Eval Value) : Eval RoundEnd := do
  if ← truth (← test) then afterBody breakTo continueTo body (return .again)
  else return .finished

/-- A round of `do ... while`: the body, the test. -/
def doRound (body test : Eval Value) : Eval RoundEnd :=
  afterBody breakTo continueTo body do
    if ← truth (← test) then return .again else return .finished

end

/-- One round after the other, at most so many: the value that the body has left with, if that is
how the loop ends. -/
def rounds (round : Eval RoundEnd) : Nat → Eval (Option Value)
  | 0 => outOfFuel
  | n + 1 => do
    match ← round with
    | .again => rounds round n
    | .finished => return none
    | .left v => return some v

/-- The value of a loop: what it was left with, or else the default of its type. -/
def loopValue (breakTo : Option Label) (left : Option Value) : Value :=
  let type := Label.typeOrVoid breakTo
  if type.isVoid then .void else left.getD (.defaultOf type)

/-- `for`: the variable holds the default of its type, then the start value, and what it hides is
put back in the end. -/
def forLoop (counter : Parameter) (start test step body : Eval Value)
    (breakTo continueTo : Option Label) (fuel : Nat) : Eval Value :=
  withVariable counter (.defaultOf counter.type) do
    assign counter (← start)
    return loopValue breakTo (← rounds (forRound breakTo continueTo test step body) fuel)

/-- `while`: each round tests first. -/
def whileLoop (test body : Eval Value) (breakTo continueTo : Option Label) (fuel : Nat) :
    Eval Value := do
  return loopValue breakTo (← rounds (whileRound breakTo continueTo test body) fuel)

/-- `do ... while`: each round tests last. -/
def doWhile (body test : Eval Value) (breakTo continueTo : Option Label) (fuel : Nat) :
    Eval Value := do
  return loopValue breakTo (← rounds (doRound breakTo continueTo body test) fuel)

/-! ### As many rounds as it takes -/

theorem rounds_mono (round : Eval RoundEnd) {n m : Nat} (le : n ≤ m) :
    Approximates (rounds round n) (rounds round m) := by
  induction n generalizing m with
  | zero => exact .outOfFuel _
  | succ n ih =>
      obtain ⟨m, rfl⟩ : ∃ m', m = m' + 1 := ⟨m - 1, by omega⟩
      refine .bind (.refl _) fun ended => ?_
      cases ended with
      | again => exact ih (by omega)
      | finished => exact .refl _
      | left v => exact .refl _

/-- The rounds of a loop, as many as it takes. -/
noncomputable def denoteRounds (round : Eval RoundEnd) : Eval (Option Value) :=
  limit (rounds round)

theorem isLimit_rounds (round : Eval RoundEnd) : IsLimit (rounds round) (denoteRounds round) :=
  Rising.isLimit fun _ _ le => rounds_mono round le

/-- What is done after a round, by the way it ends. -/
def RoundEnd.elim {β : Type} (again finished : β) (left : Value → β) : RoundEnd → β
  | .again => again
  | .finished => finished
  | .left v => left v

theorem rounds_succ (round : Eval RoundEnd) (n : Nat) :
    rounds round (n + 1) =
      round >>= RoundEnd.elim (rounds round n) (pure none) fun v => pure (some v) :=
  rfl

/-- A loop is its first round and then, if another one is due, the loop again. -/
theorem denoteRounds_eq (round : Eval RoundEnd) :
    denoteRounds round =
      round >>= RoundEnd.elim (denoteRounds round) (pure none) fun v => pure (some v) := by
  have rising : Rising (rounds round) := fun _ _ le => rounds_mono round le
  have unfolded : Converges fun i => round >>= RoundEnd.elim
      (withLimit (rounds round) (denoteRounds round) i) (pure none) fun v => pure (some v) := by
    refine extensional_converges.bind (extensional_converges.const _) fun ended => ?_
    cases ended with
    | again => exact converges_withLimit rising (isLimit_rounds round)
    | finished => exact extensional_converges.const _
    | left v => exact extensional_converges.const _
  have shifted := (isLimit_rounds round).tail rising
  simp only [rounds_succ] at shifted
  exact shifted.unique unfolded.2

theorem bind_elim_bind {β γ : Type} (round : Eval RoundEnd) (again finished : Eval β)
    (left : Value → Eval β) (k : β → Eval γ) :
    round >>= RoundEnd.elim again finished left >>= k =
      round >>= RoundEnd.elim (again >>= k) (finished >>= k) fun v => left v >>= k := by
  rw [bind_assoc]
  congr 1
  funext ended
  cases ended <;> rfl

theorem denoteRounds_bind {β : Type} (round : Eval RoundEnd) (k : Option Value → Eval β) :
    denoteRounds round >>= k =
      round >>= RoundEnd.elim (denoteRounds round >>= k) (k none) fun v => k (some v) :=
  (congrArg (· >>= k) (denoteRounds_eq round)).trans (bind_elim_bind round _ _ _ k)

/-- The rounds of a loop are the least computation that repeats a round. -/
theorem denoteRounds_bind_le {β : Type} {round : Eval RoundEnd} {k : Option Value → Eval β}
    {z : Eval β}
    (closed : Approximates (round >>= RoundEnd.elim z (k none) fun v => k (some v)) z) :
    Approximates (denoteRounds round >>= k) z := by
  refine (isLimit_rounds round).bind_le fun n => ?_
  induction n with
  | zero => exact fun s r ended => nomatch ended
  | succ n ih =>
      refine Approximates.trans ?_ closed
      rw [rounds_succ, bind_elim_bind]
      refine .bind (.refl _) fun ended => ?_
      cases ended with
      | again => exact ih
      | finished => exact .refl _
      | left v => exact .refl _

/-! ### Parts within more and more fuel -/

section

variable {ι : Type} {P : (α : Type) → (ι → Eval α) → Prop}

theorem extensional_afterBody {body : ι → Eval Value} {next : ι → Eval RoundEnd}
    (closed : Extensional P) (first : P Value body) (rest : P RoundEnd next)
    (breakTo continueTo : Option Label) :
    P RoundEnd fun i => afterBody breakTo continueTo (body i) (next i) := by
  refine closed.bind (closed.settle first) fun o => ?_
  cases o with
  | value v => exact rest
  | jump target v =>
      dsimp only
      cases reaches continueTo target with
      | true => exact rest
      | false => exact closed.const _
  | throw exception => exact closed.const _
  | fail f => exact closed.const _

theorem extensional_forRound {test step body : ι → Eval Value} (closed : Extensional P)
    (tests : P Value test) (steps : P Value step) (bodies : P Value body)
    (breakTo continueTo : Option Label) :
    P RoundEnd fun i => forRound breakTo continueTo (test i) (step i) (body i) := by
  refine closed.compatible.judge tests fun holds => ?_
  cases holds with
  | false => exact closed.const _
  | true =>
      refine extensional_afterBody closed bodies ?_ breakTo continueTo
      exact closed.bind (closed.compatible.map _ steps) fun _ => closed.const _

theorem extensional_whileRound {test body : ι → Eval Value} (closed : Extensional P)
    (tests : P Value test) (bodies : P Value body) (breakTo continueTo : Option Label) :
    P RoundEnd fun i => whileRound breakTo continueTo (test i) (body i) := by
  refine closed.compatible.judge tests fun holds => ?_
  cases holds with
  | false => exact closed.const _
  | true => exact extensional_afterBody closed bodies (closed.const _) breakTo continueTo

theorem extensional_doRound {test body : ι → Eval Value} (closed : Extensional P)
    (bodies : P Value body) (tests : P Value test) (breakTo continueTo : Option Label) :
    P RoundEnd fun i => doRound breakTo continueTo (body i) (test i) := by
  refine extensional_afterBody closed bodies ?_ breakTo continueTo
  exact closed.compatible.judge tests fun holds => closed.const _

theorem extensional_rounds {round : ι → Eval RoundEnd} (closed : Extensional P)
    (converges : P RoundEnd round) (n : Nat) :
    P (Option Value) fun i => rounds (round i) n := by
  induction n with
  | zero => exact closed.const _
  | succ n ih =>
      refine closed.bind converges fun ended => ?_
      cases ended with
      | again => exact ih
      | finished => exact closed.const _
      | left v => exact closed.const _

end

/-- Rounds of parts within some fuel and as many rounds, or with as much of both as it takes. -/
noncomputable def roundsWithin (round : Option Nat → Eval RoundEnd) :
    Option Nat → Eval (Option Value)
  | some n => rounds (round (some n)) n
  | none => denoteRounds (round none)

theorem converges_rounds {round : Option Nat → Eval RoundEnd} (converges : Converges round) :
    Converges (roundsWithin round) := by
  have inner := extensional_rounds extensional_converges converges
  have steps (i : Nat) : Rising (rounds (round (some i))) := fun _ _ le => rounds_mono _ le
  refine ⟨fun n m le => ?_, ?_⟩
  · exact ((inner n).1 le).trans (steps m le)
  · exact IsLimit.diagonal (fun n => (inner n).1) (fun n => (inner n).2) steps (isLimit_rounds _)

end ExprTree.Direct
