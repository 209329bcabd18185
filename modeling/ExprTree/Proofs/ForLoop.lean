import ExprTree.Proofs.EndlessLoop

/-!
A lowered `for` does what the loop does when it is run directly.

One round of the endless loop is one round of the direct loop, whatever comes after it
(`settle_bind_forRound`).
-/

namespace ExprTree.Lowering

open Eval Direct

variable {ls : LoopLabels} {k : Supply} {breakTo continueTo : Option Label}

/-- One round of a lowered `for`. -/
theorem settle_bind_forRound (host : Host) {test step body inner choice round place next : Expr}
    (chosen : ls.ChosenFor k breakTo continueTo)
    (continueOlder : ∀ l ∈ continueTo.toList, l.id < k)
    (tests : ∀ t ∈ test.freeLabels, t.id < k ∧ reaches breakTo t = false)
    (steps : ∀ t ∈ step.freeLabels,
      t.id < k ∧ reaches breakTo t = false ∧ reaches continueTo t = false)
    (bodies : ∀ t ∈ body.freeLabels, t.id < k)
    (bodyUnplaced : body.placed? = none) (stepUnplaced : step.placed? = none)
    (repeated : inner.node = .block [] [choice] .void) (chooses : ls.Chooses test round choice)
    (rounds : round.node = .block [] [body, place, step, next] .void) (places : ls.Place place)
    (goesOn : ls.Again next) {h : Outcome Value → Eval Value} {again finished : Eval Value}
    (handles : ls.Handles k breakTo h again finished) :
    (denote host inner).settle >>= h =
      forRound breakTo continueTo (denote host test) (denote host step) (denote host body) >>=
        RoundEnd.elim again finished pure := by
  have restUnplaced (t : Label) : after? t [step, next] = none := by
    rw [after?_cons_of_unplaced stepUnplaced]
    exact after?_cons_of_unplaced goesOn.placed?_eq_none t []
  have placed := places.after?_eq bodyUnplaced restUnplaced
  have unplaced {t : Label} (other : ls.continueLabel.same t = false) :
      after? t [body, place, step, next] = none := by
    rw [placed, other]
    rfl
  have stepFollows := settle_bind_stepAgain host goesOn handles
    (unplaced (chosen.continueLabel_same_inner continueOlder).2)
    (fun t mem => unplaced ((chosen.continueLabel_same (steps t mem).1).trans (steps t mem).2.2))
    (handles.passes fun t mem => ⟨(steps t mem).1, (steps t mem).2.1⟩)
  exact settle_bind_testedRound host handles (handles.passes tests) repeated chooses rounds
    (settle_bind_afterBody host chosen handles.toEnds bodies places placed stepFollows .void)

/-- What a lowered `for` means. -/
theorem ForShape.denote_eq (host : Host) {counter : Parameter} {start test step body e : Expr}
    (shape : ForShape counter start test step body ls e)
    (chosen : ls.ChosenFor k breakTo continueTo)
    (continueOlder : ∀ l ∈ continueTo.toList, l.id < k)
    (others : ∀ e ∈ [start, test, step], ∀ t ∈ e.freeLabels,
      t.id < k ∧ reaches breakTo t = false ∧ reaches continueTo t = false)
    (bodies : ∀ t ∈ body.freeLabels, t.id < k)
    (bodyUnplaced : body.placed? = none) (stepUnplaced : step.placed? = none) :
    denote host e = withVariable counter (.defaultOf counter.type) do
      assign counter (← denote host start)
      let round := forRound breakTo continueTo (denote host test) (denote host step)
        (denote host body)
      return loopValue breakTo (← denoteRounds round) := by
  obtain ⟨store, looping, closing, choice, round, place, next, block, stores,
    ⟨inner, loops, repeated⟩, chooses, rounds, places, goesOn, closes⟩ := shape
  simp only [List.forall_mem_cons] at others
  obtain ⟨starts, tests, steps, -⟩ := others
  have only (t : Label) : after? t [store, looping, closing] =
      if ls.breakLabel.same t then some [] else none := by
    rw [after?_cons_of_unplaced stores.placed?_eq_none, closes.after?_eq loops]
  have same := denoteLoop_eq_denoteRounds_of_round chosen
    (ends_afterStatement host chosen only [closing]) fun h again finished =>
      settle_bind_forRound host chosen continueOlder
        (fun t mem => ⟨(tests t mem).1, (tests t mem).2.1⟩) steps bodies bodyUnplaced stepUnplaced
        repeated chooses rounds places goesOn
  have storeUnplaced (t : Label) (mem : t ∈ store.freeLabels) :
      after? t [store, looping, closing] = none := by
    obtain ⟨older, other, -⟩ := starts t (stores.mem_freeLabels mem)
    rw [only, chosen.breakLabel_same older, other]
    rfl
  rw [denote_block host block]
  refine (withVariable_bind_pure counter _ _ _).trans ?_
  congr 1
  rw [List.map_nil, withVariables, denoteStatements_cons_of_unplaced host _ _ storeUnplaced,
    stores.denote_eq host]
  simp only [bind_assoc, pure_bind]
  congr 1
  funext v
  congr 1
  funext _
  exact denoteStatements_eq_denoteRounds host chosen loops closes v same

/-- A direct `for` over trees, with as much fuel and as many rounds as it takes. -/
theorem isLimit_forLoop (host : Host) (counter : Parameter) (start test step body : Expr)
    (breakTo continueTo : Option Label) :
    IsLimit
      (fun n => Direct.forLoop counter (run host n start) (run host n test) (run host n step)
        (run host n body) breakTo continueTo n)
      (withVariable counter (.defaultOf counter.type) do
        assign counter (← denote host start)
        let round := forRound breakTo continueTo (denote host test) (denote host step)
          (denote host body)
        return loopValue breakTo (← denoteRounds round)) := by
  have closed := extensional_converges
  have part := converges_runWithin host
  have rounds := converges_rounds
    (extensional_forRound closed (part test) (part step) (part body) breakTo continueTo)
  have whole := closed.withVariable counter (.defaultOf counter.type)
    (closed.bind (part start) fun v => closed.bind (closed.const (assign counter v)) fun _ =>
      closed.bind rounds fun left => closed.const (pure (loopValue breakTo left)))
  exact whole.2

/-- The block that a `for` is reduced to ends as the loop does when it is run directly over the
lowered parts, and one ends if and only if the other does. The variable is put back. -/
theorem reduced_forLoop_iff_direct (host : Host) {e block : Expr} {counter : Parameter}
    {start test step body : Expr} {breakTo continueTo : Option Label} {k k' : Supply}
    (isFor : e.node = .forLoop counter start test step body breakTo continueTo)
    (labelled : WellLabelled k breakTo continueTo body [start, test, step])
    (stepUnplaced : step.kind ≠ .label) (reduced : e.reduce k = .ok (block, k')) :
    ∃ start' test' step' body', start.LowersTo start' ∧ test.LowersTo test' ∧
      step.LowersTo step' ∧ body.LowersTo body' ∧
      (∀ s r, (∃ n, run host n block s = some r) ↔
        ∃ n, Direct.forLoop counter (run host n start') (run host n test') (run host n step')
          (run host n body') breakTo continueTo n s = some r) ∧
      ∀ n s o s', run host n block s = some (o, s') →
        s'.frame.scope.find? counter.id = s.frame.scope.find? counter.id := by
  obtain ⟨start', test', step', body', ls, startTo, testTo, stepTo, bodyTo, chosen, shape⟩ :
      ∃ start' test' step' body' ls, start.LowersTo start' ∧ test.LowersTo test' ∧
        step.LowersTo step' ∧ body.LowersTo body' ∧ LoopLabels.ChosenFor ls k breakTo continueTo ∧
        ForShape counter start' test' step' body' ls block := by
    simp only [Expr.reduce, Expr.reduceWith, isFor] at reduced
    exact forShape_of_forLoop reduced
  obtain ⟨bodyUnplaced, bodies⟩ := labelled.of_body bodyTo
  have stepUnplaced' : step'.placed? = none := by
    rw [Expr.placed?_of_lowersTo stepTo]
    exact Expr.placed?_eq_none stepUnplaced
  have others : ∀ e ∈ [start', test', step'], ∀ t ∈ e.freeLabels,
      t.id < k ∧ reaches breakTo t = false ∧ reaches continueTo t = false := by
    simp only [List.forall_mem_cons]
    refine ⟨labelled.of_other (by simp) startTo, labelled.of_other (by simp) testTo,
      labelled.of_other (by simp) stepTo, by simp⟩
  have continueOlder (l : Label) (mem : l ∈ continueTo.toList) : l.id < k :=
    labelled.older l (List.mem_append_left _ (List.mem_append_right _ mem))
  have means := shape.denote_eq host chosen continueOlder others bodies bodyUnplaced stepUnplaced'
  have direct := isLimit_forLoop host counter start' test' step' body' breakTo continueTo
  refine ⟨start', test', step', body', startTo, testTo, stepTo, bodyTo, fun s r => ?_, ?_⟩
  · rw [← means] at direct
    exact (isLimit_run host block s r).symm.trans (direct s r)
  · intro n s o s' ended
    have ended := (isLimit_run host block _ _).mpr ⟨n, ended⟩
    rw [means] at ended
    exact find?_of_withVariable ended

/-! ### A loop that is left early

`for (i = 0; i < 3; ++i) if (i == 1) break done(i); else continue next;` -/

namespace CountingFor

def counter : Parameter := ⟨0, some "i", .int32⟩

def done : Label := ⟨1, some "done", .int32⟩

def next : Label := ⟨2, some "next", .void⟩

def start : Expr := ⟨3, .constant (.int32 0) .int32⟩

def test : Expr :=
  ⟨6, .binary .lessThan ⟨4, .parameter counter⟩ ⟨5, .constant (.int32 3) .int32⟩ false false
    .boolean⟩

def step : Expr := ⟨8, .unary .preIncrementAssign ⟨7, .parameter counter⟩ .int32⟩

def isOne : Expr :=
  ⟨11, .binary .equal ⟨9, .parameter counter⟩ ⟨10, .constant (.int32 1) .int32⟩ false false
    .boolean⟩

def body : Expr :=
  ⟨15, .conditional isOne ⟨13, .jump .breaking done (some ⟨12, .parameter counter⟩)⟩
    (some ⟨14, .jump .continuing next none⟩) .void⟩

def loop : Expr := ⟨16, .forLoop counter start test step body (some done) (some next)⟩

theorem reduced_leaves_with_one :
    ∃ block k', loop.reduce 17 = .ok (block, k') ∧
      ∃ n, run Host.absent n block {} = some (.value (.int32 1), {}) := by
  refine ⟨_, _, rfl, ?_⟩
  obtain ⟨start', test', step', body', ⟨_, _, startOk⟩, ⟨_, _, testOk⟩, ⟨_, _, stepOk⟩,
    ⟨_, _, bodyOk⟩, same, -⟩ :=
    reduced_forLoop_iff_direct Host.absent (e := loop) (k := 17) rfl (by decide) (by decide) rfl
  -- None of the parts holds a derived node, so they are lowered to themselves.
  cases startOk
  cases testOk
  cases stepOk
  cases bodyOk
  exact (same _ _).mpr ⟨9, rfl⟩

end CountingFor

end ExprTree.Lowering
