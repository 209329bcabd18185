import ExprTree.Proofs.EndlessLoop

/-!
A lowered `while` and a lowered `do ... while` do what the loops do when they are run directly.

One round of the endless loop of a `do ... while` is one round of the direct loop. In a `while` the
continue label stands before the test, so a round that the body continues is followed by another
one within the same block: one round of the endless loop is several rounds of the direct one. The
two loops are the same because each is bounded by the other.
-/

namespace ExprTree.Lowering

open Eval Direct

variable {ls : LoopLabels} {k : Supply} {breakTo continueTo : Option Label}
  {h : Outcome Value → Eval Value} {again finished : Eval Value} (host : Host)

/-! ### `do ... while` -/

/-- One round of a lowered `do ... while`. -/
theorem settle_bind_doRound {test body inner choice place next : Expr}
    (chosen : ls.ChosenFor k breakTo continueTo)
    (continueOlder : ∀ l ∈ continueTo.toList, l.id < k)
    (tests : ∀ t ∈ test.freeLabels,
      t.id < k ∧ reaches breakTo t = false ∧ reaches continueTo t = false)
    (bodies : ∀ t ∈ body.freeLabels, t.id < k) (bodyUnplaced : body.placed? = none)
    (repeated : inner.node = .block [] [body, place, choice] .void)
    (chooses : ls.Chooses test next choice) (places : ls.Place place) (goesOn : ls.Again next)
    (handles : ls.Handles k breakTo h again finished) :
    (denote host inner).settle >>= h =
      doRound breakTo continueTo (denote host body) (denote host test) >>=
        RoundEnd.elim again finished pure := by
  have choiceUnplaced (t : Label) : after? t [choice] = none :=
    after?_cons_of_unplaced chooses.placed?_eq_none t []
  have placed := places.after?_eq bodyUnplaced choiceUnplaced
  have unplaced {t : Label} (other : ls.continueLabel.same t = false) :
      after? t [body, place, choice] = none := by
    rw [placed, other]
    rfl
  obtain ⟨otherBreak, otherContinue⟩ := chosen.continueLabel_same_inner continueOlder
  have choiceFollows (v : Value) :
      (denoteStatements host [body, place, choice] [choice] v).settle >>= h =
        (do if ← truth (← denote host test) then return .again else return .finished) >>=
          RoundEnd.elim again finished pure := by
    rw [denoteStatements_cons_settle_bind, chooses.settle_bind host, bind_assoc]
    · congr 1
      funext v
      rw [bind_assoc]
      congr 1
      funext holds
      cases holds with
      | true =>
          simp only [if_true]
          rw [denote_jump host goesOn]
          exact (afterStatement_settle_bind_of_unplaced (unplaced otherContinue) _ _ _ h).trans
            handles.innerContinue
      | false =>
          exact (afterStatement_settle_bind_of_unplaced (unplaced otherBreak) _ _ _ h).trans
            handles.innerBreak
    · refine ⟨fun t mem v => ?_, handles.throw, handles.fail⟩
      obtain ⟨older, other, stays⟩ := tests t mem
      rw [← chosen.continueLabel_same older] at stays
      rw [afterStatement_settle_bind_of_unplaced (unplaced stays), handles.jump t v older, other]
      rfl
  rw [denote_block_settle_bind host repeated handles.ignores]
  exact settle_bind_afterBody host chosen handles.toEnds bodies places placed choiceFollows .void

/-! ### `while` -/

section

variable (breakTo continueTo : Option Label) (test body again continued finished : Eval Value)

/-- What comes after the end of the body of a `while`: `again` if it completes, and `continued` if
it jumps to the continue label. -/
def afterWhileBody : Outcome Value → Eval Value
  | .value _ => again
  | .jump target v =>
    if reaches continueTo target then continued
    else if reaches breakTo target then pure v
    else jump target v
  | .throw exception => throwing exception
  | .fail f => fail f

/-- The test and the body of a `while`, and what comes after them. -/
def whileStep : Eval Value :=
  test >>= fun v => liftM (truth v) >>= fun holds =>
    if holds then body.settle >>= afterWhileBody breakTo continueTo again continued else finished

/-- In the direct loop the next round follows in both cases. -/
theorem whileRound_bind_elim :
    whileRound breakTo continueTo test body >>= RoundEnd.elim again finished pure =
      whileStep breakTo continueTo test body again again finished := by
  rw [whileRound, whileStep, bind_assoc]
  congr 1
  funext v
  rw [bind_assoc]
  congr 1
  funext holds
  cases holds with
  | false => rfl
  | true =>
      simp only [if_true]
      rw [afterBody, bind_assoc]
      congr 1
      funext o
      cases o with
      | jump target v =>
          simp only [afterWhileBody]
          cases reaches continueTo target with
          | true => rfl
          | false => cases reaches breakTo target <;> rfl
      | _ => rfl

theorem whileStep_mono {continued' : Eval Value} (le : Approximates continued continued') :
    Approximates (whileStep breakTo continueTo test body again continued finished)
      (whileStep breakTo continueTo test body again continued' finished) := by
  refine .bind (.refl _) fun v => .bind (.refl _) fun holds => ?_
  cases holds with
  | false => exact .refl _
  | true =>
      refine .bind (.refl _) fun o => ?_
      cases o with
      | jump target v =>
          simp only [afterWhileBody]
          cases reaches continueTo target with
          | true => exact le
          | false => exact .refl _
      | _ => exact .refl _

end

/-- The choice in a lowered `while`, if `goOn` runs what is left of the block that is repeated. -/
theorem settle_bind_whileStep {test body choice round place next : Expr}
    {goOn : List Expr → Value → Eval Value} {continued : Eval Value}
    (chosen : ls.ChosenFor k breakTo continueTo)
    (continueOlder : ∀ l ∈ continueTo.toList, l.id < k)
    (tests : ∀ t ∈ test.freeLabels,
      t.id < k ∧ reaches breakTo t = false ∧ reaches continueTo t = false)
    (bodies : ∀ t ∈ body.freeLabels, t.id < k) (bodyUnplaced : body.placed? = none)
    (chooses : ls.Chooses test round choice)
    (rounds : round.node = .block [] [body, next] .void) (places : ls.Place place)
    (goesOn : ls.Again next) (handles : ls.Handles k breakTo h again finished)
    (ended : ∀ v, goOn [] v = pure v)
    (repeated : ∀ v, (goOn [choice] v).settle >>= h = continued) :
    ((denote host choice).settle >>= fun o =>
        (afterStatement [place, choice] goOn [] o).settle >>= h) =
      whileStep breakTo continueTo (denote host test) (denote host body) again continued
        finished := by
  -- What comes after the choice, jumps to the continue label included.
  let h' (o : Outcome Value) : Eval Value :=
    (afterStatement [place, choice] goOn [] o).settle >>= h
  have placed (t : Label) : after? t [place, choice] =
      if ls.continueLabel.same t then some [choice] else none := by
    rw [after?_cons_of_placed places.placed?_eq, after?_cons_of_unplaced chooses.placed?_eq_none,
      after?]
  have unplaced {t : Label} (other : ls.continueLabel.same t = false) :
      after? t [place, choice] = none := by
    rw [placed, other]
    rfl
  obtain ⟨otherBreak, otherContinue⟩ := chosen.continueLabel_same_inner continueOlder
  have completes (v : Value) : h' (.value v) = again := by
    simp only [h', afterStatement, ended]
    exact handles.value v
  have jumps (t : Label) (v : Value) (older : t.id < k) : h' (.jump t v) =
      afterWhileBody breakTo continueTo again continued (.jump t v) := by
    simp only [h', afterStatement, placed, chosen.continueLabel_same older, afterWhileBody]
    cases reaches continueTo t with
    | true => exact repeated v
    | false => exact handles.jump t v older
  have goesRound : h' (.jump ls.innerContinue .void) = again :=
    (afterStatement_settle_bind_of_unplaced (unplaced otherContinue) _ _ _ h).trans
      handles.innerContinue
  have leaves : h' (.jump ls.innerBreak .void) = finished :=
    (afterStatement_settle_bind_of_unplaced (unplaced otherBreak) _ _ _ h).trans handles.innerBreak
  have passes : Passes test.freeLabels h' := by
    refine ⟨fun t mem v => ?_, handles.throw, handles.fail⟩
    obtain ⟨older, other, stays⟩ := tests t mem
    rw [jumps t v older, afterWhileBody, stays, other]
    rfl
  have roundUnplaced (t : Label) : after? t [body, next] = none := by
    rw [after?_cons_of_unplaced bodyUnplaced]
    exact after?_cons_of_unplaced goesOn.placed?_eq_none t []
  have bodyFollows : (denote host round).settle >>= h' =
      (denote host body).settle >>= afterWhileBody breakTo continueTo again continued := by
    have ignores (v : Value) : h' (.value v) = h' (.value .void) := by rw [completes, completes]
    rw [denote_block_settle_bind host rounds ignores, denoteStatements_cons_settle_bind]
    refine settle_bind_congr fun s o s' endedBody => ?_
    cases o with
    | value v =>
        simp only [afterStatement]
        rw [denoteStatements_last host roundUnplaced, denote_jump host goesOn]
        exact goesRound
    | jump t v =>
        have older := bodies t (confined_denote host body _ _ _ _ endedBody)
        rw [afterStatement_settle_bind_of_unplaced (roundUnplaced t)]
        exact jumps t v older
    | throw exception => exact handles.throw exception
    | fail f => exact handles.fail f
  change (denote host choice).settle >>= h' = _
  rw [chooses.settle_bind host passes, whileStep, leaves, bodyFollows]

/-- The endless loop of a lowered `while` is the rounds of the direct one. -/
theorem denoteLoop_eq_denoteRounds_while {test body inner choice round place next : Expr}
    (chosen : ls.ChosenFor k breakTo continueTo)
    (continueOlder : ∀ l ∈ continueTo.toList, l.id < k)
    (tests : ∀ t ∈ test.freeLabels,
      t.id < k ∧ reaches breakTo t = false ∧ reaches continueTo t = false)
    (bodies : ∀ t ∈ body.freeLabels, t.id < k) (bodyUnplaced : body.placed? = none)
    (repeated : inner.node = .block [] [place, choice] .void)
    (chooses : ls.Chooses test round choice)
    (rounds : round.node = .block [] [body, next] .void) (places : ls.Place place)
    (goesOn : ls.Again next) (ends : Ends k breakTo h) :
    (denoteLoop host inner (some ls.innerBreak) (some ls.innerContinue)).settle >>= h =
      denoteRounds (whileRound breakTo continueTo (denote host test) (denote host body)) >>=
        fun left => left.elim (h (.value .void)) pure := by
  have step {goOn : List Expr → Value → Eval Value} {continued : Eval Value} (again : Eval Value) :=
    @settle_bind_whileStep _ _ _ _ _ _ _ host test body choice round place next goOn continued
      chosen continueOlder tests bodies bodyUnplaced chooses rounds places goesOn
      (chosen.handles ends again)
  have block (again : Eval Value) :
      (denote host inner).settle >>=
          afterRound (some ls.innerBreak) (some ls.innerContinue) h again =
        (denoteStatements host [place, choice] [choice] .void).settle >>=
          afterRound (some ls.innerBreak) (some ls.innerContinue) h again := by
    rw [denote_block_settle_bind host repeated fun v => rfl]
    exact places.settle_bind host (chosen.handles ends again).toEnds _ [choice] .void
  refine denoteLoop_eq_denoteRounds rfl rfl (fun directly => ?_) fun looped => ?_
  · -- The block is bounded by the direct loop, however often the body continues within it.
    rw [block]
    have limit := (converges_statementsWithin host [place, choice] [choice] .void).2
    refine limit.settle_bind_le fun n => ?_
    rw [whileRound_bind_elim] at directly
    induction n with
    | zero => exact fun s r ended => nomatch ended
    | succ n ih =>
        simp only [statementsWithin, runStatements_cons, settle_bind_settle_bind] at ih ⊢
        rw [step _ (runStatements_nil _ _ n) fun v => ?_]
        · refine (whileStep_mono _ _ _ _ _ _ _ ih).trans ?_
          rw [← directly]
          exact .refl _
        · cases n <;> rfl
  · rw [block] at looped
    have unchanged (v : Value) : denoteStatements host [place, choice] [choice] v =
        denoteStatements host [place, choice] [choice] .void := by
      rw [denoteStatements_cons, denoteStatements_cons]
    have once := step _ (denoteStatements_nil host [place, choice]) fun v =>
      (congrArg (·.settle >>= _) (unchanged v)).trans looped.symm
    rw [whileRound_bind_elim, ← once, ← denoteStatements_cons_settle_bind host _ _ _ .void,
      ← looped]
    exact .refl _

/-! ### The whole loops -/

/-- What a lowered `while` means. -/
theorem WhileShape.denote_eq {test body e : Expr} (shape : WhileShape test body ls e)
    (chosen : ls.ChosenFor k breakTo continueTo)
    (continueOlder : ∀ l ∈ continueTo.toList, l.id < k)
    (tests : ∀ t ∈ test.freeLabels,
      t.id < k ∧ reaches breakTo t = false ∧ reaches continueTo t = false)
    (bodies : ∀ t ∈ body.freeLabels, t.id < k) (bodyUnplaced : body.placed? = none) :
    denote host e = do
      let round := whileRound breakTo continueTo (denote host test) (denote host body)
      return loopValue breakTo (← denoteRounds round) := by
  obtain ⟨looping, closing, choice, round, place, next, block, ⟨inner, loops, repeated⟩, chooses,
    rounds, places, goesOn, closes⟩ := shape
  have only := closes.after?_eq loops
  have same := denoteLoop_eq_denoteRounds_while host chosen continueOlder tests bodies bodyUnplaced
    repeated chooses rounds places goesOn (ends_afterStatement host chosen only [closing])
  rw [denote_block host block]
  exact denoteStatements_eq_denoteRounds host chosen loops closes .void same

/-- What a lowered `do ... while` means. -/
theorem DoShape.denote_eq {body test e : Expr} (shape : DoShape body test ls e)
    (chosen : ls.ChosenFor k breakTo continueTo)
    (continueOlder : ∀ l ∈ continueTo.toList, l.id < k)
    (tests : ∀ t ∈ test.freeLabels,
      t.id < k ∧ reaches breakTo t = false ∧ reaches continueTo t = false)
    (bodies : ∀ t ∈ body.freeLabels, t.id < k) (bodyUnplaced : body.placed? = none) :
    denote host e = do
      let round := doRound breakTo continueTo (denote host body) (denote host test)
      return loopValue breakTo (← denoteRounds round) := by
  obtain ⟨looping, closing, choice, place, next, block, ⟨inner, loops, repeated⟩, chooses,
    places, goesOn, closes⟩ := shape
  have only := closes.after?_eq loops
  have same := denoteLoop_eq_denoteRounds_of_round chosen
    (ends_afterStatement host chosen only [closing]) fun h again finished =>
      settle_bind_doRound host chosen continueOlder tests bodies bodyUnplaced repeated chooses
        places goesOn
  rw [denote_block host block]
  exact denoteStatements_eq_denoteRounds host chosen loops closes .void same

/-- A direct `while` over trees, with as much fuel and as many rounds as it takes. -/
theorem isLimit_whileLoop (test body : Expr) (breakTo continueTo : Option Label) :
    IsLimit
      (fun n => Direct.whileLoop (run host n test) (run host n body) breakTo continueTo n)
      (do
        let round := whileRound breakTo continueTo (denote host test) (denote host body)
        return loopValue breakTo (← denoteRounds round)) := by
  have closed := extensional_converges
  have part := converges_runWithin host
  have rounds := converges_rounds
    (extensional_whileRound closed (part test) (part body) breakTo continueTo)
  exact (closed.bind rounds fun left => closed.const (pure (loopValue breakTo left))).2

/-- A direct `do ... while` over trees, with as much fuel and as many rounds as it takes. -/
theorem isLimit_doWhile (body test : Expr) (breakTo continueTo : Option Label) :
    IsLimit
      (fun n => Direct.doWhile (run host n body) (run host n test) breakTo continueTo n)
      (do
        let round := doRound breakTo continueTo (denote host body) (denote host test)
        return loopValue breakTo (← denoteRounds round)) := by
  have closed := extensional_converges
  have part := converges_runWithin host
  have rounds := converges_rounds
    (extensional_doRound closed (part body) (part test) breakTo continueTo)
  exact (closed.bind rounds fun left => closed.const (pure (loopValue breakTo left))).2

/-- The block that a `while` or a `do ... while` is reduced to ends as the loop does when it is run
directly over the lowered parts, and one ends if and only if the other does. -/
theorem reduced_while_iff_direct {e block test body : Expr} {k' : Supply}
    (labelled : WellLabelled k breakTo continueTo body [test])
    (reduced : e.reduce k = .ok (block, k')) :
    (e.node = .whileLoop test body breakTo continueTo →
      ∃ test' body', test.LowersTo test' ∧ body.LowersTo body' ∧
        ∀ s r, (∃ n, run host n block s = some r) ↔
          ∃ n, Direct.whileLoop (run host n test') (run host n body') breakTo continueTo n s =
            some r) ∧
    (e.node = .doWhile body test breakTo continueTo →
      ∃ body' test', body.LowersTo body' ∧ test.LowersTo test' ∧
        ∀ s r, (∃ n, run host n block s = some r) ↔
          ∃ n, Direct.doWhile (run host n body') (run host n test') breakTo continueTo n s =
            some r) := by
  have continueOlder (l : Label) (mem : l ∈ continueTo.toList) : l.id < k :=
    labelled.older l (List.mem_append_left _ (List.mem_append_right _ mem))
  constructor
  · intro isWhile
    simp only [Expr.reduce, Expr.reduceWith, isWhile] at reduced
    obtain ⟨test', body', ls, testTo, bodyTo, chosen, shape⟩ := whileShape_of_whileLoop reduced
    obtain ⟨bodyUnplaced, bodies⟩ := labelled.of_body bodyTo
    have tests := labelled.of_other (List.mem_singleton_self test) testTo
    have direct := isLimit_whileLoop host test' body' breakTo continueTo
    rw [← shape.denote_eq host chosen continueOlder tests bodies bodyUnplaced] at direct
    exact ⟨test', body', testTo, bodyTo,
      fun s r => (isLimit_run host block s r).symm.trans (direct s r)⟩
  · intro isDo
    simp only [Expr.reduce, Expr.reduceWith, isDo] at reduced
    obtain ⟨body', test', ls, bodyTo, testTo, chosen, shape⟩ := doShape_of_doWhile reduced
    obtain ⟨bodyUnplaced, bodies⟩ := labelled.of_body bodyTo
    have tests := labelled.of_other (List.mem_singleton_self test) testTo
    have direct := isLimit_doWhile host body' test' breakTo continueTo
    rw [← shape.denote_eq host chosen continueOlder tests bodies bodyUnplaced] at direct
    exact ⟨body', test', bodyTo, testTo,
      fun s r => (isLimit_run host block s r).symm.trans (direct s r)⟩

/-! ### Loops that are left early

`while (i < 5) if (++i == 3) break done(i); else continue next;` and the same with the test at the
end. -/

namespace CountingWhile

def counter : Parameter := ⟨0, some "i", .int32⟩

def done : Label := ⟨1, some "done", .int32⟩

def next : Label := ⟨2, some "next", .void⟩

def test : Expr :=
  ⟨5, .binary .lessThan ⟨3, .parameter counter⟩ ⟨4, .constant (.int32 5) .int32⟩ false false
    .boolean⟩

def isThree : Expr :=
  ⟨9, .binary .equal ⟨7, .unary .preIncrementAssign ⟨6, .parameter counter⟩ .int32⟩
    ⟨8, .constant (.int32 3) .int32⟩ false false .boolean⟩

def body : Expr :=
  ⟨13, .conditional isThree ⟨11, .jump .breaking done (some ⟨10, .parameter counter⟩)⟩
    (some ⟨12, .jump .continuing next none⟩) .void⟩

def testingFirst : Expr := ⟨14, .whileLoop test body (some done) (some next)⟩

def testingLast : Expr := ⟨14, .doWhile body test (some done) (some next)⟩

/-- The variable is at so much, and nothing else is there. -/
def counterAt (n : Int) : State := { frame := { scope := [(0, .ofInt .int32 n)] } }

theorem reduced_leave_with_three :
    (∃ block k', testingFirst.reduce 15 = .ok (block, k') ∧
      ∃ n, run Host.absent n block (counterAt 0) = some (.value (.int32 3), counterAt 3)) ∧
    ∃ block k', testingLast.reduce 15 = .ok (block, k') ∧
      ∃ n, run Host.absent n block (counterAt 0) = some (.value (.int32 3), counterAt 3) := by
  have labelled : WellLabelled 15 (some done) (some next) body [test] := by decide
  refine ⟨⟨_, _, rfl, ?_⟩, ⟨_, _, rfl, ?_⟩⟩
  · obtain ⟨test', body', ⟨_, _, testOk⟩, ⟨_, _, bodyOk⟩, same⟩ :=
      (reduced_while_iff_direct Host.absent (e := testingFirst) labelled rfl).1 rfl
    cases testOk
    cases bodyOk
    exact (same _ _).mpr ⟨9, rfl⟩
  · obtain ⟨body', test', ⟨_, _, bodyOk⟩, ⟨_, _, testOk⟩, same⟩ :=
      (reduced_while_iff_direct Host.absent (e := testingLast) labelled rfl).2 rfl
    cases bodyOk
    cases testOk
    exact (same _ _).mpr ⟨9, rfl⟩

end CountingWhile

end ExprTree.Lowering
