import ExprTree.Proofs.DirectLoop
import ExprTree.Proofs.Jumps

/-!
The endless loop inside a lowered loop.

A lowered loop repeats a block that goes on or leaves by jumps. What such a block does is told here
together with what comes after it: `k` goes on after every end of the block, and the laws move it
inwards, statement by statement. The least loop that goes on in this way is the lowered one
(`denoteLoop_settle_bind_le`).
-/

namespace ExprTree

namespace Eval

variable {α β : Type} (host : Host)

/-! ### Statements and what comes after them -/

theorem afterStatement_of_unplaced {whole : List Expr} {target : Label}
    (unplaced : after? target whole = none) (goOn : List Expr → Value → Eval Value)
    (es : List Expr) (v : Value) :
    afterStatement whole goOn es (.jump target v) = jump target v := by
  simp only [afterStatement, unplaced]

theorem afterStatement_settle_bind_of_unplaced {whole : List Expr} {target : Label}
    (unplaced : after? target whole = none) (goOn : List Expr → Value → Eval Value)
    (es : List Expr) (v : Value) (k : Outcome Value → Eval β) :
    (afterStatement whole goOn es (.jump target v)).settle >>= k = k (.jump target v) := by
  rw [afterStatement_of_unplaced unplaced]
  exact finish_settle_bind _ _

theorem denoteStatements_cons_settle_bind (whole : List Expr) (e : Expr) (es : List Expr)
    (last : Value) (k : Outcome Value → Eval β) :
    (denoteStatements host whole (e :: es) last).settle >>= k =
      (denote host e).settle >>= fun o =>
        (afterStatement whole (denoteStatements host whole) es o).settle >>= k := by
  rw [denoteStatements_cons, settle_bind_settle_bind]

/-- A statement that jumps to no place in the list is followed by the next one. -/
theorem denoteStatements_cons_of_unplaced {whole : List Expr} {e : Expr} (es : List Expr)
    (last : Value) (unplaced : ∀ t ∈ e.freeLabels, after? t whole = none) :
    denoteStatements host whole (e :: es) last =
      denote host e >>= denoteStatements host whole es := by
  rw [denoteStatements_cons]
  refine Passes.settle_bind ⟨fun t mem v => ?_, fun _ => rfl, fun _ => rfl⟩ (confined_denote host e)
  exact afterStatement_of_unplaced (unplaced t mem) _ es v

theorem denoteStatements_cons_bind {whole : List Expr} {e : Expr} (es : List Expr) (last : Value)
    {k : Outcome Value → Eval β} (unplaced : ∀ t ∈ e.freeLabels, after? t whole = none)
    (passes : Passes e.freeLabels k) :
    (denoteStatements host whole (e :: es) last).settle >>= k =
      denote host e >>= fun v => (denoteStatements host whole es v).settle >>= k := by
  rw [denoteStatements_cons_of_unplaced host es last unplaced]
  exact passes.bind_settle_bind (confined_denote host e)

/-- Nothing comes after the last statement of a list without places. -/
theorem denoteStatements_last {whole : List Expr} (unplaced : ∀ t, after? t whole = none)
    (e : Expr) (last : Value) (k : Outcome Value → Eval β) :
    (denoteStatements host whole [e] last).settle >>= k = (denote host e).settle >>= k := by
  rw [denoteStatements_cons_settle_bind]
  refine settle_bind_congr fun s o s' _ => ?_
  cases o with
  | value v =>
      rw [afterStatement, denoteStatements_nil]
      exact finish_settle_bind _ _
  | jump target v => exact afterStatement_settle_bind_of_unplaced (unplaced target) _ _ v k
  | throw exception => exact finish_settle_bind _ _
  | fail f => exact finish_settle_bind _ _

/-- A block of type void, when its value does not matter. -/
theorem denote_block_settle_bind {e : Expr} {statements : List Expr} {k : Outcome Value → Eval β}
    (block : e.node = .block [] statements .void) (ignores : ∀ v, k (.value v) = k (.value .void)) :
    (denote host e).settle >>= k =
      (denoteStatements host statements statements .void).settle >>= k := by
  rw [denote_block host block]
  change
    (denoteStatements host statements statements .void >>= fun _ => pure .void).settle >>= k = _
  rw [bind_settle_bind]
  refine settle_bind_congr fun s o s' _ => ?_
  cases o with
  | value v => exact (finish_settle_bind _ _).trans (ignores v).symm
  | _ => rfl

/-! ### Loops and what comes after them -/

theorem runLoop_settle_bind (run : Expr → Eval Value) (body : Expr)
    (breakTo continueTo : Option Label) (k : Outcome Value → Eval β) (n : Nat) :
    settle (runLoop run body breakTo continueTo (n + 1)) >>= k =
      (run body).settle >>= afterRound breakTo continueTo k
        (settle (runLoop run body breakTo continueTo n) >>= k) := by
  rw [runLoop_succ, settle_bind_settle_bind]
  refine settle_bind_congr fun s o s' _ => ?_
  cases o with
  | value v => rfl
  | jump target v =>
      simp only [afterRound]
      cases reaches breakTo target with
      | true => rfl
      | false => cases reaches continueTo target <;> rfl
  | throw exception => rfl
  | fail f => rfl

/-- A loop is its body and then, if the body does not leave it, the loop again. -/
theorem denoteLoop_settle_bind (body : Expr) (breakTo continueTo : Option Label)
    (k : Outcome Value → Eval β) :
    (denoteLoop host body breakTo continueTo).settle >>= k =
      (denote host body).settle >>= afterRound breakTo continueTo k
        ((denoteLoop host body breakTo continueTo).settle >>= k) := by
  have loops := converges_withLimit
    (fun _ _ le => runLoop_mono (denote host) body breakTo continueTo le)
    (isLimit_runLoop host body breakTo continueTo)
  have closed := extensional_converges
  have whole := closed.bind (closed.settle loops) fun o => closed.const (k o)
  have unfolded : Converges fun i => (denote host body).settle >>= afterRound breakTo continueTo k
      ((withLimit _ (denoteLoop host body breakTo continueTo) i).settle >>= k) :=
    closed.bind (closed.const _) fun o => closed.afterRound whole breakTo continueTo o
  have shifted := whole.2.tail whole.1
  simp only [withLimit, runLoop_settle_bind] at shifted
  exact shifted.unique unfolded.2

/-- A loop and what comes after it are the least computation that repeats the body in this way. -/
theorem denoteLoop_settle_bind_le {body : Expr} {breakTo continueTo : Option Label}
    {k : Outcome Value → Eval β} {z : Eval β}
    (closed : Approximates ((denote host body).settle >>= afterRound breakTo continueTo k z) z) :
    Approximates ((denoteLoop host body breakTo continueTo).settle >>= k) z := by
  refine (isLimit_runLoop host body breakTo continueTo).settle_bind_le fun n => ?_
  induction n with
  | zero => exact fun s r ended => nomatch ended
  | succ n ih =>
      rw [runLoop_settle_bind]
      exact (Approximates.bind (.refl _) fun o => ih.afterRound breakTo continueTo o).trans closed

end Eval

namespace Lowering

open Eval Direct

variable {ls : LoopLabels} {k : Supply} {breakTo continueTo : Option Label} {t : Label}

/-! ### Labels -/

/-- What is asked of a loop that is lowered with labels from the supply on: its body is not the
place of a label, only the body jumps to the labels that the loop names, and all labels are older
than those to come. -/
structure WellLabelled (k : Supply) (breakTo continueTo : Option Label) (body : Expr)
    (others : List Expr) : Prop where
  body_unplaced : body.kind ≠ .label
  own : ∀ e ∈ others, ∀ t ∈ e.freeLabels,
    reaches breakTo t = false ∧ reaches continueTo t = false
  older : ∀ t ∈ breakTo.toList ++ continueTo.toList ++ (body :: others).flatMap Expr.freeLabels,
    t.id < k

instance (k : Supply) (breakTo continueTo : Option Label) (body : Expr) (others : List Expr) :
    Decidable (WellLabelled k breakTo continueTo body others) :=
  decidable_of_iff
    (body.kind ≠ .label ∧
      (∀ e ∈ others, ∀ t ∈ e.freeLabels,
        reaches breakTo t = false ∧ reaches continueTo t = false) ∧
      ∀ t ∈ breakTo.toList ++ continueTo.toList ++ (body :: others).flatMap Expr.freeLabels,
        t.id < k)
    ⟨fun ⟨unplaced, own, older⟩ => ⟨unplaced, own, older⟩,
      fun labelled => ⟨labelled.body_unplaced, labelled.own, labelled.older⟩⟩

theorem WellLabelled.of_body {body body' : Expr} {others : List Expr}
    (labelled : WellLabelled k breakTo continueTo body others) (lowers : body.LowersTo body') :
    body'.placed? = none ∧ ∀ t ∈ body'.freeLabels, t.id < k := by
  refine ⟨?_, fun t mem => labelled.older t ?_⟩
  · rw [Expr.placed?_of_lowersTo lowers]
    exact Expr.placed?_eq_none labelled.body_unplaced
  · have mem := Expr.freeLabels_subset_of_lowersTo lowers mem
    exact List.mem_append_right _ (List.mem_flatMap.mpr ⟨body, List.mem_cons_self, mem⟩)

theorem WellLabelled.of_other {body e e' : Expr} {others : List Expr}
    (labelled : WellLabelled k breakTo continueTo body others) (mem : e ∈ others)
    (lowers : e.LowersTo e') :
    ∀ t ∈ e'.freeLabels, t.id < k ∧ reaches breakTo t = false ∧ reaches continueTo t = false := by
  intro t free
  have free := Expr.freeLabels_subset_of_lowersTo lowers free
  refine ⟨labelled.older t ?_, labelled.own e mem t free⟩
  exact List.mem_append_right _ (List.mem_flatMap.mpr ⟨e, .tail _ mem, free⟩)

theorem same_of_older {l : Label} (older : t.id < l.id) : l.same t = false :=
  beq_eq_false_iff_ne.mpr (Nat.ne_of_gt older)

theorem same_of_newer {l : Label} (newer : l.id < t.id) : l.same t = false :=
  beq_eq_false_iff_ne.mpr (Nat.ne_of_lt newer)

theorem LoopLabels.ChosenFor.breakLabel_same (chosen : ls.ChosenFor k breakTo continueTo)
    (older : t.id < k) : ls.breakLabel.same t = reaches breakTo t := by
  cases named : breakTo with
  | some l =>
      rw [chosen.breakNamed l named]
      rfl
  | none =>
      have newer := Nat.lt_of_succ_lt (chosen.breakNew named).2
      exact same_of_older (Nat.lt_trans older newer)

theorem LoopLabels.ChosenFor.continueLabel_same (chosen : ls.ChosenFor k breakTo continueTo)
    (older : t.id < k) : ls.continueLabel.same t = reaches continueTo t := by
  cases named : continueTo with
  | some l =>
      rw [chosen.continueNamed l named]
      rfl
  | none =>
      have newer := Nat.lt_of_succ_lt (chosen.continueNew named)
      exact same_of_older (Nat.lt_trans older newer)

theorem LoopLabels.ChosenFor.innerBreak_same (chosen : ls.ChosenFor k breakTo continueTo)
    (older : t.id < k) : ls.innerBreak.same t = false := by
  refine same_of_older ?_
  rwa [chosen.innerBreak]

theorem LoopLabels.ChosenFor.innerContinue_same (chosen : ls.ChosenFor k breakTo continueTo)
    (older : t.id < k) : ls.innerContinue.same t = false := by
  refine same_of_older ?_
  rw [chosen.innerContinue]
  exact Nat.lt_succ_of_lt older

theorem LoopLabels.ChosenFor.inner_same (chosen : ls.ChosenFor k breakTo continueTo) :
    ls.innerBreak.same ls.innerContinue = false := by
  refine same_of_newer ?_
  rw [chosen.innerBreak, chosen.innerContinue]
  exact Nat.lt_succ_self k

/-- The continue label is none of the labels of the endless loop. -/
theorem LoopLabels.ChosenFor.continueLabel_same_inner (chosen : ls.ChosenFor k breakTo continueTo)
    (older : ∀ l ∈ continueTo.toList, l.id < k) :
    ls.continueLabel.same ls.innerBreak = false ∧
      ls.continueLabel.same ls.innerContinue = false := by
  cases named : continueTo with
  | some l =>
      have older := older l (by rw [named]; exact List.mem_singleton_self l)
      rw [chosen.continueNamed l named]
      refine ⟨same_of_newer ?_, same_of_newer ?_⟩
      · rwa [chosen.innerBreak]
      · rw [chosen.innerContinue]
        exact Nat.lt_succ_of_lt older
  | none =>
      have newer := chosen.continueNew named
      refine ⟨same_of_older ?_, same_of_older ?_⟩
      · rw [chosen.innerBreak]
        exact Nat.lt_of_succ_lt newer
      · rwa [chosen.innerContinue]

/-! ### What comes after a round -/

/-- What comes after a lowered loop: a jump to its break label leaves the value that it carries. -/
structure Ends (k : Supply) (breakTo : Option Label) (h : Outcome Value → Eval Value) : Prop where
  jump : ∀ t v, t.id < k → h (.jump t v) = if reaches breakTo t then pure v else Eval.jump t v
  throw : ∀ exception, h (.throw exception) = throwing exception
  fail : ∀ f, h (.fail f) = Eval.fail f

/-- What comes after the end of the block that is repeated: the loop again, or the end of the
loop. -/
structure LoopLabels.Handles (ls : LoopLabels) (k : Supply) (breakTo : Option Label)
    (h : Outcome Value → Eval Value) (again finished : Eval Value) : Prop
    extends Ends k breakTo h where
  value : ∀ v, h (.value v) = again
  innerContinue : h (.jump ls.innerContinue .void) = again
  innerBreak : h (.jump ls.innerBreak .void) = finished

theorem LoopLabels.ChosenFor.handles {h : Outcome Value → Eval Value}
    (chosen : ls.ChosenFor k breakTo continueTo) (ends : Ends k breakTo h) (again : Eval Value) :
    ls.Handles k breakTo (afterRound (some ls.innerBreak) (some ls.innerContinue) h again) again
      (h (.value .void)) where
  value := fun v => rfl
  innerContinue := by simp [afterRound, reaches, chosen.inner_same, Label.same_self]
  innerBreak := by simp [afterRound, reaches, Label.same_self]
  jump := by
    intro t v older
    simp only [afterRound, reaches, Option.map_some, Option.getD_some,
      chosen.innerBreak_same older, chosen.innerContinue_same older]
    exact ends.jump t v older
  throw := ends.throw
  fail := ends.fail

/-- An endless loop is the rounds, one after the other, if the direct loop bounds the block that is
repeated before it, and the endless loop bounds a round before it. -/
theorem denoteLoop_eq_denoteRounds {host : Host} {inner : Expr} {innerBreak innerContinue : Label}
    {round : Eval RoundEnd} {h : Outcome Value → Eval Value} {loop direct : Eval Value}
    (isLoop : loop = (denoteLoop host inner (some innerBreak) (some innerContinue)).settle >>= h)
    (isDirect : direct = denoteRounds round >>= fun left => left.elim (h (.value .void)) pure)
    (upper : direct = round >>= RoundEnd.elim direct (h (.value .void)) pure →
      Approximates ((denote host inner).settle >>=
        afterRound (some innerBreak) (some innerContinue) h direct) direct)
    (lower : loop = (denote host inner).settle >>=
        afterRound (some innerBreak) (some innerContinue) h loop →
      Approximates (round >>= RoundEnd.elim loop (h (.value .void)) pure) loop) :
    loop = direct := by
  have directly : direct = round >>= RoundEnd.elim direct (h (.value .void)) pure := by
    rw [isDirect]
    exact denoteRounds_bind round _
  have repeated : loop = (denote host inner).settle >>=
      afterRound (some innerBreak) (some innerContinue) h loop := by
    rw [isLoop]
    exact denoteLoop_settle_bind host inner _ _ h
  refine Approximates.antisymm ?_ ?_
  · rw [isLoop]
    exact denoteLoop_settle_bind_le host (upper directly)
  · rw [isDirect]
    exact denoteRounds_bind_le (lower repeated)

theorem denoteLoop_eq_denoteRounds_of_round {host : Host} {inner : Expr} {round : Eval RoundEnd}
    {h : Outcome Value → Eval Value} (chosen : ls.ChosenFor k breakTo continueTo)
    (ends : Ends k breakTo h)
    (same : ∀ h again finished, ls.Handles k breakTo h again finished →
      (denote host inner).settle >>= h = round >>= RoundEnd.elim again finished pure) :
    (denoteLoop host inner (some ls.innerBreak) (some ls.innerContinue)).settle >>= h =
      denoteRounds round >>= fun left => left.elim (h (.value .void)) pure := by
  have once (again : Eval Value) := same _ again _ (chosen.handles ends again)
  refine denoteLoop_eq_denoteRounds rfl rfl (fun directly => ?_) fun repeated => ?_
  · rw [once, ← directly]
    exact .refl _
  · rw [← once, ← repeated]
    exact .refl _

/-! ### Parts of a lowered loop -/

variable (host : Host)

/-- The choice between another round and leaving, and what comes after it. -/
theorem LoopLabels.Chooses.settle_bind {test round e : Expr} {h : Outcome Value → Eval Value}
    (chooses : ls.Chooses test round e) (passes : Passes test.freeLabels h) :
    (denote host e).settle >>= h = denote host test >>= fun v => liftM (truth v) >>= fun holds =>
      if holds then (denote host round).settle >>= h else h (.jump ls.innerBreak .void) := by
  obtain ⟨leave, isChoice, leaves⟩ := chooses
  rw [denote_conditional host isChoice, passes.bind_settle_bind (confined_denote host test)]
  congr 1
  funext v
  rw [passes.bind_settle_bind ((Steady.lift (truth v)).confined _)]
  congr 1
  funext holds
  cases holds with
  | true => rfl
  | false =>
      simp only [Bool.false_eq_true, if_false]
      rw [denote_jump host leaves]
      rfl

theorem Stores.denote_eq {p : Parameter} {value e : Expr} (stores : Stores p value e) :
    denote host e = do
      let v ← denote host value
      assign p v
      return v := by
  obtain ⟨target, assigns, reads⟩ := stores
  rw [denote_of_node host assigns rfl]
  simp only [runNode, runBinary, store, reads]

/-- The value that a lowered loop has when its test fails. -/
theorem Closes.denote_eq {l : Label} {e : Expr} (closes : Closes l e) :
    denote host e = pure (if l.type.isVoid then .void else .defaultOf l.type) := by
  unfold Closes at closes
  split at closes
  case isTrue isVoid => rw [denote_place host closes, if_pos isVoid]
  case isFalse carries =>
      obtain ⟨fallback, places, falls⟩ := closes
      rw [if_neg carries, denote_of_node host places rfl]
      exact denote_of_node host falls rfl

theorem Closes.after?_eq {looping closing inner : Expr} {innerBreak innerContinue : Option Label}
    (closes : Closes ls.breakLabel closing)
    (loops : looping.node = .loop inner innerBreak innerContinue) (t : Label) :
    after? t [looping, closing] = if ls.breakLabel.same t then some [] else none := by
  rw [after?_cons_of_unplaced (by simp only [Expr.placed?, loops]),
    after?_cons_of_placed closes.placed?_eq, after?]

/-- What comes after the endless loop in a list of statements that ends with the place of the break
label and has no other place. -/
theorem ends_afterStatement {whole : List Expr} (chosen : ls.ChosenFor k breakTo continueTo)
    (only : ∀ t, after? t whole = if ls.breakLabel.same t then some [] else none)
    (es : List Expr) : Ends k breakTo (afterStatement whole (denoteStatements host whole) es) where
  jump := by
    intro t v older
    simp only [afterStatement, only, chosen.breakLabel_same older]
    cases reaches breakTo t with
    | true => exact denoteStatements_nil host whole v
    | false => rfl
  throw := fun exception => rfl
  fail := fun f => rfl

theorem Closes.afterStatement_value {closing : Expr} {whole : List Expr}
    (closes : Closes ls.breakLabel closing) (v : Value) :
    afterStatement whole (denoteStatements host whole) [closing] (.value v) =
      pure (if ls.breakLabel.type.isVoid then .void else .defaultOf ls.breakLabel.type) := by
  simp only [afterStatement]
  rw [denoteStatements_cons, closes.denote_eq host]
  exact denoteStatements_nil host whole _

/-- A lowered loop from the endless loop on, if that is the rounds one after the other. -/
theorem denoteStatements_eq_denoteRounds {inner looping closing : Expr} {whole : List Expr}
    {round : Eval RoundEnd} (chosen : ls.ChosenFor k breakTo continueTo)
    (loops : looping.node = .loop inner (some ls.innerBreak) (some ls.innerContinue))
    (closes : Closes ls.breakLabel closing) (last : Value)
    (same : (denoteLoop host inner (some ls.innerBreak) (some ls.innerContinue)).settle >>=
        afterStatement whole (denoteStatements host whole) [closing] =
      denoteRounds round >>= fun left =>
        left.elim (afterStatement whole (denoteStatements host whole) [closing] (.value .void))
          pure) :
    (denoteStatements host whole [looping, closing] last >>= fun v =>
        pure (if ls.breakLabel.type.isVoid then .void else v)) =
      denoteRounds round >>= fun left => pure (loopValue breakTo left) := by
  rw [denoteStatements_cons, denote_loop host loops, same, bind_assoc]
  congr 1
  funext left
  simp only [loopValue, chosen.type_eq]
  cases left with
  | none =>
      rw [Option.elim_none, closes.afterStatement_value host, pure_bind]
      cases ls.breakLabel.type.isVoid <;> rfl
  | some v => rfl

variable {h : Outcome Value → Eval Value} {again finished : Eval Value}

theorem Ends.passes (ends : Ends k breakTo h) {labels : List Label}
    (others : ∀ t ∈ labels, t.id < k ∧ reaches breakTo t = false) : Passes labels h where
  jump := by
    intro t mem v
    obtain ⟨older, other⟩ := others t mem
    rw [ends.jump t v older, other]
    rfl
  throw := ends.throw
  fail := ends.fail

/-- A part that no jump leaves. -/
theorem Ends.passes_of_free (ends : Ends k breakTo h) {labels : List Label} (free : labels = []) :
    Passes labels h := by
  rw [free]
  exact ends.passes fun t mem => absurd mem List.not_mem_nil

theorem LoopLabels.Handles.ignores (handles : ls.Handles k breakTo h again finished) (v : Value) :
    h (.value v) = h (.value .void) := by
  rw [handles.value, handles.value]

/-- The place of the continue label does nothing. -/
theorem LoopLabels.Place.settle_bind {place : Expr} (places : ls.Place place)
    (ends : Ends k breakTo h) (whole es : List Expr) (last : Value) :
    (denoteStatements host whole (place :: es) last).settle >>= h =
      (denoteStatements host whole es .void).settle >>= h := by
  have noLabels : place.freeLabels = [] := places.freeLabels_eq
  rw [denoteStatements_cons_bind, denote_place host places, pure_bind]
  · rw [noLabels]
    exact fun t mem => nomatch mem
  · rw [noLabels]
    exact ends.passes fun t mem => nomatch mem

/-- The jump to the next round, at the end of a list of statements without a place for it. -/
theorem LoopLabels.Again.settle_bind {next : Expr} (goesOn : ls.Again next)
    (handles : ls.Handles k breakTo h again finished) {whole : List Expr}
    (unplaced : after? ls.innerContinue whole = none) (last : Value) :
    (denoteStatements host whole [next] last).settle >>= h = again := by
  rw [denoteStatements_cons_settle_bind, denote_jump host goesOn]
  exact (afterStatement_settle_bind_of_unplaced unplaced _ _ .void h).trans handles.innerContinue

/-- A step, and then the jump to the next round. -/
theorem settle_bind_stepAgain {step next : Expr} {whole : List Expr} (goesOn : ls.Again next)
    (handles : ls.Handles k breakTo h again finished)
    (unplaced : after? ls.innerContinue whole = none)
    (stays : ∀ t ∈ step.freeLabels, after? t whole = none) (passes : Passes step.freeLabels h)
    (last : Value) :
    (denoteStatements host whole [step, next] last).settle >>= h =
      (discard (denote host step) >>= fun _ => pure RoundEnd.again) >>=
        RoundEnd.elim again finished pure := by
  rw [denoteStatements_cons_bind host _ _ stays passes]
  simp only [goesOn.settle_bind host handles unplaced]
  rw [discard_eq, bind_assoc, bind_assoc]
  rfl

/-- A round that its test opens: what is repeated is the choice, and the statements of the round
are run if the test holds. -/
theorem settle_bind_testedRound {test inner choice round : Expr} {statements : List Expr}
    {rest : Eval RoundEnd} (handles : ls.Handles k breakTo h again finished)
    (passes : Passes test.freeLabels h) (repeated : inner.node = .block [] [choice] .void)
    (chooses : ls.Chooses test round choice) (rounds : round.node = .block [] statements .void)
    (follows : (denoteStatements host statements statements .void).settle >>= h =
      rest >>= RoundEnd.elim again finished pure) :
    (denote host inner).settle >>= h =
      (do if ← truth (← denote host test) then rest else return .finished) >>=
        RoundEnd.elim again finished pure := by
  have alone (t : Label) : after? t [choice] = none :=
    after?_cons_of_unplaced chooses.placed?_eq_none t []
  calc (denote host inner).settle >>= h
    _ = (denote host choice).settle >>= h := by
        rw [denote_block_settle_bind host repeated handles.ignores,
          denoteStatements_last host alone]
    _ = denote host test >>= fun v => liftM (truth v) >>= fun holds =>
          if holds then (denote host round).settle >>= h else h (.jump ls.innerBreak .void) :=
        chooses.settle_bind host passes
    _ = _ := by
        rw [bind_assoc]
        refine bind_congr fun v => ?_
        rw [bind_assoc]
        refine bind_congr fun holds => ?_
        cases holds with
        | true => exact (denote_block_settle_bind host rounds handles.ignores).trans follows
        | false => exact handles.innerBreak

theorem LoopLabels.Place.after?_eq {body place : Expr} {rest : List Expr} (places : ls.Place place)
    (unplaced : body.placed? = none) (restUnplaced : ∀ t, after? t rest = none) (t : Label) :
    after? t (body :: place :: rest) = if ls.continueLabel.same t then some rest else none := by
  rw [after?_cons_of_unplaced unplaced, after?_cons_of_placed places.placed?_eq, restUnplaced]

/-- A body that the place of the continue label and the rest of the round follow. -/
theorem settle_bind_afterBody {body place : Expr} {whole rest : List Expr} {next : Eval RoundEnd}
    (chosen : ls.ChosenFor k breakTo continueTo) (ends : Ends k breakTo h)
    (older : ∀ t ∈ body.freeLabels, t.id < k) (places : ls.Place place)
    (placed : ∀ t, after? t whole = if ls.continueLabel.same t then some rest else none)
    (follows : ∀ v, (denoteStatements host whole rest v).settle >>= h =
      next >>= RoundEnd.elim again finished pure) (last : Value) :
    (denoteStatements host whole (body :: place :: rest) last).settle >>= h =
      afterBody breakTo continueTo (denote host body) next >>=
        RoundEnd.elim again finished pure := by
  rw [denoteStatements_cons_settle_bind, afterBody, bind_assoc]
  refine settle_bind_congr fun s o s' ended => ?_
  cases o with
  | value v => exact (places.settle_bind host ends _ rest v).trans (follows .void)
  | jump t v =>
      have older := older t (confined_denote host body _ _ _ _ ended)
      simp only [afterStatement, placed, chosen.continueLabel_same older]
      cases reaches continueTo t with
      | true => exact follows v
      | false =>
          refine (ends.jump t v older).trans ?_
          cases reaches breakTo t <;> rfl
  | throw exception => exact ends.throw exception
  | fail f => exact ends.fail f

end Lowering

end ExprTree
