import ExprTree.Proofs.DirectForEach
import ExprTree.Proofs.Scoping

/-!
The rounds of a `foreach`, with the enumerator in a variable.

Nothing else stores to that variable, so it holds what `GetEnumerator()` gave from the first round
to the last (`ForEach.InScope`). So a round that reads it is a round of the rules
(`ForEach.round_iff`), and the rounds until one leaves are those of the rules
(`ForEach.denoteRounds_iff`).
-/

namespace ExprTree

namespace Eval

variable {α : Type} {s s' : State} {o : Outcome α}

theorem withVariable_eq_some {p : Parameter} {v : Value} {x : Eval α} :
    withVariable p v x s = some (o, s') ↔ ∃ m, x (Direct.holding p v s) = some (o, m) ∧
      s' = setScope m (m.frame.scope.restore p.id (s.frame.scope.find? p.id)) := by
  constructor
  · intro ended
    obtain ⟨⟨o', m⟩, h, made⟩ := Option.map_eq_some_iff.mp ended
    cases made
    exact ⟨m, h, rfl⟩
  · rintro ⟨m, h, rfl⟩
    exact Option.map_eq_some_iff.mpr ⟨(o, m), h, rfl⟩

/-- A computation takes the course that it does within the scope of the variable. -/
theorem withVariable_iff_held {p : Parameter} {v : Value} {x : Eval Value} {course : Direct.Course}
    {o : Outcome Value}
    (within : ∀ {o m}, x (Direct.holding p v s) = some (o, m) ↔
      ∃ steps, course (Direct.holding p v s) steps o m) :
    withVariable p v x s = some (o, s') ↔ ∃ steps, Direct.Held p v course s steps o s' := by
  rw [withVariable_eq_some]
  constructor
  · rintro ⟨m, h, rfl⟩
    obtain ⟨steps, h⟩ := within.mp h
    exact ⟨steps, m, h, rfl⟩
  · rintro ⟨steps, m, h, rfl⟩
    exact ⟨m, within.mpr ⟨steps, h⟩, rfl⟩

theorem load_of_find? {p : Parameter} {v : Value} (found : s.frame.scope.find? p.id = some v) :
    load p s = some (.value v, s) := by
  simp only [load, found]

theorem assign_of_bound {p : Parameter} (bound : (s.frame.scope.find? p.id).isSome = true)
    (v : Value) : assign p v s = some (.value (), Direct.holding p v s) := by
  obtain ⟨old, found⟩ := Option.isSome_iff_exists.mp bound
  simp only [assign, found]
  rfl

theorem keepsBut_denote (host : Host) (e : Expr) : KeepsBut e.assigned (denote host e) := by
  intro s o s' ended
  obtain ⟨n, ended⟩ := (isLimit_run host e _ _).mp ended
  exact keepsBut_run host n e _ _ _ ended

end Eval

theorem Outcome.Passed.of_incomplete {α : Type} {o : Outcome α} (stopped : o.completes = false) :
    o.Passed o := by
  cases o with
  | value a => cases stopped
  | jump target v => exact .jump target v
  | throw exception => exact .throw exception
  | fail f => exact .fail f

namespace Direct.ForEach

open Eval

variable {loop : ForEach} {host : Host} {enumerator : Value} {s s' : State}

/-! ### Variables of the loop -/

theorem find?_holding (p q : Parameter) (v : Value) (s : State) :
    (holding p v s).frame.scope.find? q.id =
      if q.id = p.id then some v else s.frame.scope.find? q.id :=
  Scope.find?_insert _ _ _ _

/-- The variables of the loop are in scope, and one of them holds the enumerator. -/
structure InScope (loop : ForEach) (enumerator : Value) (s : State) : Prop where
  enumerator : s.frame.scope.find? loop.enumerator.id = some enumerator
  item : (s.frame.scope.find? loop.item.id).isSome = true

theorem InScope.of_keptBut {ids : List Identity} (inScope : loop.InScope enumerator s)
    (kept : Scope.KeptBut ids s.frame.scope s'.frame.scope) (other : loop.enumerator.id ∉ ids) :
    loop.InScope enumerator s' where
  enumerator := (kept.value _ other).trans inScope.enumerator
  item := (kept.bound _).trans inScope.item

theorem InScope.holding_item (inScope : loop.InScope enumerator s)
    (other : loop.enumerator.id ≠ loop.item.id) (x : Value) :
    loop.InScope enumerator (holding loop.item x s) := by
  constructor
  · rw [find?_holding, if_neg other]
    exact inScope.enumerator
  · rw [find?_holding, if_pos rfl]
    rfl

theorem keepsBut_call (host : Host) (v : Value) (m : Method) : KeepsBut [] (call host v m) := by
  have rules := (compatible_keepsBut []).rules host
  have none : Rules.Calls .nothing (fun α Q (x : Unit → Eval α) =>
      KeepsBut [] (x ()) ∧ ∀ i, Gives Q (x i)) fun _ _ _ _ => outOfFuel := by
    intro l frame arguments _ _ _
    exact KeepsBut.known .outOfFuel
  exact (rules.callOn none (Knowledge.clear_nothing v) m (by simp)).1

/-- The actions keep all variables but those that the source or the body assigns. -/
theorem keepsBut_act (loop : ForEach) (host : Host) (action : ForEachAction) :
    KeepsBut (if action.isOpening then loop.source.assigned else loop.body.assigned)
      (loop.act host action) := by
  have called (v : Value) (m : Method) (ids : List Identity) : KeepsBut ids (call host v m) :=
    (keepsBut_call host v m).subset (List.nil_subset _)
  cases action with
  | source => exact (keepsBut_denote host loop.source).bind fun v => (Steady.lift _).keepsBut _
  | getEnumerator v => exact called v _ _
  | moveNext v => exact called v _ _
  | current v =>
      have read := (((compatible_keepsBut loop.body.assigned).rules host).memberGet
        (Knowledge.clear_nothing v) (.current loop.protocol.enumerator loop.protocol.element)).1
      exact read.bind fun x => (Steady.lift _).keepsBut _
  | body => exact keepsBut_denote host loop.body
  | dispose v => exact called v _ _

/-- Nothing in the rounds stores to the variable of the enumerator. -/
structure Apart (loop : ForEach) : Prop where
  item : loop.enumerator.id ≠ loop.item.id
  body : loop.enumerator.id ∉ loop.body.assigned

theorem InScope.of_act {action : ForEachAction} {o : Outcome Value}
    (inScope : loop.InScope enumerator s) (apart : loop.Apart) (inner : action.isOpening = false)
    (ended : loop.act host action s = some (o, s')) : loop.InScope enumerator s' := by
  have kept := keepsBut_act loop host action _ _ _ ended
  rw [inner] at kept
  exact inScope.of_keptBut kept apart.body

theorem Round.inScope {steps : List ForEachStep} {left : Option (Outcome Value)}
    (apart : loop.Apart) (inScope : loop.InScope enumerator s)
    (round : loop.Round host enumerator s steps left s') : loop.InScope enumerator s' := by
  cases round with
  | unmoved moved => exact inScope.of_act apart rfl moved
  | unread moved read => exact (inScope.of_act apart rfl moved).of_act apart rfl read
  | ran moved read ran =>
      have inScope := (inScope.of_act apart rfl moved).of_act apart rfl read
      exact (inScope.holding_item apart.item _).of_act apart rfl ran

/-! ### Rounds -/

/-- A round: the test, the store to the variable of the loop, the body. -/
def iterate (continueTo : Option Label) (test store body : Eval Value) : Eval RoundEnd := do
  if ← truth (← test) then
    let _ ← store
    afterBody none continueTo body (return .again)
  else return .finished

/-- Moving the enumerator on, which is in its variable. -/
noncomputable def move (loop : ForEach) (host : Host) : Eval Value := do
  loop.act host (.moveNext (← load loop.enumerator))

/-- Reading the enumerator, which is in its variable, and storing to the variable of the loop. -/
noncomputable def fetch (loop : ForEach) (host : Host) : Eval Value := do
  let x ← loop.act host (.current (← load loop.enumerator))
  assign loop.item x
  return x

/-- A round with the enumerator in its variable. -/
noncomputable def round (loop : ForEach) (host : Host) : Eval RoundEnd :=
  iterate loop.continueTo (loop.move host) (loop.fetch host) (loop.act host .body)

/-- How a round ends, by how the loop is left. -/
def roundEnd : Option (Outcome Value) → Outcome RoundEnd
  | none => .value .again
  | some (.value _) => .value .finished
  | some (.jump target v) => .jump target v
  | some (.throw exception) => .throw exception
  | some (.fail f) => .fail f

theorem afterBody_eq (loop : ForEach) (body : Eval Value) :
    afterBody none loop.continueTo body (pure .again) =
      body.settle >>= fun o => finish (roundEnd (loop.leftBy .body o)) := by
  refine settle_bind_congr fun s o s' _ => ?_
  cases o with
  | jump target v =>
      simp only [leftBy]
      cases reaches loop.continueTo target <;> rfl
  | _ => rfl

theorem iterate_eq (loop : ForEach) (enumerator : Value) (test store body : Eval Value) :
    iterate loop.continueTo test store body = test.settle >>= fun o =>
      (loop.leftBy (.moveNext enumerator) o).elim
        (store >>= fun _ => body.settle >>= fun o => finish (roundEnd (loop.leftBy .body o)))
        fun ended => finish (roundEnd (some ended)) := by
  unfold iterate
  rw [← afterBody_eq loop body, bind_eq_settle_bind]
  refine settle_bind_congr fun s o s' _ => ?_
  cases o with
  | value v =>
      simp only [leftBy]
      cases truth v with
      | error f => rfl
      | ok holds => cases holds <;> rfl
  | _ => rfl

theorem eq_true_of_leftBy {o : Outcome Value}
    (stays : loop.leftBy (.moveNext enumerator) o = none) : o = .value (.boolean true) := by
  cases o with
  | value v =>
      cases v with
      | boolean b =>
          cases b with
          | false => cases stays
          | true => rfl
      | _ => cases stays
  | _ => cases stays

theorem passed_iff_leftBy {o : Outcome Value} {o' : Outcome RoundEnd} :
    o.Passed o' ↔ ∃ ended, loop.leftBy (.current enumerator) o = some ended ∧
      o' = roundEnd (some ended) := by
  constructor
  · intro passed
    cases passed <;> exact ⟨_, rfl, rfl⟩
  · rintro ⟨ended, left, rfl⟩
    cases o with
    | value v => cases left
    | jump target v =>
        cases left
        exact .jump target v
    | throw exception =>
        cases left
        exact .throw exception
    | fail f =>
        cases left
        exact .fail f

theorem fetch_bind_iff {α : Type} {y : Eval α} {o : Outcome α}
    (inScope : loop.InScope enumerator s) (apart : loop.Apart) :
    (loop.fetch host >>= fun _ => y) s = some (o, s') ↔
      (∃ x m, loop.act host (.current enumerator) s = some (.value x, m) ∧
        y (holding loop.item x m) = some (o, s')) ∨
      ∃ o', loop.act host (.current enumerator) s = some (o', s') ∧ o'.Passed o := by
  unfold fetch
  simp only [bind_assoc, pure_bind]
  rw [bind_of_value (load_of_find? inScope.enumerator), bind_eq_some]
  refine or_congr_left (exists_congr fun x => exists_congr fun m => and_congr_right fun read => ?_)
  have inScope := inScope.of_act apart rfl read
  rw [bind_of_value (assign_of_bound inScope.item x)]

/-- A round is one of the rules. -/
theorem round_iff {o : Outcome RoundEnd} (apart : loop.Apart)
    (inScope : loop.InScope enumerator s) :
    loop.round host s = some (o, s') ↔
      ∃ steps left, loop.Round host enumerator s steps left s' ∧ o = roundEnd left := by
  rw [round, iterate_eq loop enumerator, settle_bind_eq_some, move,
    bind_of_value (load_of_find? inScope.enumerator)]
  constructor
  · rintro ⟨o', m, moved, ended⟩
    cases left : loop.leftBy (.moveNext enumerator) o' with
    | some how =>
        rw [left] at ended
        cases ended
        exact ⟨_, _, .unmoved moved left, rfl⟩
    | none =>
        obtain rfl := eq_true_of_leftBy left
        have inScope := inScope.of_act apart rfl moved
        rcases (fetch_bind_iff inScope apart).mp ended with
          ⟨x, m', read, ran⟩ | ⟨o', read, passed⟩
        · obtain ⟨o', m'', ran, ended⟩ := settle_bind_eq_some.mp ran
          cases ended
          exact ⟨_, _, .ran moved read ran, rfl⟩
        · obtain ⟨how, left, rfl⟩ := passed_iff_leftBy.mp passed
          exact ⟨_, _, .unread moved read left, rfl⟩
  · rintro ⟨steps, left, round, rfl⟩
    cases round with
    | unmoved moved left =>
        refine ⟨_, _, moved, ?_⟩
        rw [left]
        rfl
    | unread moved read left =>
        have inScope := inScope.of_act apart rfl moved
        refine ⟨_, _, moved, (fetch_bind_iff inScope apart).mpr (.inr ?_)⟩
        exact ⟨_, read, passed_iff_leftBy.mpr ⟨_, left, rfl⟩⟩
    | ran moved read ran =>
        have inScope := inScope.of_act apart rfl moved
        refine ⟨_, _, moved, (fetch_bind_iff inScope apart).mpr (.inl ?_)⟩
        exact ⟨_, _, read, settle_bind_eq_some.mpr ⟨_, _, ran, rfl⟩⟩

theorem Round.eq_void_of_left {steps : List ForEachStep} {v : Value}
    (round : loop.Round host enumerator s steps (some (.value v)) s') : v = .void := by
  have nothing {action : ForEachAction} {o : Outcome Value}
      (left : loop.leftBy action o = some (.value v)) : v = .void := by
    cases o with
    | value v' =>
        cases action with
        | moveNext enumerator =>
            simp only [leftBy] at left
            split at left <;> cases left
            rfl
        | _ => cases left
    | jump target v' =>
        cases action with
        | body =>
            simp only [leftBy] at left
            split at left <;> cases left
        | _ => cases left
    | throw exception => cases action <;> cases left
    | fail f => cases action <;> cases left
  generalize how : some (Outcome.value v) = left at round
  cases round with
  | unmoved moved left => exact nothing (left.trans how.symm)
  | unread moved read left => exact nothing (left.trans how.symm)
  | ran moved read ran => exact nothing how.symm

/-- A round and what comes after it. -/
theorem round_bind_elim_iff {o : Outcome Value} (apart : loop.Apart)
    (inScope : loop.InScope enumerator s) (again : Eval Value) :
    (loop.round host >>= RoundEnd.elim again (pure .void) pure) s = some (o, s') ↔
      ∃ steps left m, loop.Round host enumerator s steps left m ∧
        ((left = none ∧ again m = some (o, s')) ∨ left = some o ∧ m = s') := by
  constructor
  · intro ended
    rcases bind_eq_some.mp ended with ⟨how, m, ran, rest⟩ | ⟨o', ran, passed⟩
    · obtain ⟨steps, left, round, ends⟩ := (round_iff apart inScope).mp ran
      refine ⟨steps, left, m, round, ?_⟩
      cases left with
      | none =>
          cases ends
          exact .inl ⟨rfl, rest⟩
      | some o' =>
          cases o' with
          | value v =>
              cases ends
              cases rest
              rw [round.eq_void_of_left]
              exact .inr ⟨rfl, rfl⟩
          | _ => cases ends
    · obtain ⟨steps, left, round, rfl⟩ := (round_iff apart inScope).mp ran
      refine ⟨steps, left, s', round, .inr ⟨?_, rfl⟩⟩
      cases left with
      | none => cases passed
      | some o' => cases o' <;> cases passed <;> rfl
  · rintro ⟨steps, left, m, round, ⟨rfl, rest⟩ | ⟨rfl, rfl⟩⟩
    · have ran := (round_iff apart inScope).mpr ⟨steps, none, round, rfl⟩
      rw [bind_of_value ran]
      exact rest
    · have ran := (round_iff apart inScope).mpr ⟨steps, some o, round, rfl⟩
      cases o with
      | value v =>
          rw [bind_of_value ran, round.eq_void_of_left]
          rfl
      | jump target v => exact bind_of_passed ran (.jump target v)
      | throw exception => exact bind_of_passed ran (.throw exception)
      | fail f => exact bind_of_passed ran (.fail f)

/-! ### Round after round -/

theorem exists_of_rounds {o : Outcome Value} (apart : loop.Apart) (n : Nat)
    (inScope : loop.InScope enumerator s)
    (ended : (rounds (loop.round host) n >>= fun left => left.elim (pure .void) pure) s =
      some (o, s')) :
    ∃ steps, loop.Rounds host enumerator s steps o s' := by
  induction n generalizing s with
  | zero => cases ended
  | succ n ih =>
      rw [rounds_succ, bind_elim_bind] at ended
      obtain ⟨steps, left, m, round, ⟨rfl, rest⟩ | ⟨rfl, rfl⟩⟩ :=
        (round_bind_elim_iff apart inScope _).mp ended
      · obtain ⟨steps', rounds⟩ := ih (round.inScope apart inScope) rest
        exact ⟨_, .again round rounds⟩
      · exact ⟨_, .last round⟩

/-- Round after round, the loop follows the rules. -/
theorem denoteRounds_iff {o : Outcome Value} (apart : loop.Apart)
    (inScope : loop.InScope enumerator s) :
    (denoteRounds (loop.round host) >>= fun left => left.elim (pure .void) pure) s =
        some (o, s') ↔
      ∃ steps, loop.Rounds host enumerator s steps o s' := by
  constructor
  · intro ended
    obtain ⟨n, ended⟩ := (isLimit_rounds _).exists_of_bind ended
    exact exists_of_rounds apart n inScope ended
  · rintro ⟨steps, rounds⟩
    induction rounds with
    | last round =>
        rw [denoteRounds_bind]
        exact (round_bind_elim_iff apart inScope _).mpr ⟨_, _, _, round, .inr ⟨rfl, rfl⟩⟩
    | again round _ ih =>
        rw [denoteRounds_bind]
        exact (round_bind_elim_iff apart inScope _).mpr
          ⟨_, _, _, round, .inl ⟨rfl, ih (round.inScope apart inScope)⟩⟩

theorem Rounds.inScope {steps : List ForEachStep} {o : Outcome Value} (apart : loop.Apart)
    (inScope : loop.InScope enumerator s) (rounds : loop.Rounds host enumerator s steps o s') :
    loop.InScope enumerator s' := by
  induction rounds with
  | last round => exact round.inScope apart inScope
  | again round _ ih => exact ih (round.inScope apart inScope)

/-! ### The whole loop -/

theorem bound_of_act {action : ForEachAction} {o : Outcome Value} {p : Parameter}
    (bound : (s.frame.scope.find? p.id).isSome = true)
    (ended : loop.act host action s = some (o, s')) :
    (s'.frame.scope.find? p.id).isSome = true :=
  ((keepsBut_act loop host action _ _ _ ended).bound p.id).trans bound

/-- A loop with the enumerator in its variable follows the rules, if that holds of how it is
left. -/
theorem runs_iff {leave : Outcome Value → Eval Value} {o : Outcome Value} (apart : loop.Apart)
    (enumeratorBound : (s.frame.scope.find? loop.enumerator.id).isSome = true)
    (itemBound : (s.frame.scope.find? loop.item.id).isSome = true)
    (leaves : ∀ {enumerator s s' ended o},
      s.frame.scope.find? loop.enumerator.id = some enumerator →
        (leave ended s = some (o, s') ↔
          ∃ steps, loop.Leaving host enumerator ended s steps o s')) :
    (do
      let receiver ← loop.act host .source
      let enumerator ← loop.act host (.getEnumerator receiver)
      assign loop.enumerator enumerator
      let ended ← (denoteRounds (loop.round host) >>= fun left =>
        left.elim (pure .void) pure).settle
      let o ← (leave ended).settle
      finish (loop.closed o) : Eval Value) s = some (o, s') ↔
      ∃ steps, loop.Runs host s steps o s' := by
  have opened {receiver enumerator : Value} {m m' : State}
      (given : loop.act host .source s = some (.value receiver, m))
      (got : loop.act host (.getEnumerator receiver) m = some (.value enumerator, m')) :
      assign loop.enumerator enumerator m' =
          some (.value (), holding loop.enumerator enumerator m') ∧
        loop.InScope enumerator (holding loop.enumerator enumerator m') := by
    refine ⟨assign_of_bound (bound_of_act (bound_of_act enumeratorBound given) got) _, ?_, ?_⟩
    · rw [find?_holding, if_pos rfl]
    · rw [find?_holding, if_neg apart.item.symm]
      exact bound_of_act (bound_of_act itemBound given) got
  constructor
  · intro ended
    rcases bind_eq_some.mp ended with ⟨receiver, m, given, rest⟩ | ⟨o', given, passed⟩
    · rcases bind_eq_some.mp rest with ⟨enumerator, m', got, rest⟩ | ⟨o', got, passed⟩
      · obtain ⟨assigned, inScope⟩ := opened given got
        rw [bind_of_value assigned] at rest
        obtain ⟨how, m'', ran, rest⟩ := settle_bind_eq_some.mp rest
        obtain ⟨o', last, left, rest⟩ := settle_bind_eq_some.mp rest
        cases rest
        obtain ⟨steps, rounds⟩ := (denoteRounds_iff apart inScope).mp ran
        have held := (rounds.inScope apart inScope).enumerator
        obtain ⟨steps', leaving⟩ := (leaves held).mp left
        exact ⟨_, .looped given got rounds leaving⟩
      · obtain rfl := passed.eq
        exact ⟨_, .unenumerated given got (Bool.eq_false_iff.mpr passed.incomplete)⟩
    · obtain rfl := passed.eq
      exact ⟨_, .unsourced given (Bool.eq_false_iff.mpr passed.incomplete)⟩
  · rintro ⟨steps, runs⟩
    cases runs with
    | unsourced given stopped => exact bind_of_passed given (.of_incomplete stopped)
    | unenumerated given got stopped =>
        rw [bind_of_value given]
        exact bind_of_passed got (.of_incomplete stopped)
    | looped given got rounds leaving =>
        obtain ⟨assigned, inScope⟩ := opened given got
        have held := (rounds.inScope apart inScope).enumerator
        rw [bind_of_value given, bind_of_value got, bind_of_value assigned]
        refine settle_bind_eq_some.mpr ⟨_, _, (denoteRounds_iff apart inScope).mpr ⟨_, rounds⟩, ?_⟩
        exact settle_bind_eq_some.mpr ⟨_, _, (leaves held).mpr ⟨_, leaving⟩, rfl⟩

end Direct.ForEach

end ExprTree
