import ExprTree.Proofs.ForEachDisposal

/-!
A lowered `foreach` does what the loop does when it goes by its enumerator directly.

One round of the endless loop is one round of the rules, so the block that a `foreach` is reduced to
takes the course of the rules (`EnumeratedShape.executes_iff`). Hence its steps are in order: the
enumerator is disposed of once, however the loop is left.
-/

namespace ExprTree

namespace Lowering

open Eval Direct

variable {host : Host} {loop : ForEach} {s s' : State}

/-! ### The endless loop -/

section

variable {ls : LoopLabels} {k : Supply} {breakTo continueTo : Option Label}

/-- One round of a lowered `foreach`. -/
theorem settle_bind_iterate {test store body inner choice round place next : Expr}
    (chosen : ls.ChosenFor k none continueTo)
    (continueOlder : ∀ l ∈ continueTo.toList, l.id < k) (testFree : test.freeLabels = [])
    (storeFree : store.freeLabels = []) (bodies : ∀ t ∈ body.freeLabels, t.id < k)
    (storeUnplaced : store.placed? = none) (bodyUnplaced : body.placed? = none)
    (repeated : inner.node = .block [] [choice] .void) (chooses : ls.Chooses test round choice)
    (rounds : round.node = .block [] [store, body, place, next] .void) (places : ls.Place place)
    (goesOn : ls.Again next) {h : Outcome Value → Eval Value} {again finished : Eval Value}
    (handles : ls.Handles k none h again finished) :
    (denote host inner).settle >>= h =
      ForEach.iterate continueTo (denote host test) (denote host store) (denote host body) >>=
        RoundEnd.elim again finished pure := by
  have nextUnplaced (t : Label) : after? t [next] = none :=
    after?_cons_of_unplaced goesOn.placed?_eq_none t []
  have placed (t : Label) : after? t [store, body, place, next] =
      if ls.continueLabel.same t then some [next] else none := by
    rw [after?_cons_of_unplaced storeUnplaced]
    exact places.after?_eq bodyUnplaced nextUnplaced t
  have nextFollows (v : Value) :
      (denoteStatements host [store, body, place, next] [next] v).settle >>= h =
        pure RoundEnd.again >>= RoundEnd.elim again finished pure := by
    refine goesOn.settle_bind host handles ?_ v
    rw [placed, (chosen.continueLabel_same_inner continueOlder).2]
    rfl
  have bodyFollows := settle_bind_afterBody host chosen handles.toEnds bodies places placed
    nextFollows
  refine settle_bind_testedRound host handles (handles.passes_of_free testFree) repeated chooses
    rounds ?_
  rw [denoteStatements_cons_bind host _ _ (by simp [storeFree]) (handles.passes_of_free storeFree),
    bind_assoc]
  exact bind_congr bodyFollows

/-- The same labels, for a loop that names no break label. -/
theorem LoopLabels.ChosenFor.unbroken (chosen : ls.ChosenFor k breakTo continueTo) :
    LoopLabels.ChosenFor { ls with breakLabel := ⟨ls.continueLabel.id + (k + 2), none, .void⟩ } k
      none continueTo where
  innerBreak := chosen.innerBreak
  innerContinue := chosen.innerContinue
  breakNamed := nofun
  breakNew := fun _ => ⟨rfl, Nat.lt_add_left _ (Nat.lt_succ_self _)⟩
  continueNamed := chosen.continueNamed
  continueNew := chosen.continueNew
  apart := fun _ _ => Nat.ne_of_gt (Nat.lt_add_of_pos_right (Nat.succ_pos _))

theorem ends_resume (k : Supply) : Ends k none Outcome.resume :=
  ⟨fun _ _ _ => rfl, fun _ => rfl, fun _ => rfl⟩

/-- The endless loop of a lowered `foreach`, which a jump to the break label only passes. -/
theorem denote_looping {test store body looping choice round place next : Expr}
    (chosen : ls.ChosenFor k breakTo continueTo)
    (continueOlder : ∀ l ∈ continueTo.toList, l.id < k) (testFree : test.freeLabels = [])
    (storeFree : store.freeLabels = []) (bodies : ∀ t ∈ body.freeLabels, t.id < k)
    (storeUnplaced : store.placed? = none) (bodyUnplaced : body.placed? = none)
    (repeats : ls.Repeats [choice] looping) (chooses : ls.Chooses test round choice)
    (rounds : round.node = .block [] [store, body, place, next] .void) (places : ls.Place place)
    (goesOn : ls.Again next) :
    denote host looping =
      denoteRounds
          (ForEach.iterate continueTo (denote host test) (denote host store) (denote host body)) >>=
        fun left => left.elim (pure .void) pure := by
  obtain ⟨inner, loops, repeated⟩ := repeats
  rw [denote_loop host loops, ← settle_bind_resume (denoteLoop host inner _ _)]
  -- The labels of the endless loop are the same, so this is the loop at hand.
  have same := denoteLoop_eq_denoteRounds_of_round chosen.unbroken (ends_resume k)
    fun h again finished => @settle_bind_iterate host _ _ _ _ _ _ inner _ _ _ _ chosen.unbroken
      continueOlder testFree storeFree bodies storeUnplaced bodyUnplaced repeated chooses rounds
      places goesOn h again finished
  exact same

end

/-! ### The whole loop -/

/-- The variable of the final block of a lowered `foreach`, if it has one. -/
def guardVariable? (e : Expr) : Option Parameter :=
  match e.node with
  | .block _ [_, guarded, _] _ =>
    match guarded.node with
    | .attempt _ _ _ cleanup => finalVariable? cleanup
    | _ => none
  | _ => none

theorem Guards.guardVariable?_eq {e first guarded last looping inner : Expr}
    {locals : List Parameter} {type : Ty} {cleanup : Option Expr}
    {innerBreak innerContinue : Option Label}
    (block : e.node = .block locals [first, guarded, last] type)
    (loops : looping.node = .loop inner innerBreak innerContinue)
    (guards : Guards cleanup looping guarded) : guardVariable? e = finalVariable? cleanup := by
  cases cleanup with
  | none =>
      cases guards
      simp only [guardVariable?, block, loops]
      rfl
  | some cleanup => simp only [guardVariable?, block, show guarded.node = _ from guards]

theorem Guards.placed?_eq_none {guarded looping inner : Expr} {cleanup : Option Expr}
    {innerBreak innerContinue : Option Label} (guards : Guards cleanup looping guarded)
    (loops : looping.node = .loop inner innerBreak innerContinue) : guarded.placed? = none := by
  cases cleanup with
  | none =>
      cases guards
      simp only [Expr.placed?, loops]
  | some cleanup => simp only [Expr.placed?, show guarded.node = _ from guards]

/-- The loop in a lowered `foreach`, and the place of the break label after it. -/
theorem denoteStatements_eq_closed {ls : LoopLabels} {k : Supply} {continueTo : Option Label}
    {whole : List Expr} {guarded closing : Expr}
    (chosen : ls.ChosenFor k loop.breakTo continueTo) (closes : Closes ls.breakLabel closing)
    (only : ∀ t, after? t whole = if ls.breakLabel.same t then some [] else none)
    (older : ∀ t ∈ guarded.freeLabels, t.id < k) (last : Value) :
    (denoteStatements host whole [guarded, closing] last >>= fun v =>
        pure (if ls.breakLabel.type.isVoid then .void else v)) =
      (denote host guarded).settle >>= fun o => finish (loop.closed o) := by
  rw [denoteStatements_cons, bind_assoc]
  refine settle_bind_congr fun s o s' ended => ?_
  cases o with
  | value v =>
      rw [closes.afterStatement_value host, pure_bind]
      simp only [ForEach.closed, loopValue, chosen.type_eq]
      cases ls.breakLabel.type.isVoid <;> rfl
  | jump t v =>
      have older := older t (confined_denote host guarded _ _ _ _ ended)
      rw [(ends_afterStatement host chosen only [closing]).jump t v older]
      simp only [ForEach.closed, loopValue, chosen.type_eq]
      cases reaches loop.breakTo t <;> rfl
  | throw exception => rfl
  | fail f => rfl

theorem fetch_of_stores {value current target store : Expr} (stores : Stores loop.item value store)
    (converts : Converts current loop.item.type value)
    (reads : current.node =
      .member (some target) (.current loop.protocol.enumerator loop.protocol.element))
    (ofEnumerator : target.node = .parameter loop.enumerator) :
    denote host store = loop.fetch host := by
  have loads : denote host target = load loop.enumerator :=
    denote_of_node host ofEnumerator rfl
  have current' : denote host current = load loop.enumerator >>= fun v =>
      memberGet host v (.current loop.protocol.enumerator loop.protocol.element) := by
    rw [denote_of_node host reads rfl]
    simp only [runNode, loads]
  rw [stores.denote_eq, converts.denote_eq, current', Expr.type_of_member reads, ForEach.fetch]
  simp only [ForEach.act, bind_assoc]
  rfl

theorem denote_enumeration {receiver enumeration : Expr}
    (receives : Converts loop.source loop.protocol.receiver receiver)
    (enumerates : enumeration.node = .call (some receiver)
      (.getEnumerator loop.protocol.receiver loop.protocol.enumerator) []) :
    denote host enumeration =
      loop.act host .source >>= fun receiver => loop.act host (.getEnumerator receiver) := by
  rw [denote_of_node host enumerates rfl]
  simp only [runNode, runCall]
  rw [receives.denote_eq]
  refine bind_congr fun v => ?_
  exact callOn_eq_call (show "GetEnumerator" ≠ "Invoke" by decide) _ v

/-- What a lowered `foreach` means. -/
theorem EnumeratedShape.denote_eq (host : Host) {ls : LoopLabels} {k : Supply} {e : Expr}
    (shape : EnumeratedShape loop.protocol loop.enumerator loop.item loop.source loop.body ls e)
    (chosen : ls.ChosenFor k loop.breakTo loop.continueTo)
    (continueOlder : ∀ l ∈ loop.continueTo.toList, l.id < k)
    (sources : ∀ t ∈ loop.source.freeLabels, t.id < k ∧ reaches loop.breakTo t = false)
    (bodies : ∀ t ∈ loop.body.freeLabels, t.id < k) (bodyUnplaced : loop.body.placed? = none) :
    ∃ cleanup, DisposalShape loop.enumerator cleanup ∧
      guardVariable? e = finalVariable? cleanup ∧
      denote host e = withVariable loop.enumerator (.defaultOf loop.enumerator.type)
        (withVariable loop.item (.defaultOf loop.item.type) do
          let receiver ← loop.act host .source
          let enumerator ← loop.act host (.getEnumerator receiver)
          assign loop.enumerator enumerator
          let ended ← (denoteRounds (loop.round host) >>= fun left =>
            left.elim (pure .void) pure).settle
          let o ← (leave host cleanup ended).settle
          finish (loop.closed o)) := by
  obtain ⟨cleanup, storeEnumerator, enumeration, receiver, guarded, looping, closing, choice, test,
    round, storeItem, value, current, target, place, again, block, storesEnumerator, enumerates,
    receives, guards, disposal, repeats, chooses, moves, rounds, storesItem, converts, reads,
    ofEnumerator, places, goesOn, closes⟩ := shape
  have storeFree := storesItem.freeLabels_of_current converts reads ofEnumerator
  have loops : denote host looping =
      denoteRounds (loop.round host) >>= fun left => left.elim (pure .void) pure := by
    rw [denote_looping chosen continueOlder moves.freeLabels_eq storeFree bodies
      storesItem.placed?_eq_none bodyUnplaced repeats chooses rounds places goesOn,
      moves.denote_eq (show "MoveNext" ≠ "Invoke" by decide),
      fetch_of_stores storesItem converts reads ofEnumerator]
    rfl
  have only (t : Label) : after? t [storeEnumerator, guarded, closing] =
      if ls.breakLabel.same t then some [] else none := by
    obtain ⟨inner, loops, -⟩ := repeats
    rw [after?_cons_of_unplaced storesEnumerator.placed?_eq_none,
      after?_cons_of_unplaced (guards.placed?_eq_none loops),
      after?_cons_of_placed closes.placed?_eq, after?]
  have storeUnbroken (t : Label) (mem : t ∈ storeEnumerator.freeLabels) :
      after? t [storeEnumerator, guarded, closing] = none := by
    have inEnumeration := storesEnumerator.mem_freeLabels mem
    simp only [Expr.freeLabels_of_node enumerates, Node.freeLabels, Node.children,
      Option.toList_some, List.append_nil, List.flatMap_cons, List.flatMap_nil] at inEnumeration
    obtain ⟨older, other⟩ := sources t (receives.mem_freeLabels inEnumeration)
    rw [only, chosen.breakLabel_same older, other]
    rfl
  have guardedOlder : ∀ t ∈ guarded.freeLabels, t.id < k := by
    intro t mem
    have inLoop := guards.mem_freeLabels disposal.freeLabels_eq mem
    exact bodies t (repeats.mem_freeLabels_of_rounds chooses rounds places goesOn
      moves.freeLabels_eq storeFree inLoop).1
  refine ⟨cleanup, disposal, ?_, ?_⟩
  · obtain ⟨inner, loops, -⟩ := repeats
    exact guards.guardVariable?_eq block loops
  · rw [denote_block host block]
    refine (withVariable_bind_pure _ _ _ _).trans ?_
    congr 1
    refine (withVariable_bind_pure _ _ _ _).trans ?_
    congr 1
    rw [List.map_nil, withVariables, denoteStatements_cons_of_unplaced host _ _ storeUnbroken,
      storesEnumerator.denote_eq, denote_enumeration receives enumerates]
    simp only [bind_assoc, pure_bind]
    refine bind_congr fun receiver => bind_congr fun enumerator => bind_congr fun _ => ?_
    rw [denoteStatements_eq_closed chosen closes only guardedOlder, guards.denote_eq, loops,
      settle_bind_settle_bind]

/-- A lowered `foreach` takes the course of the rules. -/
theorem EnumeratedShape.executes_iff {ls : LoopLabels} {k : Supply} {e : Expr} {o : Outcome Value}
    (shape : EnumeratedShape loop.protocol loop.enumerator loop.item loop.source loop.body ls e)
    (chosen : ls.ChosenFor k loop.breakTo loop.continueTo)
    (continueOlder : ∀ l ∈ loop.continueTo.toList, l.id < k)
    (sources : ∀ t ∈ loop.source.freeLabels, t.id < k ∧ reaches loop.breakTo t = false)
    (bodies : ∀ t ∈ loop.body.freeLabels, t.id < k) (bodyUnplaced : loop.body.placed? = none)
    (apart : loop.Apart)
    (own : ∀ p ∈ guardVariable? e, p = loop.disposable ∧ loop.enumerator.id ≠ p.id) :
    denote host e s = some (o, s') ↔ ∃ steps, loop.Executes host s steps o s' := by
  obtain ⟨cleanup, disposal, guards, means⟩ :=
    shape.denote_eq host chosen continueOlder sources bodies bodyUnplaced
  rw [guards] at own
  rw [means]
  refine withVariable_iff_held (withVariable_iff_held (ForEach.runs_iff apart ?_ ?_ ?_))
  · rw [ForEach.find?_holding, if_neg apart.item, ForEach.find?_holding, if_pos rfl]
    rfl
  · rw [ForEach.find?_holding, if_pos rfl]
    rfl
  · intro enumerator s s' ended o held
    exact disposal.leave_iff own held

/-! ### The variable of the final block -/

section

variable {k k' : Supply} {lower : Expr → Build Expr}

end

namespace FindingForEach

def found : Label := ⟨0, some "found", .int32⟩

def item : Parameter := ⟨1, some "x", .int32⟩

def source : Expr := ⟨2, .constant (.object ⟨0, .enumerable⟩) .enumerable⟩

def body : Expr := ⟨4, .jump .goto found (some ⟨3, .parameter item⟩)⟩

def whole : Expr := ⟨5, .forEach item source body none none⟩

/-- A host with an enumerator that moves on for ever. -/
def endless : Host where
  answer _ heap request :=
    match request with
    | .method _ m _ =>
      match m.name with
      | "GetEnumerator" => some ⟨.value (.object ⟨1, .enumeratorOf .int32⟩), heap⟩
      | "MoveNext" => some ⟨.value (.boolean true), heap⟩
      | "Dispose" => some ⟨.value .void, heap⟩
      | _ => none
    | .get .. => some ⟨.value (.int32 7), heap⟩
    | _ => none

def start : State where
  heap := ⟨#[.external, .external]⟩

def lowered : Expr := ((whole.reduce 6).toOption.map Prod.fst).getD whole

/-- The member of an object that a call was for. -/
def asked (c : HostCall) : Option String :=
  match c.request with
  | .method _ m _ => some m.name
  | .get _ m => some m.name
  | .set _ m _ => some m.name
  | .function .. => none

/-- The jump that a run ends in, and what the host was asked for, latest first. -/
def ending : Outcome Value × State → Option (Label × Value) × List (Option String)
  | (.jump target v, s) => (some (target, v), s.history.map asked)
  | (_, s) => (none, s.history.map asked)

end FindingForEach

end Lowering

end ExprTree
