import ExprTree.Proofs.ForEachDisposal

/-!
A `foreach` over a vector, run directly and lowered.

Run directly, the loop stores one element after the other and runs its body. It reads each element
when its turn comes, so it sees what the body stores to the vector (`VectorLoop.visits`). Lowered,
it keeps the vector and a position in variables of its own (`IndexedShape.denote_eq`).
-/

namespace ExprTree

open Eval

namespace Direct

/-- A `foreach` over a vector: the type of its elements, its variable, and its labels. -/
structure VectorLoop where
  element : Ty
  item : Parameter
  breakTo : Option Label
  continueTo : Option Label

namespace VectorLoop

variable (loop : VectorLoop)

/-- Store the element that is at a position now. -/
def fetch (r : Ref) (position : Nat) : Eval Unit := do
  let v := ((← get).heap.elements r).getD position .void
  assign loop.item (← ForEach.cast loop.element loop.item.type v)

/-- Run the body for so many elements, from a position on: the value that the body has left with, if
that is how the loop ends. -/
def visits (body : Eval Value) (r : Ref) : Nat → Nat → Eval (Option Value)
  | _, 0 => return none
  | position, left + 1 => do
    loop.fetch r position
    match ← afterBody loop.breakTo loop.continueTo body (return .again) with
    | .left v => return some v
    | _ => visits body r (position + 1) left

/-- Run the body for each element of a vector. The variable holds the default of its type first, and
what it hides is put back in the end. -/
def run (body : Eval Value) (r : Ref) : Eval Value :=
  withVariable loop.item (.defaultOf loop.item.type) do
    let size := ((← get).heap.elements r).size
    return loopValue loop.breakTo (← loop.visits body r 0 size)

/-! ### With the vector and the position in variables -/

section

variable (host : Host) (array index : Parameter)

/-- Whether the position is one of the vector. -/
def inRange : Eval Value := do
  let position ← load index
  let v ← load array
  Value.binary .lessThan position (← memberGet host v (.length v.typeOf)) false

/-- Store the element at the position. -/
def fetchNext : Eval Value := do
  let v ← load array
  let v ← ForEach.cast loop.element loop.item.type (← arrayGet v (← load index))
  assign loop.item v
  return v

/-- Move on to the next position. -/
def advance : Eval Value := do
  let v ← Value.binary .add (← load index) (.int32 1) false
  assign index v
  return v

/-- A round of the loop: the test, the next element, the body, the step. -/
def round (body : Eval Value) : Eval RoundEnd := do
  if ← truth (← inRange host array index) then
    discard (loop.fetchNext array index)
    afterBody loop.breakTo loop.continueTo body do
      discard (advance index)
      return .again
  else return .finished

end

end VectorLoop

end Direct

namespace Lowering

open Direct

variable {loop : VectorLoop} {array index : Parameter} {ls : LoopLabels} {k : Supply}

/-! ### What is built around the body -/

theorem denote_inRange (host : Host) {test left length operand : Expr}
    (tests : test.node = .binary .lessThan left length false false .boolean)
    (readsIndex : left.node = .parameter index)
    (measures : length.node = .unary .arrayLength operand .int32)
    (readsArray : operand.node = .parameter array) :
    denote host test = VectorLoop.inRange host array index := by
  have position : denote host left = load index := denote_of_node host readsIndex rfl
  have vector : denote host operand = load array := denote_of_node host readsArray rfl
  have measured : denote host length = load array >>= fun v =>
      memberGet host v (.length v.typeOf) := by
    rw [denote_of_node host measures rfl]
    simp only [runNode, runUnary, vector]
  rw [denote_of_node host tests rfl]
  simp only [runNode, runBinary, position, measured, VectorLoop.inRange, bind_assoc,
    Bool.false_eq_true, if_false, bind_pure_eq]

theorem denote_fetchNext (host : Host) {store value element array' index' : Expr}
    (stores : Stores loop.item value store) (converts : Converts element loop.item.type value)
    (picks : element.node = .binary .arrayIndex array' index' false false loop.element)
    (readsArray : array'.node = .parameter array) (readsIndex : index'.node = .parameter index) :
    denote host store = loop.fetchNext array index := by
  have position : denote host index' = load index := denote_of_node host readsIndex rfl
  have vector : denote host array' = load array := denote_of_node host readsArray rfl
  have picked : denote host element = load array >>= fun v => load index >>= arrayGet v := by
    rw [denote_of_node host picks rfl]
    simp only [runNode, runBinary, position, vector]
  have type : element.type = loop.element := by
    obtain ⟨id, node⟩ := element
    cases picks
    rfl
  rw [stores.denote_eq, converts.denote_eq, picked, type, VectorLoop.fetchNext]
  simp only [bind_assoc]

theorem denote_advance (host : Host) {store sum index' one : Expr} (stores : Stores index sum store)
    (adds : sum.node = .binary .add index' one false false index.type)
    (readsIndex : index'.node = .parameter index)
    (isOne : one.node = .constant (.int32 1) .int32) :
    denote host store = VectorLoop.advance index := by
  have position : denote host index' = load index := denote_of_node host readsIndex rfl
  have addend : denote host one = pure (.int32 1) := denote_of_node host isOne rfl
  have added : denote host sum = load index >>= fun v =>
      liftM (Value.binary .add v (.int32 1) false) := by
    rw [denote_of_node host adds rfl]
    simp only [runNode, runBinary, position, addend, pure_bind, Bool.false_eq_true, if_false,
      bind_pure_eq]
  rw [stores.denote_eq, added, VectorLoop.advance]
  simp only [bind_assoc]

/-! ### The endless loop -/

/-- One round of a lowered `foreach` over a vector. -/
theorem settle_bind_vectorRound (host : Host)
    {test store body step inner choice round place next : Expr}
    (chosen : ls.ChosenFor k loop.breakTo loop.continueTo)
    (continueOlder : ∀ l ∈ loop.continueTo.toList, l.id < k)
    (free : ∀ e ∈ [test, store, step], e.freeLabels = [])
    (bodies : ∀ t ∈ body.freeLabels, t.id < k)
    (unplaced : ∀ e ∈ [store, body, step], e.placed? = none)
    (tests : denote host test = VectorLoop.inRange host array index)
    (fetches : denote host store = loop.fetchNext array index)
    (steps : denote host step = VectorLoop.advance index)
    (repeated : inner.node = .block [] [choice] .void) (chooses : ls.Chooses test round choice)
    (rounds : round.node = .block [] [store, body, place, step, next] .void)
    (places : ls.Place place) (goesOn : ls.Again next) {h : Outcome Value → Eval Value}
    {again finished : Eval Value} (handles : ls.Handles k loop.breakTo h again finished) :
    (denote host inner).settle >>= h =
      loop.round host array index (denote host body) >>= RoundEnd.elim again finished pure := by
  simp only [List.forall_mem_cons] at free unplaced
  obtain ⟨testFree, storeFree, stepFree, -⟩ := free
  obtain ⟨storeUnplaced, bodyUnplaced, stepUnplaced, -⟩ := unplaced
  have restUnplaced (t : Label) : after? t [step, next] = none := by
    rw [after?_cons_of_unplaced stepUnplaced]
    exact after?_cons_of_unplaced goesOn.placed?_eq_none t []
  have placed (t : Label) : after? t [store, body, place, step, next] =
      if ls.continueLabel.same t then some [step, next] else none := by
    rw [after?_cons_of_unplaced storeUnplaced]
    exact places.after?_eq bodyUnplaced restUnplaced t
  have unplaced : after? ls.innerContinue [store, body, place, step, next] = none := by
    rw [placed, (chosen.continueLabel_same_inner continueOlder).2]
    rfl
  have stepFollows := settle_bind_stepAgain host goesOn handles unplaced (by simp [stepFree])
    (handles.passes_of_free stepFree)
  have bodyFollows := settle_bind_afterBody host chosen handles.toEnds bodies places placed
    stepFollows
  rw [VectorLoop.round, ← tests, ← fetches, ← steps]
  refine settle_bind_testedRound host handles (handles.passes_of_free testFree) repeated chooses
    rounds ?_
  rw [denoteStatements_cons_bind host _ _ (by simp [storeFree]) (handles.passes_of_free storeFree),
    discard_eq, bind_assoc, bind_assoc]
  refine bind_congr fun v => ?_
  rw [bodyFollows, pure_bind]

/-- What a lowered `foreach` over a vector means. -/
theorem IndexedShape.denote_eq (loop : VectorLoop) (host : Host) {source body e : Expr}
    (shape : IndexedShape array index loop.item source body ls e)
    (element : array.type.element? = some loop.element)
    (chosen : ls.ChosenFor k loop.breakTo loop.continueTo)
    (continueOlder : ∀ l ∈ loop.continueTo.toList, l.id < k)
    (sources : ∀ t ∈ source.freeLabels, t.id < k ∧ reaches loop.breakTo t = false)
    (bodies : ∀ t ∈ body.freeLabels, t.id < k) (bodyUnplaced : body.placed? = none) :
    denote host e = withVariable array (.defaultOf array.type)
      (withVariable index (.defaultOf index.type)
        (withVariable loop.item (.defaultOf loop.item.type) do
          assign array (← denote host source)
          assign index (.int32 0)
          return loopValue loop.breakTo
            (← denoteRounds (loop.round host array index (denote host body))))) := by
  obtain ⟨storeArray, storeIndex, zero, looping, closing, choice, test, left, length, operand,
    round, storeItem, value, picked, place, next, sum, again, block, storesArray, storesIndex,
    starts, ⟨inner, loops, repeated⟩, chooses, tests, readsIndex, measures, readsArray, rounds,
    storesItem, converts, ⟨array', index', picks, picksArray, picksIndex⟩, places, steps,
    ⟨addend, one, adds, addsIndex, isOne⟩, goesOn, closes⟩ := shape
  rw [element, Option.getD_some] at picks
  have only (t : Label) : after? t [storeArray, storeIndex, looping, closing] =
      if ls.breakLabel.same t then some [] else none := by
    rw [after?_cons_of_unplaced storesArray.placed?_eq_none,
      after?_cons_of_unplaced storesIndex.placed?_eq_none, closes.after?_eq loops]
  have zeroFree : storeIndex.freeLabels = [] :=
    storesIndex.freeLabels_eq (by simp [Expr.freeLabels_of_passesJumps starts rfl, Node.children])
  have free : ∀ e ∈ [test, storeItem, next], e.freeLabels = [] := by
    simp only [List.forall_mem_cons]
    have elementFree := freeLabels_of_element picks picksArray picksIndex
    exact ⟨freeLabels_of_inRange tests readsIndex measures readsArray,
      storesItem.freeLabels_eq (converts.freeLabels_eq elementFree),
      steps.freeLabels_eq (freeLabels_of_sum adds addsIndex isOne), by simp⟩
  have unplaced : ∀ e ∈ [storeItem, body, next], e.placed? = none := by
    simp only [List.forall_mem_cons]
    exact ⟨storesItem.placed?_eq_none, bodyUnplaced, steps.placed?_eq_none, by simp⟩
  have same := denoteLoop_eq_denoteRounds_of_round chosen
    (ends_afterStatement host chosen only [closing]) fun h again finished =>
      settle_bind_vectorRound host chosen continueOlder free bodies unplaced
        (denote_inRange host tests readsIndex measures readsArray)
        (denote_fetchNext host storesItem converts picks picksArray picksIndex)
        (denote_advance host steps adds addsIndex isOne) repeated chooses rounds places goesOn
  have storeUnplaced (t : Label) (mem : t ∈ storeArray.freeLabels) :
      after? t [storeArray, storeIndex, looping, closing] = none := by
    obtain ⟨older, other⟩ := sources t (storesArray.mem_freeLabels mem)
    rw [only, chosen.breakLabel_same older, other]
    rfl
  have start : denote host zero = pure (.int32 0) := denote_of_node host starts rfl
  rw [denote_block host block]
  refine (withVariable_bind_pure _ _ _ _).trans ?_
  congr 1
  refine (withVariable_bind_pure _ _ _ _).trans ?_
  congr 1
  refine (withVariable_bind_pure _ _ _ _).trans ?_
  congr 1
  rw [List.map_nil, withVariables, denoteStatements_cons_of_unplaced host _ _ storeUnplaced,
    storesArray.denote_eq host]
  simp only [bind_assoc, pure_bind]
  refine bind_congr fun v => bind_congr fun _ => ?_
  rw [denoteStatements_cons_of_unplaced host _ _ (by simp [zeroFree]), storesIndex.denote_eq host,
    start]
  simp only [bind_assoc, pure_bind]
  refine bind_congr fun _ => ?_
  exact denoteStatements_eq_denoteRounds host chosen loops closes _ same

end Lowering

end ExprTree
