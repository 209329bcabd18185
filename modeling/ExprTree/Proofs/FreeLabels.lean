import ExprTree.Proofs.Lowered

/-!
Free labels: the labels that a tree may jump to from within and that have no place in it.

A block has the places of the labels among its statements, a loop those of its own labels. A lambda
has no free labels, because no jump leaves a lambda. Lowering frees no label
(`Expr.freeLabels_subset_of_lowersTo`): the labels that it adds are placed where it adds them.
-/

namespace ExprTree

/-- Labels without the given ones. -/
def Label.without (removed ls : List Label) : List Label :=
  ls.filter fun l => !removed.any (·.same l)

theorem Label.mem_without {removed ls : List Label} {t : Label} :
    t ∈ Label.without removed ls ↔ t ∈ ls ∧ ∀ r ∈ removed, r.same t = false := by
  simp only [Label.without, List.mem_filter, Bool.not_eq_eq_eq_not, Bool.not_true,
    List.any_eq_false, Bool.not_eq_true]

theorem Label.same_self (l : Label) : l.same l = true := by
  simp only [Label.same, beq_self_eq_true]

/-- The label that an expression is the place of. -/
def Expr.placed? (e : Expr) : Option Label :=
  match e.node with
  | .label l _ => some l
  | _ => none

theorem Expr.placed?_eq_none {e : Expr} (other : e.kind ≠ .label) : e.placed? = none := by
  obtain ⟨id, node⟩ := e
  cases node with
  | label => exact absurd rfl other
  | _ => rfl

/-- The free labels of a node, given those of its children. -/
def Node.freeLabels (free : Expr → List Label) : Node → List Label
  | .jump _ target value => target :: value.toList.flatMap free
  | .block _ statements _ =>
    Label.without (statements.filterMap Expr.placed?) (statements.flatMap free)
  | .loop body breakTo continueTo =>
    Label.without (breakTo.toList ++ continueTo.toList) (free body)
  | .lambda _ => []
  | .forLoop _ start test step body breakTo continueTo =>
    Label.without breakTo.toList
      (free start ++ free test ++ free step ++ Label.without continueTo.toList (free body))
  | .forEach _ source body breakTo continueTo =>
    Label.without breakTo.toList (free source ++ Label.without continueTo.toList (free body))
  | .whileLoop test body breakTo continueTo =>
    Label.without breakTo.toList (free test ++ Label.without continueTo.toList (free body))
  | .doWhile body test breakTo continueTo =>
    Label.without breakTo.toList (Label.without continueTo.toList (free body) ++ free test)
  | node => node.children.flatMap free

/-- The labels that a tree may jump to and that have no place in it. -/
def Expr.freeLabels : Expr → List Label :=
  Expr.recurse (fun _ => []) fun free e => e.node.freeLabels free

/-! ### Equations -/

theorem Node.freeLabels_congr {free free' : Expr → List Label} {node : Node}
    (agree : ∀ c ∈ node.children, free c = free' c) :
    node.freeLabels free = node.freeLabels free' := by
  cases node with
  | jump | block =>
      simp only [Node.children] at agree
      simp only [Node.freeLabels, List.flatMap_congr agree]
  | loop | forLoop | forEach | whileLoop | doWhile =>
      simp only [Node.children, List.mem_cons, List.not_mem_nil, or_false, forall_eq_or_imp,
        forall_eq] at agree
      simp only [Node.freeLabels, agree]
  | lambda => rfl
  | _ => exact List.flatMap_congr agree

theorem Expr.freeLabels_of_node {e : Expr} {node : Node} (h : e.node = node) :
    e.freeLabels = node.freeLabels Expr.freeLabels := by
  subst h
  have asks : Expr.AsksChildren fun (free : Expr → List Label) e => e.node.freeLabels free :=
    fun _ _ _ agree => Node.freeLabels_congr agree
  exact Expr.recurse_eq asks e

/-- Whether nodes of this kind neither jump nor stop jumps. -/
def Kind.passesJumps : Kind → Bool
  | .jump _ | .block | .loop | .lambda | .forLoop | .forEach | .whileLoop | .doWhile => false
  | _ => true

theorem Node.freeLabels_of_passesJumps {free : Expr → List Label} {node : Node}
    (passes : node.kind.passesJumps = true) :
    node.freeLabels free = node.children.flatMap free := by
  cases node with
  | jump | block | loop | lambda | forLoop | forEach | whileLoop | doWhile => cases passes
  | _ => rfl

theorem Expr.freeLabels_of_passesJumps {e : Expr} {node : Node} (h : e.node = node)
    (passes : node.kind.passesJumps = true) :
    e.freeLabels = node.children.flatMap Expr.freeLabels :=
  (Expr.freeLabels_of_node h).trans (Node.freeLabels_of_passesJumps passes)

/-- Where jumps are passed on, a free label is free in a child. -/
theorem Expr.mem_freeLabels_iff {e : Expr} {t : Label} (passes : e.kind.passesJumps = true) :
    t ∈ e.freeLabels ↔ ∃ c ∈ e.children, t ∈ c.freeLabels := by
  rw [Expr.freeLabels_of_passesJumps rfl passes, List.mem_flatMap]
  rfl

/-! ### Labels of shapes -/

namespace Lowering

variable {t : Label} {ls : LoopLabels}

theorem freeLabels_of_reads {p : Parameter} {e : Expr} (reads : e.node = .parameter p) :
    e.freeLabels = [] := by
  rw [Expr.freeLabels_of_node reads]
  rfl

theorem Stores.mem_freeLabels {p : Parameter} {value e : Expr} (stores : Stores p value e)
    (mem : t ∈ e.freeLabels) : t ∈ value.freeLabels := by
  obtain ⟨target, assigns, reads⟩ := stores
  simpa [Expr.freeLabels_of_passesJumps assigns rfl, Node.children,
    freeLabels_of_reads reads] using mem

theorem Closes.freeLabels_eq {l : Label} {e : Expr} (closes : Closes l e) : e.freeLabels = [] := by
  unfold Closes at closes
  split at closes
  · rw [Expr.freeLabels_of_node closes]
    rfl
  · obtain ⟨fallback, closes, falls⟩ := closes
    simp [Expr.freeLabels_of_passesJumps closes rfl, Expr.freeLabels_of_passesJumps falls rfl,
      Node.children]

theorem LoopLabels.Place.freeLabels_eq {e : Expr} (places : ls.Place e) : e.freeLabels = [] := by
  rw [Expr.freeLabels_of_node places]
  rfl

theorem LoopLabels.Again.freeLabels_eq {e : Expr} (goesOn : ls.Again e) :
    e.freeLabels = [ls.innerContinue] := by
  rw [Expr.freeLabels_of_node goesOn]
  rfl

theorem LoopLabels.Chooses.mem_freeLabels {test round e : Expr} (chooses : ls.Chooses test round e)
    (mem : t ∈ e.freeLabels) :
    t ∈ test.freeLabels ∨ t ∈ round.freeLabels ∨ t = ls.innerBreak := by
  obtain ⟨leave, chooses, leaves⟩ := chooses
  have left : leave.freeLabels = [ls.innerBreak] := by
    rw [Expr.freeLabels_of_node leaves]
    rfl
  simpa [Expr.freeLabels_of_passesJumps chooses rfl, Node.children, left] using mem

/-- The labels that are free in a block are free in one of its statements and have no place
among them. -/
theorem mem_freeLabels_of_block {e : Expr} {locals : List Parameter} {statements : List Expr}
    {type : Ty} (block : e.node = .block locals statements type) (mem : t ∈ e.freeLabels) :
    (∃ c ∈ statements, t ∈ c.freeLabels) ∧
      ∀ c ∈ statements, ∀ l, c.placed? = some l → l.same t = false := by
  simp only [Expr.freeLabels_of_node block, Node.freeLabels, Label.mem_without,
    List.mem_flatMap, List.mem_filterMap] at mem
  exact ⟨mem.1, fun c inside l placed => mem.2 l ⟨c, inside, placed⟩⟩

/-- What is free in an endless loop is free in one of its statements, and is none of the labels
that have their places there. -/
theorem LoopLabels.Repeats.mem_freeLabels {statements : List Expr} {e : Expr}
    (repeats : ls.Repeats statements e) (mem : t ∈ e.freeLabels) :
    (∃ c ∈ statements, t ∈ c.freeLabels) ∧
      (∀ c ∈ statements, ∀ l, c.placed? = some l → l.same t = false) ∧
      t ≠ ls.innerBreak ∧ t ≠ ls.innerContinue := by
  obtain ⟨inner, loops, holds⟩ := repeats
  simp only [Expr.freeLabels_of_node loops, Node.freeLabels, Label.mem_without,
    Option.toList_some, List.singleton_append, List.mem_cons, List.not_mem_nil, or_false,
    forall_eq_or_imp, forall_eq] at mem
  obtain ⟨mem, notBreak, notContinue⟩ := mem
  obtain ⟨inside, passes⟩ := mem_freeLabels_of_block holds mem
  refine ⟨inside, passes, ?_, ?_⟩
  · rintro rfl
    rw [Label.same_self] at notBreak
    cases notBreak
  · rintro rfl
    rw [Label.same_self] at notContinue
    cases notContinue

/-- What is free in an endless loop that only chooses is free in the test or in the round. -/
theorem LoopLabels.Repeats.mem_freeLabels_of_chooses {choice test round e : Expr}
    (repeats : ls.Repeats [choice] e) (chooses : ls.Chooses test round choice)
    (mem : t ∈ e.freeLabels) :
    (t ∈ test.freeLabels ∨ t ∈ round.freeLabels) ∧ t ≠ ls.innerContinue := by
  obtain ⟨⟨c, inside, mem⟩, -, notBreak, notContinue⟩ := repeats.mem_freeLabels mem
  cases List.mem_singleton.mp inside
  rcases chooses.mem_freeLabels mem with mem | mem | rfl
  · exact ⟨.inl mem, notContinue⟩
  · exact ⟨.inr mem, notContinue⟩
  · exact absurd rfl notBreak

theorem Converts.mem_freeLabels {value e : Expr} {type : Ty} (converts : Converts value type e)
    (mem : t ∈ e.freeLabels) : t ∈ value.freeLabels := by
  unfold Converts at converts
  split at converts
  · rwa [converts] at mem
  · simpa [Expr.freeLabels_of_passesJumps converts rfl, Node.children] using mem

theorem CallsOn.freeLabels_eq {p : Parameter} {m : Method} {e : Expr} (calls : CallsOn p m e) :
    e.freeLabels = [] := by
  obtain ⟨target, calls, reads⟩ := calls
  simp [Expr.freeLabels_of_passesJumps calls rfl, Node.children, freeLabels_of_reads reads]

theorem DisposesUnlessNull.freeLabels_eq {p : Parameter} {e : Expr}
    (disposes : DisposesUnlessNull p e) : e.freeLabels = [] := by
  obtain ⟨test, call, left, right, choice, compares, reads, null, calls⟩ := disposes
  simp [Expr.freeLabels_of_passesJumps choice rfl, Expr.freeLabels_of_passesJumps compares rfl,
    Expr.freeLabels_of_passesJumps null rfl, Node.children, freeLabels_of_reads reads,
    calls.freeLabels_eq]

theorem DisposalShape.freeLabels_eq {enumerator : Parameter} {cleanup : Option Expr}
    (disposal : DisposalShape enumerator cleanup) : ∀ e ∈ cleanup, e.freeLabels = [] := by
  intro e mem
  cases disposal with
  | known e' _ calls =>
      cases mem
      exact calls.freeLabels_eq
  | needless => cases mem
  | asked disposable e' store value operand check _ _ block stores casts reads disposes =>
      cases mem
      refine List.eq_nil_iff_forall_not_mem.mpr fun t mem => ?_
      obtain ⟨⟨c, inside, mem⟩, -⟩ := mem_freeLabels_of_block block mem
      simp only [List.mem_cons, List.not_mem_nil, or_false] at inside
      rcases inside with rfl | rfl
      · have inValue := stores.mem_freeLabels mem
        simp [Expr.freeLabels_of_passesJumps casts rfl, Node.children,
          freeLabels_of_reads reads] at inValue
      · simp [disposes.freeLabels_eq] at mem

/-- What is free in a guarded body and its cleanup is free in the body, if the cleanup frees
nothing. -/
theorem mem_freeLabels_of_guarded {body cleanup e : Expr}
    (guards : e.node = .attempt body [] none (some cleanup)) (harmless : cleanup.freeLabels = [])
    (mem : t ∈ e.freeLabels) : t ∈ body.freeLabels := by
  simpa [Expr.freeLabels_of_passesJumps guards rfl, Node.children, harmless] using mem

theorem Guards.mem_freeLabels {cleanup : Option Expr} {looping e : Expr}
    (guards : Guards cleanup looping e) (harmless : ∀ c ∈ cleanup, c.freeLabels = [])
    (mem : t ∈ e.freeLabels) : t ∈ looping.freeLabels := by
  cases cleanup with
  | none =>
      cases guards
      exact mem
  | some cleanup =>
      exact mem_freeLabels_of_guarded guards (harmless cleanup rfl) mem

theorem Stores.placed?_eq_none {p : Parameter} {value e : Expr} (stores : Stores p value e) :
    e.placed? = none := by
  obtain ⟨target, assigns, -⟩ := stores
  simp only [Expr.placed?, assigns]

theorem Closes.placed?_eq {l : Label} {e : Expr} (closes : Closes l e) : e.placed? = some l := by
  unfold Closes at closes
  split at closes
  · simp only [Expr.placed?, closes]
  · obtain ⟨fallback, closes, -⟩ := closes
    simp only [Expr.placed?, closes]

theorem LoopLabels.Place.placed?_eq {e : Expr} (places : ls.Place e) :
    e.placed? = some ls.continueLabel := by
  simp only [Expr.placed?, show e.node = .label ls.continueLabel none from places]

theorem LoopLabels.Again.placed?_eq_none {e : Expr} (goesOn : ls.Again e) : e.placed? = none := by
  simp only [Expr.placed?, show e.node = .jump .continuing ls.innerContinue none from goesOn]

theorem LoopLabels.Chooses.placed?_eq_none {test round e : Expr}
    (chooses : ls.Chooses test round e) : e.placed? = none := by
  obtain ⟨leave, isChoice, -⟩ := chooses
  simp only [Expr.placed?, isChoice]

/-- A label that passes the labels of a lowered loop passes those that the loop names. -/
theorem LoopLabels.ChosenFor.not_same {k : Supply} {breakTo continueTo : Option Label}
    (chosen : ls.ChosenFor k breakTo continueTo) :
    (ls.breakLabel.same t = false → ∀ l ∈ breakTo.toList, l.same t = false) ∧
      (ls.continueLabel.same t = false → ∀ l ∈ continueTo.toList, l.same t = false) := by
  constructor
  · intro passes l mem
    rwa [chosen.breakNamed l (Option.mem_toList.mp mem)] at passes
  · intro passes l mem
    rwa [chosen.continueNamed l (Option.mem_toList.mp mem)] at passes

theorem ForShape.mem_freeLabels {counter : Parameter} {start test step body e : Expr}
    (shape : ForShape counter start test step body ls e) (mem : t ∈ e.freeLabels) :
    (t ∈ start.freeLabels ∨ t ∈ test.freeLabels ∨ t ∈ step.freeLabels ∨
      t ∈ body.freeLabels ∧ ls.continueLabel.same t = false) ∧ ls.breakLabel.same t = false := by
  obtain ⟨store, looping, closing, choice, round, place, again, block, stores, repeats, chooses,
    rounds, places, goesOn, closes⟩ := shape
  obtain ⟨⟨c, inside, mem⟩, passes⟩ := mem_freeLabels_of_block block mem
  refine ⟨?_, passes closing (by simp) _ closes.placed?_eq⟩
  simp only [List.mem_cons, List.not_mem_nil, or_false] at inside
  rcases inside with rfl | rfl | rfl
  · exact .inl (stores.mem_freeLabels mem)
  · obtain ⟨mem | mem, notContinue⟩ := repeats.mem_freeLabels_of_chooses chooses mem
    · exact .inr (.inl mem)
    · obtain ⟨⟨c, inside, mem⟩, passes⟩ := mem_freeLabels_of_block rounds mem
      have continues := passes place (by simp) _ places.placed?_eq
      simp only [List.mem_cons, List.not_mem_nil, or_false] at inside
      rcases inside with rfl | rfl | rfl | rfl
      · exact .inr (.inr (.inr ⟨mem, continues⟩))
      · simp [places.freeLabels_eq] at mem
      · exact .inr (.inr (.inl mem))
      · exact absurd (by simpa [goesOn.freeLabels_eq] using mem) notContinue
  · simp [closes.freeLabels_eq] at mem

theorem WhileShape.mem_freeLabels {test body e : Expr} (shape : WhileShape test body ls e)
    (mem : t ∈ e.freeLabels) :
    (t ∈ test.freeLabels ∨ t ∈ body.freeLabels) ∧
      ls.continueLabel.same t = false ∧ ls.breakLabel.same t = false := by
  obtain ⟨looping, closing, choice, round, place, again, block, repeats, chooses, rounds, places,
    goesOn, closes⟩ := shape
  obtain ⟨⟨c, inside, mem⟩, leaves⟩ := mem_freeLabels_of_block block mem
  have breaks := leaves closing (by simp) _ closes.placed?_eq
  simp only [List.mem_cons, List.not_mem_nil, or_false] at inside
  rcases inside with rfl | rfl
  · obtain ⟨⟨c, inside, mem⟩, passes, notBreak, notContinue⟩ := repeats.mem_freeLabels mem
    refine ⟨?_, passes place (by simp) _ places.placed?_eq, breaks⟩
    simp only [List.mem_cons, List.not_mem_nil, or_false] at inside
    rcases inside with rfl | rfl
    · simp [places.freeLabels_eq] at mem
    · rcases chooses.mem_freeLabels mem with mem | mem | rfl
      · exact .inl mem
      · obtain ⟨⟨c, inside, mem⟩, -⟩ := mem_freeLabels_of_block rounds mem
        simp only [List.mem_cons, List.not_mem_nil, or_false] at inside
        rcases inside with rfl | rfl
        · exact .inr mem
        · exact absurd (by simpa [goesOn.freeLabels_eq] using mem) notContinue
      · exact absurd rfl notBreak
  · simp [closes.freeLabels_eq] at mem

theorem DoShape.mem_freeLabels {test body e : Expr} (shape : DoShape body test ls e)
    (mem : t ∈ e.freeLabels) :
    (t ∈ body.freeLabels ∨ t ∈ test.freeLabels) ∧
      ls.continueLabel.same t = false ∧ ls.breakLabel.same t = false := by
  obtain ⟨looping, closing, choice, place, again, block, repeats, chooses, places, goesOn,
    closes⟩ := shape
  obtain ⟨⟨c, inside, mem⟩, leaves⟩ := mem_freeLabels_of_block block mem
  have breaks := leaves closing (by simp) _ closes.placed?_eq
  simp only [List.mem_cons, List.not_mem_nil, or_false] at inside
  rcases inside with rfl | rfl
  · obtain ⟨⟨c, inside, mem⟩, passes, notBreak, notContinue⟩ := repeats.mem_freeLabels mem
    refine ⟨?_, passes place (by simp) _ places.placed?_eq, breaks⟩
    simp only [List.mem_cons, List.not_mem_nil, or_false] at inside
    rcases inside with rfl | rfl | rfl
    · exact .inl mem
    · simp [places.freeLabels_eq] at mem
    · rcases chooses.mem_freeLabels mem with mem | mem | rfl
      · exact .inr mem
      · exact absurd (by simpa [goesOn.freeLabels_eq] using mem) notContinue
      · exact absurd rfl notBreak
  · simp [closes.freeLabels_eq] at mem

theorem Stores.freeLabels_eq {p : Parameter} {value e : Expr} (stores : Stores p value e)
    (free : value.freeLabels = []) : e.freeLabels = [] :=
  List.eq_nil_iff_forall_not_mem.mpr fun t mem => by simpa [free] using stores.mem_freeLabels mem

theorem Converts.freeLabels_eq {value e : Expr} {type : Ty} (converts : Converts value type e)
    (free : value.freeLabels = []) : e.freeLabels = [] :=
  List.eq_nil_iff_forall_not_mem.mpr fun t mem => by simpa [free] using converts.mem_freeLabels mem

/-! Of a loop by index, the test, the element and the sum leave nothing to be jumped to. -/

section

variable {array index : Parameter}

theorem freeLabels_of_inRange {test left length operand : Expr}
    (tests : test.node = .binary .lessThan left length false false .boolean)
    (readsIndex : left.node = .parameter index)
    (measures : length.node = .unary .arrayLength operand .int32)
    (readsArray : operand.node = .parameter array) : test.freeLabels = [] := by
  simp [Expr.freeLabels_of_passesJumps tests rfl, Expr.freeLabels_of_passesJumps measures rfl,
    Node.children, freeLabels_of_reads readsIndex, freeLabels_of_reads readsArray]

theorem freeLabels_of_element {element array' index' : Expr} {type : Ty}
    (picks : element.node = .binary .arrayIndex array' index' false false type)
    (readsArray : array'.node = .parameter array) (readsIndex : index'.node = .parameter index) :
    element.freeLabels = [] := by
  simp [Expr.freeLabels_of_passesJumps picks rfl, Node.children, freeLabels_of_reads readsArray,
    freeLabels_of_reads readsIndex]

theorem freeLabels_of_sum {sum index' one : Expr} {type : Ty}
    (adds : sum.node = .binary .add index' one false false type)
    (readsIndex : index'.node = .parameter index)
    (isOne : one.node = .constant (.int32 1) .int32) : sum.freeLabels = [] := by
  simp [Expr.freeLabels_of_passesJumps adds rfl, Expr.freeLabels_of_passesJumps isOne rfl,
    Node.children, freeLabels_of_reads readsIndex]

end

theorem IndexedShape.mem_freeLabels {array index item : Parameter} {source body e : Expr}
    (shape : IndexedShape array index item source body ls e) (mem : t ∈ e.freeLabels) :
    (t ∈ source.freeLabels ∨ t ∈ body.freeLabels ∧ ls.continueLabel.same t = false) ∧
      ls.breakLabel.same t = false := by
  obtain ⟨storeArray, storeIndex, zero, looping, closing, choice, test, left, length, operand,
    round, storeItem, value, element, place, next, sum, again, block, storesArray, storesIndex,
    starts, repeats, chooses, tests, readsIndex, measures, readsArray, rounds, storesItem, converts,
    ⟨array', index', picks, picksArray, picksIndex⟩, places, steps,
    ⟨addend, one, adds, addsIndex, addsOne⟩, goesOn, closes⟩ := shape
  have testFree := freeLabels_of_inRange tests readsIndex measures readsArray
  have elementFree := freeLabels_of_element picks picksArray picksIndex
  have sumFree := freeLabels_of_sum adds addsIndex addsOne
  have zeroFree : zero.freeLabels = [] := by
    simp [Expr.freeLabels_of_passesJumps starts rfl, Node.children]
  obtain ⟨⟨c, inside, mem⟩, passes⟩ := mem_freeLabels_of_block block mem
  refine ⟨?_, passes closing (by simp) _ closes.placed?_eq⟩
  simp only [List.mem_cons, List.not_mem_nil, or_false] at inside
  rcases inside with rfl | rfl | rfl | rfl
  · exact .inl (storesArray.mem_freeLabels mem)
  · simpa [zeroFree] using storesIndex.mem_freeLabels mem
  · obtain ⟨mem | mem, notContinue⟩ := repeats.mem_freeLabels_of_chooses chooses mem
    · simp [testFree] at mem
    · obtain ⟨⟨c, inside, mem⟩, passes⟩ := mem_freeLabels_of_block rounds mem
      have continues := passes place (by simp) _ places.placed?_eq
      simp only [List.mem_cons, List.not_mem_nil, or_false] at inside
      rcases inside with rfl | rfl | rfl | rfl | rfl
      · simpa [elementFree] using converts.mem_freeLabels (storesItem.mem_freeLabels mem)
      · exact .inr ⟨mem, continues⟩
      · simp [places.freeLabels_eq] at mem
      · simpa [sumFree] using steps.mem_freeLabels mem
      · exact absurd (by simpa [goesOn.freeLabels_eq] using mem) notContinue
  · simp [closes.freeLabels_eq] at mem

theorem Stores.freeLabels_of_current {p enumerator : Parameter} {e value current target : Expr}
    {m : Member} {type : Ty} (stores : Stores p value e) (converts : Converts current type value)
    (reads : current.node = .member (some target) m)
    (ofEnumerator : target.node = .parameter enumerator) : e.freeLabels = [] := by
  have currentFree : current.freeLabels = [] := by
    simp [Expr.freeLabels_of_passesJumps reads rfl, Node.children,
      freeLabels_of_reads ofEnumerator]
  exact stores.freeLabels_eq (converts.freeLabels_eq currentFree)

/-- The jumps that leave the endless loop of a `foreach` are those of its body. -/
theorem LoopLabels.Repeats.mem_freeLabels_of_rounds
    {test store body place again round choice looping : Expr}
    (repeats : ls.Repeats [choice] looping) (chooses : ls.Chooses test round choice)
    (rounds : round.node = .block [] [store, body, place, again] .void) (places : ls.Place place)
    (goesOn : ls.Again again) (testFree : test.freeLabels = []) (storeFree : store.freeLabels = [])
    (mem : t ∈ looping.freeLabels) : t ∈ body.freeLabels ∧ ls.continueLabel.same t = false := by
  obtain ⟨mem | mem, notContinue⟩ := repeats.mem_freeLabels_of_chooses chooses mem
  · simp [testFree] at mem
  · obtain ⟨⟨c, inside, mem⟩, passes⟩ := mem_freeLabels_of_block rounds mem
    have continues := passes place (by simp) _ places.placed?_eq
    simp only [List.mem_cons, List.not_mem_nil, or_false] at inside
    rcases inside with rfl | rfl | rfl | rfl
    · simp [storeFree] at mem
    · exact ⟨mem, continues⟩
    · simp [places.freeLabels_eq] at mem
    · exact absurd (by simpa [goesOn.freeLabels_eq] using mem) notContinue

theorem EnumeratedShape.mem_freeLabels {protocol : Protocol} {enumerator item : Parameter}
    {source body e : Expr} (shape : EnumeratedShape protocol enumerator item source body ls e)
    (mem : t ∈ e.freeLabels) :
    (t ∈ source.freeLabels ∨ t ∈ body.freeLabels ∧ ls.continueLabel.same t = false) ∧
      ls.breakLabel.same t = false := by
  obtain ⟨cleanup, storeEnumerator, enumeration, receiver, guarded, looping, closing, choice, test,
    round, storeItem, value, current, target, place, again, block, storesEnumerator, enumerates,
    receives, guards, disposal, repeats, chooses, moves, rounds, storesItem, converts, reads,
    ofEnumerator, places, goesOn, closes⟩ := shape
  obtain ⟨⟨c, inside, mem⟩, passes⟩ := mem_freeLabels_of_block block mem
  refine ⟨?_, passes closing (by simp) _ closes.placed?_eq⟩
  simp only [List.mem_cons, List.not_mem_nil, or_false] at inside
  rcases inside with rfl | rfl | rfl
  · have inEnumeration := storesEnumerator.mem_freeLabels mem
    simp only [Expr.freeLabels_of_passesJumps enumerates rfl, Node.children, Option.toList_some,
      List.append_nil, List.flatMap_cons, List.flatMap_nil] at inEnumeration
    exact .inl (receives.mem_freeLabels inEnumeration)
  · have inLoop := guards.mem_freeLabels disposal.freeLabels_eq mem
    exact .inr (repeats.mem_freeLabels_of_rounds chooses rounds places goesOn moves.freeLabels_eq
      (storesItem.freeLabels_of_current converts reads ofEnumerator) inLoop)
  · simp [closes.freeLabels_eq] at mem

theorem mem_freeLabels_of_forEach {lower : Expr → Build Expr} {k k' : Supply} {item : Parameter}
    {source body e : Expr} {breakTo continueTo : Option Label}
    (ok : forEach lower item source body breakTo continueTo k = .ok (e, k'))
    (mem : t ∈ e.freeLabels) :
    ∃ source' body' ls, Visited lower source source' ∧ Visited lower body body' ∧
      LoopLabels.ChosenFor ls k breakTo continueTo ∧
      (t ∈ source'.freeLabels ∨ t ∈ body'.freeLabels ∧ ls.continueLabel.same t = false) ∧
      ls.breakLabel.same t = false := by
  unfold forEach at ok
  split at ok
  · obtain ⟨_, source', body', ls, -, sourceTo, bodyTo, chosen, shape⟩ :=
      indexedShape_of_forEachIndexed ok
    exact ⟨source', body', ls, sourceTo, bodyTo, chosen, shape.mem_freeLabels mem⟩
  · obtain ⟨_, source', body', ls, -, sourceTo, bodyTo, chosen, shape⟩ :=
      enumeratedShape_of_forEachEnumerated ok
    exact ⟨source', body', ls, sourceTo, bodyTo, chosen, shape.mem_freeLabels mem⟩

theorem UsingShape.mem_freeLabels {disposable : Parameter} {resource body e : Expr}
    (shape : UsingShape disposable resource body e) (mem : t ∈ e.freeLabels) :
    t ∈ resource.freeLabels ∨ t ∈ body.freeLabels := by
  obtain ⟨store, value, guarded, cleanup, block, stores, converts, guards, disposes⟩ := shape
  obtain ⟨⟨c, inside, mem⟩, -⟩ := mem_freeLabels_of_block block mem
  simp only [List.mem_cons, List.not_mem_nil, or_false] at inside
  rcases inside with rfl | rfl
  · have inValue := stores.mem_freeLabels mem
    exact .inl (by simpa [Expr.freeLabels_of_passesJumps converts rfl, Node.children] using inValue)
  · exact .inr (mem_freeLabels_of_guarded guards disposes.freeLabels_eq mem)

end Lowering

/-! ### Lowering -/

/-- A derived node frees no label when it is reduced, if its parts do not when they are lowered. -/
theorem Expr.freeLabels_subset_of_reduce {e e' : Expr} {k k' : Supply}
    (parts : ∀ c ∈ e.children, ∀ c', c.LowersTo c' → c'.freeLabels ⊆ c.freeLabels)
    (ok : e.reduce k = .ok (e', k')) : e'.freeLabels ⊆ e.freeLabels := by
  intro t mem
  obtain ⟨id, node⟩ := e
  rw [Expr.freeLabels_of_node rfl]
  cases node with
  | forLoop counter start test step body breakTo continueTo =>
      obtain ⟨start', test', step', body', ls, startTo, testTo, stepTo, bodyTo, chosen, shape⟩ :=
        Lowering.forShape_of_forLoop ok
      obtain ⟨mem, passes⟩ := shape.mem_freeLabels mem
      simp only [Expr.children, Node.children, List.forall_mem_cons] at parts
      simp only [Node.freeLabels, Label.mem_without, List.mem_append]
      refine ⟨?_, chosen.not_same.1 passes⟩
      rcases mem with mem | mem | mem | ⟨mem, continues⟩
      · exact .inl (.inl (.inl (parts.1 _ startTo mem)))
      · exact .inl (.inl (.inr (parts.2.1 _ testTo mem)))
      · exact .inl (.inr (parts.2.2.1 _ stepTo mem))
      · exact .inr ⟨parts.2.2.2.1 _ bodyTo mem, chosen.not_same.2 continues⟩
  | forEach item source body breakTo continueTo =>
      obtain ⟨source', body', ls, sourceTo, bodyTo, chosen, mem, passes⟩ :=
        Lowering.mem_freeLabels_of_forEach ok mem
      simp only [Expr.children, Node.children, List.forall_mem_cons] at parts
      simp only [Node.freeLabels, Label.mem_without, List.mem_append]
      refine ⟨?_, chosen.not_same.1 passes⟩
      rcases mem with mem | ⟨mem, continues⟩
      · exact .inl (parts.1 _ sourceTo mem)
      · exact .inr ⟨parts.2.1 _ bodyTo mem, chosen.not_same.2 continues⟩
  | whileLoop test body breakTo continueTo =>
      obtain ⟨test', body', ls, testTo, bodyTo, chosen, shape⟩ :=
        Lowering.whileShape_of_whileLoop ok
      obtain ⟨mem, continues, passes⟩ := shape.mem_freeLabels mem
      simp only [Expr.children, Node.children, List.forall_mem_cons] at parts
      simp only [Node.freeLabels, Label.mem_without, List.mem_append]
      refine ⟨?_, chosen.not_same.1 passes⟩
      rcases mem with mem | mem
      · exact .inl (parts.1 _ testTo mem)
      · exact .inr ⟨parts.2.1 _ bodyTo mem, chosen.not_same.2 continues⟩
  | doWhile body test breakTo continueTo =>
      obtain ⟨body', test', ls, bodyTo, testTo, chosen, shape⟩ := Lowering.doShape_of_doWhile ok
      obtain ⟨mem, continues, passes⟩ := shape.mem_freeLabels mem
      simp only [Expr.children, Node.children, List.forall_mem_cons] at parts
      simp only [Node.freeLabels, Label.mem_without, List.mem_append]
      refine ⟨?_, chosen.not_same.1 passes⟩
      rcases mem with mem | mem
      · exact .inl ⟨parts.1 _ bodyTo mem, chosen.not_same.2 continues⟩
      · exact .inr (parts.2.1 _ testTo mem)
  | usingBlock resource body =>
      obtain ⟨resource', body', resourceTo, bodyTo, shape⟩ := Lowering.usingShape_of_usingBlock ok
      simp only [Expr.children, Node.children, List.forall_mem_cons] at parts
      simp only [Node.freeLabels, Node.children, List.flatMap_cons, List.flatMap_nil,
        List.append_nil, List.mem_append]
      rcases shape.mem_freeLabels mem with mem | mem
      · exact .inl (parts.1 _ resourceTo mem)
      · exact .inr (parts.2.1 _ bodyTo mem)
  | _ =>
      obtain ⟨rfl, -⟩ := Build.pure_eq_ok.mp ok
      rwa [Expr.freeLabels_of_node rfl] at mem

/-- Lowering keeps places: what it makes of the place of a label is a place of that label, and what
it makes of anything else is none. -/
theorem Expr.placed?_of_lowersTo {e e' : Expr} (lowers : e.LowersTo e') :
    e'.placed? = e.placed? := by
  rcases Expr.reduced_or_alike_of_lowersTo lowers with ⟨derived, k, k', ok⟩ | rfl | ⟨-, alike⟩
  · rw [Expr.placed?_eq_none (Expr.kind_of_reduce derived ok ▸ by decide),
      Expr.placed?_eq_none fun label => by
        simp [Expr.isDerived, label, Kind.isDerived] at derived]
  · rfl
  · unfold Expr.placed?
    generalize e.node = node, e'.node = node' at alike
    cases alike <;> rfl

theorem flatMap_freeLabels_subset {cs cs' : List Expr} {r : Expr → Expr → Prop}
    (related : List.Forall₂ r cs cs')
    (shrinks : ∀ c ∈ cs, ∀ c', r c c' → c'.freeLabels ⊆ c.freeLabels) :
    cs'.flatMap Expr.freeLabels ⊆ cs.flatMap Expr.freeLabels := by
  induction related with
  | nil => exact List.Subset.refl _
  | cons first _ ih =>
      rw [List.forall_mem_cons] at shrinks
      simp only [List.flatMap_cons]
      exact List.append_subset.mpr
        ⟨List.subset_append_of_subset_left _ (shrinks.1 _ first),
          List.subset_append_of_subset_right _ (ih shrinks.2)⟩

theorem filterMap_placed?_eq {cs cs' : List Expr} (related : List.Forall₂ Expr.LowersTo cs cs') :
    cs'.filterMap Expr.placed? = cs.filterMap Expr.placed? := by
  induction related with
  | nil => rfl
  | cons first _ ih => simp only [List.filterMap_cons, Expr.placed?_of_lowersTo first, ih]

/-- A node around lowered children frees no label if they do not. -/
theorem Node.Alike.freeLabels_subset {node node' : Node} {v : Parameter → Parameter → Prop}
    (alike : node.Alike Expr.LowersTo v node') (plain : node.kind.isDerived = false)
    (parts : ∀ c ∈ node.children, ∀ c', c.LowersTo c' → c'.freeLabels ⊆ c.freeLabels) :
    node'.freeLabels Expr.freeLabels ⊆ node.freeLabels Expr.freeLabels := by
  have related := alike.forall₂_children
  cases passes : node.kind.passesJumps with
  | true =>
      rw [Node.freeLabels_of_passesJumps passes,
        Node.freeLabels_of_passesJumps (alike.kind_eq ▸ passes)]
      exact flatMap_freeLabels_subset related parts
  | false =>
      cases alike with
      | jump => exact List.cons_subset_cons _ (flatMap_freeLabels_subset related parts)
      | block _ statements =>
          intro t mem
          simp only [Node.freeLabels, Label.mem_without, filterMap_placed?_eq statements] at mem ⊢
          exact ⟨flatMap_freeLabels_subset statements parts mem.1, mem.2⟩
      | loop body =>
          intro t mem
          simp only [Node.freeLabels, Label.mem_without] at mem ⊢
          exact ⟨parts _ (List.mem_singleton_self _) _ body mem.1, mem.2⟩
      | lambda => exact List.Subset.refl _
      | forLoop | forEach | whileLoop | doWhile => cases plain
      | _ => cases passes

/-- Lowering frees no label. -/
theorem Expr.freeLabels_subset_of_lowersTo {e e' : Expr} (lowers : e.LowersTo e') :
    e'.freeLabels ⊆ e.freeLabels := by
  induction e using Expr.inductionOnChildren generalizing e' with
  | step e ih =>
      rcases Expr.reduced_or_alike_of_lowersTo lowers with ⟨-, k, k', ok⟩ | rfl | ⟨plain, alike⟩
      · exact Expr.freeLabels_subset_of_reduce (fun c mem _ below => ih c mem below) ok
      · exact List.Subset.refl _
      · rw [@Expr.freeLabels_of_node e' _ rfl, @Expr.freeLabels_of_node e _ rfl]
        exact alike.freeLabels_subset plain fun c mem _ below => ih c mem below

end ExprTree
