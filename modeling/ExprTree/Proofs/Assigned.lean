import ExprTree.Proofs.Nodes
import ExprTree.Proofs.Rules

/-!
Assigned variables: those that a tree may store to and that it does not declare itself.

A store to a variable counts unless it lies in a block, a handler or a loop that declares the
variable, or in the body of a lambda, which is run in a frame of its own. Lowering assigns no
further variable (`Expr.assigned_subset_of_lowersTo`): those that it stores to are declared by the
blocks that it builds.
-/

namespace ExprTree

/-- Identities without those of the parameters. -/
def Parameter.without (bound : List Parameter) (ids : List Identity) : List Identity :=
  ids.filter fun id => !bound.any (·.id == id)

theorem Parameter.mem_without {bound : List Parameter} {ids : List Identity} {x : Identity} :
    x ∈ Parameter.without bound ids ↔ x ∈ ids ∧ ∀ p ∈ bound, p.id ≠ x := by
  simp [Parameter.without]

/-- The variable that an expression reads. -/
def Expr.local? (e : Expr) : Option Identity :=
  match e.node with
  | .parameter p => some p.id
  | _ => none

theorem Expr.local?_eq_none {e : Expr} (other : e.kind ≠ .parameter) : e.local? = none := by
  obtain ⟨id, node⟩ := e
  cases node with
  | parameter => exact absurd rfl other
  | _ => rfl

/-- The parts that are evaluated with the node, each with the parameters that the node declares
around it. -/
def Node.openParts : Node → List (List Parameter × Expr)
  | .lambda _ => []
  | .block locals statements _ => statements.map fun c => (locals, c)
  | .attempt body handlers fault finalizer =>
    ([], body) ::
      handlers.flatMap (fun h => (h.filter.toList ++ [h.body]).map fun c => (h.caught.toList, c)) ++
      (fault.toList ++ finalizer.toList).map fun c => ([], c)
  | .forLoop counter start test step body _ _ =>
    [start, test, step, body].map fun c => ([counter], c)
  | .forEach item source body _ _ => [source, body].map fun c => ([item], c)
  | node => node.children.map fun c => ([], c)

/-- The assigned variables of a node, given those of its parts. -/
def Node.assigned (assigned : Expr → List Identity) (node : Node) : List Identity :=
  node.stored.filterMap Expr.local? ++
    node.openParts.flatMap fun part => Parameter.without part.1 (assigned part.2)

/-- The variables that a tree may store to and that it does not declare itself. -/
def Expr.assigned : Expr → List Identity :=
  Expr.recurse (fun _ => []) fun assigned e => e.node.assigned assigned

/-! ### Equations -/

theorem Node.mem_children_of_openParts {node : Node} {part : List Parameter × Expr}
    (mem : part ∈ node.openParts) : part.2 ∈ node.children := by
  cases node with
  | lambda => cases mem
  | attempt body handlers fault finalizer =>
      simp only [Node.openParts, List.cons_append, List.mem_cons, List.mem_append,
        List.mem_flatMap, List.mem_map] at mem
      simp only [Node.children, List.cons_append, List.mem_cons, List.mem_append,
        List.mem_flatMap]
      rcases mem with rfl | ⟨h, inside, c, mem, rfl⟩ | ⟨c, mem | mem, rfl⟩
      · exact .inl rfl
      · exact .inr (.inl (.inl ⟨h, inside, by simpa using mem⟩))
      · exact .inr (.inl (.inr mem))
      · exact .inr (.inr mem)
  | _ =>
      obtain ⟨c, inside, rfl⟩ := List.mem_map.mp mem
      exact inside

theorem Expr.assigned_of_node {e : Expr} {node : Node} (h : e.node = node) :
    e.assigned = node.assigned Expr.assigned := by
  subst h
  refine Expr.recurse_eq (fun f g e agree => ?_) e
  have parts : ∀ part ∈ e.node.openParts,
      Parameter.without part.1 (f part.2) = Parameter.without part.1 (g part.2) := by
    intro part mem
    rw [agree part.2 (Node.mem_children_of_openParts mem)]
  simp only [Node.assigned, List.flatMap_congr parts]

/-- A tree assigns what its root stores to, and what a part assigns where the root does not declare
it. -/
theorem Expr.mem_assigned_of_node {e : Expr} {node : Node} (h : e.node = node) {x : Identity} :
    x ∈ e.assigned ↔ (∃ target ∈ node.stored, target.local? = some x) ∨
      ∃ part ∈ node.openParts, x ∈ part.2.assigned ∧ ∀ p ∈ part.1, p.id ≠ x := by
  rw [Expr.assigned_of_node h, Node.assigned]
  simp only [List.mem_append, List.mem_filterMap, List.mem_flatMap, Parameter.mem_without]

/-- Whether nodes of this kind may declare variables or keep the stores of a part to themselves. -/
def Kind.declares : Kind → Bool
  | .lambda | .block | .attempt | .forLoop | .forEach => true
  | _ => false

/-- A node that declares nothing has its children as parts. -/
theorem Node.openParts_of_undeclared {node : Node} (undeclared : node.kind.declares = false) :
    node.openParts = node.children.map fun c => ([], c) := by
  cases node with
  | lambda | block | attempt | forLoop | forEach => cases undeclared
  | _ => rfl

theorem Expr.mem_assigned_of_undeclared {e : Expr} {node : Node} (h : e.node = node)
    (undeclared : node.kind.declares = false) {x : Identity} :
    x ∈ e.assigned ↔ (∃ target ∈ node.stored, target.local? = some x) ∨
      ∃ c ∈ node.children, x ∈ c.assigned := by
  rw [Expr.mem_assigned_of_node h, Node.openParts_of_undeclared undeclared]
  refine or_congr_right ⟨?_, ?_⟩
  · rintro ⟨part, inside, mem, -⟩
    obtain ⟨c, child, rfl⟩ := List.mem_map.mp inside
    exact ⟨c, child, mem⟩
  · rintro ⟨c, child, mem⟩
    exact ⟨([], c), List.mem_map.mpr ⟨c, child, rfl⟩, mem, fun p inside => nomatch inside⟩

/-- A node that declares nothing assigns what its children assign. -/
theorem Expr.assigned_subset_of_child {e c : Expr} (undeclared : e.kind.declares = false)
    (child : c ∈ e.children) : c.assigned ⊆ e.assigned :=
  fun _ mem => (Expr.mem_assigned_of_undeclared rfl undeclared).mpr (.inr ⟨c, child, mem⟩)

/-- Nothing is assigned by a node that neither declares nor stores, if its children assign
nothing. -/
theorem Expr.assigned_eq_nil {e : Expr} {node : Node} (h : e.node = node)
    (undeclared : node.kind.declares = false) (stores : node.stored = [])
    (children : ∀ c ∈ node.children, c.assigned = []) : e.assigned = [] := by
  refine List.eq_nil_iff_forall_not_mem.mpr fun x mem => ?_
  rcases (Expr.mem_assigned_of_undeclared h undeclared).mp mem with ⟨t, inside, -⟩ | ⟨c, child, mem⟩
  · rw [stores] at inside
    cases inside
  · rw [children c child] at mem
    cases mem

/-- No node of the tree reads or binds one of the variables. -/
def Expr.Avoids (e : Expr) (ps : List Parameter) : Prop :=
  e.All fun d => ∀ q ∈ d.node.parameters, ∀ p ∈ ps, q.id ≠ p.id

instance (e : Expr) (ps : List Parameter) : Decidable (e.Avoids ps) :=
  inferInstanceAs (Decidable (e.All _))

/-- What is assigned in a tree is read or bound in it. -/
theorem Expr.Avoids.not_mem_assigned {e : Expr} {ps : List Parameter} {p : Parameter}
    (avoids : e.Avoids ps) (mem : p ∈ ps) : p.id ∉ e.assigned := by
  induction e using Expr.inductionOnChildren with
  | step e ih =>
      obtain ⟨root, below⟩ := Expr.all_iff.mp avoids
      intro assigned
      rcases (Expr.mem_assigned_of_node rfl).mp assigned with
        ⟨target, stored, reads⟩ | ⟨part, inside, assigned, -⟩
      · have child : target ∈ e.children := e.node.stored_subset stored
        obtain ⟨i, node⟩ := target
        cases node with
        | parameter q =>
            have same : q.id = p.id := Option.some.inj reads
            exact (Expr.all_iff.mp (below _ child)).1 q (List.mem_singleton_self q) p mem same
        | _ => cases reads
      · have child := Node.mem_children_of_openParts inside
        exact ih part.2 child (below part.2 child) assigned

/-! ### Variables of shapes -/

namespace Lowering

variable {x : Identity} {ls : LoopLabels}

/-- A block assigns what its statements assign, its locals apart. -/
theorem mem_assigned_of_block {e : Expr} {locals : List Parameter} {statements : List Expr}
    {type : Ty} (block : e.node = .block locals statements type) :
    x ∈ e.assigned ↔ (∃ c ∈ statements, x ∈ c.assigned) ∧ ∀ p ∈ locals, p.id ≠ x := by
  simp only [Expr.mem_assigned_of_node block, Node.stored, Node.openParts, List.not_mem_nil,
    false_and, exists_false, false_or, List.mem_map]
  constructor
  · rintro ⟨part, ⟨c, inside, rfl⟩, mem, free⟩
    exact ⟨⟨c, inside, mem⟩, free⟩
  · rintro ⟨⟨c, inside, mem⟩, free⟩
    exact ⟨_, ⟨c, inside, rfl⟩, mem, free⟩

theorem assigned_of_reads {p : Parameter} {e : Expr} (reads : e.node = .parameter p) :
    e.assigned = [] := by
  rw [Expr.assigned_of_node reads]
  rfl

theorem Stores.mem_assigned {p : Parameter} {value e : Expr} (stores : Stores p value e)
    (mem : x ∈ e.assigned) : x = p.id ∨ x ∈ value.assigned := by
  obtain ⟨target, assigns, reads⟩ := stores
  have read : target.local? = some p.id := by simp only [Expr.local?, reads]
  have inside : p.id = x ∨ x ∈ value.assigned := by
    simpa [Expr.mem_assigned_of_undeclared assigns rfl, Node.stored, Node.children, read,
      assigned_of_reads reads] using mem
  rcases inside with same | mem
  · exact .inl same.symm
  · exact .inr mem

theorem Closes.assigned_eq {l : Label} {e : Expr} (closes : Closes l e) : e.assigned = [] := by
  unfold Closes at closes
  split at closes
  · rw [Expr.assigned_of_node closes]
    rfl
  · obtain ⟨fallback, closes, falls⟩ := closes
    have none : fallback.assigned = [] := by
      rw [Expr.assigned_of_node falls]
      rfl
    exact Expr.assigned_eq_nil closes rfl rfl (List.forall_mem_singleton.mpr none)

theorem LoopLabels.Place.assigned_eq {e : Expr} (places : ls.Place e) : e.assigned = [] := by
  rw [Expr.assigned_of_node places]
  rfl

theorem LoopLabels.Again.assigned_eq {e : Expr} (goesOn : ls.Again e) : e.assigned = [] := by
  rw [Expr.assigned_of_node goesOn]
  rfl

theorem LoopLabels.Chooses.mem_assigned {test round e : Expr} (chooses : ls.Chooses test round e)
    (mem : x ∈ e.assigned) : x ∈ test.assigned ∨ x ∈ round.assigned := by
  obtain ⟨leave, chooses, leaves⟩ := chooses
  have none : leave.assigned = [] := by
    rw [Expr.assigned_of_node leaves]
    rfl
  simpa [Expr.mem_assigned_of_undeclared chooses rfl, Node.stored, Node.children, none] using mem

theorem LoopLabels.Repeats.mem_assigned {statements : List Expr} {e : Expr}
    (repeats : ls.Repeats statements e) (mem : x ∈ e.assigned) :
    ∃ c ∈ statements, x ∈ c.assigned := by
  obtain ⟨inner, loops, holds⟩ := repeats
  have inLoop : x ∈ inner.assigned := by
    simpa [Expr.mem_assigned_of_undeclared loops rfl, Node.stored, Node.children] using mem
  exact ((mem_assigned_of_block holds).mp inLoop).1

theorem Converts.mem_assigned {value e : Expr} {type : Ty} (converts : Converts value type e)
    (mem : x ∈ e.assigned) : x ∈ value.assigned := by
  unfold Converts at converts
  split at converts
  · rwa [converts] at mem
  · simpa [Expr.mem_assigned_of_undeclared converts rfl, Node.stored, Node.children] using mem

theorem CallsOn.assigned_eq {p : Parameter} {m : Method} {e : Expr} (calls : CallsOn p m e) :
    e.assigned = [] := by
  obtain ⟨target, calls, reads⟩ := calls
  exact Expr.assigned_eq_nil calls rfl rfl (List.forall_mem_singleton.mpr (assigned_of_reads reads))

theorem DisposesUnlessNull.assigned_eq {p : Parameter} {e : Expr}
    (disposes : DisposesUnlessNull p e) : e.assigned = [] := by
  obtain ⟨test, call, left, right, choice, compares, reads, null, calls⟩ := disposes
  have nullNone : right.assigned = [] := Expr.assigned_eq_nil null rfl rfl (List.forall_mem_nil _)
  have testNone : test.assigned = [] := Expr.assigned_eq_nil compares rfl rfl
    (List.forall_mem_cons.mpr ⟨assigned_of_reads reads, List.forall_mem_singleton.mpr nullNone⟩)
  exact Expr.assigned_eq_nil choice rfl rfl
    (List.forall_mem_cons.mpr ⟨testNone, List.forall_mem_singleton.mpr calls.assigned_eq⟩)

theorem DisposalShape.assigned_eq {enumerator : Parameter} {cleanup : Option Expr}
    (disposal : DisposalShape enumerator cleanup) : ∀ e ∈ cleanup, e.assigned = [] := by
  intro e mem
  cases disposal with
  | known e' _ calls =>
      cases mem
      exact calls.assigned_eq
  | needless => cases mem
  | asked disposable e' store value operand check _ _ block stores casts reads disposes =>
      cases mem
      refine List.eq_nil_iff_forall_not_mem.mpr fun x mem => ?_
      obtain ⟨⟨c, inside, mem⟩, free⟩ := (mem_assigned_of_block block).mp mem
      simp only [List.mem_cons, List.not_mem_nil, or_false] at inside
      rcases inside with rfl | rfl
      · rcases stores.mem_assigned mem with rfl | inValue
        · exact free disposable List.mem_cons_self rfl
        · rw [Expr.assigned_eq_nil casts rfl rfl
            (List.forall_mem_singleton.mpr (assigned_of_reads reads))] at inValue
          cases inValue
      · simp [disposes.assigned_eq] at mem

/-- A guarded body assigns what it would alone, if the cleanup assigns nothing. -/
theorem mem_assigned_of_guarded {body cleanup e : Expr}
    (guards : e.node = .attempt body [] none (some cleanup)) (harmless : cleanup.assigned = [])
    (mem : x ∈ e.assigned) : x ∈ body.assigned := by
  simpa [Expr.mem_assigned_of_node guards, Node.stored, Node.openParts, harmless] using mem

theorem Guards.mem_assigned {cleanup : Option Expr} {looping e : Expr}
    (guards : Guards cleanup looping e) (harmless : ∀ c ∈ cleanup, c.assigned = [])
    (mem : x ∈ e.assigned) : x ∈ looping.assigned := by
  cases cleanup with
  | none =>
      cases guards
      exact mem
  | some cleanup =>
      exact mem_assigned_of_guarded guards (harmless cleanup rfl) mem

theorem ForShape.mem_assigned {counter : Parameter} {start test step body e : Expr}
    (shape : ForShape counter start test step body ls e) (mem : x ∈ e.assigned) :
    (x ∈ start.assigned ∨ x ∈ test.assigned ∨ x ∈ step.assigned ∨ x ∈ body.assigned) ∧
      counter.id ≠ x := by
  obtain ⟨store, looping, closing, choice, round, place, again, block, stores, repeats, chooses,
    rounds, places, goesOn, closes⟩ := shape
  obtain ⟨⟨c, inside, mem⟩, free⟩ := (mem_assigned_of_block block).mp mem
  have other : counter.id ≠ x := free counter List.mem_cons_self
  refine ⟨?_, other⟩
  simp only [List.mem_cons, List.not_mem_nil, or_false] at inside
  rcases inside with rfl | rfl | rfl
  · rcases stores.mem_assigned mem with rfl | mem
    · exact absurd rfl other
    · exact .inl mem
  · obtain ⟨c, inside, mem⟩ := repeats.mem_assigned mem
    cases List.mem_singleton.mp inside
    rcases chooses.mem_assigned mem with mem | mem
    · exact .inr (.inl mem)
    · obtain ⟨⟨c, inside, mem⟩, -⟩ := (mem_assigned_of_block rounds).mp mem
      simp only [List.mem_cons, List.not_mem_nil, or_false] at inside
      rcases inside with rfl | rfl | rfl | rfl
      · exact .inr (.inr (.inr mem))
      · simp [places.assigned_eq] at mem
      · exact .inr (.inr (.inl mem))
      · simp [goesOn.assigned_eq] at mem
  · simp [closes.assigned_eq] at mem

theorem WhileShape.mem_assigned {test body e : Expr} (shape : WhileShape test body ls e)
    (mem : x ∈ e.assigned) : x ∈ test.assigned ∨ x ∈ body.assigned := by
  obtain ⟨looping, closing, choice, round, place, again, block, repeats, chooses, rounds, places,
    goesOn, closes⟩ := shape
  obtain ⟨⟨c, inside, mem⟩, -⟩ := (mem_assigned_of_block block).mp mem
  simp only [List.mem_cons, List.not_mem_nil, or_false] at inside
  rcases inside with rfl | rfl
  · obtain ⟨c, inside, mem⟩ := repeats.mem_assigned mem
    simp only [List.mem_cons, List.not_mem_nil, or_false] at inside
    rcases inside with rfl | rfl
    · simp [places.assigned_eq] at mem
    · rcases chooses.mem_assigned mem with mem | mem
      · exact .inl mem
      · obtain ⟨⟨c, inside, mem⟩, -⟩ := (mem_assigned_of_block rounds).mp mem
        simp only [List.mem_cons, List.not_mem_nil, or_false] at inside
        rcases inside with rfl | rfl
        · exact .inr mem
        · simp [goesOn.assigned_eq] at mem
  · simp [closes.assigned_eq] at mem

theorem DoShape.mem_assigned {test body e : Expr} (shape : DoShape body test ls e)
    (mem : x ∈ e.assigned) : x ∈ body.assigned ∨ x ∈ test.assigned := by
  obtain ⟨looping, closing, choice, place, again, block, repeats, chooses, places, goesOn,
    closes⟩ := shape
  obtain ⟨⟨c, inside, mem⟩, -⟩ := (mem_assigned_of_block block).mp mem
  simp only [List.mem_cons, List.not_mem_nil, or_false] at inside
  rcases inside with rfl | rfl
  · obtain ⟨c, inside, mem⟩ := repeats.mem_assigned mem
    simp only [List.mem_cons, List.not_mem_nil, or_false] at inside
    rcases inside with rfl | rfl | rfl
    · exact .inl mem
    · simp [places.assigned_eq] at mem
    · rcases chooses.mem_assigned mem with mem | mem
      · exact .inr mem
      · simp [goesOn.assigned_eq] at mem
  · simp [closes.assigned_eq] at mem

theorem IndexedShape.mem_assigned {array index item : Parameter} {source body e : Expr}
    (shape : IndexedShape array index item source body ls e) (mem : x ∈ e.assigned) :
    (x ∈ source.assigned ∨ x ∈ body.assigned) ∧ item.id ≠ x := by
  obtain ⟨storeArray, storeIndex, zero, looping, closing, choice, test, left, length, operand,
    round, storeItem, value, element, place, next, sum, again, block, storesArray, storesIndex,
    starts, repeats, chooses, tests, readsIndex, measures, readsArray, rounds, storesItem, converts,
    ⟨array', index', picks, picksArray, picksIndex⟩, places, steps,
    ⟨addend, one, adds, addsIndex, addsOne⟩, goesOn, closes⟩ := shape
  have lengthNone : length.assigned = [] := Expr.assigned_eq_nil measures rfl rfl
    (List.forall_mem_singleton.mpr (assigned_of_reads readsArray))
  have testNone : test.assigned = [] := Expr.assigned_eq_nil tests rfl rfl
    (List.forall_mem_cons.mpr
      ⟨assigned_of_reads readsIndex, List.forall_mem_singleton.mpr lengthNone⟩)
  have elementNone : element.assigned = [] := Expr.assigned_eq_nil picks rfl rfl
    (List.forall_mem_cons.mpr
      ⟨assigned_of_reads picksArray, List.forall_mem_singleton.mpr (assigned_of_reads picksIndex)⟩)
  have oneNone : one.assigned = [] := Expr.assigned_eq_nil addsOne rfl rfl (List.forall_mem_nil _)
  have sumNone : sum.assigned = [] := Expr.assigned_eq_nil adds rfl rfl
    (List.forall_mem_cons.mpr
      ⟨assigned_of_reads addsIndex, List.forall_mem_singleton.mpr oneNone⟩)
  have zeroNone : zero.assigned = [] := Expr.assigned_eq_nil starts rfl rfl (List.forall_mem_nil _)
  obtain ⟨⟨c, inside, mem⟩, free⟩ := (mem_assigned_of_block block).mp mem
  simp only [List.mem_cons, List.not_mem_nil, or_false, forall_eq_or_imp, forall_eq] at free
  obtain ⟨notArray, notIndex, notItem⟩ := free
  refine ⟨?_, notItem⟩
  simp only [List.mem_cons, List.not_mem_nil, or_false] at inside
  rcases inside with rfl | rfl | rfl | rfl
  · rcases storesArray.mem_assigned mem with rfl | mem
    · exact absurd rfl notArray
    · exact .inl mem
  · rcases storesIndex.mem_assigned mem with rfl | mem
    · exact absurd rfl notIndex
    · simp [zeroNone] at mem
  · obtain ⟨c, inside, mem⟩ := repeats.mem_assigned mem
    cases List.mem_singleton.mp inside
    rcases chooses.mem_assigned mem with mem | mem
    · simp [testNone] at mem
    · obtain ⟨⟨c, inside, mem⟩, -⟩ := (mem_assigned_of_block rounds).mp mem
      simp only [List.mem_cons, List.not_mem_nil, or_false] at inside
      rcases inside with rfl | rfl | rfl | rfl | rfl
      · rcases storesItem.mem_assigned mem with rfl | mem
        · exact absurd rfl notItem
        · simpa [elementNone] using converts.mem_assigned mem
      · exact .inr mem
      · simp [places.assigned_eq] at mem
      · rcases steps.mem_assigned mem with rfl | mem
        · exact absurd rfl notIndex
        · simp [sumNone] at mem
      · simp [goesOn.assigned_eq] at mem
  · simp [closes.assigned_eq] at mem

theorem EnumeratedShape.mem_assigned {protocol : Protocol} {enumerator item : Parameter}
    {source body e : Expr} (shape : EnumeratedShape protocol enumerator item source body ls e)
    (mem : x ∈ e.assigned) : (x ∈ source.assigned ∨ x ∈ body.assigned) ∧ item.id ≠ x := by
  obtain ⟨cleanup, storeEnumerator, enumeration, receiver, guarded, looping, closing, choice, test,
    round, storeItem, value, current, target, place, again, block, storesEnumerator, enumerates,
    receives, guards, disposal, repeats, chooses, moves, rounds, storesItem, converts, reads,
    ofEnumerator, places, goesOn, closes⟩ := shape
  have currentNone : current.assigned = [] := Expr.assigned_eq_nil reads rfl rfl
    (List.forall_mem_singleton.mpr (assigned_of_reads ofEnumerator))
  obtain ⟨⟨c, inside, mem⟩, free⟩ := (mem_assigned_of_block block).mp mem
  simp only [List.mem_cons, List.not_mem_nil, or_false, forall_eq_or_imp, forall_eq] at free
  obtain ⟨notEnumerator, notItem⟩ := free
  refine ⟨?_, notItem⟩
  simp only [List.mem_cons, List.not_mem_nil, or_false] at inside
  rcases inside with rfl | rfl | rfl
  · rcases storesEnumerator.mem_assigned mem with rfl | mem
    · exact absurd rfl notEnumerator
    · have inReceiver : x ∈ receiver.assigned := by
        simpa [Expr.mem_assigned_of_undeclared enumerates rfl, Node.stored, Node.children] using mem
      exact .inl (receives.mem_assigned inReceiver)
  · obtain ⟨c, inside, mem⟩ := repeats.mem_assigned (guards.mem_assigned disposal.assigned_eq mem)
    cases List.mem_singleton.mp inside
    rcases chooses.mem_assigned mem with mem | mem
    · simp [moves.assigned_eq] at mem
    · obtain ⟨⟨c, inside, mem⟩, -⟩ := (mem_assigned_of_block rounds).mp mem
      simp only [List.mem_cons, List.not_mem_nil, or_false] at inside
      rcases inside with rfl | rfl | rfl | rfl
      · rcases storesItem.mem_assigned mem with rfl | mem
        · exact absurd rfl notItem
        · simpa [currentNone] using converts.mem_assigned mem
      · exact .inr mem
      · simp [places.assigned_eq] at mem
      · simp [goesOn.assigned_eq] at mem
  · simp [closes.assigned_eq] at mem

theorem UsingShape.mem_assigned {disposable : Parameter} {resource body e : Expr}
    (shape : UsingShape disposable resource body e) (mem : x ∈ e.assigned) :
    x ∈ resource.assigned ∨ x ∈ body.assigned := by
  obtain ⟨store, value, guarded, cleanup, block, stores, converts, guards, disposes⟩ := shape
  obtain ⟨⟨c, inside, mem⟩, free⟩ := (mem_assigned_of_block block).mp mem
  simp only [List.mem_cons, List.not_mem_nil, or_false] at inside
  rcases inside with rfl | rfl
  · rcases stores.mem_assigned mem with rfl | mem
    · exact absurd rfl (free disposable List.mem_cons_self)
    · have inResource : x ∈ resource.assigned := by
        simpa [Expr.mem_assigned_of_undeclared converts rfl, Node.stored, Node.children] using mem
      exact .inl inResource
  · exact .inr (mem_assigned_of_guarded guards disposes.assigned_eq mem)

end Lowering

/-! ### Lowering -/

/-- A derived node assigns no further variable when it is reduced, if its parts do not when they are
lowered. -/
theorem Expr.assigned_subset_of_reduce {e e' : Expr} {k k' : Supply}
    (parts : ∀ c ∈ e.children, ∀ c', c.LowersTo c' → c'.assigned ⊆ c.assigned)
    (ok : e.reduce k = .ok (e', k')) : e'.assigned ⊆ e.assigned := by
  intro x mem
  obtain ⟨id, node⟩ := e
  cases node with
  | forLoop counter start test step body breakTo continueTo =>
      obtain ⟨start', test', step', body', ls, startTo, testTo, stepTo, bodyTo, -, shape⟩ :=
        Lowering.forShape_of_forLoop ok
      obtain ⟨mem, other⟩ := shape.mem_assigned mem
      simp only [Expr.children, Node.children, List.forall_mem_cons] at parts
      have inside : x ∈ start.assigned ∨ x ∈ test.assigned ∨ x ∈ step.assigned ∨
          x ∈ body.assigned := by
        rcases mem with mem | mem | mem | mem
        · exact .inl (parts.1 _ startTo mem)
        · exact .inr (.inl (parts.2.1 _ testTo mem))
        · exact .inr (.inr (.inl (parts.2.2.1 _ stepTo mem)))
        · exact .inr (.inr (.inr (parts.2.2.2.1 _ bodyTo mem)))
      rw [Expr.mem_assigned_of_node rfl]
      simpa [Node.stored, Node.openParts, other] using inside
  | forEach item source body breakTo continueTo =>
      have ok : Lowering.forEach Expr.lower item source body breakTo continueTo k = .ok (e', k') :=
        ok
      simp only [Expr.children, Node.children, List.forall_mem_cons] at parts
      suffices inside : (x ∈ source.assigned ∨ x ∈ body.assigned) ∧ item.id ≠ x by
        rw [Expr.mem_assigned_of_node rfl]
        simpa [Node.stored, Node.openParts, inside.2] using inside.1
      unfold Lowering.forEach at ok
      split at ok
      · obtain ⟨_, source', body', ls, -, sourceTo, bodyTo, -, shape⟩ :=
          Lowering.indexedShape_of_forEachIndexed ok
        obtain ⟨mem, other⟩ := shape.mem_assigned mem
        exact ⟨mem.imp (parts.1 _ sourceTo ·) (parts.2.1 _ bodyTo ·), other⟩
      · obtain ⟨_, source', body', ls, -, sourceTo, bodyTo, -, shape⟩ :=
          Lowering.enumeratedShape_of_forEachEnumerated ok
        obtain ⟨mem, other⟩ := shape.mem_assigned mem
        exact ⟨mem.imp (parts.1 _ sourceTo ·) (parts.2.1 _ bodyTo ·), other⟩
  | whileLoop test body breakTo continueTo =>
      obtain ⟨test', body', ls, testTo, bodyTo, -, shape⟩ := Lowering.whileShape_of_whileLoop ok
      simp only [Expr.children, Node.children, List.forall_mem_cons] at parts
      have inside : x ∈ test.assigned ∨ x ∈ body.assigned :=
        (shape.mem_assigned mem).imp (parts.1 _ testTo ·) (parts.2.1 _ bodyTo ·)
      rw [Expr.mem_assigned_of_undeclared rfl rfl]
      simpa [Node.stored, Node.children] using inside
  | doWhile body test breakTo continueTo =>
      obtain ⟨body', test', ls, bodyTo, testTo, -, shape⟩ := Lowering.doShape_of_doWhile ok
      simp only [Expr.children, Node.children, List.forall_mem_cons] at parts
      have inside : x ∈ body.assigned ∨ x ∈ test.assigned :=
        (shape.mem_assigned mem).imp (parts.1 _ bodyTo ·) (parts.2.1 _ testTo ·)
      rw [Expr.mem_assigned_of_undeclared rfl rfl]
      simpa [Node.stored, Node.children] using inside
  | usingBlock resource body =>
      obtain ⟨resource', body', resourceTo, bodyTo, shape⟩ := Lowering.usingShape_of_usingBlock ok
      simp only [Expr.children, Node.children, List.forall_mem_cons] at parts
      have inside : x ∈ resource.assigned ∨ x ∈ body.assigned :=
        (shape.mem_assigned mem).imp (parts.1 _ resourceTo ·) (parts.2.1 _ bodyTo ·)
      rw [Expr.mem_assigned_of_undeclared rfl rfl]
      simpa [Node.stored, Node.children] using inside
  | _ =>
      obtain ⟨rfl, -⟩ := Build.pure_eq_ok.mp ok
      exact mem

/-- Lowering keeps variables: what it makes of one reads that variable, and what it makes of
anything else reads none. -/
theorem Expr.local?_of_lowersTo {e e' : Expr} (lowers : e.LowersTo e') :
    e'.local? = e.local? := by
  rcases Expr.reduced_or_alike_of_lowersTo lowers with ⟨derived, k, k', ok⟩ | rfl | ⟨-, alike⟩
  · rw [Expr.local?_eq_none (Expr.kind_of_reduce derived ok ▸ by decide),
      Expr.local?_eq_none fun parameter => by
        simp [Expr.isDerived, parameter, Kind.isDerived] at derived]
  · rfl
  · unfold Expr.local?
    generalize e.node = node, e'.node = node' at alike
    cases alike with
    | parameter reads => rw [reads]
    | _ => rfl

/-- Parts in the same place: the same parameters are declared around them. -/
def OpenVisited (visit : Expr → Build Expr) (a b : List Parameter × Expr) : Prop :=
  b.1 = a.1 ∧ Visited visit a.2 b.2

theorem forall₂_openVisited {visit : Expr → Build Expr} {cs cs' : List Expr}
    (bound : List Parameter) (related : List.Forall₂ (Visited visit) cs cs') :
    List.Forall₂ (OpenVisited visit) (cs.map fun c => (bound, c))
      (cs'.map fun c => (bound, c)) := by
  rw [List.forall₂_map_left_iff, List.forall₂_map_right_iff]
  exact related.imp fun c c' visited => ⟨rfl, visited⟩

theorem Node.Alike.forall₂_openParts {visit : Expr → Build Expr} {node node' : Node}
    (alike : node.Alike (Visited visit) Eq node') :
    List.Forall₂ (OpenVisited visit) node.openParts node'.openParts := by
  have related := alike.forall₂_children
  cases alike with
  | lambda => exact .nil
  | block locals statements =>
      obtain rfl : _ = _ := List.forall₂_eq_eq_eq ▸ locals
      exact forall₂_openVisited _ statements
  | attempt body handlers fault finalizer =>
      refine .cons ⟨rfl, body⟩ (List.rel_append (List.rel_flatMap handlers fun h h' alike => ?_) ?_)
      · have caught : _ = _ := List.forall₂_eq_eq_eq ▸ forall₂_toList alike.caught
        rw [caught]
        exact forall₂_openVisited _
          (List.rel_append (forall₂_toList alike.filter) (.cons alike.body .nil))
      · exact forall₂_openVisited []
          (List.rel_append (forall₂_toList fault) (forall₂_toList finalizer))
  | forLoop counter =>
      subst counter
      exact forall₂_openVisited _ related
  | forEach item =>
      subst item
      exact forall₂_openVisited _ related
  | _ => exact forall₂_openVisited [] related

theorem Node.Alike.forall₂_stored {r : Expr → Expr → Prop} {v : Parameter → Parameter → Prop}
    {node node' : Node} (alike : node.Alike r v node') :
    List.Forall₂ r node.stored node'.stored := by
  cases alike with
  | @unary op _ _ _ operand =>
      cases op with
      | preIncrementAssign | preDecrementAssign | postIncrementAssign | postDecrementAssign =>
          exact .cons operand .nil
      | _ => exact .nil
  | binary left right =>
      simp only [Node.stored]
      split
      · exact .cons left .nil
      · exact .nil
  | _ => exact .nil

/-- Lowering assigns no further variable. -/
theorem Expr.assigned_subset_of_lowersTo {e e' : Expr} (lowers : e.LowersTo e') :
    e'.assigned ⊆ e.assigned := by
  induction e using Expr.inductionOnChildren generalizing e' with
  | step e ih =>
      rcases Expr.reduced_or_alike_of_lowersTo lowers with ⟨-, k, k', ok⟩ | rfl | ⟨-, alike⟩
      · exact Expr.assigned_subset_of_reduce (fun c mem _ below => ih c mem below) ok
      · exact List.Subset.refl _
      · intro x mem
        rw [Expr.mem_assigned_of_node rfl] at mem ⊢
        rcases mem with ⟨target', stored, reads⟩ | ⟨part', inside, mem, free⟩
        · obtain ⟨target, stored, lowers⟩ := exists_of_forall₂_right alike.forall₂_stored stored
          exact .inl ⟨target, stored, (Expr.local?_of_lowersTo lowers) ▸ reads⟩
        · obtain ⟨part, inside, same, lowers⟩ :=
            exists_of_forall₂_right alike.forall₂_openParts inside
          refine .inr ⟨part, inside, ?_, same ▸ free⟩
          exact ih part.2 (Node.mem_children_of_openParts inside) lowers mem

end ExprTree
