import ExprTree.Proofs.Nodes

/-!
Primitive trees.

Lowering leaves no derived node behind (`Expr.isPrimitive_of_lower`), gives back a tree without
derived nodes as it is (`Expr.lower_of_isPrimitive`), and keeps every such subtree of a tree that it
changes elsewhere (`Expr.mem_nodes_of_lowersTo`).
-/

namespace ExprTree

open Build (Yields)

/-! ### The very same parts -/

theorem pairwise_eq_true_iff {α : Type} {same : α → α → Bool} {as bs : List α} :
    pairwise same as bs = true ↔ List.Forall₂ (fun a b => same a b = true) as bs := by
  induction as generalizing bs with
  | nil => cases bs <;> simp [pairwise]
  | cons a as ih => cases bs <;> simp [pairwise, ih]

theorem Node.sameParts_self (node : Node) : node.sameParts node = true := by
  unfold Node.sameParts
  rw [Bool.and_eq_true, pairwise_eq_true_iff, pairwise_eq_true_iff, List.forall₂_same,
    List.forall₂_same]
  exact ⟨fun e _ => beq_self_eq_true e.id, fun p _ => beq_self_eq_true p.id⟩

theorem exists_of_forall₂_both {α β : Type} {r : α → β → Prop} {s : β → α → Prop} {as : List α}
    {bs : List β} {a : α} (there : List.Forall₂ r as bs) (back : List.Forall₂ s bs as)
    (mem : a ∈ as) : ∃ b, r a b ∧ s b a := by
  induction there with
  | nil => cases mem
  | cons first _ ih =>
      obtain ⟨first', back⟩ := List.forall₂_cons.mp back
      rcases List.mem_cons.mp mem with rfl | mem
      · exact ⟨_, first, first'⟩
      · exact ih back mem

/-- A child of a node with the same parts as another comes from a child with the same identity. -/
theorem Node.exists_of_sameParts {r : Expr → Expr → Prop} {node node' : Node} {c : Expr}
    (related : List.Forall₂ r node.children node'.children) (same : node'.sameParts node = true)
    (child : c ∈ node.children) : ∃ c', r c c' ∧ c'.id = c.id := by
  have ids := pairwise_eq_true_iff.mp (Bool.and_eq_true_iff.mp same).1
  obtain ⟨c', visited, sameId⟩ := exists_of_forall₂_both related ids child
  exact ⟨c', visited, beq_iff_eq.mp sameId⟩

/-- A variable of a node with the same parts as another comes from one with the same identity. -/
theorem Node.exists_parameter_of_sameParts {v : Parameter → Parameter → Prop} {node node' : Node}
    {p : Parameter} (related : List.Forall₂ v node.parameters node'.parameters)
    (same : node'.sameParts node = true) (mem : p ∈ node.parameters) :
    ∃ q, v p q ∧ q.id = p.id := by
  have ids := pairwise_eq_true_iff.mp (Bool.and_eq_true_iff.mp same).2
  obtain ⟨q, renamed, sameId⟩ := exists_of_forall₂_both related ids mem
  exact ⟨q, renamed, beq_iff_eq.mp sameId⟩

/-! ### Trees without derived nodes -/

theorem Expr.IsPrimitive.child {e c : Expr} (primitive : e.IsPrimitive) (child : c ∈ e.children) :
    c.IsPrimitive :=
  (Expr.all_iff.mp primitive).2 c child

/-- Lowering gives back a primitive tree as it is, and uses nothing of the supply. -/
theorem Expr.lower_of_isPrimitive {e : Expr} (primitive : e.IsPrimitive) : e.lower = pure e := by
  induction e using Expr.inductionOnChildren with
  | step e ih =>
      have plain : e.isDerived = false := (Expr.all_iff.mp primitive).1
      have children (c : Expr) (child : c ∈ e.node.children) : c.lower = pure c :=
        ih c child (primitive.child child)
      rw [Expr.lower_eq, plain, if_neg Bool.false_ne_true, Expr.walk, Node.traverse_congr children,
        Node.traverse_pure, pure_bind, if_pos e.node.sameParts_self]

/-- A tree that is older than the supply is lowered to a primitive tree. -/
theorem Expr.yields_isPrimitive {e : Expr} {k : Supply} (older : e.Older k) :
    Yields k Expr.IsPrimitive e.lower := by
  refine (Expr.yields_lower ?_ ?_ ?_ e older).imp fun e' lowered => lowered.1
  · intro d synthetic
    obtain ⟨id, node⟩ := d
    cases node with
    | forLoop | forEach | whileLoop | doWhile | usingBlock => cases synthetic
    | _ => rfl
  · intro d d' plain _ alike
    have kind : d.kind = d'.kind := alike.kind_eq
    rw [Expr.isDerived, ← kind]
    exact plain
  · -- The children have the identities that they had, so none of them is new.
    intro d node plain old related same
    refine Expr.all_iff.mpr ⟨plain, fun c child => ?_⟩
    obtain ⟨c', ⟨primitive, kept | newer⟩, sameId⟩ := Node.exists_of_sameParts related same child
    · exact kept ▸ primitive
    · have older : c.id < k := (Expr.all_iff.mp old).2 c child c c.mem_nodes_self
      rw [sameId] at newer
      exact absurd older (Nat.not_lt.mpr newer)

theorem Expr.isPrimitive_of_lower {e e' : Expr} {k k' : Supply} (older : e.Older k)
    (ok : e.lower k = .ok (e', k')) : e'.IsPrimitive :=
  (Expr.yields_isPrimitive older k e' k' (Nat.le_refl k) ok).2

/-! ### Subtrees that are kept -/

theorem Expr.nodes_subset_of_node {e c : Expr} {node : Node} (made : e.node = node)
    (child : c ∈ node.children) : c.nodes ⊆ e.nodes :=
  Expr.nodes_subset_of_child (made ▸ child : c ∈ e.node.children)

namespace Lowering

variable {ls : LoopLabels}

theorem Stores.nodes_subset {p : Parameter} {value e : Expr} (stores : Stores p value e) :
    value.nodes ⊆ e.nodes := by
  obtain ⟨target, assigns, -⟩ := stores
  exact Expr.nodes_subset_of_node assigns (.tail _ List.mem_cons_self)

theorem LoopLabels.Repeats.nodes_subset {statements : List Expr} {c e : Expr}
    (repeats : ls.Repeats statements e) (mem : c ∈ statements) : c.nodes ⊆ e.nodes := by
  obtain ⟨inner, loops, holds⟩ := repeats
  exact List.Subset.trans (Expr.nodes_subset_of_node holds mem)
    (Expr.nodes_subset_of_node loops List.mem_cons_self)

theorem LoopLabels.Chooses.nodes_subset {test round c e : Expr} (chooses : ls.Chooses test round e)
    (mem : c ∈ [test, round]) : c.nodes ⊆ e.nodes := by
  obtain ⟨leave, choice, -⟩ := chooses
  apply Expr.nodes_subset_of_node choice
  rcases List.mem_cons.mp mem with rfl | mem
  · exact List.mem_cons_self
  · exact .tail _ (List.mem_singleton.mp mem ▸ List.mem_cons_self)

theorem Converts.nodes_subset {value e : Expr} {type : Ty} (converts : Converts value type e) :
    value.nodes ⊆ e.nodes := by
  unfold Converts at converts
  split at converts
  · rw [converts]
    exact List.Subset.refl _
  · exact Expr.nodes_subset_of_node converts List.mem_cons_self

theorem Guards.nodes_subset {cleanup : Option Expr} {looping e : Expr}
    (guards : Guards cleanup looping e) : looping.nodes ⊆ e.nodes := by
  cases cleanup with
  | none =>
      cases guards
      exact List.Subset.refl _
  | some cleanup => exact Expr.nodes_subset_of_node guards List.mem_cons_self

/-- The lowered parts of a `for` are subtrees of what takes its place. -/
theorem ForShape.nodes_subset {counter : Parameter} {start test step body e : Expr}
    (shape : ForShape counter start test step body ls e) :
    ∀ c ∈ [start, test, step, body], c.nodes ⊆ e.nodes := by
  obtain ⟨store, looping, closing, choice, round, place, again, block, stores, repeats, chooses,
    rounds, -, -, -⟩ := shape
  have inLoop : choice.nodes ⊆ e.nodes := by
    apply List.Subset.trans (repeats.nodes_subset List.mem_cons_self)
    exact Expr.nodes_subset_of_node block (by simp [Node.children])
  have inRound : round.nodes ⊆ e.nodes :=
    List.Subset.trans (chooses.nodes_subset (by simp)) inLoop
  simp only [List.forall_mem_cons]
  refine ⟨?_, ?_, ?_, ?_, by simp⟩
  · apply List.Subset.trans stores.nodes_subset
    exact Expr.nodes_subset_of_node block List.mem_cons_self
  · exact List.Subset.trans (chooses.nodes_subset List.mem_cons_self) inLoop
  · apply List.Subset.trans _ inRound
    exact Expr.nodes_subset_of_node rounds (by simp [Node.children])
  · apply List.Subset.trans _ inRound
    exact Expr.nodes_subset_of_node rounds List.mem_cons_self

theorem WhileShape.nodes_subset {test body e : Expr} (shape : WhileShape test body ls e) :
    ∀ c ∈ [test, body], c.nodes ⊆ e.nodes := by
  obtain ⟨looping, closing, choice, round, place, again, block, repeats, chooses, rounds, -, -,
    -⟩ := shape
  have inLoop : choice.nodes ⊆ e.nodes := by
    apply List.Subset.trans (repeats.nodes_subset (by simp))
    exact Expr.nodes_subset_of_node block List.mem_cons_self
  have inRound : round.nodes ⊆ e.nodes :=
    List.Subset.trans (chooses.nodes_subset (by simp)) inLoop
  simp only [List.forall_mem_cons]
  refine ⟨?_, ?_, by simp⟩
  · exact List.Subset.trans (chooses.nodes_subset List.mem_cons_self) inLoop
  · apply List.Subset.trans _ inRound
    exact Expr.nodes_subset_of_node rounds List.mem_cons_self

theorem DoShape.nodes_subset {body test e : Expr} (shape : DoShape body test ls e) :
    ∀ c ∈ [body, test], c.nodes ⊆ e.nodes := by
  obtain ⟨looping, closing, choice, place, again, block, repeats, chooses, -, -, -⟩ := shape
  have inLoop : looping.nodes ⊆ e.nodes := Expr.nodes_subset_of_node block List.mem_cons_self
  simp only [List.forall_mem_cons]
  refine ⟨?_, ?_, by simp⟩
  · exact List.Subset.trans (repeats.nodes_subset List.mem_cons_self) inLoop
  · apply List.Subset.trans (chooses.nodes_subset List.mem_cons_self)
    exact List.Subset.trans (repeats.nodes_subset (by simp)) inLoop

theorem UsingShape.nodes_subset {disposable : Parameter} {resource body e : Expr}
    (shape : UsingShape disposable resource body e) :
    ∀ c ∈ [resource, body], c.nodes ⊆ e.nodes := by
  obtain ⟨store, value, guarded, cleanup, block, stores, converts, guards, -⟩ := shape
  simp only [List.forall_mem_cons]
  refine ⟨?_, ?_, by simp⟩
  · apply List.Subset.trans (Expr.nodes_subset_of_node converts List.mem_cons_self)
    apply List.Subset.trans stores.nodes_subset
    exact Expr.nodes_subset_of_node block List.mem_cons_self
  · apply List.Subset.trans (Expr.nodes_subset_of_node guards List.mem_cons_self)
    exact Expr.nodes_subset_of_node block (.tail _ List.mem_cons_self)

theorem IndexedShape.nodes_subset {array index item : Parameter} {source body e : Expr}
    (shape : IndexedShape array index item source body ls e) :
    ∀ c ∈ [source, body], c.nodes ⊆ e.nodes := by
  obtain ⟨storeArray, storeIndex, zero, looping, closing, choice, test, left, length, operand,
    round, storeItem, value, element, place, next, sum, again, block, storesArray, -, -, repeats,
    chooses, -, -, -, -, rounds, -, -, -, -, -, -, -, -⟩ := shape
  have inLoop : choice.nodes ⊆ e.nodes := by
    apply List.Subset.trans (repeats.nodes_subset List.mem_cons_self)
    exact Expr.nodes_subset_of_node block (by simp [Node.children])
  have inRound : round.nodes ⊆ e.nodes :=
    List.Subset.trans (chooses.nodes_subset (by simp)) inLoop
  simp only [List.forall_mem_cons]
  refine ⟨?_, ?_, by simp⟩
  · apply List.Subset.trans storesArray.nodes_subset
    exact Expr.nodes_subset_of_node block List.mem_cons_self
  · apply List.Subset.trans _ inRound
    exact Expr.nodes_subset_of_node rounds (by simp [Node.children])

theorem EnumeratedShape.nodes_subset {protocol : Protocol} {enumerator item : Parameter}
    {source body e : Expr} (shape : EnumeratedShape protocol enumerator item source body ls e) :
    ∀ c ∈ [source, body], c.nodes ⊆ e.nodes := by
  obtain ⟨cleanup, storeEnumerator, enumeration, receiver, guarded, looping, closing, choice, test,
    round, storeItem, value, current, target, place, again, block, storesEnumerator, enumerates,
    receives, guards, -, repeats, chooses, -, rounds, -, -, -, -, -, -, -⟩ := shape
  have inLoop : choice.nodes ⊆ e.nodes := by
    apply List.Subset.trans (repeats.nodes_subset List.mem_cons_self)
    apply List.Subset.trans guards.nodes_subset
    exact Expr.nodes_subset_of_node block (by simp [Node.children])
  have inRound : round.nodes ⊆ e.nodes :=
    List.Subset.trans (chooses.nodes_subset (by simp)) inLoop
  simp only [List.forall_mem_cons]
  refine ⟨?_, ?_, by simp⟩
  · apply List.Subset.trans receives.nodes_subset
    apply List.Subset.trans (Expr.nodes_subset_of_node enumerates List.mem_cons_self)
    apply List.Subset.trans storesEnumerator.nodes_subset
    exact Expr.nodes_subset_of_node block List.mem_cons_self
  · apply List.Subset.trans _ inRound
    exact Expr.nodes_subset_of_node rounds (by simp [Node.children])

theorem exists_of_pair {a b a' b' c e : Expr} (mem : c ∈ [a, b]) (first : a.LowersTo a')
    (second : b.LowersTo b') (parts : ∀ d ∈ [a', b'], d.nodes ⊆ e.nodes) :
    ∃ c', c.LowersTo c' ∧ c'.nodes ⊆ e.nodes := by
  simp only [List.forall_mem_cons] at parts
  simp only [List.mem_cons, List.not_mem_nil, or_false] at mem
  rcases mem with rfl | rfl
  · exact ⟨_, first, parts.1⟩
  · exact ⟨_, second, parts.2.1⟩

end Lowering

/-- A derived node is reduced around what becomes of its parts. -/
theorem Expr.exists_of_reduce {e e' c : Expr} {k k' : Supply} (derived : e.isDerived = true)
    (ok : e.reduce k = .ok (e', k')) (child : c ∈ e.children) :
    ∃ c', c.LowersTo c' ∧ c'.nodes ⊆ e'.nodes := by
  obtain ⟨id, node⟩ := e
  cases node with
  | forLoop counter start test step body breakTo continueTo =>
      obtain ⟨start', test', step', body', ls, startTo, testTo, stepTo, bodyTo, -, shape⟩ :=
        Lowering.forShape_of_forLoop ok
      have parts := shape.nodes_subset
      simp only [List.forall_mem_cons] at parts
      simp only [Expr.children, Node.children, List.mem_cons, List.not_mem_nil, or_false] at child
      rcases child with rfl | rfl | rfl | rfl
      · exact ⟨_, startTo, parts.1⟩
      · exact ⟨_, testTo, parts.2.1⟩
      · exact ⟨_, stepTo, parts.2.2.1⟩
      · exact ⟨_, bodyTo, parts.2.2.2.1⟩
  | forEach item source body breakTo continueTo =>
      have ok : Lowering.forEach Expr.lower item source body breakTo continueTo k = .ok (e', k') :=
        ok
      have parts : ∃ source' body', source.LowersTo source' ∧ body.LowersTo body' ∧
          ∀ c ∈ [source', body'], c.nodes ⊆ e'.nodes := by
        unfold Lowering.forEach at ok
        split at ok
        · obtain ⟨_, source', body', ls, -, sourceTo, bodyTo, -, shape⟩ :=
            Lowering.indexedShape_of_forEachIndexed ok
          exact ⟨source', body', sourceTo, bodyTo, shape.nodes_subset⟩
        · obtain ⟨_, source', body', ls, -, sourceTo, bodyTo, -, shape⟩ :=
            Lowering.enumeratedShape_of_forEachEnumerated ok
          exact ⟨source', body', sourceTo, bodyTo, shape.nodes_subset⟩
      obtain ⟨source', body', sourceTo, bodyTo, parts⟩ := parts
      exact Lowering.exists_of_pair child sourceTo bodyTo parts
  | whileLoop test body breakTo continueTo =>
      obtain ⟨test', body', ls, testTo, bodyTo, -, shape⟩ := Lowering.whileShape_of_whileLoop ok
      exact Lowering.exists_of_pair child testTo bodyTo shape.nodes_subset
  | doWhile body test breakTo continueTo =>
      obtain ⟨body', test', ls, bodyTo, testTo, -, shape⟩ := Lowering.doShape_of_doWhile ok
      exact Lowering.exists_of_pair child bodyTo testTo shape.nodes_subset
  | usingBlock resource body =>
      obtain ⟨resource', body', resourceTo, bodyTo, shape⟩ := Lowering.usingShape_of_usingBlock ok
      exact Lowering.exists_of_pair child resourceTo bodyTo shape.nodes_subset
  | _ => cases derived

/-- A primitive subtree is a subtree of the lowered tree, the very same one. -/
theorem Expr.mem_nodes_of_lowersTo {e e' c : Expr} (lowers : e.LowersTo e') (mem : c ∈ e.nodes)
    (primitive : c.IsPrimitive) : c ∈ e'.nodes := by
  induction e using Expr.inductionOnChildren generalizing e' with
  | step e ih =>
      rw [Expr.nodes_eq] at mem
      rcases List.mem_cons.mp mem with rfl | mem
      · obtain ⟨k, k', ok⟩ := lowers
        rw [Expr.lower_of_isPrimitive primitive] at ok
        obtain ⟨rfl, -⟩ := Build.pure_eq_ok.mp ok
        exact Expr.mem_nodes_self _
      · obtain ⟨d, child, inside⟩ := List.mem_flatMap.mp mem
        rcases Expr.reduced_or_alike_of_lowersTo lowers with ⟨derived, k, k', ok⟩ | rfl | ⟨-, alike⟩
        · obtain ⟨d', lowers, subset⟩ := Expr.exists_of_reduce derived ok child
          exact subset (ih d child lowers inside)
        · exact Expr.nodes_subset_of_child child inside
        · obtain ⟨d', child', lowers⟩ := exists_of_forall₂_left alike.forall₂_children child
          exact Expr.nodes_subset_of_child child' (ih d child lowers inside)

end ExprTree
