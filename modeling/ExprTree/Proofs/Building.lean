import ExprTree.Build.Node

/-!
Laws of building.

Each law says exactly when a step of a building succeeds, with which result and with how much of
the supply used. A whole building is taken apart with them, one step at a time. `Build.Yields` is
for what holds of a result whatever the steps are, `Build.Decides` for when there is one.
-/

namespace ExprTree

namespace Build

variable {α β : Type} {k k' : Supply}

/-! ### Steps -/

theorem bind_eq_ok {x : Build α} {f : α → Build β} {r : β × Supply} :
    (x >>= f) k = .ok r ↔ ∃ a m, x k = .ok (a, m) ∧ f a m = .ok r := by
  change (StateT.bind x f) k = _ ↔ _
  simp only [StateT.bind]
  cases h : x k with
  | error e =>
      constructor
      · intro failed
        cases failed
      · rintro ⟨_, _, ok, _⟩
        cases ok
  | ok p =>
      obtain ⟨a, m⟩ := p
      constructor
      · intro rest
        exact ⟨a, m, rfl, rest⟩
      · rintro ⟨_, _, ok, rest⟩
        cases ok
        exact rest

theorem pure_eq_ok {a b : α} : (pure a : Build α) k = .ok (b, k') ↔ b = a ∧ k' = k := by
  change Except.ok (a, k) = _ ↔ _
  simp only [Except.ok.injEq, Prod.mk.injEq]
  exact ⟨fun ⟨ha, hk⟩ => ⟨ha.symm, hk.symm⟩, fun ⟨ha, hk⟩ => ⟨ha.symm, hk.symm⟩⟩

/-- A check that is lifted to a building uses nothing of the supply. -/
theorem lift_eq_ok {x : Except BuildError α} {a : α} :
    (liftM x : Build α) k = .ok (a, k') ↔ x = .ok a ∧ k' = k := by
  change (x >>= fun a => Except.ok (a, k)) = _ ↔ _
  cases x with
  | error e =>
      constructor
      · intro failed
        cases failed
      · rintro ⟨failed, _⟩
        cases failed
  | ok b =>
      change Except.ok (b, k) = _ ↔ _
      simp only [Except.ok.injEq, Prod.mk.injEq]
      exact ⟨fun ⟨ha, hk⟩ => ⟨ha, hk.symm⟩, fun ⟨ha, hk⟩ => ⟨ha, hk.symm⟩⟩

/-! ### Parameters, labels and nodes -/

theorem fresh_eq_ok {i : Identity} : fresh k = .ok (i, k') ↔ i = k ∧ k' = k + 1 := by
  simp only [fresh, Except.ok.injEq, Prod.mk.injEq]
  exact ⟨fun ⟨hi, hk⟩ => ⟨hi.symm, hk.symm⟩, fun ⟨hi, hk⟩ => ⟨hi.symm, hk.symm⟩⟩

/-- What is made of one new identity. -/
theorem fresh_bind_eq_ok {f : Identity → α} {a : α} :
    (fresh >>= fun i => pure (f i)) k = .ok (a, k') ↔ a = f k ∧ k' = k + 1 := by
  simp only [bind_eq_ok, fresh_eq_ok, pure_eq_ok]
  constructor
  · rintro ⟨i, m, ⟨rfl, rfl⟩, rfl, rfl⟩
    exact ⟨rfl, rfl⟩
  · rintro ⟨rfl, rfl⟩
    exact ⟨_, _, ⟨rfl, rfl⟩, rfl, rfl⟩

theorem parameter_eq_ok {type : Ty} {name : Option String} {p : Parameter} :
    parameter type name k = .ok (p, k') ↔ p = ⟨k, name, type⟩ ∧ k' = k + 1 :=
  fresh_bind_eq_ok

theorem label_eq_ok {type : Ty} {name : Option String} {l : Label} :
    label type name k = .ok (l, k') ↔ l = ⟨k, name, type⟩ ∧ k' = k + 1 :=
  fresh_bind_eq_ok

/-- A new node has the next identity. -/
theorem unchecked_eq_ok {node : Node} {e : Expr} :
    unchecked node k = .ok (e, k') ↔ e.node = node ∧ e.id = k ∧ k' = k + 1 := by
  refine fresh_bind_eq_ok.trans ?_
  obtain ⟨id, node'⟩ := e
  simp only [Expr.mk.injEq]
  constructor
  · rintro ⟨⟨hid, hnode⟩, hk⟩
    exact ⟨hnode, hid, hk⟩
  · rintro ⟨hnode, hid, hk⟩
    exact ⟨⟨hid, hnode⟩, hk⟩

theorem checked_eq_ok {node : Node} {e : Expr} :
    checked node k = .ok (e, k') ↔
      node.check = .ok () ∧ e.node = node ∧ e.id = k ∧ k' = k + 1 := by
  simp only [checked, bind_eq_ok, lift_eq_ok, unchecked_eq_ok]
  constructor
  · rintro ⟨_, _, ⟨ok, rfl⟩, made⟩
    exact ⟨ok, made⟩
  · rintro ⟨ok, made⟩
    exact ⟨(), k, ⟨ok, rfl⟩, made⟩

theorem node_of_unchecked {node : Node} {e : Expr} (ok : unchecked node k = .ok (e, k')) :
    e.node = node :=
  (unchecked_eq_ok.mp ok).1

theorem node_of_checked {node : Node} {e : Expr} (ok : checked node k = .ok (e, k')) :
    e.node = node :=
  (checked_eq_ok.mp ok).2.1

/-! ### What a building yields -/

/-- With a supply that has reached an identity, the building gives what has the property, and it
does not go back behind that identity. -/
def Yields (k : Supply) (Q : α → Prop) (b : Build α) : Prop :=
  ∀ m a m', k ≤ m → b m = .ok (a, m') → k ≤ m' ∧ Q a

variable {Q : α → Prop} {R : β → Prop}

theorem Yields.pure {a : α} (given : Q a) : Yields k Q (pure a : Build α) := by
  intro m a' m' le ok
  obtain ⟨rfl, rfl⟩ := pure_eq_ok.mp ok
  exact ⟨le, given⟩

theorem Yields.bind {x : Build α} {f : α → Build β} (first : Yields k Q x)
    (rest : ∀ a, Q a → Yields k R (f a)) : Yields k R (x >>= f) := by
  intro m b m' le ok
  obtain ⟨a, n, ok, ok'⟩ := bind_eq_ok.mp ok
  obtain ⟨le, given⟩ := first m a n le ok
  exact rest a given n b m' le ok'

/-- To take a building apart, and keep track of the supply. -/
theorem Yields.of_bind {x : Build α} {f : α → Build β} {m m' : Supply} {b : β}
    (first : Yields k Q x) (reached : k ≤ m) (ok : (x >>= f) m = .ok (b, m')) :
    ∃ a n, x m = .ok (a, n) ∧ k ≤ n ∧ f a n = .ok (b, m') := by
  obtain ⟨a, n, ok, ok'⟩ := bind_eq_ok.mp ok
  exact ⟨a, n, ok, (first m a n reached ok).1, ok'⟩

theorem Yields.imp {P : α → Prop} {x : Build α} (first : Yields k P x)
    (weaker : ∀ a, P a → Q a) : Yields k Q x := by
  intro m a m' le ok
  obtain ⟨le, given⟩ := first m a m' le ok
  exact ⟨le, weaker a given⟩

theorem Yields.lift (x : Except BuildError α) : Yields k (fun _ => True) (liftM x : Build α) := by
  intro m a m' le ok
  obtain ⟨-, rfl⟩ := lift_eq_ok.mp ok
  exact ⟨le, ⟨⟩⟩

theorem Yields.label (type : Ty) (name : Option String) :
    Yields k (fun _ => True) (label type name) := by
  intro m l m' le ok
  obtain ⟨-, rfl⟩ := label_eq_ok.mp ok
  exact ⟨Nat.le_succ_of_le le, ⟨⟩⟩

/-- A new variable has an identity of the supply. -/
theorem Yields.parameter (type : Ty) (name : Option String) :
    Yields k (fun p => k ≤ p.id) (parameter type name) := by
  intro m p m' le ok
  obtain ⟨rfl, rfl⟩ := parameter_eq_ok.mp ok
  exact ⟨Nat.le_succ_of_le le, le⟩

/-- A new node has an identity of the supply. -/
theorem Yields.unchecked (node : Node) :
    Yields k (fun e => e.node = node ∧ k ≤ e.id) (unchecked node) := by
  intro m e m' le ok
  obtain ⟨made, rfl, rfl⟩ := unchecked_eq_ok.mp ok
  exact ⟨Nat.le_succ_of_le le, made, le⟩

theorem Yields.checked (node : Node) :
    Yields k (fun e => e.node = node ∧ k ≤ e.id) (checked node) :=
  (Yields.lift _).bind fun _ _ => .unchecked node

theorem Yields.visited {x : Build α} (first : Yields k Q x) :
    Yields k (fun a => Q a ∧ ∃ m m', x m = .ok (a, m')) x := by
  intro m a m' le ok
  obtain ⟨le', given⟩ := first m a m' le ok
  exact ⟨le', given, m, m', ok⟩

/-- What may come of a building, whatever the supply. -/
theorem yields_zero (x : Build α) : Yields 0 (fun a => ∃ m m', x m = .ok (a, m')) x :=
  fun m _ m' _ ok => ⟨Nat.zero_le m', m, m', ok⟩

/-! ### When a building succeeds -/

/-- The building succeeds, whatever the supply. -/
def Total (b : Build α) : Prop := ∀ k, ∃ r, b k = .ok r

theorem Total.pure (a : α) : Total (pure a : Build α) := fun k => ⟨(a, k), rfl⟩

theorem Total.bind {x : Build α} {f : α → Build β} (first : Total x) (rest : ∀ a, Total (f a)) :
    Total (x >>= f) := by
  intro k
  obtain ⟨⟨a, m⟩, ok⟩ := first k
  obtain ⟨r, ok'⟩ := rest a m
  exact ⟨r, bind_eq_ok.mpr ⟨a, m, ok, ok'⟩⟩

/-- The building succeeds exactly under the condition, and then gives what has the property. -/
structure Decides (c : Prop) (Q : α → Prop) (b : Build α) : Prop where
  total : c → Total b
  sound : ∀ k a k', b k = .ok (a, k') → c ∧ Q a

variable {c d : Prop}

theorem Decides.pure {a : α} (given : Q a) : Decides True Q (pure a : Build α) where
  total _ := .pure a
  sound k a' k' ok := by
    obtain ⟨rfl, -⟩ := pure_eq_ok.mp ok
    exact ⟨trivial, given⟩

/-- Two steps succeed when both do. The condition of the second may not depend on what the first one
gives, only on what is known of it. -/
theorem Decides.bind {x : Build α} {f : α → Build β} (first : Decides c Q x)
    (rest : ∀ a, Q a → Decides d R (f a)) : Decides (c ∧ d) R (x >>= f) where
  total both k := by
    obtain ⟨⟨a, m⟩, ok⟩ := first.total both.1 k
    obtain ⟨r, ok'⟩ := (rest a (first.sound k a m ok).2).total both.2 m
    exact ⟨r, bind_eq_ok.mpr ⟨a, m, ok, ok'⟩⟩
  sound k b k' ok := by
    obtain ⟨a, m, ok, ok'⟩ := bind_eq_ok.mp ok
    obtain ⟨holds, given⟩ := first.sound k a m ok
    obtain ⟨holds', given'⟩ := (rest a given).sound m b k' ok'
    exact ⟨⟨holds, holds'⟩, given'⟩

theorem Decides.imp {P : α → Prop} {x : Build α} (first : Decides c P x) (same : c ↔ d)
    (weaker : ∀ a, P a → Q a) : Decides d Q x where
  total holds := first.total (same.mpr holds)
  sound k a k' ok := by
    obtain ⟨holds, given⟩ := first.sound k a k' ok
    exact ⟨same.mp holds, weaker a given⟩

/-- A first step that always succeeds adds nothing to the condition. -/
theorem Decides.step {x : Build α} {f : α → Build β} (first : Decides True Q x)
    (rest : ∀ a, Q a → Decides d R (f a)) : Decides d R (x >>= f) :=
  (first.bind rest).imp (iff_of_eq (true_and d)) fun _ given => given

/-- Later steps that always succeed add nothing to the condition. -/
theorem Decides.andThen {x : Build α} {f : α → Build β} (first : Decides c Q x)
    (rest : ∀ a, Q a → Decides True R (f a)) : Decides c R (x >>= f) :=
  (first.bind rest).imp (iff_of_eq (and_true c)) fun _ given => given

theorem Decides.visited {x : Build α} (first : Decides c Q x) :
    Decides c (fun a => Q a ∧ ∃ m m', x m = .ok (a, m')) x where
  total := first.total
  sound k a k' ok := by
    obtain ⟨holds, given⟩ := first.sound k a k' ok
    exact ⟨holds, given, k, k', ok⟩

theorem Decides.label (type : Ty) (name : Option String) :
    Decides True (fun l => l.type = type) (label type name) where
  total _ k := ⟨_, label_eq_ok.mpr ⟨rfl, rfl⟩⟩
  sound k l k' ok := by
    obtain ⟨rfl, -⟩ := label_eq_ok.mp ok
    exact ⟨trivial, rfl⟩

theorem Decides.parameter (type : Ty) (name : Option String) :
    Decides True (fun p => p.type = type) (parameter type name) where
  total _ k := ⟨_, parameter_eq_ok.mpr ⟨rfl, rfl⟩⟩
  sound k p k' ok := by
    obtain ⟨rfl, -⟩ := parameter_eq_ok.mp ok
    exact ⟨trivial, rfl⟩

theorem Decides.unchecked (node : Node) :
    Decides True (fun e => e.node = node) (unchecked node) where
  total _ k := ⟨(⟨k, node⟩, k + 1), unchecked_eq_ok.mpr ⟨rfl, rfl, rfl⟩⟩
  sound _ _ _ ok := ⟨trivial, node_of_unchecked ok⟩

/-- A node is built exactly when its parts pass the checks. -/
theorem Decides.checked (node : Node) :
    Decides (node.check = .ok ()) (fun e => e.node = node) (checked node) where
  total ok k := ⟨(⟨k, node⟩, k + 1), checked_eq_ok.mpr ⟨ok, rfl, rfl, rfl⟩⟩
  sound _ _ _ ok := ⟨(checked_eq_ok.mp ok).1, node_of_checked ok⟩

end Build

end ExprTree
