import ExprTree.Proofs.Alike

/-!
Building in step.

Two buildings are in step if both report the same error or both give something, and what they give
is related. Which supplies they may start from is given, and they end with such supplies again.
Traversals of nodes that are alike are in step if their visitors are (`Node.inStep_traverse`).
-/

namespace ExprTree

namespace Build

variable {α β γ δ : Type}

/-- Results of two buildings that are in step, the second of which started from the supply `m`. -/
inductive Pair (S : Supply → Supply → Prop) (m : Supply) (Q : Supply → α → β → Prop) :
    Except BuildError (α × Supply) → Except BuildError (β × Supply) → Prop
  | error {e : BuildError} : Pair S m Q (.error e) (.error e)
  | ok {a : α} {b : β} {k' m' : Supply} (supplies : S k' m') (le : m ≤ m')
      (given : ∀ n, m' ≤ n → Q n a b) : Pair S m Q (.ok (a, k')) (.ok (b, m'))

/-- Two buildings that are in step. What they give is related with regard to the supply that is
left, and to any later one. -/
def InStep (S : Supply → Supply → Prop) (Q : Supply → α → β → Prop) (x : Build α) (y : Build β) :
    Prop :=
  ∀ k m, S k m → Pair S m Q (x k) (y m)

namespace InStep

variable {S : Supply → Supply → Prop} {Q P : Supply → α → β → Prop} {R : Supply → γ → δ → Prop}
  {x : Build α} {y : Build β}

/-- What is there already, with regard to the supplies that it is given at. -/
theorem given {a : α} {b : β} (related : ∀ k m n, S k m → m ≤ n → Q n a b) :
    InStep S Q (pure a : Build α) (pure b : Build β) :=
  fun k m supplies => .ok supplies (Nat.le_refl m) fun n => related k m n supplies

theorem pure {a : α} {b : β} (related : ∀ n, Q n a b) :
    InStep S Q (pure a : Build α) (pure b : Build β) :=
  .given fun _ _ n _ _ => related n

/-- One step after another. What is known of the first holds wherever the second ends. -/
theorem bind {f : α → Build γ} {g : β → Build δ} (first : InStep S Q x y)
    (rest : ∀ m a b, (∀ n, m ≤ n → Q n a b) →
      InStep S (fun n c d => m ≤ n → R n c d) (f a) (g b)) :
    InStep S R (x >>= f) (y >>= g) := by
  intro k m supplies
  have ended := first k m supplies
  show Pair S m R ((x k).bind fun r => f r.1 r.2) ((y m).bind fun r => g r.1 r.2)
  generalize x k = r, y m = r' at ended
  cases ended with
  | error => exact .error
  | @ok a b k' m' supplies le given =>
      have last := rest m' a b given k' m' supplies
      simp only [Except.bind]
      generalize f a k' = r, g b m' = r' at last
      cases last with
      | error => exact .error
      | ok supplies le' given =>
          exact .ok supplies (Nat.le_trans le le') fun n le => given n le (Nat.le_trans le' le)

theorem imp (first : InStep S P x y) (weaker : ∀ n a b, P n a b → Q n a b) : InStep S Q x y := by
  intro k m supplies
  have ended := first k m supplies
  generalize x k = r, y m = r' at ended
  cases ended with
  | error => exact .error
  | ok supplies le given => exact .ok supplies le fun n le => weaker n _ _ (given n le)

theorem visited {x : Build α} {y : Build β} (first : InStep S Q x y) :
    InStep S (fun n a b => Q n a b ∧
      ∃ k m k' m', S k m ∧ x k = .ok (a, k') ∧ y m = .ok (b, m')) x y := by
  intro k m supplies
  have ended := first k m supplies
  generalize left : x k = r, right : y m = r' at ended
  cases ended with
  | error => exact .error
  | @ok a b k' m' later le given =>
      exact .ok later le fun n le => ⟨given n le, k, m, k', m', supplies, left, right⟩

/-- To go on with what does not depend on supplies. -/
theorem andThen {Q : α → β → Prop} {f : α → Build γ} {g : β → Build δ}
    (first : InStep S (fun _ => Q) x y) (rest : ∀ a b, Q a b → InStep S R (f a) (g b)) :
    InStep S R (x >>= f) (y >>= g) :=
  first.bind fun m a b given => (rest a b (given m (Nat.le_refl m))).imp fun _ _ _ given _ => given

/-- What is known at each later supply is known at all of them. -/
theorem of_forall (each : ∀ l, InStep S (fun n a b => n = l → Q l a b) x y) : InStep S Q x y := by
  intro k m supplies
  have ended (l : Supply) := each l k m supplies
  generalize x k = r, y m = r' at ended
  cases ended m with
  | error => exact .error
  | ok supplies le =>
      refine .ok supplies le fun n later => ?_
      cases ended n with
      | ok _ _ given => exact given n later rfl

/-- Traversals respect being in step, with regard to what is known at one later supply. -/
theorem traversalRules (S : Supply → Supply → Prop) (l : Supply) :
    TraversalRules fun α β Q (x : Build α) (y : Build β) =>
      InStep S (fun n a b => n = l → Q a b) x y where
  pure given := .pure fun _ _ => given
  bind first rest := first.bind fun _ a b given =>
    (rest a b).imp fun n _ _ holds le same => holds same (given n le same)

end InStep

end Build

open Build (InStep)

/-- Traversals of nodes that are alike are in step, and what they give is alike again. -/
theorem Node.inStep_traverse {S : Supply → Supply → Prop} {q : Expr → Expr → Prop}
    {w : Parameter → Parameter → Prop} {r : Supply → Expr → Expr → Prop}
    {v : Parameter → Parameter → Prop} {visit visit' : Expr → Build Expr}
    {rename rename' : Parameter → Build Parameter} {n n' : Node} (alike : n.Alike q w n')
    (each : ∀ c ∈ n.children, ∀ c', q c c' → InStep S r (visit c) (visit' c'))
    (locals : ∀ p ∈ n.parameters, ∀ p', w p p' →
      InStep S (fun _ => v) (rename p) (rename' p')) :
    InStep S (fun m => Node.Alike (r m) v) (n.traverse visit rename)
      (n'.traverse visit' rename') := by
  refine InStep.of_forall fun l => (InStep.traversalRules S l).traverse alike ?_ ?_
  · intro c child c' related
    exact (each c child c' related).imp fun n _ _ given same => same ▸ given
  · intro p mem p' related
    exact (locals p mem p' related).imp fun _ _ _ given _ => given

end ExprTree
