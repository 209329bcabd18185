import ExprTree.Proofs.InStep
import ExprTree.Proofs.Primitive

/-!
Renamed trees.

Renaming the variables of a tree that is built through the checks succeeds, and gives a tree that is
alike (`Expr.inStep_rename`): nodes that are built anew pass the checks that they passed before. A
subtree is kept if it has none of the variables that are renamed.
-/

namespace ExprTree

open Build (InStep)

/-- A variable and what it is renamed to, which are related. -/
structure Renamed (v : Parameter → Parameter → Prop) (rename : Parameter → Parameter)
    (p q : Parameter) : Prop where
  eq : q = rename p
  related : v p q

/-- The variables of a tree are related to what they are renamed to, and a variable that keeps its
identity is kept as it is. -/
def Expr.Renamable (v : Parameter → Parameter → Prop) (rename : Parameter → Parameter)
    (e : Expr) : Prop :=
  e.All fun d => ∀ p ∈ d.node.parameters, v p (rename p) ∧ ((rename p).id = p.id → rename p = p)

theorem Expr.rename_eq (rename : Parameter → Parameter) (e : Expr) :
    e.rename rename = e.walk (Expr.rename rename) fun p => pure (rename p) := by
  refine Expr.recurse_eq (fun f g e agree => ?_) e
  simp only [Expr.walk, Node.traverse_congr agree]

section

variable {v : Parameter → Parameter → Prop} {rename : Parameter → Parameter} {k : Supply}

/-- What renaming makes of a tree. -/
structure RenamesTo (v : Parameter → Parameter → Prop) (rename : Parameter → Parameter)
    (k m : Supply) (e e' : Expr) : Prop where
  alike : e.AlikeBy (Renamed v rename) e'
  older : e'.Older m
  kept : e' = e ∨ k ≤ e'.id

/-- A node that is built anew passes the checks that it passed before. -/
theorem inStep_renewed {e : Expr} {node : Node} {m : Supply}
    (typed : ∀ {p q}, v p q → p.type = q.type) (built : e.IsBuilt)
    (alike : ∀ n, m ≤ n → e.node.Alike (RenamesTo v rename k n) (Renamed v rename) node) :
    InStep (fun _ m => k ≤ m) (fun n a b => m ≤ n → RenamesTo v rename k n a b) (pure e)
      node.renewed := by
  have types {p q : Parameter} (renamed : Renamed v rename p q) : p.type = q.type :=
    typed renamed.related
  have same : node.check = e.node.check :=
    ((alike m (Nat.le_refl m)).check_eq
      (fun _ _ renamed => ⟨renamed.alike.type_eq fun _ _ => types, renamed.alike.kind_eq⟩)
      fun _ _ => types).symm
  have kind : e.kind = node.kind := (alike m (Nat.le_refl m)).kind_eq
  intro k' m' reached
  have made : node.renewed m' = .ok (⟨m', node⟩, m' + 1) := by
    unfold Node.renewed
    split
    · next derived =>
        refine Build.checked_eq_ok.mpr ⟨?_, rfl, rfl, rfl⟩
        rcases built with passed | ⟨op, unary⟩
        · exact same.trans passed
        · rw [← kind, unary] at derived
          cases derived
    · rfl
  rw [made]
  refine .ok (Nat.le_succ_of_le reached) (Nat.le_succ m') fun n left later => ⟨?_, ?_, .inr reached⟩
  · exact Expr.alike_iff.mpr
      ((alike n later).imp (fun _ _ _ renamed => renamed.alike) fun _ _ _ h => h)
  · refine Expr.all_iff.mpr ⟨left, fun c' child => ?_⟩
    obtain ⟨c, -, renamed⟩ := exists_of_forall₂_right (alike n later).forall₂_children child
    exact renamed.older

/-- A node whose parts come back as they were is like itself. -/
theorem Expr.alike_self_of_sameParts {e : Expr} {node : Node} {n : Supply} (older : e.Older k)
    (renamable : e.Renamable v rename)
    (alike : e.node.Alike (RenamesTo v rename k n) (Renamed v rename) node)
    (same : node.sameParts e.node = true) : e.AlikeBy (Renamed v rename) e := by
  refine Expr.alike_iff.mpr (Node.alike_of_mem (fun c child => ?_) fun p mem => ?_)
  · obtain ⟨c', renamed, sameId⟩ := Node.exists_of_sameParts alike.forall₂_children same child
    rcases renamed.kept with rfl | newer
    · exact renamed.alike
    · have old : c.id < k := (Expr.all_iff.mp older).2 c child c c.mem_nodes_self
      exact absurd old (sameId ▸ Nat.not_lt.mpr newer)
  · obtain ⟨q, ⟨rfl, -⟩, sameId⟩ :=
      Node.exists_parameter_of_sameParts alike.forall₂_parameters same mem
    obtain ⟨related, kept⟩ := renamable e e.mem_nodes_self p mem
    rw [kept sameId] at related
    exact ⟨(kept sameId).symm, related⟩

/-- A tree that is built through the checks is renamed to one that is alike. -/
theorem Expr.inStep_rename {e : Expr} (typed : ∀ {p q}, v p q → p.type = q.type)
    (built : e.All Expr.IsBuilt) (older : e.Older k) (renamable : e.Renamable v rename) :
    InStep (fun _ m => k ≤ m) (RenamesTo v rename k) (pure e) (e.rename rename) := by
  induction e using Expr.inductionOnChildren with
  | step e ih =>
      have traversed : InStep (fun _ m => k ≤ m)
          (fun n => Node.Alike (RenamesTo v rename k n) (Renamed v rename)) (pure e.node)
          (e.node.traverse (Expr.rename rename) fun p => pure (rename p)) := by
        rw [← Node.traverse_pure]
        refine Node.inStep_traverse (.refl e.node) ?_ ?_
        · rintro c child _ rfl
          exact ih c child ((Expr.all_iff.mp built).2 c child) ((Expr.all_iff.mp older).2 c child)
            ((Expr.all_iff.mp renamable).2 c child)
        · rintro p mem _ rfl
          exact .pure fun _ => ⟨rfl, (renamable e e.mem_nodes_self p mem).1⟩
      rw [Expr.rename_eq, ← pure_bind e.node fun _ => (pure e : Build Expr)]
      refine traversed.visited.bind fun m node node' visited => ?_
      have left : node = e.node := by
        obtain ⟨-, _, _, _, _, -, ok, -⟩ := visited m (Nat.le_refl m)
        exact (Build.pure_eq_ok.mp ok).1
      subst left
      split
      · next same =>
          refine .given fun _ m' n reached left later => ?_
          exact ⟨Expr.alike_self_of_sameParts older renamable (visited n later).1 same,
            older.mono (Nat.le_trans reached left), .inl rfl⟩
      · exact inStep_renewed typed (built e e.mem_nodes_self) fun n later => (visited n later).1

/-- A tree that is built through the checks can be renamed, and is alike then. -/
theorem Expr.exists_rename {e : Expr} {m : Supply} (typed : ∀ {p q}, v p q → p.type = q.type)
    (built : e.All Expr.IsBuilt) (older : e.Older k) (renamable : e.Renamable v rename)
    (reached : k ≤ m) :
    ∃ e' m', e.rename rename m = .ok (e', m') ∧ m ≤ m' ∧ e.AlikeBy v e' ∧ e'.Older m' := by
  have renamed := Expr.inStep_rename typed built older renamable m m reached
  generalize ok : e.rename rename m = r at renamed
  cases renamed with
  | @ok _ e' _ m' _ le given =>
      have renamed := given m' (Nat.le_refl m')
      exact ⟨e', m', rfl, le, renamed.alike.imp fun _ _ => Renamed.related, renamed.older⟩

end

end ExprTree
