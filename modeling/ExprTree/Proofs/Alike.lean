import ExprTree.Proofs.Acceptance

/-!
Trees that are alike.

Two trees are alike when they have the same nodes with the same data in the same places, except that
they may differ in the identities of nodes and in variables. Which variables correspond is given.
Trees that are alike have the same static type, if variables that correspond have the same type.
-/

namespace ExprTree

/-- Trees that are alike, given which variables correspond. -/
def Expr.AlikeBy (v : Parameter → Parameter → Prop) : Expr → Expr → Prop :=
  Expr.recurse (fun _ _ => False) fun alike e e' => e.node.Alike alike v e'.node

section

variable {v v' : Parameter → Parameter → Prop} {e e' : Expr}

theorem Expr.alike_iff : e.AlikeBy v e' ↔ e.node.Alike (Expr.AlikeBy v) v e'.node := by
  have asks : Expr.AsksChildren (α := Expr → Prop) fun alike e e' =>
      e.node.Alike alike v e'.node := by
    intro f g e same
    funext e'
    refine propext
      ⟨fun alike => alike.imp ?_ fun _ _ _ h => h, fun alike => alike.imp ?_ fun _ _ _ h => h⟩
    · exact fun c child c' h => same c child ▸ h
    · exact fun c child c' h => same c child ▸ h
  exact iff_of_eq (congrFun (Expr.recurse_eq asks e) e')

/-- Trees stay alike when more variables are taken to correspond. -/
theorem Expr.AlikeBy.imp (alike : e.AlikeBy v e') (locals : ∀ p q, v p q → v' p q) :
    e.AlikeBy v' e' := by
  induction e using Expr.inductionOnChildren generalizing e' with
  | step e ih =>
      refine Expr.alike_iff.mpr ((Expr.alike_iff.mp alike).imp ?_ fun p _ => locals p)
      exact fun c child c' alike => ih c child alike

theorem Expr.AlikeBy.kind_eq (alike : e.AlikeBy v e') : e.kind = e'.kind :=
  (Expr.alike_iff.mp alike).kind_eq

theorem Expr.AlikeBy.type_eq (alike : e.AlikeBy v e') (locals : ∀ p q, v p q → p.type = q.type) :
    e.type = e'.type := by
  induction e using Expr.inductionOnChildren generalizing e' with
  | step e ih =>
      rw [Expr.type_of_node rfl, Expr.type_of_node rfl]
      refine (Expr.alike_iff.mp alike).type_eq (fun c child c' alike => ?_) locals
      exact ih c child alike

/-- The nodes of trees that are alike are alike. -/
theorem Expr.AlikeBy.exists_of_mem_nodes {d' : Expr} (alike : e.AlikeBy v e')
    (mem : d' ∈ e'.nodes) : ∃ d ∈ e.nodes, d.AlikeBy v d' := by
  induction e using Expr.inductionOnChildren generalizing e' with
  | step e ih =>
      rw [Expr.nodes_eq] at mem
      rcases List.mem_cons.mp mem with rfl | mem
      · exact ⟨e, e.mem_nodes_self, alike⟩
      · obtain ⟨c', child', mem⟩ := List.mem_flatMap.mp mem
        obtain ⟨c, child, alike⟩ :=
          exists_of_forall₂_right (Expr.alike_iff.mp alike).forall₂_children child'
        obtain ⟨d, inside, alike⟩ := ih c child alike mem
        exact ⟨d, Expr.nodes_subset_of_child child inside, alike⟩

/-- The variables of trees that are alike correspond. -/
theorem Expr.AlikeBy.exists_of_mem_parameters {d' : Expr} {q : Parameter} (alike : e.AlikeBy v e')
    (mem : d' ∈ e'.nodes) (inside : q ∈ d'.node.parameters) :
    ∃ d ∈ e.nodes, ∃ p ∈ d.node.parameters, v p q := by
  obtain ⟨d, mem, alike⟩ := alike.exists_of_mem_nodes mem
  obtain ⟨p, inside, related⟩ :=
    exists_of_forall₂_right (Expr.alike_iff.mp alike).forall₂_parameters inside
  exact ⟨d, mem, p, inside, related⟩

theorem Expr.AlikeBy.isPrimitive_iff (alike : e.AlikeBy v e') :
    e.IsPrimitive ↔ e'.IsPrimitive := by
  induction e using Expr.inductionOnChildren generalizing e' with
  | step e ih =>
      have children := (Expr.alike_iff.mp alike).forall₂_children
      have derived : e.isDerived = e'.isDerived := congrArg Kind.isDerived alike.kind_eq
      unfold Expr.IsPrimitive
      rw [Expr.all_iff, Expr.all_iff, derived]
      refine and_congr_right fun _ => ⟨fun below c' child' => ?_, fun below c child => ?_⟩
      · obtain ⟨c, child, alike⟩ := exists_of_forall₂_right children child'
        exact (ih c child alike).mp (below c child)
      · obtain ⟨c', child', alike⟩ := exists_of_forall₂_left children child
        exact (ih c child alike).mpr (below c' child')

end

theorem Expr.alike_self {v : Parameter → Parameter → Prop} {e : Expr}
    (locals : e.All fun d => ∀ p ∈ d.node.parameters, v p p) : e.AlikeBy v e := by
  induction e using Expr.inductionOnChildren with
  | step e ih =>
      obtain ⟨root, below⟩ := Expr.all_iff.mp locals
      exact Expr.alike_iff.mpr (Node.alike_of_mem (fun c child => ih c child (below c child)) root)

end ExprTree
