import ExprTree.Proofs.Lowered
import ExprTree.Proofs.LoweringRules

/-!
The nodes of lowered trees.

What lowering gives is made of new nodes around lowered parts, of nodes that are built anew around
lowered children, and of nodes that it keeps. So a property of nodes that holds of these three holds
of all nodes of a lowered tree (`Expr.yields_lower`).

The property of most interest is not to be derived: lowering leaves no derived node behind, and what
contains none comes back as it is. A node is kept when its children come back with the same
identities. That they are then the same children depends on the supply: its identities must be newer
than those of the tree (`Expr.Older`).
-/

namespace ExprTree

open Build (Yields)

/-! ### Nodes of a tree -/

/-- The nodes of a tree, the root first. -/
def Expr.nodes : Expr → List Expr :=
  Expr.recurse (fun _ => []) fun nodes e => e :: e.children.flatMap nodes

theorem Expr.nodes_eq (e : Expr) : e.nodes = e :: e.children.flatMap Expr.nodes := by
  refine Expr.recurse_eq (fun f g e agree => ?_) e
  rw [List.flatMap_congr agree]

theorem Expr.mem_nodes_self (e : Expr) : e ∈ e.nodes := by
  rw [Expr.nodes_eq]
  exact List.mem_cons_self

theorem Expr.nodes_subset_of_child {e c : Expr} (child : c ∈ e.children) : c.nodes ⊆ e.nodes := by
  intro d mem
  rw [Expr.nodes_eq e]
  exact .tail _ (List.mem_flatMap.mpr ⟨c, child, mem⟩)

/-- Every node of the tree has the property. -/
def Expr.All (p : Expr → Prop) (e : Expr) : Prop := ∀ d ∈ e.nodes, p d

instance {p : Expr → Prop} [DecidablePred p] (e : Expr) : Decidable (e.All p) :=
  inferInstanceAs (Decidable (∀ d ∈ e.nodes, p d))

theorem Expr.all_iff {p : Expr → Prop} {e : Expr} :
    e.All p ↔ p e ∧ ∀ c ∈ e.children, c.All p := by
  unfold Expr.All
  rw [Expr.nodes_eq, List.forall_mem_cons]
  constructor
  · rintro ⟨root, below⟩
    exact ⟨root, fun c child d mem => below d (List.mem_flatMap.mpr ⟨c, child, mem⟩)⟩
  · rintro ⟨root, below⟩
    refine ⟨root, fun d mem => ?_⟩
    obtain ⟨c, child, mem⟩ := List.mem_flatMap.mp mem
    exact below c child d mem

/-- All identities of nodes are older than the given one. -/
def Expr.Older (k : Supply) (e : Expr) : Prop := e.All fun d => d.id < k

/-- There is no derived node. -/
def Expr.IsPrimitive (e : Expr) : Prop := e.All fun d => d.isDerived = false

instance (k : Supply) (e : Expr) : Decidable (e.Older k) :=
  inferInstanceAs (Decidable (e.All fun d => d.id < k))

instance (e : Expr) : Decidable e.IsPrimitive :=
  inferInstanceAs (Decidable (e.All fun d => d.isDerived = false))

theorem Expr.Older.mono {k m : Supply} {e : Expr} (older : e.Older k) (le : k ≤ m) : e.Older m :=
  fun d mem => Nat.lt_of_lt_of_le (older d mem) le

/-! ### Nodes that lowering adds -/

namespace Lowering

variable {k : Supply} {p : Expr → Prop} {lower : Expr → Build Expr}
  (new : ∀ e : Expr, e.node.isSynthetic = true → p e)

include new

theorem all_of_synthetic {e : Expr} {n n' : Node} {q : Expr → Expr → Prop}
    {v : Parameter → Parameter → Prop} (synthetic : n.isSynthetic = true)
    (alike : n.Alike (fun c c' => c.All p ∧ q c c') v n') (made : e.node = n) : e.All p := by
  subst made
  refine Expr.all_iff.mpr ⟨new e synthetic, fun c child => ?_⟩
  obtain ⟨_, -, all, -⟩ := exists_of_forall₂_left alike.forall₂_children child
  exact all

/-- New nodes have a property that synthetic nodes have, and identities of the supply. -/
theorem yieldsRules (k : Supply) :
    LoweringRules (fun _ Q x _ => Yields k (fun a => ∃ b, Q a b) x)
      (fun e e' => e.All p ∧ e.type = e'.type)
      (fun e e' => (e.All p ∧ e.type = e'.type) ∧ k ≤ e.id) (fun p q => p.type = q.type) where
  pure given := .pure ⟨_, given⟩
  bind first rest := first.bind fun a ⟨b, given⟩ => rest a b given
  label _ _ := (Yields.label _ _).imp fun l _ => ⟨l, rfl⟩
  parameter _ _ := (Yields.parameter _ _).imp fun p _ => ⟨p, rfl, rfl⟩
  checked synthetic alike := (Yields.checked _).imp fun e made =>
    ⟨e, ⟨all_of_synthetic new synthetic alike made.1, rfl⟩, made.2⟩
  unchecked synthetic alike := (Yields.unchecked _).imp fun e made =>
    ⟨e, ⟨all_of_synthetic new synthetic alike made.1, rfl⟩, made.2⟩
  part made := made.1
  partType part := part.2
  variableType typed := typed

/-- A derived node is reduced to new nodes around its lowered parts. -/
theorem yields_reduceWith {e : Expr} (derived : e.isDerived = true)
    (parts : ∀ c ∈ e.children, Yields k (Expr.All p) (lower c)) :
    Yields k (fun e' => e'.All p ∧ k ≤ e'.id) (e.reduceWith lower) := by
  have self : e.node.Alike Eq (fun p q => p.type = q.type) e.node :=
    Node.alike_of_mem (fun _ _ => rfl) fun _ _ => rfl
  refine ((yieldsRules new k).reduceWith derived self (fun _ _ => congrArg Expr.type) ?_).imp ?_
  · rintro c child _ rfl
    exact (parts c child).imp fun c' all => ⟨c', all, rfl⟩
  · rintro e' ⟨_, ⟨all, -⟩, newer⟩
    exact ⟨all, newer⟩

end Lowering

/-! ### Lowered trees -/

/-- If the nodes of a tree have a property, those of the lowered tree have another one: the nodes
that are new, those that are built anew, and those of a subtree that is kept because its children
come back with the same identities. A lowered tree is the tree itself, or its root is new. -/
theorem Expr.yields_lower {k : Supply} {p q : Expr → Prop}
    (new : ∀ e : Expr, e.node.isSynthetic = true → q e)
    (rebuilt : ∀ e e' : Expr, e.isDerived = false → p e →
      e.node.Alike Expr.LowersTo (fun p q => p = q) e'.node → q e')
    (kept : ∀ (e : Expr) (node : Node), e.isDerived = false → e.All p →
      List.Forall₂ (fun c c' => c'.All q ∧ (c' = c ∨ k ≤ c'.id)) e.children node.children →
      node.sameParts e.node = true → e.All q)
    (e : Expr) (all : e.All p) : Yields k (fun e' => e'.All q ∧ (e' = e ∨ k ≤ e'.id)) e.lower := by
  induction e using Expr.inductionOnChildren with
  | step e ih =>
      obtain ⟨root, below⟩ := Expr.all_iff.mp all
      have children (c : Expr) (child : c ∈ e.children) := ih c child (below c child)
      rw [Expr.lower_eq]
      by_cases derived : e.isDerived = true
      · rw [if_pos derived]
        refine (Lowering.yields_reduceWith new derived fun c child => ?_).imp ?_
        · exact (children c child).imp fun c' lowered => lowered.1
        · exact fun e' reduced => ⟨reduced.1, .inr reduced.2⟩
      · have plain : e.isDerived = false := by simpa using derived
        rw [if_neg derived]
        refine (Node.yields_traverse children).visited.bind ?_
        rintro node ⟨alike, m, m', traversed⟩
        have related := alike.forall₂_children
        by_cases same : node.sameParts e.node = true
        · rw [if_pos same]
          exact .pure ⟨kept e node plain all related same, .inl rfl⟩
        · rw [if_neg same]
          have kind : node.kind.isDerived = false := by
            rw [← alike.kind_eq]
            exact plain
          unfold Node.renewed
          rw [kind]
          refine (Yields.unchecked node).imp ?_
          rintro e' ⟨rfl, newer⟩
          have like := Node.alike_of_traverse traversed
          refine ⟨Expr.all_iff.mpr ⟨rebuilt e e' plain root like, ?_⟩, .inr newer⟩
          intro c' child'
          obtain ⟨c, -, lowered, -⟩ := exists_of_forall₂_right related child'
          exact lowered

/-- A tree is lowered to itself, or to a tree with a new root. -/
theorem Expr.yields_same_or_new (e : Expr) (k : Supply) :
    Yields k (fun e' => e' = e ∨ k ≤ e'.id) e.lower :=
  (Expr.yields_lower (p := fun _ => True) (q := fun _ => True) (fun _ _ => ⟨⟩)
    (fun _ _ _ _ _ => ⟨⟩) (fun _ _ _ _ _ _ _ _ => ⟨⟩) e fun _ _ => ⟨⟩).imp fun _ => And.right

/-- Lowering a tree does not go back in the supply. -/
theorem Expr.lower_advances (e : Expr) (k : Supply) : Yields k (fun _ => True) e.lower :=
  (e.yields_same_or_new k).imp fun _ _ => ⟨⟩

end ExprTree
