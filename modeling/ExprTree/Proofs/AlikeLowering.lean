import ExprTree.Proofs.InStep
import ExprTree.Proofs.Primitive

/-!
Lowering trees that are alike.

Lowering draws the same identities for two trees that are alike, in the same order, and makes trees
of them that are alike (`Expr.inStep_lower`). A node is kept in both or built anew in both: it is
kept exactly if none of its children has become a new node.
-/

namespace ExprTree

open Build (InStep Yields)

/-- Both supplies are the same, and have reached an identity. -/
def SameSupply (k a b : Supply) : Prop := a = b ∧ k ≤ a

/-- Which variables correspond while identities from one on are drawn: variables of the same type,
and every new variable to itself. -/
structure Matching (k : Supply) (v : Parameter → Parameter → Prop) : Prop where
  type : ∀ {p q : Parameter}, v p q → p.type = q.type
  new : ∀ {p : Parameter}, k ≤ p.id → v p p

/-- Trees that are alike, and both new or both not. -/
def Paired (k : Supply) (v : Parameter → Parameter → Prop) (e e' : Expr) : Prop :=
  e.AlikeBy v e' ∧ (k ≤ e.id ↔ k ≤ e'.id)

section

variable {k : Supply} {v : Parameter → Parameter → Prop} {e e' : Expr}

theorem Paired.type_eq (new : Matching k v) (paired : Paired k v e e') : e.type = e'.type :=
  paired.1.type_eq fun _ _ => new.type

end

/-! ### New nodes -/

namespace Lowering

variable {k : Supply} {v : Parameter → Parameter → Prop} {n n' : Node}

theorem inStep_label (type : Ty) (name : Option String) :
    InStep (SameSupply k) (fun _ => Eq) (Build.label type name) (Build.label type name) := by
  rintro m _ ⟨rfl, le⟩
  exact .ok ⟨rfl, Nat.le_succ_of_le le⟩ (Nat.le_succ m) fun _ _ => rfl

theorem inStep_parameter (type : Ty) (name : Option String) :
    InStep (SameSupply k) (fun _ p q => p = q ∧ k ≤ p.id) (Build.parameter type name)
      (Build.parameter type name) := by
  rintro m _ ⟨rfl, le⟩
  exact .ok ⟨rfl, Nat.le_succ_of_le le⟩ (Nat.le_succ m) fun _ _ => ⟨rfl, le⟩

theorem inStep_unchecked (alike : n.Alike (Paired k v) v n') :
    InStep (SameSupply k) (fun _ => Paired k v) (Build.unchecked n) (Build.unchecked n') := by
  rintro m _ ⟨rfl, le⟩
  refine .ok ⟨rfl, Nat.le_succ_of_le le⟩ (Nat.le_succ m) fun _ _ => ⟨?_, Iff.rfl⟩
  exact Expr.alike_iff.mpr (alike.imp (fun _ _ _ paired => paired.1) fun _ _ _ h => h)

variable (new : Matching k v)
include new

theorem inStep_checked (alike : n.Alike (Paired k v) v n') :
    InStep (SameSupply k) (fun _ => Paired k v) (Build.checked n) (Build.checked n') := by
  have checks : n.check = n'.check :=
    alike.check_eq (fun _ _ paired => ⟨paired.type_eq new, paired.1.kind_eq⟩) fun _ _ => new.type
  intro m m' supplies
  have made := inStep_unchecked alike m m' supplies
  unfold Build.checked
  rw [← checks]
  cases n.check with
  | error e => exact .error
  | ok => exact made

theorem inStep_renewed (alike : n.Alike (Paired k v) v n') :
    InStep (SameSupply k) (fun _ => Paired k v) n.renewed n'.renewed := by
  unfold Node.renewed
  rw [← alike.kind_eq]
  split
  · exact inStep_checked new alike
  · exact inStep_unchecked alike

/-- Derived nodes that are alike are reduced in step. -/
theorem inStepRules :
    LoweringRules (fun _ Q => InStep (SameSupply k) fun _ => Q) (Paired k v) (Paired k v) v where
  pure given := .pure fun _ => given
  bind first rest := first.andThen rest
  label := inStep_label
  parameter type name := (inStep_parameter type name).imp fun _ _ _ ⟨same, newer⟩ =>
    ⟨same, same ▸ new.new newer⟩
  checked _ alike := inStep_checked new alike
  unchecked _ alike := inStep_unchecked alike
  part paired := paired
  partType paired := paired.type_eq new
  variableType := new.type

end Lowering

/-! ### Nodes that are kept -/

/-- A node is kept exactly if none of its lowered children is new. -/
theorem Expr.sameParts_iff {e : Expr} {node : Node} {k m m' : Supply} (older : e.Older k)
    (le : k ≤ m) (traversed : e.node.traverse Expr.lower pure m = .ok (node, m')) :
    node.sameParts e.node = true ↔ ∀ c ∈ node.children, ¬k ≤ c.id := by
  have alike : e.node.Alike (fun c c' => c.id < k ∧ (c' = c ∨ k ≤ c'.id)) Eq node := by
    refine (Node.yields_traverse (fun c child => ?_) m node m' le traversed).2
    exact (c.yields_same_or_new k).imp fun c' made =>
      ⟨(Expr.all_iff.mp older).2 c child c c.mem_nodes_self, made⟩
  have parameters : pairwise Parameter.same node.parameters e.node.parameters = true := by
    refine pairwise_eq_true_iff.mpr (alike.forall₂_parameters.flip.imp ?_)
    rintro _ p rfl
    exact beq_self_eq_true p.id
  rw [Node.sameParts, parameters, Bool.and_true, pairwise_eq_true_iff]
  have related : List.Forall₂ _ e.children node.children := alike.forall₂_children
  change List.Forall₂ _ node.children e.children ↔ _
  generalize e.children = cs, node.children = cs' at related
  induction related with
  | nil => simp
  | @cons c c' cs cs' first _ ih =>
      have root : Expr.same c' c = true ↔ ¬k ≤ c'.id := by
        rw [Expr.same, beq_iff_eq]
        obtain ⟨old, rfl | newer⟩ := first
        · exact ⟨fun _ => Nat.not_le.mpr old, fun _ => rfl⟩
        · exact ⟨fun same => absurd old (same ▸ Nat.not_lt.mpr newer), fun old => absurd newer old⟩
      rw [List.forall₂_cons, List.forall_mem_cons, root, ih]

/-! ### Lowered trees -/

/-- Trees that are alike are lowered in step. -/
theorem Expr.inStep_lower {k : Supply} {v : Parameter → Parameter → Prop} (new : Matching k v)
    {e e' : Expr} (older : e.Older k) (older' : e'.Older k) (alike : e.AlikeBy v e') :
    InStep (SameSupply k) (fun _ => Paired k v) e.lower e'.lower := by
  induction e using Expr.inductionOnChildren generalizing e' with
  | step e ih =>
      have nodes := Expr.alike_iff.mp alike
      have paired : Paired k v e e' :=
        ⟨alike, iff_of_false (Nat.not_le.mpr (older e e.mem_nodes_self))
          (Nat.not_le.mpr (older' e' e'.mem_nodes_self))⟩
      have children : ∀ c ∈ e.children, ∀ c', c.AlikeBy v c' ∧ c'.Older k →
          InStep (SameSupply k) (fun _ => Paired k v) c.lower c'.lower :=
        fun c child c' related => ih c child ((Expr.all_iff.mp older).2 c child) related.2 related.1
      have nodes := (Expr.alike_iff.mp alike).and_right (Expr.all_iff.mp older').2
      have derived : e.isDerived = e'.isDerived := congrArg Kind.isDerived alike.kind_eq
      rw [Expr.lower_eq, Expr.lower_eq, ← derived]
      split
      · next derived =>
          exact (Lowering.inStepRules new).reduceWith derived nodes
            (fun _ _ related => related.1.type_eq fun _ _ => new.type) children
      · have locals {p q : Parameter} (related : v p q) :
            InStep (SameSupply k) (fun _ => v) (pure p) (pure q) := .pure fun _ => related
        refine (Node.inStep_traverse nodes children fun _ _ _ => locals).visited.andThen ?_
        rintro node node' ⟨alike', m, _, l, l', ⟨rfl, le⟩, traversed, traversed'⟩
        have same : node.sameParts e.node = node'.sameParts e'.node := by
          rw [Bool.eq_iff_iff, Expr.sameParts_iff older le traversed,
            Expr.sameParts_iff older' le traversed']
          have children := alike'.forall₂_children
          constructor
          · intro old c' child
            obtain ⟨c, mem, paired⟩ := exists_of_forall₂_right children child
            exact fun newer => old c mem (paired.2.mpr newer)
          · intro old c child
            obtain ⟨c', mem, paired⟩ := exists_of_forall₂_left children child
            exact fun newer => old c' mem (paired.2.mp newer)
        rw [same]
        split
        · exact .pure fun _ => paired
        · exact Lowering.inStep_renewed new alike'

end ExprTree
