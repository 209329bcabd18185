import ExprTree.Proofs.AlikeRuns
import ExprTree.Proofs.Hosts

/-!
Arrays keep their sizes.

Whatever is evaluated, an array that there is stays an array and keeps the number of its elements
(`Heap.KeepsArrays.of_run`), if the host keeps to that too. This is what a run shows when it is
compared with itself, in states of which the arrays are known.
-/

namespace ExprTree

open Eval

namespace Heap.KeepsArrays

variable {h h' h'' : Heap}

theorem trans (first : h.KeepsArrays h') (second : h'.KeepsArrays h'') : h.KeepsArrays h'' := by
  intro r items found
  obtain ⟨items', found', size⟩ := first r items found
  obtain ⟨items'', found'', size'⟩ := second r items' found'
  exact ⟨items'', found'', size'.trans size⟩

theorem alloc (h : Heap) (c : Cell) : h.KeepsArrays (h.alloc c).2 :=
  fun _ items found => ⟨items, Heap.get?_alloc found c, rfl⟩

theorem set {r : Ref} {c d : Cell} (found : h.get? r = some c) (becomes : c.Becomes d) :
    h.KeepsArrays (h.set r d) := by
  intro r' items found'
  by_cases same : r = r'
  · subst same
    cases found.symm.trans found'
    obtain ⟨inside, -⟩ := Array.getElem?_eq_some_iff.mp found
    cases becomes with
    | @array _ items' size =>
        refine ⟨items', ?_, size⟩
        simp only [Heap.set, Heap.get?, Array.getElem?_setIfInBounds, if_pos, inside]
  · refine ⟨items, ?_, rfl⟩
    simp only [Heap.set, Heap.get?, Array.getElem?_setIfInBounds, if_neg same]
    exact found'

end Heap.KeepsArrays

/-- A run compared with itself, where the arrays of a heap have been kept so far. -/
def Correspondence.keeping (h : Heap) : Correspondence where
  locals := Eq
  closures := fun l frame l' frame' => l = l' ∧ frame = frame'
  states := fun s t => s = t ∧ h.KeepsArrays s.heap

namespace Correspondence

variable {h : Heap} {host : Host}

theorem ends_self {α : Type} {r : Option (Outcome α × State)}
    (kept : ∀ a ∈ r, h.KeepsArrays a.2.heap) : (keeping h).Ends Eq r r := by
  cases r with
  | none => exact .none
  | some a =>
      refine .some ⟨?_, rfl, kept a rfl⟩
      obtain ⟨o, s⟩ := a
      cases o with
      | value => exact .value rfl
      | jump => exact .jump
      | throw => exact .throw
      | fail => exact .fail

/-- What does not touch the heap keeps its arrays. -/
theorem mirrors_self {α : Type} {x : Eval α}
    (kept : ∀ s, ∀ a ∈ x s, a.2.heap = s.heap) : Mirrors (keeping h) Eq x x := by
  rintro s t ⟨rfl, arrays⟩
  exact ends_self fun a mem => kept s a mem ▸ arrays

theorem mirrors_build {α : Type} (x : Build α) : Mirrors (keeping h) Eq (build x) (build x) := by
  refine mirrors_self fun s a mem => ?_
  unfold build at mem
  split at mem <;> cases mem <;> rfl

end Correspondence

end ExprTree
