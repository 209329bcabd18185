import ExprTree.Eval.Script
import ExprTree.Proofs.Primitive

/-!
What hosts leave.

With a reply the host leaves a heap, and nothing ties that heap to the one it found: arrays may have
grown or gone, closures may have come. Results that need more of the host say what: that it keeps
the sizes of arrays (`Host.KeepsArrays`), or that it makes closures of lowered trees only
(`Host.KeepsLowered`). A host that leaves the heap as it finds it does both.
-/

namespace ExprTree

/-- The arrays of the one heap are arrays of the same sizes in the other. -/
def Heap.KeepsArrays (h h' : Heap) : Prop :=
  ∀ r items, h.get? r = some (.array items) →
    ∃ items', h'.get? r = some (.array items') ∧ items'.size = items.size

theorem Heap.KeepsArrays.refl (h : Heap) : h.KeepsArrays h :=
  fun _ items found => ⟨items, found, rfl⟩

/-- Closures of the other heap stood in the same places of the one, or their bodies are lowered. -/
def Heap.KeepsLowered (h h' : Heap) : Prop :=
  ∀ r l frame, h'.get? r = some (.closure l frame) →
    h.get? r = some (.closure l frame) ∨ l.body.IsPrimitive

theorem Heap.KeepsLowered.refl (h : Heap) : h.KeepsLowered h := fun _ _ _ found => .inl found

namespace Host

/-- The host lets no array grow or shrink. -/
def KeepsArrays (host : Host) : Prop :=
  ∀ history h request a, host.answer history h request = some a → h.KeepsArrays a.heap

/-- The host makes closures of lowered trees only. -/
def KeepsLowered (host : Host) : Prop :=
  ∀ history h request a, host.answer history h request = some a → h.KeepsLowered a.heap

/-- The host leaves the heap as it finds it. -/
def KeepsHeap (host : Host) : Prop :=
  ∀ history h request a, host.answer history h request = some a → a.heap = h

variable {host : Host}

theorem KeepsHeap.keepsLowered (keeps : host.KeepsHeap) : host.KeepsLowered := by
  intro history h request a answered
  rw [keeps history h request a answered]
  exact .refl h

theorem keepsHeap_absent : absent.KeepsHeap := fun _ _ _ _ answered => nomatch answered

theorem keepsHeap_scripted (scripts : List Script) : (scripted scripts).KeepsHeap := by
  intro history h request a answered
  obtain ⟨script, -, rfl⟩ := Option.map_eq_some_iff.mp answered
  rfl

end Host

end ExprTree
