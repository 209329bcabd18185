import ExprTree.Ty.Supertypes
import Mathlib.Logic.Relation

/-!
The orders on types.

A type implements what is reached from it through bases and interfaces
(`Ty.implements_iff_reaches`). Going up ends, because fewer and fewer types are above
(`Ty.wellFounded_parents`), so implementation is an order. Assignability also has `object` above all
and reaches only interfaces from a value type. It is transitive through a type exactly if that is no
interface with a class above it (`Ty.assignableFrom_trans_iff`).
-/

namespace ExprTree.Ty

variable {a b c p s t u : Ty}

/-! ### Going up -/

/-- What a declaration derives from. -/
def base? (t : Ty) : Option Ty := t.declaration?.bind Named.base

/-- What a type derives from and implements directly: the base first, then the interfaces. -/
def parents (t : Ty) : List Ty := t.base?.toList ++ t.interfaces

theorem supertypesList_eq (ts : List Ty) : supertypesList ts = ts.flatMap supertypes := by
  induction ts with
  | nil => rfl
  | cons t ts ih => rw [supertypesList, ih, List.flatMap_cons]

theorem supertypesOption_eq (t : Option Ty) : supertypesOption t = t.toList.flatMap supertypes := by
  cases t with
  | none => rfl
  | some t => rw [supertypesOption, Option.toList_some, List.flatMap_singleton]

/-- The supertypes of a type are itself and those of its parents in turn. -/
theorem supertypes_eq (t : Ty) : t.supertypes = t :: t.parents.flatMap supertypes := by
  cases t with
  | named d =>
      cases d
      rw [supertypes, Named.above, supertypesOption_eq, supertypesList_eq, ← List.flatMap_append]
      rfl
  | array element rank => obtain _ | _ | rank := rank <;> rfl
  | _ => rfl

theorem length_supertypes_lt (parent : p ∈ t.parents) :
    p.supertypes.length < t.supertypes.length := by
  rw [t.supertypes_eq, List.length_cons, Nat.lt_succ_iff, List.flatMap_def]
  exact (List.sublist_flatten_of_mem (List.mem_map_of_mem parent)).length_le

/-- To go from types to their parents comes to an end. -/
theorem wellFounded_parents : WellFounded fun p t : Ty => p ∈ t.parents :=
  Subrelation.wf length_supertypes_lt (measure fun t : Ty => t.supertypes.length).wf

/-! ### Implementation -/

theorem implements_iff : t.implements u = true ↔ u ∈ t.supertypes := by
  simp [implements]

/-- A type implements itself, and what its base or one of its interfaces implements. -/
theorem implements_iff_parents :
    t.implements u = true ↔ t = u ∨ ∃ p ∈ t.parents, p.implements u = true := by
  simp only [implements_iff]
  rw [t.supertypes_eq, List.mem_cons, List.mem_flatMap, eq_comm]

theorem implements_of_parent (parent : p ∈ t.parents) (above : p.implements u = true) :
    t.implements u = true :=
  implements_iff_parents.mpr (.inr ⟨p, parent, above⟩)

/-- The second type is reached from the first by going up any number of times. -/
def Reaches : Ty → Ty → Prop := Relation.ReflTransGen fun t p => p ∈ t.parents

theorem implements_iff_reaches : t.implements u = true ↔ t.Reaches u := by
  constructor
  · induction t using wellFounded_parents.induction with
    | _ t ih =>
        intro implemented
        rcases implements_iff_parents.mp implemented with rfl | ⟨p, parent, above⟩
        · exact .refl
        · exact .head parent (ih p parent above)
  · intro reaches
    induction reaches using Relation.ReflTransGen.head_induction_on with
    | refl => exact implements_self u
    | head parent _ ih => exact implements_of_parent parent ih

theorem implements_trans (lower : s.implements t = true) (upper : t.implements u = true) :
    s.implements u = true := by
  rw [implements_iff_reaches] at *
  exact lower.trans upper

theorem length_supertypes_le (above : t.implements u = true) :
    u.supertypes.length ≤ t.supertypes.length := by
  rw [implements_iff_reaches] at above
  induction above using Relation.ReflTransGen.head_induction_on with
  | refl => exact Nat.le_refl _
  | head parent _ ih => exact Nat.le_trans ih (Nat.le_of_lt (length_supertypes_lt parent))

theorem implements_antisymm (lower : s.implements t = true) (upper : t.implements s = true) :
    s = t := by
  rcases implements_iff_parents.mp lower with same | ⟨p, parent, above⟩
  · exact same
  · -- The parent would have as many types above it as the type itself.
    have shorter := length_supertypes_lt parent
    have longer := Nat.le_trans (length_supertypes_le upper) (length_supertypes_le above)
    omega

/-! ### Assignability -/

theorem isVoid_iff : t.isVoid = true ↔ t = .void := by
  cases t <;> simp [isVoid]

theorem isValueType_of_isInterface (interface : t.isInterface = true) : t.isValueType = false := by
  cases t <;> simp_all [isInterface, isValueType]

theorem assignableFrom_iff :
    a.assignableFrom b = true ↔
      a = b ∨ b ≠ .void ∧
        (a = .object ∨ b.implements a = true ∧ (b.isValueType = true → a.isInterface = true)) := by
  rw [ne_eq, ← isVoid_iff, Bool.not_eq_true, assignableFrom]
  by_cases same : a = b
  · simp [same]
  · cases b.isVoid <;> cases b.isValueType <;> by_cases top : a = .object <;>
      simp [same, top, and_comm]

theorem assignableFrom_self (t : Ty) : t.assignableFrom t = true :=
  assignableFrom_iff.mpr (.inl rfl)

theorem eq_object_of_implements (above : object.implements u = true) : u = .object :=
  List.mem_singleton.mp (implements_iff.mp above)

/-- A struct that implements one interface. -/
def boxing (interface : Ty) : Ty :=
  .named { Named.plain "" .structType with interfaces := [interface] }

/-- What can be held through a type can be held, unless a struct is held by an interface that is
itself held by something that is no interface. -/
theorem assignableFrom_trans_iff (b : Ty) :
    (∀ a c : Ty, a.assignableFrom b = true → b.assignableFrom c = true →
        a.assignableFrom c = true) ↔
      (b.isInterface = true → ∀ a, b.implements a = true → a.isInterface = true ∨ a = .object) := by
  constructor
  · -- A struct that implements only the interface is held by it, so also by what is above.
    intro transitive interface a above
    have parent : b ∈ (boxing b).parents := List.mem_singleton.mpr rfl
    have upper : a.assignableFrom b = true := by
      refine assignableFrom_iff.mpr (.inr ⟨?_, .inr ⟨above, fun held => ?_⟩⟩)
      · rintro rfl
        cases interface
      · rw [isValueType_of_isInterface interface] at held
        cases held
    have lower : b.assignableFrom (boxing b) = true :=
      assignableFrom_iff.mpr (.inr ⟨nofun, .inr ⟨implements_of_parent parent (implements_self b),
        fun _ => interface⟩⟩)
    rcases assignableFrom_iff.mp (transitive a _ upper lower) with rfl | ⟨-, top | ⟨-, boxed⟩⟩
    · have shorter := length_supertypes_lt parent
      have longer := length_supertypes_le above
      omega
    · exact .inr top
    · exact .inl (boxed rfl)
  · intro interfaces a c upper lower
    rcases assignableFrom_iff.mp upper with rfl | ⟨-, top⟩
    · exact lower
    rcases assignableFrom_iff.mp lower with rfl | ⟨noVoid, below⟩
    · exact upper
    refine assignableFrom_iff.mpr (.inr ⟨noVoid, ?_⟩)
    by_cases object : a = .object
    · exact .inl object
    obtain ⟨above, -⟩ := top.resolve_left object
    rcases below with rfl | ⟨below, boxed⟩
    · exact absurd (eq_object_of_implements above) object
    · refine .inr ⟨implements_trans below above, fun held => ?_⟩
      exact (interfaces (boxed held) a above).resolve_right object

/-- Every interface above the type, the type itself included, derives from and implements interfaces
only. -/
def KeepsInterfaces (t : Ty) : Prop :=
  ∀ i ∈ t.supertypes, i.isInterface = true → ∀ p ∈ i.parents, p.isInterface = true

instance (t : Ty) : Decidable t.KeepsInterfaces :=
  inferInstanceAs (Decidable (∀ i ∈ t.supertypes, i.isInterface = true →
    ∀ p ∈ i.parents, p.isInterface = true))

theorem KeepsInterfaces.isInterface (keeps : b.KeepsInterfaces) (interface : b.isInterface = true)
    (above : b.implements a = true) : a.isInterface = true := by
  have reaches := implements_iff_reaches.mp above
  induction reaches with
  | refl => exact interface
  | tail reached parent ih =>
      have implemented := implements_iff_reaches.mpr reached
      exact keeps _ (implements_iff.mp implemented) (ih implemented) _ parent

/-- Going up through bases and interfaces ends, and implementing is doing so until the type is met.
It is an order. Every type is assignable from itself, and assignability is transitive through types
whose interfaces have only interfaces above them. -/
theorem implementation_and_assignability_are_orders :
    (WellFounded fun p t : Ty => p ∈ t.parents) ∧
    (∀ t u : Ty, t.implements u = true ↔ t = u ∨ ∃ p ∈ t.parents, p.implements u = true) ∧
    (∀ t : Ty, t.implements t = true) ∧
    (∀ s t u : Ty, s.implements t = true → t.implements u = true → s.implements u = true) ∧
    (∀ s t : Ty, s.implements t = true → t.implements s = true → s = t) ∧
    (∀ t : Ty, t.assignableFrom t = true) ∧
    (∀ a b c : Ty, b.KeepsInterfaces → a.assignableFrom b = true → b.assignableFrom c = true →
      a.assignableFrom c = true) := by
  refine ⟨wellFounded_parents, fun _ _ => implements_iff_parents, implements_self,
    fun _ _ _ => implements_trans, fun _ _ => implements_antisymm, assignableFrom_self, ?_⟩
  intro a b c keeps
  refine (assignableFrom_trans_iff b).mpr (fun interface a above => ?_) a c
  exact .inl (keeps.isInterface interface above)

namespace HeldStruct

/-- A struct that can be enumerated. -/
def points : Ty := boxing (.enumerableOf .int32)

/-- An interface that derives from a class. -/
def rooted : Ty :=
  .named { Named.plain "IRooted" .interfaceType with base := some (.ofClass "Root") }

/-- A struct reaches `IEnumerable` through `IEnumerable<int>`. Through an interface that derives
from a class it does not reach the class. -/
theorem reached_through_interfaces_only :
    (enumerableOf .int32).KeepsInterfaces ∧ enumerable.assignableFrom points = true ∧
    ¬ rooted.KeepsInterfaces ∧ (ofClass "Root").assignableFrom rooted = true ∧
    rooted.assignableFrom (boxing rooted) = true ∧
    (ofClass "Root").assignableFrom (boxing rooted) = false := by
  have transitive := implementation_and_assignability_are_orders.2.2.2.2.2.2
  exact ⟨by decide, transitive _ (.enumerableOf .int32) _ (by decide) (by decide) (by decide),
    by decide, by decide, by decide, by decide⟩

end HeldStruct

end ExprTree.Ty
