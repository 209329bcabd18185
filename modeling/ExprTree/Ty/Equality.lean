import ExprTree.Ty.Basic

/-!
Types are compared as data: equality of types is decidable.

`Ty.beq` goes through both types at once; `Ty.beq_eq_true_iff` says that it decides equality.
-/

namespace ExprTree

mutual

/-- Whether two types are the same data. -/
def Ty.beq : Ty → Ty → Bool
  | .void, .void => true
  | .boolean, .boolean => true
  | .char, .char => true
  | .string, .string => true
  | .object, .object => true
  | .integral k, .integral l => decide (k = l)
  | .single, .single => true
  | .double, .double => true
  | .decimal, .decimal => true
  | .array a m, .array b n => a.beq b && decide (m = n)
  | .parameter m, .parameter n => decide (m = n)
  | .named c, .named d => c.beq d
  | _, _ => false
termination_by structural a => a

/-- Whether two declarations are the same data. -/
def Named.beq : Named → Named → Bool
  | ⟨m, f, as, p, a, is, x⟩, ⟨n, g, bs, q, b, js, y⟩ =>
    decide (m = n) && decide (f = g) && Ty.beqList as bs && decide (p = q) &&
      Ty.beqOption a b && Ty.beqList is js && Ty.beqOption x y
termination_by structural a => a

def Ty.beqList : List Ty → List Ty → Bool
  | [], [] => true
  | a :: as, b :: bs => a.beq b && Ty.beqList as bs
  | _, _ => false
termination_by structural as => as

def Ty.beqOption : Option Ty → Option Ty → Bool
  | none, none => true
  | some a, some b => a.beq b
  | _, _ => false
termination_by structural a => a

end

mutual

theorem Ty.eq_of_beq : ∀ {a b : Ty}, a.beq b = true → a = b
  | a, b, h => by
    cases a <;> cases b <;> simp_all [Ty.beq]
    case array.array => exact Ty.eq_of_beq h.1
    case named.named => exact Named.eq_of_beq h

theorem Named.eq_of_beq : ∀ {a b : Named}, a.beq b = true → a = b
  | ⟨m, f, as, p, a, is, x⟩, ⟨n, g, bs, q, b, js, y⟩, h => by
    simp only [Named.beq, Bool.and_eq_true, decide_eq_true_eq] at h
    obtain ⟨⟨⟨⟨⟨⟨hn, hf⟩, ha⟩, hd⟩, hb⟩, hi⟩, he⟩ := h
    subst hn hf hd
    rw [Ty.eq_of_beqList ha, Ty.eq_of_beqOption hb, Ty.eq_of_beqList hi, Ty.eq_of_beqOption he]

theorem Ty.eq_of_beqList : ∀ {as bs : List Ty}, Ty.beqList as bs = true → as = bs
  | [], [], _ => rfl
  | a :: as, b :: bs, h => by
    simp only [Ty.beqList, Bool.and_eq_true] at h
    rw [Ty.eq_of_beq h.1, Ty.eq_of_beqList h.2]

theorem Ty.eq_of_beqOption : ∀ {a b : Option Ty}, Ty.beqOption a b = true → a = b
  | none, none, _ => rfl
  | some a, some b, h => by
    simp only [Ty.beqOption] at h
    rw [Ty.eq_of_beq h]

end

mutual

theorem Ty.beq_self : ∀ a : Ty, a.beq a = true
  | .void | .boolean | .char | .string | .object | .single | .double | .decimal => rfl
  | .integral k => by simp only [Ty.beq, decide_true]
  | .array a n => by simp only [Ty.beq, Ty.beq_self a, decide_true, Bool.and_self]
  | .parameter n => by simp only [Ty.beq, decide_true]
  | .named d => by simp only [Ty.beq, Named.beq_self d]

theorem Named.beq_self : ∀ d : Named, d.beq d = true
  | ⟨_, _, as, _, a, is, x⟩ => by
    simp [Named.beq, Ty.beqList_self as, Ty.beqOption_self a, Ty.beqList_self is,
      Ty.beqOption_self x]

theorem Ty.beqList_self : ∀ as : List Ty, Ty.beqList as as = true
  | [] => rfl
  | a :: as => by simp [Ty.beqList, Ty.beq_self a, Ty.beqList_self as]

theorem Ty.beqOption_self : ∀ a : Option Ty, Ty.beqOption a a = true
  | none => rfl
  | some a => by simp [Ty.beqOption, Ty.beq_self a]

end

/-- The comparison decides equality. -/
theorem Ty.beq_eq_true_iff {a b : Ty} : a.beq b = true ↔ a = b :=
  ⟨Ty.eq_of_beq, fun h => h ▸ Ty.beq_self a⟩

/-- The comparison of declarations decides equality. -/
theorem Named.beq_eq_true_iff {a b : Named} : a.beq b = true ↔ a = b :=
  ⟨Named.eq_of_beq, fun h => h ▸ Named.beq_self a⟩

instance : DecidableEq Ty := fun _ _ => decidable_of_iff _ Ty.beq_eq_true_iff

instance : DecidableEq Named := fun _ _ => decidable_of_iff _ Named.beq_eq_true_iff

end ExprTree
