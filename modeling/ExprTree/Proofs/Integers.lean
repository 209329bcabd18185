import ExprTree.Eval.Arithmetic
import Mathlib.Data.Int.ModEq

/-!
Integer arithmetic.

The operators on integers compute exactly and then make a value of their type. Unchecked, the value
is the one that agrees with the exact result modulo two to the width (`Value.GivesWrapped`);
checked, it is the exact result, if the type has it.
-/

namespace ExprTree

/-! ### The integers of a type -/

namespace Integral

/-- The integer is one of those that the type has. -/
def InRange (k : Integral) (i : Int) : Prop :=
  if k.signed then -2 ^ (k.width - 1) ≤ i ∧ i < 2 ^ (k.width - 1) else 0 ≤ i ∧ i < 2 ^ k.width

variable {k : Integral} {i j : Int}

theorem holds_iff : k.holds i = true ↔ k.InRange i := by
  have bounds : k.least = (if k.signed then -2 ^ (k.width - 1) else 0) ∧
      k.greatest + 1 = (if k.signed then 2 ^ (k.width - 1) else 2 ^ k.width) := by
    cases k <;> decide
  unfold holds InRange
  rw [decide_eq_true_iff]
  split at bounds <;> split <;> simp_all <;> omega

instance : Decidable (k.InRange i) := decidable_of_iff _ holds_iff

theorem inRange_toInt (bits : BitVec k.width) : k.InRange (k.toInt bits) := by
  unfold InRange toInt
  split
  · exact ⟨BitVec.le_toInt bits, BitVec.toInt_lt⟩
  · exact ⟨Int.natCast_nonneg _, by exact_mod_cast bits.isLt⟩

/-- A type has as many integers as it has patterns of bits, so they differ modulo that number. -/
theorem InRange.eq_of_modEq (left : k.InRange i) (right : k.InRange j)
    (congruent : i ≡ j [ZMOD 2 ^ k.width]) : i = j := by
  have size : (2 : Int) ^ (k.width - 1) * 2 = 2 ^ k.width := by
    cases k <;> rfl
  unfold InRange at left right
  refine Int.eq_of_sub_eq_zero (Int.eq_zero_of_abs_lt_dvd congruent.symm.dvd ?_)
  rw [abs_lt]
  split at left <;> simp_all <;> omega

theorem toInt_ofInt_modEq (k : Integral) (i : Int) :
    k.toInt (BitVec.ofInt k.width i) ≡ i [ZMOD 2 ^ k.width] := by
  unfold toInt
  split
  · rw [BitVec.toInt_ofInt]
    exact_mod_cast Int.bmod_emod
  · rw [BitVec.toNat_ofInt, Int.toNat_of_nonneg (Int.emod_nonneg i (by simp))]
    exact_mod_cast Int.mod_modEq i _

theorem InRange.toInt_ofInt (inside : k.InRange i) : k.toInt (BitVec.ofInt k.width i) = i :=
  (inRange_toInt _).eq_of_modEq inside (toInt_ofInt_modEq k i)

/-- Dividing goes no further from zero. It changes sides only if the divisor is negative, and then
the least integer has no counterpart. -/
theorem InRange.tdiv_iff (left : k.InRange i) (right : k.InRange j) (nonzero : j ≠ 0) :
    k.InRange (i.tdiv j) ↔ ¬ (k.signed = true ∧ i = -2 ^ (k.width - 1) ∧ j = -1) := by
  have positive : (0 : Int) < 2 ^ (k.width - 1) := Int.pow_pos (by decide)
  unfold InRange at *
  cases signed : k.signed with
  | false =>
      simp only [signed, Bool.false_eq_true, if_false, false_and, not_false_eq_true, iff_true]
        at left right ⊢
      exact ⟨Int.tdiv_nonneg left.1 right.1,
        Int.lt_of_le_of_lt (Int.tdiv_le_self j left.1) left.2⟩
  | true =>
      simp only [signed, if_true, true_and] at left right ⊢
      generalize (2 : Int) ^ (k.width - 1) = half at *
      by_cases unit : j = 1 ∨ j = -1
      · rcases unit with rfl | rfl
        · rw [Int.tdiv_one]
          omega
        · rw [Int.tdiv_neg, Int.tdiv_one]
          omega
      · -- Any other divisor at least halves the distance from zero.
        have shrinks : (i.tdiv j).natAbs ≤ i.natAbs / 2 := by
          rw [Int.natAbs_tdiv]
          exact Nat.div_le_div_left (by omega) (by decide)
        omega

theorem InRange.tmod (left : k.InRange i) (right : k.InRange j) (nonzero : j ≠ 0) :
    k.InRange (i.tmod j) := by
  have below : (i.tmod j).natAbs < j.natAbs := by
    rw [Int.natAbs_tmod]
    exact Nat.mod_lt _ (Int.natAbs_pos.mpr nonzero)
  unfold InRange at *
  cases signed : k.signed with
  | false =>
      simp only [signed, Bool.false_eq_true, if_false] at left right ⊢
      have side := Int.tmod_nonneg j left.1
      omega
  | true =>
      simp only [signed, if_true] at left right ⊢
      omega

end Integral

/-! ### Values of a type -/

namespace Value

/-- The value is of the type and stands for the integer. -/
def Is (k : Integral) (i : Int) (v : Value) : Prop :=
  ∃ bits, v = .integral k bits ∧ k.toInt bits = i

/-- The result is the integer as a value of the type. -/
def Gives (k : Integral) (i : Int) (result : Except Failure Value) : Prop :=
  ∃ v, result = .ok v ∧ v.Is k i

/-- The result is the value of the type that agrees with the integer modulo two to the width. -/
def GivesWrapped (k : Integral) (i : Int) (result : Except Failure Value) : Prop :=
  ∃ v j, result = .ok v ∧ v.Is k j ∧ j ≡ i [ZMOD 2 ^ k.width]

variable {k : Integral} {i : Int}

theorem is_ofInt (inside : k.InRange i) : (ofInt k i).Is k i := ⟨_, rfl, inside.toInt_ofInt⟩

theorem givesWrapped_ofInt (k : Integral) (i : Int) : GivesWrapped k i (.ok (.ofInt k i)) :=
  ⟨_, _, rfl, ⟨_, rfl, rfl⟩, Integral.toInt_ofInt_modEq k i⟩

theorem givesWrapped_narrow (k : Integral) (i : Int) : GivesWrapped k i (narrow false k i) :=
  givesWrapped_ofInt k i

theorem gives_narrow (inside : k.InRange i) : Gives k i (narrow true k i) := by
  rw [narrow, Integral.holds_iff.mpr inside]
  exact ⟨_, rfl, is_ofInt inside⟩

theorem narrow_eq_overflow (outside : ¬ k.InRange i) : narrow true k i = .error .overflow := by
  rw [← Integral.holds_iff, Bool.not_eq_true] at outside
  rw [narrow, outside]
  rfl

/-! ### Operators -/

/-- What an operator that may overflow does with integers of any size. -/
def onIntegers? : BinaryOp → Option (Int → Int → Int)
  | .add => some (· + ·)
  | .subtract => some (· - ·)
  | .multiply => some (· * ·)
  | _ => none

section

variable {op : BinaryOp} {checked : Bool} (a b : BitVec k.width)

theorem combine_integral (op : BinaryOp) (checked : Bool) :
    combine op checked (.integral k a) (.integral k b) =
      (integralBinary? op checked k a b).getD
        (mismatch op (.integral k a) (.integral k b)) := by
  simp [combine]

/-- An operator of arithmetic or bits on two values of one type. -/
theorem binary_integral {result : Except Failure Value} (plain : op.isShift = false)
    (found : integralBinary? op checked k a b = some result) :
    binary op (.integral k a) (.integral k b) checked = result := by
  have noComparison : op.isComparison = false := by
    cases op <;> first | rfl | cases found
  have noPower : op ≠ .power := by
    rintro rfl
    cases found
  simp [binary, noComparison, noPower, plain, isString, combine_integral, found]

theorem binary_onIntegers {f : Int → Int → Int} (found : onIntegers? op = some f) :
    binary op (.integral k a) (.integral k b) checked =
      narrow checked k (f (k.toInt a) (k.toInt b)) := by
  cases op <;> cases found <;> exact binary_integral a b rfl rfl

theorem binary_divide : binary .divide (.integral k a) (.integral k b) checked =
    if k.toInt b = 0 then .error .divideByZero
    else narrow true k ((k.toInt a).tdiv (k.toInt b)) :=
  binary_integral a b rfl rfl

theorem binary_modulo : binary .modulo (.integral k a) (.integral k b) checked =
    if k.toInt b = 0 then .error .divideByZero
    else .ok (.ofInt k ((k.toInt a).tmod (k.toInt b))) :=
  binary_integral a b rfl rfl

theorem unary_addsOne {op : UnaryOp} (adds : addsOne op = true) :
    unary op (.integral k a) = narrow false k (k.toInt a + 1) := by
  cases op <;> first | rfl | cases adds

theorem unary_subtractsOne {op : UnaryOp} (subtracts : subtractsOne op = true) :
    unary op (.integral k a) = narrow false k (k.toInt a - 1) := by
  cases op <;> first | rfl | cases subtracts

end

theorem toInt_one (k : Integral) : k.toInt (BitVec.ofInt k.width 1) = 1 :=
  Integral.InRange.toInt_ofInt (by cases k <;> decide)

/-- The least integer of a signed type is divided by minus one. -/
def QuotientOverflows (k : Integral) (x y : Int) : Prop :=
  k.signed = true ∧ x = -2 ^ (k.width - 1) ∧ y = -1

/-- A quotient fails only for the two reasons, and each has its own failure. -/
theorem divide_exact (a b : BitVec k.width) (checked : Bool) :
    (binary .divide (.integral k a) (.integral k b) checked = .error .divideByZero ↔
      k.toInt b = 0) ∧
    (binary .divide (.integral k a) (.integral k b) checked = .error .overflow ↔
      QuotientOverflows k (k.toInt a) (k.toInt b)) ∧
    (k.toInt b ≠ 0 → ¬ QuotientOverflows k (k.toInt a) (k.toInt b) →
      Gives k ((k.toInt a).tdiv (k.toInt b))
        (binary .divide (.integral k a) (.integral k b) checked)) := by
  rw [binary_divide]
  by_cases zero : k.toInt b = 0
  · simp [zero, QuotientOverflows]
  · have fits := (Integral.inRange_toInt a).tdiv_iff (Integral.inRange_toInt b) zero
    rw [if_neg zero]
    by_cases overflows : QuotientOverflows k (k.toInt a) (k.toInt b)
    · rw [narrow_eq_overflow fun inside => fits.mp inside overflows]
      simp [zero, overflows]
    · obtain ⟨q, made, is⟩ := gives_narrow (fits.mpr overflows)
      rw [made]
      simp only [reduceCtorEq, zero, overflows, not_false_eq_true, true_and]
      exact fun _ _ => ⟨q, rfl, is⟩

/-- A remainder fails only for the divisor zero. -/
theorem modulo_exact (a b : BitVec k.width) (checked : Bool) :
    (binary .modulo (.integral k a) (.integral k b) checked = .error .divideByZero ↔
      k.toInt b = 0) ∧
    binary .modulo (.integral k a) (.integral k b) checked ≠ .error .overflow ∧
    (k.toInt b ≠ 0 → ∃ r, Gives k r (binary .modulo (.integral k a) (.integral k b) checked) ∧
      k.toInt a = k.toInt b * (k.toInt a).tdiv (k.toInt b) + r) := by
  rw [binary_modulo]
  by_cases zero : k.toInt b = 0
  · simp [zero]
  · rw [if_neg zero]
    refine ⟨by simp [zero], by simp, fun nonzero => ⟨_, ⟨_, rfl, is_ofInt ?_⟩, ?_⟩⟩
    · exact (Integral.inRange_toInt a).tmod (Integral.inRange_toInt b) nonzero
    · exact (Int.mul_tdiv_add_tmod (k.toInt a) (k.toInt b)).symm

/-- The operators on two integers of one type. A sum, a difference or a product wraps, or if checked
is exact or overflows. A quotient is cut off toward zero and fails for two reasons; a remainder
fails for one and completes the quotient. A negation wraps, or if checked is exact or overflows, and
the steps by one are the sum and the difference that wrap. -/
theorem integer_operators_are_exact {v w : Value} {x y : Int} (left : v.Is k x)
    (right : w.Is k y) :
    (∀ op f, onIntegers? op = some f →
      GivesWrapped k (f x y) (binary op v w false) ∧
      (k.InRange (f x y) → Gives k (f x y) (binary op v w true)) ∧
      (¬ k.InRange (f x y) → binary op v w true = .error .overflow)) ∧
    (∀ checked,
      (binary .divide v w checked = .error .divideByZero ↔ y = 0) ∧
      (binary .divide v w checked = .error .overflow ↔ QuotientOverflows k x y) ∧
      (y ≠ 0 → ¬ QuotientOverflows k x y → Gives k (x.tdiv y) (binary .divide v w checked))) ∧
    (∀ checked,
      (binary .modulo v w checked = .error .divideByZero ↔ y = 0) ∧
      binary .modulo v w checked ≠ .error .overflow ∧
      (y ≠ 0 → ∃ r, Gives k r (binary .modulo v w checked) ∧ x = y * x.tdiv y + r)) ∧
    GivesWrapped k (-x) (unary .negate v) ∧
    (k.InRange (-x) → Gives k (-x) (unary .negateChecked v)) ∧
    (¬ k.InRange (-x) → unary .negateChecked v = .error .overflow) ∧
    (∀ op, addsOne op = true → unary op v = binary .add v (.ofInt k 1) false) ∧
    (∀ op, subtractsOne op = true → unary op v = binary .subtract v (.ofInt k 1) false) := by
  obtain ⟨a, rfl, rfl⟩ := left
  obtain ⟨b, rfl, rfl⟩ := right
  refine ⟨fun op f found => ?_, divide_exact a b, modulo_exact a b, givesWrapped_narrow k _,
    gives_narrow, narrow_eq_overflow, fun op adds => ?_, fun op subtracts => ?_⟩
  · rw [binary_onIntegers a b found, binary_onIntegers a b found]
    exact ⟨givesWrapped_narrow k _, gives_narrow, narrow_eq_overflow⟩
  · rw [unary_addsOne a adds, ofInt, binary_onIntegers _ _ rfl, toInt_one]
  · rw [unary_subtractsOne a subtracts, ofInt, binary_onIntegers _ _ rfl, toInt_one]

namespace LeastByMinusOne

/-- The least signed byte and minus one: the quotient, the checked sum and the checked negation
overflow, the unchecked sum wraps, and there is a remainder. -/
theorem quotient_overflows :
    binary .divide (.ofInt .sbyte (-128)) (.ofInt .sbyte (-1)) false = .error .overflow ∧
    (∃ r, Gives .sbyte r (binary .modulo (.ofInt .sbyte (-128)) (.ofInt .sbyte (-1)) false) ∧
      -128 = -1 * Int.tdiv (-128) (-1) + r) ∧
    binary .add (.ofInt .sbyte (-128)) (.ofInt .sbyte (-1)) true = .error .overflow ∧
    GivesWrapped .sbyte (-129) (binary .add (.ofInt .sbyte (-128)) (.ofInt .sbyte (-1)) false) ∧
    unary .negateChecked (.ofInt .sbyte (-128)) = .error .overflow := by
  obtain ⟨sums, quotient, remainder, -, -, negated, -⟩ :=
    integer_operators_are_exact (k := .sbyte) (is_ofInt (i := -128) (by decide))
      (is_ofInt (i := -1) (by decide))
  obtain ⟨wraps, -, overflows⟩ := sums .add _ rfl
  exact ⟨(quotient false).2.1.mpr ⟨rfl, rfl, rfl⟩, (remainder false).2.2 (by decide),
    overflows (by decide), wraps, negated (by decide)⟩

end LeastByMinusOne

end Value

end ExprTree
