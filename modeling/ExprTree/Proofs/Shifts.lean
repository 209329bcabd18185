import ExprTree.Proofs.Conversions

/-!
Shifts.

The count of a shift is narrowed to the type of what is shifted, cut off to 32 bits and masked. Each
of the three keeps it modulo the width (`Value.shiftCount_of_modEq`), so a shift multiplies by a
power of two whose exponent is the count modulo the width, or divides by it and rounds down.
-/

namespace ExprTree.Value

variable {k : Integral}

/-! ### Counts -/

/-- Widths are powers of two, and 32 bits can count up to all of them. -/
theorem width_eq_two_pow (k : Integral) : ∃ m ≤ 32, k.width = 2 ^ m := by
  refine ⟨k.width.log2, ?_, ?_⟩ <;> cases k <;> decide

theorem width_dvd_two_pow (k : Integral) : (k.width : Int) ∣ 2 ^ k.width := by
  cases k <;> decide

theorem shiftCount_eq (k : Integral) (count : Int) :
    (shiftCount k count : Int) = count % k.width := by
  obtain ⟨m, small, width⟩ := width_eq_two_pow k
  have divides : ((2 ^ m : Nat) : Int) ∣ ((2 ^ 32 : Nat) : Int) :=
    Int.natCast_dvd_natCast.mpr (pow_dvd_pow 2 small)
  rw [shiftCount, width, Nat.and_two_pow_sub_one_eq_mod, BitVec.toNat_ofInt, Int.natCast_mod,
    Int.toNat_of_nonneg (Int.emod_nonneg _ (by decide)), Int.emod_emod_of_dvd _ divides]

/-- A count shifts as far as every count that has the same bits in the shifted type. -/
theorem shiftCount_of_modEq {count n : Int} (same : count ≡ n [ZMOD 2 ^ k.width]) :
    shiftCount k count = (n % k.width).toNat := by
  rw [← same.of_dvd (width_dvd_two_pow k), ← shiftCount_eq, Int.toNat_natCast]

/-- A character or an integer of any type is narrowed to any other integral type. -/
theorem convert_integer {count : Value} {n : Int} (counted : count.integer? = some n)
    (k : Integral) : GivesWrapped k n (count.convert (.integral k) false) := by
  cases count with
  | integral l bits => exact (convert_integral ⟨bits, rfl, Option.some.inj counted⟩).2.2
  | char c =>
      cases counted
      exact givesWrapped_narrow k _
  | _ => cases counted

/-! ### Bits -/

theorem toInt_modEq_toNat (bits : BitVec k.width) :
    k.toInt bits ≡ bits.toNat [ZMOD 2 ^ k.width] := by
  have congruent := Integral.toInt_ofInt_modEq k bits.toNat
  rwa [BitVec.ofInt_natCast, BitVec.ofNat_toNat, BitVec.setWidth_eq] at congruent

theorem toInt_shiftLeft_modEq (bits : BitVec k.width) (n : Nat) :
    k.toInt (bits <<< n) ≡ k.toInt bits * 2 ^ n [ZMOD 2 ^ k.width] := by
  calc k.toInt (bits <<< n)
      ≡ (bits <<< n).toNat [ZMOD 2 ^ k.width] := toInt_modEq_toNat _
    _ ≡ bits.toNat * 2 ^ n [ZMOD 2 ^ k.width] := by
        rw [BitVec.toNat_shiftLeft, Nat.shiftLeft_eq]
        exact_mod_cast Nat.mod_modEq _ _
    _ ≡ k.toInt bits * 2 ^ n [ZMOD 2 ^ k.width] := (toInt_modEq_toNat bits).symm.mul_right _

theorem toInt_shiftedRight (bits : BitVec k.width) (n : Nat) :
    k.toInt (shiftedRight k bits n) = (k.toInt bits).fdiv (2 ^ n) := by
  rw [Int.fdiv_eq_ediv_of_nonneg _ (Int.pow_nonneg (by decide))]
  unfold Integral.toInt shiftedRight
  cases k.signed with
  | true =>
      rw [if_pos rfl, if_pos rfl, if_pos rfl, BitVec.toInt_sshiftRight, Int.shiftRight_eq_div_pow]
      norm_cast
  | false =>
      simp only [Bool.false_eq_true, if_false, BitVec.toNat_ushiftRight, Nat.shiftRight_eq_div_pow]
      norm_cast

/-! ### Operators -/

/-- A shift by a count that has been narrowed to the type of what is shifted. -/
theorem binary_shift {op : BinaryOp} {checked : Bool} {count : Value} {a b : BitVec k.width}
    {result : Except Failure Value} (shifts : op.isShift = true)
    (narrowed : count.convert (.integral k) false = .ok (.integral k b))
    (found : integralBinary? op checked k a b = some result) :
    binary op (.integral k a) count checked = result := by
  have noComparison : op.isComparison = false := by
    cases op <;> first | rfl | cases shifts
  have noPower : op ≠ .power := by
    rintro rfl
    cases shifts
  have noSum : op ≠ .add := by
    rintro rfl
    cases shifts
  simp [binary, noComparison, noPower, noSum, shifts, typeOf, Ty.isIntegral, narrowed, bind,
    Except.bind, combine_integral, found]

/-- A shift never fails and keeps the type of what is shifted. To the left it multiplies by two to
the power of the count modulo the width, and wraps; to the right it divides by that power and rounds
down. The count is a character or an integer of any type, negative ones included. -/
theorem shifts_by_count_modulo_width {v count : Value} {x n : Int} (shifted : v.Is k x)
    (counted : count.integer? = some n) (checked : Bool) :
    GivesWrapped k (x * 2 ^ (n % k.width).toNat) (binary .leftShift v count checked) ∧
    Gives k (x.fdiv (2 ^ (n % k.width).toNat)) (binary .rightShift v count checked) := by
  obtain ⟨a, rfl, rfl⟩ := shifted
  obtain ⟨_, _, narrowed, ⟨b, rfl, rfl⟩, same⟩ := convert_integer counted k
  rw [binary_shift rfl narrowed rfl, binary_shift rfl narrowed rfl, shiftCount_of_modEq same]
  exact ⟨⟨_, _, rfl, ⟨_, rfl, rfl⟩, toInt_shiftLeft_modEq a _⟩,
    _, rfl, _, rfl, toInt_shiftedRight a _⟩

namespace CountsOutOfRange

/-- Minus two shifts a signed byte by six places, which takes three to its wrapped 192, and `A`, the
number 65, shifts a 64-bit integer by one place, which rounds half of minus five down. -/
theorem counts_wrap_around :
    GivesWrapped .sbyte (3 * 2 ^ 6)
      (binary .leftShift (.ofInt .sbyte 3) (.ofInt .int64 (-2)) true) ∧
    Gives .int64 (-3) (binary .rightShift (.ofInt .int64 (-5)) (.char 'A') false) :=
  ⟨(shifts_by_count_modulo_width (is_ofInt (by decide)) (n := -2) (by decide) true).1,
    (shifts_by_count_modulo_width (is_ofInt (i := -5) (by decide)) (n := 65) rfl false).2⟩

end CountsOutOfRange

end ExprTree.Value
