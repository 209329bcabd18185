import ExprTree.Eval.Run
import ExprTree.Proofs.Computation
import ExprTree.Proofs.Integers

/-!
Conversions.

A conversion gives a value that a location of the type can hold (`Value.fits_of_convert`), and gives
it back when it is converted again. Checking for overflow makes a conversion fail more often and
changes nothing else (`Value.convert_checked`). For a reference type the cast, the test and the
conditional cast ask one question, whether the type accepts the value (`Value.convert_reference`).
-/

namespace ExprTree

/-- The first is the same as the second, or reports overflow. -/
def SameOrOverflow {α : Type} (a b : Except Failure α) : Prop := a = b ∨ a = .error .overflow

theorem SameOrOverflow.map {α β : Type} {a b : Except Failure α} (f : α → β)
    (either : SameOrOverflow a b) : SameOrOverflow (f <$> a) (f <$> b) := by
  rcases either with rfl | rfl
  · exact .inl rfl
  · exact .inr rfl

theorem SameOrOverflow.bind {α β : Type} {a b : Except Failure α} (f : α → Except Failure β)
    (either : SameOrOverflow a b) : SameOrOverflow (a >>= f) (b >>= f) := by
  rcases either with rfl | rfl
  · exact .inl rfl
  · exact .inr rfl

namespace Value

variable {v r : Value} {t : Ty} {checked : Bool}

/-! ### Numbers -/

theorem typeOf_of_ofInteger {source : Ty} {i : Int}
    (ok : ofInteger checked source i t = .ok (some r)) : r.typeOf = t := by
  cases t with
  | integral k =>
      simp only [ofInteger, narrow] at ok
      split at ok <;> cases ok
      rfl
  | char =>
      simp only [ofInteger, charOfCode] at ok
      split at ok
      · cases ok
      · split at ok <;> cases ok
        rfl
  | single | double =>
      cases ok
      rfl
  | _ => cases ok

theorem typeOf_of_toNumber (ok : v.toNumber checked t = .ok (some r)) : r.typeOf = t := by
  unfold toNumber at ok
  split at ok
  · exact typeOf_of_ofInteger ok
  · unfold ofFloat at ok
    split at ok
    · cases ok
      rfl
    · cases ok
      rfl
    · split at ok
      · cases ok
      · exact typeOf_of_ofInteger ok
  · cases ok

theorem narrow_checked (k : Integral) (i : Int) :
    SameOrOverflow (narrow true k i) (narrow false k i) := by
  unfold narrow
  cases k.holds i
  · exact .inr rfl
  · exact .inl rfl

theorem charOfCode_checked (source : Ty) (i : Int) :
    SameOrOverflow (charOfCode true source i) (charOfCode false source i) := by
  unfold charOfCode
  cases Integral.uint16.holds i
  · exact .inr rfl
  · exact .inl rfl

theorem ofInteger_checked (source : Ty) (i : Int) (t : Ty) :
    SameOrOverflow (ofInteger true source i t) (ofInteger false source i t) := by
  cases t with
  | integral k => exact (narrow_checked k i).map some
  | char => exact (charOfCode_checked source i).map some
  | _ => exact .inl rfl

theorem toNumber_checked (v : Value) (t : Ty) :
    SameOrOverflow (v.toNumber true t) (v.toNumber false t) := by
  unfold toNumber
  split
  · exact ofInteger_checked _ _ t
  · next x _ _ =>
      unfold ofFloat
      split
      · exact .inl rfl
      · exact .inl rfl
      · cases x.isFinite
        · exact .inr rfl
        · exact ofInteger_checked _ _ t
  · exact .inl rfl

/-! ### What a conversion gives -/

/-- A value that a location of the type can hold: of exactly that type if it is held directly, and
otherwise null or of a type that the location accepts. -/
def Fits (t : Ty) (r : Value) : Prop :=
  if t.isValueType then r.typeOf = t else r = .null ∨ t.assignableFrom r.typeOf = true

theorem isNull_iff : v.isNull = true ↔ v = .null := by
  cases v <;> simp [isNull]

theorem convert_of_typeOf (same : v.typeOf = t) : v.convert t checked = .ok v := by
  rw [convert, if_pos same]

theorem convert_null (reference : t.isValueType = false) : null.convert t checked = .ok .null := by
  by_cases same : null.typeOf = t
  · exact convert_of_typeOf same
  · simp [convert, same, isNull, reference]

theorem isValueType_of_number (number : (t.isNumeric || t = .char) = true) :
    t.isValueType = true := by
  cases t <;> simp [Ty.isNumeric, Ty.isValueType] at number ⊢

/-- A value that is not null becomes one of a reference type exactly if the type accepts it, and is
kept as it is. -/
theorem convert_reference (reference : t.isValueType = false) (present : v ≠ .null) :
    v.convert t checked =
      if t.assignableFrom v.typeOf then .ok v else .error (.invalidCast v.typeOf t) := by
  have noNumber : (t.isNumeric || t = .char) = false := by
    rw [← Bool.not_eq_true]
    intro number
    rw [isValueType_of_number number] at reference
    cases reference
  have noNull : v.isNull = false := by
    rw [← Bool.not_eq_true, isNull_iff]
    exact present
  by_cases same : v.typeOf = t
  · rw [convert_of_typeOf same, same, Ty.assignableFrom, if_pos rfl, if_pos rfl]
  · simp [convert, same, noNull, noNumber, upcast, reference]

/-- What becomes a value of a type that is held directly is of exactly that type. -/
theorem typeOf_of_convert (held : t.isValueType = true) (ok : v.convert t checked = .ok r) :
    r.typeOf = t := by
  have refused : v.upcast t = .error (.invalidCast v.typeOf t) := by simp [upcast, held]
  unfold convert at ok
  split at ok
  · next same =>
      cases ok
      exact same
  · split at ok
    · cases ok
    · split at ok
      · cases number : v.toNumber checked t with
        | error f =>
            rw [number] at ok
            cases ok
        | ok found =>
            rw [number] at ok
            cases found with
            | none => simp [refused, bind, Except.bind] at ok
            | some converted =>
                cases ok
                exact typeOf_of_toNumber number
      · rw [refused] at ok
        cases ok

theorem fits_of_convert (ok : v.convert t checked = .ok r) :
    r.Fits t ∧ ∀ again, r.convert t again = .ok r := by
  unfold Fits
  cases held : t.isValueType with
  | true =>
      have same := typeOf_of_convert held ok
      exact ⟨same, fun _ => convert_of_typeOf same⟩
  | false =>
      rw [if_neg Bool.false_ne_true]
      by_cases absent : v = .null
      · subst absent
        rw [convert_null held] at ok
        cases ok
        exact ⟨.inl rfl, fun _ => convert_null held⟩
      · rw [convert_reference held absent] at ok
        split at ok <;> cases ok
        next accepted =>
          refine ⟨.inr accepted, fun _ => ?_⟩
          rw [convert_reference held absent, if_pos accepted]

/-- A checked conversion does what the unchecked one does, or reports overflow. -/
theorem convert_checked (v : Value) (t : Ty) :
    SameOrOverflow (v.convert t true) (v.convert t false) := by
  unfold convert
  split
  · exact .inl rfl
  · split
    · exact .inl rfl
    · split
      · exact (toNumber_checked v t).bind _
      · exact .inl rfl

/-- An integer becomes one of another type: itself, if checked, and the one that agrees with it
modulo two to the width, if not. -/
theorem convert_integral {k l : Integral} {i : Int} (is : v.Is k i) :
    (l.InRange i → Gives l i (v.convert (.integral l) true)) ∧
    (¬ l.InRange i → v.convert (.integral l) true = .error .overflow) ∧
    GivesWrapped l i (v.convert (.integral l) false) := by
  obtain ⟨bits, rfl, rfl⟩ := is
  by_cases same : k = l
  · subst same
    have kept (checked : Bool) :
        (integral k bits).convert (.integral k) checked = .ok (.integral k bits) :=
      convert_of_typeOf rfl
    rw [kept, kept]
    refine ⟨fun _ => ⟨_, rfl, bits, rfl, rfl⟩, fun outside => ?_, _, _, rfl, ⟨bits, rfl, rfl⟩, rfl⟩
    exact absurd (Integral.inRange_toInt bits) outside
  · have narrows (checked : Bool) : (integral k bits).convert (.integral l) checked =
        narrow checked l (k.toInt bits) := by
      simp only [convert, typeOf, Ty.integral.injEq, same, if_false, isNull, Bool.false_eq_true,
        Ty.isNumeric, Bool.true_or, if_true, toNumber, integer?, ofInteger]
      cases narrow checked l (k.toInt bits) <;> rfl
    rw [narrows, narrows]
    exact ⟨gives_narrow, narrow_eq_overflow, givesWrapped_narrow l _⟩

end Value

/-! ### Casts in a tree -/

/-- The operators that convert their operand or fail. -/
def UnaryOp.isCast : UnaryOp → Bool
  | .convert | .convertChecked | .unbox => true
  | _ => false

namespace Eval

variable {host : Host} {fuel : Nat} {operand : Expr} {v : Value} {s s' : State}

theorem run_typeTest (ended : run host fuel operand s = some (.value v, s')) (i : Identity)
    (op : TypeOp) (t : Ty) :
    run host (fuel + 1) ⟨i, .typeTest op operand t⟩ s =
      some (.value (.boolean (v.passes op t)), s') :=
  bind_of_value ended

theorem run_typeAs (ended : run host fuel operand s = some (.value v, s')) (i : Identity) (t : Ty) :
    run host (fuel + 1) ⟨i, .unary .typeAs operand t⟩ s = some (.value (v.castOrNull t), s') :=
  bind_of_value ended

theorem run_cast {op : UnaryOp} (cast : op.isCast = true)
    (ended : run host fuel operand s = some (.value v, s')) (i : Identity) (t : Ty) :
    ∃ checked, run host (fuel + 1) ⟨i, .unary op operand t⟩ s =
      ofExcept (v.convert t checked) s' := by
  cases op with
  | convert | unbox => exact ⟨false, bind_of_value ended⟩
  | convertChecked => exact ⟨true, bind_of_value ended⟩
  | _ => cases cast

/-- The test, the conditional cast and the casts of an operand that has the value all go by whether
the type accepts it. -/
def CastsAgree (host : Host) (fuel : Nat) (operand : Expr) (s : State) (t : Ty) (v : Value)
    (s' : State) : Prop :=
  ∀ i,
    run host (fuel + 1) ⟨i, .typeTest .typeIs operand t⟩ s =
      some (.value (.boolean (t.assignableFrom v.typeOf)), s') ∧
    run host (fuel + 1) ⟨i, .unary .typeAs operand t⟩ s =
      some (.value (if t.assignableFrom v.typeOf then v else .null), s') ∧
    ∀ op, op.isCast = true → run host (fuel + 1) ⟨i, .unary op operand t⟩ s =
      some (if t.assignableFrom v.typeOf then .value v else .fail (.invalidCast v.typeOf t), s')

theorem casts_agree {t : Ty} (reference : t.isValueType = false) (present : v ≠ .null)
    (ended : run host fuel operand s = some (.value v, s')) :
    CastsAgree host fuel operand s t v s' := by
  have asks : v.passes .typeIs t = t.assignableFrom v.typeOf := by
    cases v <;> first | rfl | exact absurd rfl present
  refine fun i => ⟨?_, ?_, fun op cast => ?_⟩
  · rw [run_typeTest ended, asks]
  · rw [run_typeAs ended, Value.castOrNull, asks]
  · obtain ⟨checked, ran⟩ := run_cast cast ended i t
    rw [ran, Value.convert_reference reference present]
    cases t.assignableFrom v.typeOf <;> rfl

end Eval

open Value in
/-- A conversion that succeeds gives a value of the type, which converts to itself. Checking only
adds overflow as a reason to fail. From one integral type to another a checked conversion keeps the
integer, if the type has it, and an unchecked one wraps it. At a reference type the test, the
conditional cast and the casts of a value that is not null agree, and keep the value. -/
theorem conversions_are_sound_and_coherent (v : Value) (t : Ty) :
    (∀ checked r, v.convert t checked = .ok r →
      r.Fits t ∧ ∀ again, r.convert t again = .ok r) ∧
    (∀ r, v.convert t true = .ok r → v.convert t false = .ok r) ∧
    (∀ r f, v.convert t false = .ok r → v.convert t true = .error f → f = .overflow) ∧
    (∀ k l i, v.Is k i → t = .integral l →
      (l.InRange i → Gives l i (v.convert t true)) ∧
      (¬ l.InRange i → v.convert t true = .error .overflow) ∧
      GivesWrapped l i (v.convert t false)) ∧
    (t.isValueType = false → v ≠ .null → ∀ host fuel operand s s',
      Eval.run host fuel operand s = some (.value v, s') →
        Eval.CastsAgree host fuel operand s t v s') := by
  refine ⟨fun checked r => fits_of_convert, fun r ok => ?_, fun r f ok failed => ?_, ?_, ?_⟩
  · rcases convert_checked v t with same | overflows
    · rw [← same, ok]
    · rw [overflows] at ok
      cases ok
  · rcases convert_checked v t with same | overflows
    · rw [same, ok] at failed
      cases failed
    · rw [overflows] at failed
      exact (Except.error.inj failed).symm
  · rintro k l i is rfl
    exact convert_integral is
  · intro reference present host fuel operand s s' ended
    exact Eval.casts_agree reference present ended

namespace NarrowedAndCast

def text : Expr := ⟨0, .constant (.string "a") .string⟩

/-- Three hundred is no byte and wraps to forty-four; a string is an `object` and no array. -/
theorem string_is_object_only :
    (Value.int32 300).convert (.integral .byte) true = .error .overflow ∧
    (Value.int32 300).convert (.integral .byte) false = .ok (.ofInt .byte 44) ∧
    Value.GivesWrapped .byte 300 ((Value.int32 300).convert (.integral .byte) false) ∧
    Eval.run .absent 2 ⟨1, .unary .convert text .object⟩ {} = some (.value (.string "a"), {}) ∧
    Eval.run .absent 2 ⟨1, .typeTest .typeIs text (.array .string 1)⟩ {} =
      some (.value (.boolean false), {}) ∧
    Eval.run .absent 2 ⟨1, .unary .convert text (.array .string 1)⟩ {} =
      some (.fail (.invalidCast .string (.array .string 1)), {}) := by
  have coherent := conversions_are_sound_and_coherent
  have narrowed := (coherent (.int32 300) (.integral .byte)).2.2.2.1 .int32 .byte 300
    (Value.is_ofInt (by decide)) rfl
  have casts (t : Ty) (reference : t.isValueType = false) :=
    (coherent (.string "a") t).2.2.2.2 reference (by decide) .absent 1 text {} {} rfl
  exact ⟨narrowed.2.1 (by decide), rfl, narrowed.2.2,
    (casts .object rfl 1).2.2 .convert rfl, (casts (.array .string 1) rfl 1).1,
    (casts (.array .string 1) rfl 1).2.2 .convert rfl⟩

end NarrowedAndCast

end ExprTree
