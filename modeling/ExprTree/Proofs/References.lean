import ExprTree.Eval.Arithmetic
import ExprTree.Eval.Control
import ExprTree.Eval.Object

/-!
References and failures of operations on values.

An operator makes no reference: its result refers to nothing, or is one of its operands. And when it
fails, that is never for want of a label, which only a jump can miss. `Answers` says both of a
result.
-/

namespace ExprTree

/-- The place that a value refers to. -/
def Value.ref? : Value → Option Ref
  | .array r _ => some r
  | .object o => some o.ref
  | _ => none

@[simp] theorem Value.ref?_ofInt (k : Integral) (i : Int) : (Value.ofInt k i).ref? = none := rfl

@[simp] theorem Value.ref?_defaultOf (type : Ty) : (Value.defaultOf type).ref? = none := by
  cases type <;> rfl

/-- Whether a jump failed to find its label. -/
def Failure.isUnresolved : Failure → Bool
  | .unresolvedLabel _ => true
  | _ => false

/-- The result has the property, or is a failure that has nothing to do with labels. -/
def Answers {α : Type} (Q : α → Prop) : Except Failure α → Prop
  | .ok a => Q a
  | .error f => f.isUnresolved = false

namespace Answers

variable {α β : Type} {Q : α → Prop} {Q' : β → Prop}

@[simp] theorem ok_iff {a : α} : Answers Q (.ok a) ↔ Q a := Iff.rfl

@[simp] theorem error_iff {f : Failure} : Answers Q (.error f) ↔ f.isUnresolved = false := Iff.rfl

theorem bind {x : Except Failure α} {f : α → Except Failure β} (first : Answers Q x)
    (rest : ∀ a, Q a → Answers Q' (f a)) : Answers Q' (x >>= f) := by
  cases x with
  | ok a => exact rest a first
  | error f => exact first

theorem map {x : Except Failure α} {f : α → β} (first : Answers Q x)
    (rest : ∀ a, Q a → Q' (f a)) : Answers Q' (f <$> x) := by
  cases x with
  | ok a => exact rest a first
  | error f => exact first

theorem imp {P : α → Prop} {x : Except Failure α} (first : Answers P x)
    (weaker : ∀ a, P a → Q a) : Answers Q x := by
  cases x with
  | ok a => exact weaker a first
  | error f => exact first

theorem getD {x : Option (Except Failure α)} {y : Except Failure α}
    (some : ∀ z ∈ x, Answers Q z) (none : Answers Q y) : Answers Q (x.getD y) := by
  cases x with
  | none => exact none
  | some z => exact some z rfl

end Answers

namespace Value

/-! ### Conversion -/

theorem answers_narrow (checked : Bool) (k : Integral) (i : Int) :
    Answers (·.ref? = none) (narrow checked k i) := by
  unfold narrow
  split
  · rfl
  · rfl

theorem answers_charOfCode (checked : Bool) (source : Ty) (i : Int) :
    Answers (·.ref? = none) (charOfCode checked source i) := by
  unfold charOfCode
  split
  · rfl
  · dsimp only
    split
    · rfl
    · rfl

theorem answers_ofInteger (checked : Bool) (source : Ty) (i : Int) (target : Ty) :
    Answers (fun v => ∀ w ∈ v, w.ref? = none) (ofInteger checked source i target) := by
  cases target with
  | integral k => exact (answers_narrow checked k i).map (by simp)
  | char => exact (answers_charOfCode checked source i).map (by simp)
  | _ => simp [ofInteger, Value.ref?]

theorem answers_ofFloat (checked : Bool) (source : Ty) (x : Float) (target : Ty) :
    Answers (fun v => ∀ w ∈ v, w.ref? = none) (ofFloat checked source x target) := by
  unfold ofFloat
  split
  · simp [Value.ref?]
  · simp [Value.ref?]
  · split
    · rfl
    · exact answers_ofInteger _ _ _ _

theorem answers_toNumber (checked : Bool) (v : Value) (target : Ty) :
    Answers (fun w => ∀ u ∈ w, u.ref? = none) (toNumber checked v target) := by
  unfold toNumber
  split
  · exact answers_ofInteger _ _ _ _
  · exact answers_ofFloat _ _ _ _
  · simp

theorem answers_upcast (v : Value) (target : Ty) : Answers (· = v) (upcast v target) := by
  unfold upcast
  split
  · rfl
  · rfl

/-- A conversion gives the value itself or one that refers to nothing. -/
theorem answers_convert (v : Value) (target : Ty) (checked : Bool) :
    Answers (fun w => w = v ∨ w.ref? = none) (convert v target checked) := by
  have upcast : Answers (fun w => w = v ∨ w.ref? = none) (v.upcast target) :=
    (answers_upcast v target).imp fun _ => .inl
  unfold convert
  split
  · exact .inl rfl
  · split
    · split
      · rfl
      · exact .inr rfl
    · split
      · refine (answers_toNumber checked v target).bind fun converted plain => ?_
        cases converted with
        | none => exact upcast
        | some w => exact .inr (plain w rfl)
      · exact upcast

/-! ### Operators -/

theorem answers_mismatch (op : BinaryOp) (left right : Value) :
    Answers (·.ref? = none) (mismatch op left right : Except Failure Value) := rfl

theorem answers_integralBinary? {op : BinaryOp} {checked : Bool} {k : Integral}
    {a b : BitVec k.width} {x : Except Failure Value}
    (given : x ∈ integralBinary? op checked k a b) : Answers (·.ref? = none) x := by
  unfold integralBinary? at given
  split at given <;> cases given
  · exact answers_narrow _ _ _
  · exact answers_narrow _ _ _
  · exact answers_narrow _ _ _
  · split
    · rfl
    · exact answers_narrow _ _ _
  · split
    · rfl
    · rfl
  all_goals rfl

theorem answers_compareBy (op : BinaryOp) (left right : Value) :
    Answers (·.ref? = none) (compareBy op left right) := by
  unfold compareBy
  split
  · rfl
  · rfl
  · split
    · rfl
    · rfl

theorem answers_power (left right : Value) : Answers (·.ref? = none) (power left right) := by
  unfold power
  split
  · rfl
  · rfl

theorem answers_map_ok {v : Option Value} (plain : ∀ w ∈ v, w.ref? = none) :
    ∀ x ∈ v.map Except.ok, Answers (·.ref? = none) (x : Except Failure Value) := by
  rintro x given
  obtain ⟨w, found, rfl⟩ := Option.map_eq_some_iff.mp given
  exact plain w found

theorem answers_combine (op : BinaryOp) (checked : Bool) (left right : Value) :
    Answers (·.ref? = none) (combine op checked left right) := by
  unfold combine
  split
  · refine .getD (answers_map_ok fun w given => ?_) (answers_mismatch _ _ _)
    unfold booleanBinary? at given
    split at given <;> cases given <;> rfl
  · split
    · exact .getD (fun _ => answers_integralBinary?) (answers_mismatch _ _ _)
    · exact answers_mismatch _ _ _
  · refine .getD (answers_map_ok fun w given => ?_) (answers_mismatch _ _ _)
    unfold singleBinary? at given
    split at given <;> cases given <;> rfl
  · refine .getD (answers_map_ok fun w given => ?_) (answers_mismatch _ _ _)
    unfold doubleBinary? at given
    split at given <;> cases given <;> rfl
  · exact answers_mismatch _ _ _

/-- A binary operator gives a value that refers to nothing. -/
theorem answers_binary (op : BinaryOp) (left right : Value) (checked : Bool) :
    Answers (·.ref? = none) (binary op left right checked) := by
  unfold binary
  split
  · exact answers_compareBy _ _ _
  · split
    · exact answers_power _ _
    · split
      · rfl
      · split
        · exact (answers_convert _ _ _).bind fun _ _ => answers_combine _ _ _ _
        · exact answers_combine _ _ _ _

/-- A unary operator gives a value that refers to nothing. -/
theorem answers_unary (op : UnaryOp) (v : Value) : Answers (·.ref? = none) (unary op v) := by
  have bad : Answers (·.ref? = none) (badOperand op v) := rfl
  cases v with
  | boolean b =>
      cases op with
      | not | isFalse | isTrue => rfl
      | _ => exact bad
  | integral k bits =>
      cases op with
      | negate | negateChecked => exact answers_narrow _ _ _
      | increment | preIncrementAssign | postIncrementAssign =>
          exact answers_narrow false k (k.toInt bits + 1)
      | decrement | preDecrementAssign | postDecrementAssign =>
          exact answers_narrow false k (k.toInt bits - 1)
      | unaryPlus | not | onesComplement => rfl
      | _ => exact bad
  | single x =>
      cases op with
      | negate | negateChecked | unaryPlus | increment | decrement | preIncrementAssign
      | preDecrementAssign | postIncrementAssign | postDecrementAssign => rfl
      | _ => exact bad
  | double x =>
      cases op with
      | negate | negateChecked | unaryPlus | increment | decrement | preIncrementAssign
      | preDecrementAssign | postIncrementAssign | postDecrementAssign => rfl
      | _ => exact bad
  | _ => exact bad

theorem castOrNull_eq (v : Value) (type : Ty) :
    v.castOrNull type = v ∨ (v.castOrNull type).ref? = none := by
  unfold castOrNull
  split
  · exact .inl rfl
  · exact .inr rfl

end Value

/-! ### Elements -/

namespace Eval

theorem answers_truth (v : Value) : Answers (fun _ => True) (truth v) := by
  cases v <;> simp [truth, Failure.isUnresolved]

theorem answers_count (n : Nat) : Answers (·.ref? = none) (count n) := Value.answers_narrow _ _ _

theorem answers_position (length : Nat) (index : Value) :
    Answers (· < length) (position length index) := by
  unfold position
  split
  · rfl
  · split
    case isTrue bounds => simp only [Answers.ok_iff]; omega
    case isFalse => rfl

theorem answers_elementAt (items : Array Value) (index : Value) :
    Answers (· ∈ items) (elementAt items index) := by
  refine (answers_position items.size index).bind fun i bound => ?_
  simp only [Answers.ok_iff, Array.getD, dif_pos bound]
  exact Array.getElem_mem bound

end Eval

end ExprTree
