import ExprTree.Eval.Run
import ExprTree.Proofs.Acceptance
import ExprTree.Proofs.Computation
import ExprTree.Proofs.Primitive

/-!
Static types of calculations.

A calculation is built from constants by operators and choices. Its static type is taken from the
left operand alone, while the value is made of both. The two agree (`Expr.Calculation.gives_run`),
with one exception: what stands before a string is joined to it, so that a sum whose right operand
alone is a string has a string as its value and the type of its left operand as its static type.
-/

namespace ExprTree

/-! ### The types of results -/

namespace Value

/-- Whether a value is a Boolean, a character, a string or a number. -/
def isScalar : Value → Bool
  | .boolean _ | .char _ | .string _ | .integral .. | .single _ | .double _ => true
  | _ => false

/-- The value is a scalar of the type. -/
structure IsOf (t : Ty) (v : Value) : Prop where
  type : v.typeOf = t
  scalar : v.isScalar = true

variable {t : Ty} {v a b : Value} {op : BinaryOp} {checked : Bool}

theorem IsOf.isString_iff (isOf : v.IsOf t) : v.isString = true ↔ t = .string := by
  obtain ⟨rfl, scalar⟩ := isOf
  cases v <;> simp [isString, typeOf, isScalar] at scalar ⊢

theorem isOf_narrow {k : Integral} {i : Int} (ok : narrow checked k i = .ok v) :
    v.IsOf (.integral k) := by
  unfold narrow at ok
  split at ok <;> cases ok
  exact ⟨rfl, rfl⟩

/-- A unary operator says what type its results have. -/
theorem isOf_unary {op : UnaryOp} (ok : unary op a = .ok v) : v.IsOf (op.resultType a.typeOf) := by
  cases a with
  | boolean x =>
      cases op <;> simp only [unary, badOperand, reduceCtorEq, Except.ok.injEq] at ok <;>
        subst ok <;> exact ⟨rfl, rfl⟩
  | integral k bits =>
      cases op <;> simp only [unary, badOperand, addsOne, subtractsOne, reduceCtorEq,
        Bool.false_eq_true, if_true, if_false, Except.ok.injEq] at ok
      case unaryPlus | not | onesComplement =>
        subst ok
        exact ⟨rfl, rfl⟩
      all_goals exact isOf_narrow ok
  | single x | double x =>
      cases op <;> simp only [unary, badOperand, addsOne, subtractsOne, reduceCtorEq,
        Bool.false_eq_true, if_true, if_false, Except.ok.injEq] at ok <;>
        subst ok <;> exact ⟨rfl, rfl⟩
  | _ => cases ok

theorem isOf_booleanBinary {x y : Bool} (found : booleanBinary? op x y = some v) :
    v.IsOf (op.resultType .boolean false) := by
  cases op <;> cases found <;> exact ⟨rfl, rfl⟩

theorem isOf_singleBinary {x y : Float32} (found : singleBinary? op x y = some v) :
    v.IsOf (op.resultType .single false) := by
  cases op <;> cases found <;> exact ⟨rfl, rfl⟩

theorem isOf_doubleBinary {x y : Float} (found : doubleBinary? op x y = some v) :
    v.IsOf (op.resultType .double false) := by
  cases op <;> cases found <;> exact ⟨rfl, rfl⟩

theorem isOf_integralBinary {k : Integral} {x y : BitVec k.width}
    (found : integralBinary? op checked k x y = some (.ok v)) :
    v.IsOf (op.resultType (.integral k) false) := by
  cases op <;>
    simp only [integralBinary?, Option.some.injEq, Except.ok.injEq, reduceCtorEq] at found
  case add | subtract | multiply => exact isOf_narrow found
  case divide =>
    split at found
    · cases found
    · exact isOf_narrow found
  case modulo =>
    split at found <;> cases found
    exact ⟨rfl, rfl⟩
  all_goals
    subst found
    exact ⟨rfl, rfl⟩

/-- Operators of arithmetic, bits and logic keep the type of their operands. -/
theorem isOf_combine (ok : combine op checked a b = .ok v) :
    v.IsOf (op.resultType a.typeOf false) := by
  have of_getD {found : Option (Except Failure Value)}
      (ok : found.getD (mismatch op a b) = .ok v) : found = some (.ok v) := by
    cases found with
    | none => cases ok
    | some result => exact congrArg some ok
  have of_map {found : Option Value} (ok : (found.map Except.ok).getD (mismatch op a b) = .ok v) :
      found = some v := by
    obtain ⟨w, isSome, made⟩ := Option.map_eq_some_iff.mp (of_getD ok)
    exact Except.ok.inj made ▸ isSome
  unfold combine at ok
  split at ok
  · exact isOf_booleanBinary (of_map ok)
  · split at ok
    · exact isOf_integralBinary (of_getD ok)
    · cases ok
  · exact isOf_singleBinary (of_map ok)
  · exact isOf_doubleBinary (of_map ok)
  · cases ok

theorem isOf_compareBy (ok : compareBy op a b = .ok v) : v.IsOf .boolean := by
  unfold compareBy at ok
  split at ok
  · cases ok
    exact ⟨rfl, rfl⟩
  · cases ok
    exact ⟨rfl, rfl⟩
  · split at ok <;> cases ok
    exact ⟨rfl, rfl⟩

theorem isOf_power (ok : power a b = .ok v) : v.IsOf .double := by
  unfold power at ok
  split at ok <;> cases ok
  exact ⟨rfl, rfl⟩

/-- What is joined to a string is a string. -/
theorem isOf_binary_of_isString (ok : binary .add a b checked = .ok v)
    (strings : (a.isString || b.isString) = true) : v.IsOf .string := by
  simp only [binary, BinaryOp.isComparison, Bool.false_eq_true, if_false, reduceCtorEq, decide_true,
    Bool.true_and, strings, if_true, Except.ok.injEq] at ok
  subst ok
  exact ⟨rfl, rfl⟩

/-- A binary operator says what type its results have, unless it joins its left operand to a
string. -/
theorem isOf_binary (ok : binary op a b checked = .ok v)
    (joins : op = .add → b.isString = true → a.isString = true) :
    v.IsOf (op.resultType a.typeOf false) := by
  unfold binary at ok
  split at ok
  case isTrue comparison =>
      have boolean : op.resultType a.typeOf false = .boolean := by
        cases op <;> cases comparison <;> rfl
      exact boolean ▸ isOf_compareBy ok
  case isFalse comparison =>
      split at ok
      case isTrue power =>
          subst power
          exact isOf_power ok
      case isFalse =>
          split at ok
          case isTrue strings =>
              simp only [Bool.and_eq_true, Bool.or_eq_true, decide_eq_true_eq] at strings
              obtain ⟨rfl, strings⟩ := strings
              have string : a.isString = true := strings.elim id (joins rfl)
              cases ok
              cases a <;> cases string
              exact ⟨rfl, rfl⟩
          case isFalse =>
              split at ok
              case isTrue =>
                  cases converted : b.convert a.typeOf false with
                  | error f =>
                      rw [converted] at ok
                      cases ok
                  | ok count =>
                      rw [converted] at ok
                      exact isOf_combine ok
              case isFalse => exact isOf_combine ok

end Value

/-! ### Calculations -/

/-- The unary operators that make a value of another one. -/
def UnaryOp.calculates : UnaryOp → Bool
  | .negate | .negateChecked | .unaryPlus | .not | .onesComplement | .increment | .decrement
  | .isTrue | .isFalse => true
  | _ => false

/-- The binary operators of arithmetic, bits, shifts, comparison, logic and powers. -/
def BinaryOp.calculates : BinaryOp → Bool
  | .coalesce | .assign | .arrayIndex => false
  | _ => true

/-- An expression that is built from constants by operators and by choices between two values. -/
inductive Expr.Calculation : Expr → Prop
  | constant {v : Value} {e : Expr} {k k' : Supply} (scalar : v.isScalar = true)
      (built : Build.constant v k = .ok (e, k')) : Calculation e
  | unary {op : UnaryOp} {a e : Expr} {k k' : Supply} (calculates : op.calculates = true)
      (operand : Calculation a) (built : Build.unary op a k = .ok (e, k')) : Calculation e
  | binary {op : BinaryOp} {a b e : Expr} {checked : Bool} {k k' : Supply}
      (calculates : op.calculates = true) (left : Calculation a) (right : Calculation b)
      (built : Build.binaryWith op a b false checked k = .ok (e, k')) : Calculation e
  | conditional {t a b e : Expr} {k k' : Supply} (test : Calculation t) (ifTrue : Calculation a)
      (ifFalse : Calculation b) (built : Build.conditional t a b k = .ok (e, k')) : Calculation e

/-- Whether a node is a sum of which the right operand alone has the type of strings. -/
def Expr.joinsFromRight (e : Expr) : Bool :=
  match e.node with
  | .binary .add left right _ _ _ => right.type = .string && left.type ≠ .string
  | _ => false

namespace Eval

variable {host : Host} {n : Nat}

theorem Gives.lift {α : Type} {post : α → Prop} {x : Except Failure α}
    (answers : ∀ a, x = .ok a → post a) : Gives post (liftM x : Eval α) := by
  cases x with
  | ok a => exact .pure (answers a rfl)
  | error f => rintro s a s' ⟨⟩

variable {run : Expr → Eval Value}

theorem gives_runUnary {op : UnaryOp} {a : Expr} {type : Ty} (calculates : op.calculates = true)
    (operand : Gives (Value.IsOf a.type) (run a)) :
    Gives (Value.IsOf (op.resultType a.type)) (runUnary host run op a type) := by
  have unfolded : runUnary host run op a type = run a >>= fun v => liftM (Value.unary op v) := by
    cases op <;> cases calculates <;> rfl
  rw [unfolded]
  refine operand.bind fun v isOf => .lift fun w ok => ?_
  exact isOf.type ▸ Value.isOf_unary ok

/-- A Boolean that is asked for its truth. -/
theorem gives_judge {x : Eval Value} {rest : Bool → Eval Value}
    (each : ∀ b, Gives (Value.IsOf .boolean) (rest b)) :
    Gives (Value.IsOf .boolean) (x >>= fun v => liftM (truth v) >>= rest) :=
  (Gives.trivial x).bind fun _ _ => (Gives.trivial _).bind fun b _ => each b

theorem gives_runBinary {op : BinaryOp} {a b : Expr} {checked : Bool}
    (calculates : op.calculates = true) (left : Gives (Value.IsOf a.type) (run a))
    (right : Gives (Value.IsOf b.type) (run b))
    (joins : op = .add → b.type = .string → a.type = .string) :
    Gives (Value.IsOf (op.resultType a.type false)) (runBinary host run op a b false checked) := by
  have answer (b : Bool) : Gives (Value.IsOf .boolean) (pure (.boolean b)) := .pure ⟨rfl, rfl⟩
  cases op with
  | andAlso =>
      refine gives_judge fun holds => ?_
      cases holds with
      | false => exact answer false
      | true => exact gives_judge answer
  | orElse =>
      refine gives_judge fun holds => ?_
      cases holds with
      | false => exact gives_judge answer
      | true => exact answer true
  | coalesce | assign | arrayIndex => cases calculates
  | _ =>
      refine left.bind fun v isOf => right.bind fun w isOf' => ?_
      refine Gives.bind (.lift fun r ok => ?_) fun r made => .pure made
      refine isOf.type ▸ Value.isOf_binary ok fun add string => ?_
      exact isOf.isString_iff.mpr (joins add (isOf'.isString_iff.mp string))

/-- What a node gives with any fuel that is left, its expression gives. -/
theorem gives_run_of_runNode {post : Value → Prop} {e : Expr}
    (step : ∀ n, Gives post (runNode host (Eval.run host n) n e)) (n : Nat) :
    Gives post (Eval.run host n e) := by
  cases n with
  | zero => rintro s a s' ⟨⟩
  | succ n => exact step n

end Eval

theorem Build.node_of_conditional {test ifTrue ifFalse e : Expr} {k k' : Supply}
    (ok : Build.conditional test ifTrue ifFalse k = .ok (e, k')) :
    ifTrue.type = ifFalse.type ∧
      e.node = .conditional test ifTrue (some ifFalse) ifTrue.type := by
  obtain ⟨_, m, required, made⟩ := Build.bind_eq_ok.mp ok
  have same := require_eq_ok.mp (Build.lift_eq_ok.mp required).1
  exact ⟨of_decide_eq_true same, Build.node_of_checked made⟩

namespace Expr.Calculation

open Eval (Gives)

variable {e : Expr} {host : Host}

/-- A calculation gives scalars of its static type, if nothing in it is joined to a string from the
left. -/
theorem gives_run (calculation : e.Calculation) (proper : e.All fun d => d.joinsFromRight = false)
    (n : Nat) : Gives (Value.IsOf e.type) (Eval.run host n e) := by
  induction calculation generalizing n with
  | @constant v e _ _ scalar built =>
      obtain ⟨id, node⟩ := e
      cases Build.node_of_checked built
      exact Eval.gives_run_of_runNode (fun _ => .pure ⟨rfl, scalar⟩) n
  | @unary op a e _ _ calculates operand built ih =>
      obtain ⟨id, node⟩ := e
      cases Build.node_of_checked built
      have below := (Expr.all_iff.mp proper).2 a (List.mem_singleton_self a)
      exact Eval.gives_run_of_runNode (fun n => Eval.gives_runUnary calculates (ih below n)) n
  | @binary op a b e checked _ _ calculates left right built ihl ihr =>
      obtain ⟨id, node⟩ := e
      cases Build.node_of_checked built
      obtain ⟨root, below⟩ := Expr.all_iff.mp proper
      simp only [Expr.children, Node.children, List.forall_mem_cons] at below
      refine Eval.gives_run_of_runNode (fun n => ?_) n
      refine Eval.gives_runBinary calculates (ihl below.1 n) (ihr below.2.1 n) ?_
      rintro rfl string
      simpa [Expr.joinsFromRight, string] using root
  | @conditional t a b e _ _ test ifTrue ifFalse built _ iht ihf =>
      obtain ⟨id, node⟩ := e
      obtain ⟨same, made⟩ := Build.node_of_conditional built
      cases made
      obtain ⟨-, below⟩ := Expr.all_iff.mp proper
      simp only [Expr.children, Node.children, Option.toList_some, List.forall_mem_cons] at below
      refine Eval.gives_run_of_runNode (fun n => ?_) n
      refine (Gives.trivial _).bind fun v _ => (Gives.trivial _).bind fun holds _ => ?_
      cases holds with
      | true => exact iht below.2.1 n
      | false => exact same ▸ ihf below.2.2.1 n

/-- A sum whose right operand alone is a string gives strings. -/
theorem gives_run_of_joinsFromRight (calculation : e.Calculation) (joins : e.joinsFromRight = true)
    (proper : ∀ c ∈ e.children, c.All fun d => d.joinsFromRight = false) (n : Nat) :
    Gives (Value.IsOf .string) (Eval.run host n e) ∧ e.type ≠ .string := by
  obtain ⟨id, node⟩ := e
  cases calculation with
  | constant _ built | unary _ _ built =>
      cases Build.node_of_checked built
      cases joins
  | conditional _ _ _ built =>
      cases (Build.node_of_conditional built).2
      cases joins
  | @binary op a b _ checked _ _ _ left right built =>
      cases Build.node_of_checked built
      cases op <;> try cases joins
      simp only [Expr.joinsFromRight, Bool.and_eq_true, decide_eq_true_eq] at joins
      simp only [Expr.children, Node.children, List.forall_mem_cons] at proper
      refine ⟨Eval.gives_run_of_runNode (fun n => ?_) n, joins.2⟩
      refine (Gives.trivial (Eval.run host n a)).bind fun v _ => ?_
      refine (right.gives_run proper.2.1 n).bind fun w isOf => ?_
      have string : w.isString = true := isOf.isString_iff.mpr joins.1
      refine Gives.bind (.lift fun r ok => ?_) fun r made => .pure made
      exact Value.isOf_binary_of_isString ok (by rw [string, Bool.or_true])

theorem isPrimitive (calculation : e.Calculation) : e.IsPrimitive := by
  induction calculation with
  | @constant v e _ _ scalar built =>
      obtain ⟨id, node⟩ := e
      cases Build.node_of_checked built
      exact Expr.all_iff.mpr ⟨rfl, by simp [Expr.children, Node.children]⟩
  | @unary op a e _ _ _ _ built ih =>
      obtain ⟨id, node⟩ := e
      cases Build.node_of_checked built
      exact Expr.all_iff.mpr ⟨rfl, List.forall_mem_singleton.mpr ih⟩
  | @binary op a b e checked _ _ _ _ _ built ihl ihr =>
      obtain ⟨id, node⟩ := e
      cases Build.node_of_checked built
      exact Expr.all_iff.mpr ⟨rfl, by simpa [Expr.children, Node.children] using ⟨ihl, ihr⟩⟩
  | @conditional t a b e _ _ _ _ _ built iht iha ihb =>
      obtain ⟨id, node⟩ := e
      cases (Build.node_of_conditional built).2
      exact Expr.all_iff.mpr ⟨rfl, by simpa [Expr.children, Node.children] using ⟨iht, iha, ihb⟩⟩

/-- A calculation is evaluated as it is. -/
theorem run_of_evaluate (calculation : e.Calculation) {n : Nat} {s s' : State} {v : Value}
    (given : e.evaluate host n s = some (.value v, s')) :
    Eval.run host n e s = some (.value v, s') := by
  rw [Expr.evaluate, Expr.lower_of_isPrimitive calculation.isPrimitive] at given
  obtain ⟨⟨o, m⟩, ended, concluded⟩ := Option.map_eq_some_iff.mp given
  cases o <;> cases concluded
  exact ended

end Expr.Calculation

/-- The value of a calculation has its static type, if nothing in the calculation is joined to a
string from the left. At a sum that does join its left operand to a string the two types differ: the
value is a string, and the static type is that of the left operand, which is none. -/
theorem value_of_static_type_unless_joined {e : Expr} (calculation : e.Calculation) {host : Host}
    {n : Nat} {s s' : State} {v : Value} (given : e.evaluate host n s = some (.value v, s')) :
    (e.All (fun d => d.joinsFromRight = false) → v.typeOf = e.type) ∧
    (e.joinsFromRight = true → (∀ c ∈ e.children, c.All fun d => d.joinsFromRight = false) →
      v.typeOf = .string ∧ e.type ≠ .string) := by
  have ended := calculation.run_of_evaluate given
  constructor
  · intro proper
    exact (calculation.gives_run proper n s v s' ended).type
  · intro joins proper
    obtain ⟨strings, other⟩ := calculation.gives_run_of_joinsFromRight joins proper n
    exact ⟨(strings s v s' ended).type, other⟩

/-! ### Sums with a string

`1 + "a"`, and `~1 < 1 ? "a" + 1 : "b"`. -/

namespace SumsWithString

def one (id : Identity) : Expr := ⟨id, .constant (.int32 1) .int32⟩

def text (id : Identity) (s : String) : Expr := ⟨id, .constant (.string s) .string⟩

/-- The left operand is joined to the string. -/
def joined : Expr := ⟨2, .binary .add (one 0) (text 1 "a") false false .int32⟩

/-- The right operand is joined to the string. -/
def sum : Expr := ⟨6, .binary .add (text 4 "a") (one 5) false false .string⟩

def complement : Expr := ⟨1, .unary .onesComplement (one 0) .int32⟩

def test : Expr := ⟨3, .binary .lessThan complement (one 2) false false .boolean⟩

def chosen : Expr := ⟨8, .conditional test sum (some (text 7 "b")) .string⟩

theorem calculation_one (id : Identity) : (one id).Calculation :=
  .constant (v := .int32 1) (k := id) rfl rfl

theorem calculation_text (id : Identity) (s : String) : (text id s).Calculation :=
  .constant (v := .string s) (k := id) rfl rfl

theorem calculation_joined : joined.Calculation := by
  have built : Build.binary .add (one 0) (text 1 "a") 2 = .ok (joined, 3) := rfl
  exact .binary rfl (calculation_one 0) (calculation_text 1 "a") built

theorem calculation_chosen : chosen.Calculation := by
  have complemented : Build.unary .onesComplement (one 0) 1 = .ok (complement, 2) := rfl
  have tested : Build.binary .lessThan complement (one 2) 3 = .ok (test, 4) := rfl
  have summed : Build.binary .add (text 4 "a") (one 5) 6 = .ok (sum, 7) := rfl
  have built : Build.conditional test sum (text 7 "b") 8 = .ok (chosen, 9) := rfl
  refine .conditional ?_ ?_ (calculation_text 7 "b") built
  · exact .binary rfl (.unary rfl (calculation_one 0) complemented) (calculation_one 2) tested
  · exact .binary rfl (calculation_text 4 "a") (calculation_one 5) summed

/-- Both are evaluated to strings, and one of them has the static type of integers. -/
theorem strings_of_two_static_types :
    (∃ v s', joined.evaluate .absent 2 {} = some (.value v, s') ∧ v.typeOf = .string ∧
      joined.type = .int32 ∧ joined.type ≠ .string) ∧
    ∃ v s', chosen.evaluate .absent 4 {} = some (.value v, s') ∧ v.typeOf = chosen.type ∧
      chosen.type = .string := by
  have differ {v : Value} {s' : State}
      (given : joined.evaluate .absent 2 {} = some (.value v, s')) :
      v.typeOf = .string ∧ joined.type ≠ .string :=
    (value_of_static_type_unless_joined calculation_joined given).2 rfl (by decide)
  have agree {v : Value} {s' : State} (given : chosen.evaluate .absent 4 {} = some (.value v, s')) :
      v.typeOf = chosen.type :=
    (value_of_static_type_unless_joined calculation_chosen given).1 (by decide)
  obtain ⟨string, other⟩ := differ rfl
  exact ⟨⟨_, _, rfl, string, rfl, other⟩, _, _, rfl, agree rfl, rfl⟩

end SumsWithString

end ExprTree
