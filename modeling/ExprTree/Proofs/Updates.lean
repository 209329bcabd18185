import ExprTree.Proofs.Fuel
import ExprTree.Proofs.Scoping

/-!
Updates: assignments that make a new value of the one that is there.

A compound assignment, or a step up or down, reads an element or a member, and stores to it what it
makes of the value. To find the place it evaluates the receiver and the indices of its target. It
does so once to read and again to store, so the place that is written is the one found the second
time. Where the parts of the target only look at variables, and at none that the right operand
assigns, both places are the same and the update does as if the parts were evaluated once.
-/

namespace ExprTree

/-- Whether the expression names an element or a member of something. What it names depends on the
values of its parts. -/
def Expr.isLocation (e : Expr) : Bool :=
  match e.node with
  | .member (some _) _ | .binary .arrayIndex .. | .index .. => true
  | _ => false

theorem Expr.isLocation_iff {e : Expr} : e.isLocation = true ↔
    (∃ receiver m, e.node = .member (some receiver) m) ∨
    (∃ left right assign checked type,
      e.node = .binary .arrayIndex left right assign checked type) ∨
    ∃ receiver arguments type, e.node = .index receiver arguments type := by
  unfold Expr.isLocation
  constructor
  · intro located
    split at located
    case h_1 receiver m made => exact .inl ⟨receiver, m, made⟩
    case h_2 made => exact .inr (.inl ⟨_, _, _, _, _, made⟩)
    case h_3 made => exact .inr (.inr ⟨_, _, _, made⟩)
    case h_4 => cases located
  · rintro (⟨_, _, made⟩ | ⟨_, _, _, _, _, made⟩ | ⟨_, _, _, made⟩) <;> simp only [made]

/-- Whether the operator steps a place up or down. -/
def UnaryOp.steps : UnaryOp → Bool
  | .preIncrementAssign | .preDecrementAssign | .postIncrementAssign | .postDecrementAssign => true
  | _ => false

/-- What an update does to the value of its target. -/
inductive Update where
  | compound (op : BinaryOp) (right : Expr) (checked : Bool) (compounds : op.hasCompoundForm = true)
  | step (op : UnaryOp) (steps : op.steps = true)

/-- The node that updates a target. -/
def Update.node (target : Expr) (type : Ty) : Update → Node
  | .compound op right checked _ => .binary op target right true checked type
  | .step op _ => .unary op target type

/-- The variables that are assigned between reading and storing. -/
def Update.assigned : Update → List Identity
  | .compound _ right _ _ => right.assigned
  | .step .. => []

/-- The value of the whole: the old one after a step that comes second, or else the new one. -/
def Update.result (current updated : Value) : Update → Value
  | .step .postIncrementAssign _ | .step .postDecrementAssign _ => current
  | _ => updated

/-- Whether a node only looks at variables and calculates with values. -/
def Expr.isStill (e : Expr) : Bool :=
  match e.node with
  | .constant .. | .parameter _ | .default _ | .typeTest .. | .conditional .. => true
  | .unary op _ _ => op ≠ .arrayLength && !op.steps
  | .binary op _ _ assign _ _ => op ≠ .assign && op ≠ .arrayIndex && !assign
  | _ => false

/-- The parts of a target only look at variables, and at none of these. -/
def Expr.Undisturbed (target : Expr) (ids : List Identity) : Prop :=
  ∀ part ∈ target.storeParts,
    part.All fun d => d.isStill = true ∧ ∀ x ∈ d.local?.toList, x ∉ ids

instance (target : Expr) (ids : List Identity) : Decidable (target.Undisturbed ids) :=
  inferInstanceAs (Decidable (∀ part ∈ target.storeParts,
    part.All fun d => d.isStill = true ∧ ∀ x ∈ d.local?.toList, x ∉ ids))

namespace Eval

/-! ### Places -/

section

variable (host : Host) (apply : Lambda → Frame → List Value → Eval Value)

/-- Read the place that a target names, given the values of its parts. -/
def readAt (target : Expr) (place : List Value) : Eval Value :=
  match target.node, place with
  | .member (some _) m, [receiver] => memberGet host receiver m
  | .binary .arrayIndex .., [array, index] => arrayGet array index
  | .index _ _ type, receiver :: arguments => indexGet host apply receiver arguments type
  | _, _ => fail (.unsupported target.kind)

/-- Write the place that a target names, given the values of its parts. -/
def writeAt (target : Expr) (place : List Value) (v : Value) : Eval Unit :=
  match target.node, place with
  | .member (some _) m, [receiver] => memberSet host receiver m v
  | .binary .arrayIndex .., [array, index] => arraySet array index v
  | .index .., receiver :: arguments => indexSet host apply receiver arguments v
  | _, _ => fail (.unsupported target.kind)

end

/-- The value that is stored, made of the one that was read. -/
def revise (run : Expr → Eval Value) (current : Value) : Update → Eval Value
  | .compound op right checked _ => do Value.binary op current (← run right) checked
  | .step op _ => Value.unary op current

/-- An update that evaluates the parts of its target twice: it reads the place that they name
first, and writes the one that they name then. -/
def updateTwice (host : Host) (run : Expr → Eval Value) (u : Update) (target : Expr) :
    Eval Value := do
  let place ← runAll run target.storeParts
  let current ← readAt host (applyWith run) target place
  let updated ← revise run current u
  let place' ← runAll run target.storeParts
  writeAt host (applyWith run) target place' updated
  return u.result current updated

/-- An update that evaluates the parts of its target once, and writes the place that it read. -/
def updateOnce (host : Host) (run : Expr → Eval Value) (u : Update) (target : Expr) :
    Eval Value := do
  let place ← runAll run target.storeParts
  let current ← readAt host (applyWith run) target place
  let updated ← revise run current u
  writeAt host (applyWith run) target place updated
  return u.result current updated

section

variable {target : Expr} (host : Host) (run : Expr → Eval Value)

theorem runAll_nil : runAll run [] = pure [] := rfl

theorem runAll_cons (e : Expr) (es : List Expr) :
    runAll run (e :: es) = run e >>= fun v => runAll run es >>= fun vs => pure (v :: vs) :=
  List.mapM_cons

/-- A location is read by finding the place first. -/
theorem runNode_of_isLocation (located : target.isLocation = true) (fuel : Nat) :
    runNode host run fuel target =
      runAll run target.storeParts >>= readAt host (applyWith run) target := by
  rcases Expr.isLocation_iff.mp located with ⟨receiver, m, made⟩ | ⟨left, right, _, _, _, made⟩ |
    ⟨receiver, arguments, type, made⟩
  all_goals
    simp only [Expr.storeParts, readAt, runNode, runBinary, made, runAll_cons, runAll_nil,
      bind_assoc, pure_bind]

/-- A location is stored to by finding the place first. -/
theorem store_of_isLocation (located : target.isLocation = true) (v : Value) :
    store host run target v = runAll run target.storeParts >>= fun place =>
      writeAt host (applyWith run) target place v := by
  rcases Expr.isLocation_iff.mp located with ⟨receiver, m, made⟩ | ⟨left, right, _, _, _, made⟩ |
    ⟨receiver, arguments, type, made⟩
  all_goals
    simp only [Expr.storeParts, writeAt, store, made, runAll_cons, runAll_nil, bind_assoc,
      pure_bind]

/-- An update evaluates its target, makes the new value, and stores it to the target. -/
theorem runNode_update (u : Update) (type : Ty) (id fuel : Nat) :
    runNode host run fuel ⟨id, u.node target type⟩ = run target >>= fun current =>
      revise run current u >>= fun updated =>
        store host run target updated >>= fun _ => pure (u.result current updated) := by
  cases u with
  | compound op right checked compounds =>
      cases op with
      | andAlso | orElse | coalesce | equal | notEqual | lessThan | lessThanOrEqual
      | greaterThan | greaterThanOrEqual | assign | arrayIndex => cases compounds
      | _ =>
          simp only [revise, bind_assoc]
          rfl
  | step op steps =>
      cases op with
      | preIncrementAssign | preDecrementAssign | postIncrementAssign | postDecrementAssign => rfl
      | _ => cases steps

end

/-! ### Properties of updates -/

namespace Compatible

variable {ι : Type} {P : (α : Type) → (ι → Eval α) → Prop} {run : ι → Expr → Eval Value}
  {target : Expr} {host : Host}

theorem runAll {es : List Expr} (compatible : Compatible P)
    (parts : ∀ e ∈ es, P Value fun i => run i e) :
    P (List Value) fun i => runAll (run i) es :=
  ((compatible.rules .absent).runAll fun e mem => known (parts e mem)).1

theorem readAt (compatible : Compatible P)
    (calls : ∀ l frame arguments, P Value fun i => applyWith (run i) l frame arguments)
    (place : List Value) : P Value fun i => readAt host (applyWith (run i)) target place := by
  have failing : P Value fun _ => fail (.unsupported target.kind) := compatible.steady (.fail _)
  have rules := compatible.rules host
  have clear := Knowledge.clear_nothing
  obtain ⟨id, node⟩ := target
  cases node with
  | member receiver m =>
      rcases receiver with _ | receiver <;> rcases place with _ | ⟨object, _ | _⟩
      case some.cons.nil => exact (rules.memberGet (clear object) m).1
      all_goals exact failing
  | binary op =>
      cases op with
      | arrayIndex =>
          rcases place with _ | ⟨array, _ | ⟨index, _ | _⟩⟩
          case cons.cons.nil => exact (rules.arrayGet (clear array) index).1
          all_goals exact failing
      | _ => exact failing
  | index receiver arguments type =>
      rcases place with _ | ⟨object, values⟩
      · exact failing
      · exact (rules.indexGet (fun l frame arguments _ _ _ => known (calls l frame arguments))
          (clear object) (fun v _ => clear v) type).1
  | _ => exact failing

theorem writeAt (compatible : Compatible P)
    (calls : ∀ l frame arguments, P Value fun i => applyWith (run i) l frame arguments)
    (place : List Value) (v : Value) :
    P Unit fun i => writeAt host (applyWith (run i)) target place v := by
  have failing : P Unit fun _ => fail (.unsupported target.kind) := compatible.steady (.fail _)
  have rules := compatible.rules host
  have clear := Knowledge.clear_nothing
  obtain ⟨id, node⟩ := target
  cases node with
  | member receiver m =>
      rcases receiver with _ | receiver <;> rcases place with _ | ⟨object, _ | _⟩
      case some.cons.nil => exact (rules.memberSet (clear object) m (clear v)).1
      all_goals exact failing
  | binary op =>
      cases op with
      | arrayIndex =>
          rcases place with _ | ⟨array, _ | ⟨index, _ | _⟩⟩
          case cons.cons.nil => exact (rules.arraySet (clear array) index (clear v)).1
          all_goals exact failing
      | _ => exact failing
  | index receiver arguments type =>
      rcases place with _ | ⟨object, values⟩
      · exact failing
      · exact (rules.indexSet (fun l frame arguments _ _ _ => known (calls l frame arguments))
          (clear object) (fun v _ => clear v) (clear v)).1
  | _ => exact failing

theorem revise (compatible : Compatible P) (u : Update)
    (right : ∀ op e checked h, u = .compound op e checked h → P Value fun i => run i e)
    (current : Value) : P Value fun i => revise (run i) current u := by
  cases u with
  | compound op e checked h =>
      exact compatible.bind (right op e checked h rfl) fun b => compatible.steady (.lift _)
  | step op => exact compatible.steady (.lift _)

end Compatible

theorem Extensional.updateTwice {ι : Type} {P : (α : Type) → (ι → Eval α) → Prop}
    {run : ι → Expr → Eval Value} (closed : Extensional P) (host : Host)
    (parts : ∀ e, P Value fun i => run i e) (u : Update) (target : Expr) :
    P Value fun i => updateTwice host (run i) u target := by
  have compatible := closed.compatible
  have calls := closed.applyWith parts
  refine closed.bind (compatible.runAll fun e _ => parts e) fun place => ?_
  refine closed.bind (compatible.readAt calls place) fun current => ?_
  refine closed.bind (compatible.revise u (fun _ e _ _ _ => parts e) current) fun updated => ?_
  refine closed.bind (compatible.runAll fun e _ => parts e) fun place' => ?_
  refine closed.bind (compatible.writeAt calls place' updated) fun _ => ?_
  exact closed.const _

/-- What an update of a location means. -/
theorem denote_update (host : Host) {e target : Expr} {u : Update} {type : Ty}
    (made : e.node = u.node target type) (located : target.isLocation = true) :
    denote host e = updateTwice host (denote host) u target := by
  have read : denote host target =
      runAll (denote host) target.storeParts >>=
        readAt host (applyWith (denote host)) target := by
    rw [← runNode_of_isLocation host (denote host) located 0]
    rcases Expr.isLocation_iff.mp located with ⟨_, _, made⟩ | ⟨_, _, _, _, _, made⟩ |
      ⟨_, _, _, made⟩ <;> simp [denote_eq, Expr.kind, made, Node.kind]
  have plain : [Kind.block, .loop].contains (u.node target type).kind = false := by
    cases u <;> rfl
  rw [denote_of_node host made plain, runNode_update, read]
  simp only [store_of_isLocation host _ located, bind_assoc]
  rfl

/-- An update ends as one that evaluates the parts of its target twice. -/
theorem run_update_iff (host : Host) {e target : Expr} {u : Update} {type : Ty}
    (made : e.node = u.node target type) (located : target.isLocation = true) (s : State)
    (r : Outcome Value × State) :
    (∃ n, run host n e s = some r) ↔ ∃ n, updateTwice host (run host n) u target s = some r := by
  have converges : Converges fun i => updateTwice host (runWithin host i) u target :=
    extensional_converges.updateTwice host (converges_runWithin host) u target
  rw [← isLimit_run host e s r, denote_update host made located]
  exact converges.2 s r

/-! ### Still computations -/

variable {α β γ : Type} {ids : List Identity}

/-- The computation changes nothing, and it ends alike wherever all variables but these have the
same values. -/
def Still (ids : List Identity) (x : Eval α) : Prop :=
  ∀ s t, Scope.KeptBut ids s.frame.scope t.frame.scope → x t = (x s).map fun r => (r.1, t)

theorem Still.finish (o : Outcome α) : Still ids (finish o) := fun _ _ _ => rfl

theorem Still.pure (a : α) : Still ids (pure a : Eval α) := .finish _

theorem Still.lift (x : Except Failure α) : Still ids (liftM x : Eval α) := by
  cases x with
  | ok a => exact .finish _
  | error f => exact .finish _

theorem Still.outOfFuel : Still ids (outOfFuel : Eval α) := fun _ _ _ => rfl

theorem Still.load {p : Parameter} (other : p.id ∉ ids) : Still ids (load p) := by
  intro s t kept
  unfold Eval.load
  rw [kept.value p.id other]
  cases s.frame.scope.find? p.id <;> rfl

theorem Still.state_eq {x : Eval α} {s s' : State} {o : Outcome α} (still : Still ids x)
    (ended : x s = some (o, s')) : s' = s := by
  have again := still s s (.refl ids _)
  rw [ended] at again
  cases again
  rfl

theorem Still.bind {x : Eval α} {f : α → Eval β} (first : Still ids x)
    (rest : ∀ a, Still ids (f a)) : Still ids (x >>= f) := by
  intro s t kept
  have other := first s t kept
  cases h : x s with
  | none =>
      rw [h] at other
      rw [bind_of_none h, bind_of_none other]
      rfl
  | some r =>
      obtain ⟨o, s'⟩ := r
      cases first.state_eq h
      rw [h] at other
      rcases o.value_or_passed β with ⟨a, rfl⟩ | ⟨o', passed⟩
      · rw [bind_of_value h, bind_of_value other]
        exact rest a s t kept
      · rw [bind_of_passed h passed, bind_of_passed other passed]
        rfl

/-- A still computation gives the same value when it is made again, after one that leaves the
variables that it looks at. -/
theorem Still.bind_again {x : Eval α} {f : α → Eval β} (still : Still ids x)
    (keeps : ∀ a, KeepsBut ids (f a)) (k : α → β → α → Eval γ) :
    (x >>= fun a => f a >>= fun b => x >>= k a b) = x >>= fun a => f a >>= fun b => k a b a := by
  funext s
  cases h : x s with
  | none => rw [bind_of_none h, bind_of_none h]
  | some r =>
      obtain ⟨o, s'⟩ := r
      rcases o.value_or_passed γ with ⟨a, rfl⟩ | ⟨o', passed⟩
      · rw [bind_of_value h, bind_of_value h]
        cases h' : f a s' with
        | none => rw [bind_of_none h', bind_of_none h']
        | some r' =>
            obtain ⟨o', t⟩ := r'
            cases still.state_eq h
            have again := still _ t (keeps a _ _ _ h')
            rw [h] at again
            rcases o'.value_or_passed γ with ⟨b, rfl⟩ | ⟨o'', passed⟩
            · rw [bind_of_value h', bind_of_value h', bind_of_value again]
            · rw [bind_of_passed h' passed, bind_of_passed h' passed]
      · rw [bind_of_passed h passed, bind_of_passed h passed]

theorem Still.runAll {run : Expr → Eval Value} {es : List Expr}
    (parts : ∀ e ∈ es, Still ids (run e)) : Still ids (runAll run es) := by
  induction es with
  | nil => exact .pure _
  | cons e es ih =>
      rw [runAll_cons]
      refine .bind (parts e List.mem_cons_self) fun v => ?_
      exact .bind (ih fun e' mem => parts e' (.tail _ mem)) fun vs => .pure _

theorem Still.runNode {run : Expr → Eval Value} {e : Expr} (host : Host) (fuel : Nat)
    (still : e.isStill = true) (reads : ∀ x ∈ e.local?.toList, x ∉ ids)
    (parts : ∀ c ∈ e.children, Still ids (run c)) : Still ids (runNode host run fuel e) := by
  obtain ⟨id, node⟩ := e
  cases node with
  | constant | default => exact .pure _
  | parameter p => exact .load (reads p.id (by simp [Expr.local?]))
  | typeTest op operand tested =>
      exact .bind (parts operand (by simp [Expr.children, Node.children])) fun _ => .pure _
  | unary op operand type =>
      have part := parts operand (by simp [Expr.children, Node.children])
      cases op with
      | arrayLength | preIncrementAssign | preDecrementAssign | postIncrementAssign
      | postDecrementAssign => cases still
      | quote => exact part
      | throw =>
          refine .bind part fun v => ?_
          by_cases null : v.isNull = true
          · simp only [if_pos null]
            exact .finish _
          · simp only [if_neg null]
            exact .finish _
      | typeAs => exact .bind part fun _ => .pure _
      | _ => exact .bind part fun _ => .lift _
  | binary op left right assign checked type =>
      have first := parts left (by simp [Expr.children, Node.children])
      have second := parts right (by simp [Expr.children, Node.children])
      cases op with
      | assign | arrayIndex => cases still
      | andAlso =>
          refine .bind first fun v => .bind (.lift _) fun holds => ?_
          cases holds with
          | true => exact .bind second fun w => .bind (.lift _) fun _ => .pure _
          | false => exact .pure _
      | orElse =>
          refine .bind first fun v => .bind (.lift _) fun holds => ?_
          cases holds with
          | true => exact .pure _
          | false => exact .bind second fun w => .bind (.lift _) fun _ => .pure _
      | coalesce =>
          refine .bind first fun v => ?_
          by_cases null : v.isNull = true
          · simp only [if_pos null]
            exact second
          · simp only [if_neg null]
            exact .pure _
      | _ =>
          cases assign with
          | true => cases still
          | false =>
              refine .bind first fun a => .bind second fun b => ?_
              exact .bind (.lift _) fun _ => .pure _
  | conditional test ifTrue ifFalse type =>
      refine .bind (parts test (by simp [Expr.children, Node.children])) fun v => ?_
      refine .bind (.lift _) fun holds => ?_
      cases holds with
      | true => exact parts ifTrue (by simp [Expr.children, Node.children])
      | false =>
          cases ifFalse with
          | none => exact .pure _
          | some ifFalse => exact parts ifFalse (by simp [Expr.children, Node.children])
  | _ => cases still

/-- Parts that only look at variables are still. -/
theorem still_run (host : Host) (n : Nat) {e : Expr}
    (looks : e.All fun d => d.isStill = true ∧ ∀ x ∈ d.local?.toList, x ∉ ids) :
    Still ids (run host n e) := by
  induction n generalizing e with
  | zero => exact .outOfFuel
  | succ n ih =>
      obtain ⟨⟨still, reads⟩, below⟩ := Expr.all_iff.mp looks
      exact .runNode host n still reads fun c child => ih (below c child)

/-- Evaluated once or twice, the parts of an undisturbed target name the same place. -/
theorem updateTwice_eq_updateOnce (host : Host) (n : Nat) {u : Update} {target : Expr}
    (undisturbed : target.Undisturbed u.assigned) :
    updateTwice host (run host n) u target = updateOnce host (run host n) u target := by
  have found : Still u.assigned (runAll (run host n) target.storeParts) :=
    .runAll fun part mem => still_run host n (undisturbed part mem)
  let once : Unit → Expr → Eval Value := fun _ => run host n
  have compatible := compatible_keepsBut u.assigned
  have revised (place : List Value) : KeepsBut u.assigned do
      let current ← readAt host (applyWith (run host n)) target place
      let updated ← revise (run host n) current u
      return (current, updated) := by
    refine .bind ?_ fun current => .bind ?_ fun updated => (Steady.pure _).keepsBut _
    · exact @Compatible.readAt Unit _ once target host compatible
        (fun l frame arguments => (Steady.applyWith _ l frame arguments).keepsBut _) place
    · refine @Compatible.revise Unit _ once compatible u ?_ current
      rintro op right checked h rfl
      exact keepsBut_run host n right
  have same := found.bind_again revised fun _ values place => do
    writeAt host (applyWith (run host n)) target place values.2
    return u.result values.1 values.2
  simp only [bind_assoc, pure_bind] at same
  exact same

end Eval

open Eval

/-- An update evaluates the receiver and the indices of its target twice, reads the place that they
name first and writes the one that they name then. If they only look at variables, and the right
operand assigns none of these, it does as if they were evaluated once: the place that is written is
the one that was read. -/
theorem update_locates_twice (host : Host) {e target : Expr} (u : Update) {type : Ty}
    (made : e.node = u.node target type) (located : target.isLocation = true) (s : State)
    (r : Outcome Value × State) :
    ((∃ n, run host n e s = some r) ↔
      ∃ n, updateTwice host (run host n) u target s = some r) ∧
    (target.Undisturbed u.assigned →
      ((∃ n, run host n e s = some r) ↔
        ∃ n, updateOnce host (run host n) u target s = some r)) := by
  have twice := run_update_iff host made located s r
  refine ⟨twice, fun undisturbed => ?_⟩
  simpa only [updateTwice_eq_updateOnce host _ undisturbed] using twice

/-! ### An index that moves

`a[cursor.Next] += 1`, where the host counts how often it is asked, and `a[i] += (j = 1)`. -/

namespace MovingIndex

def a : Parameter := ⟨0, some "a", .vector .int32⟩

def cursor : Parameter := ⟨1, some "cursor", .object⟩

def i : Parameter := ⟨2, some "i", .int32⟩

def j : Parameter := ⟨3, some "j", .int32⟩

def one (id : Identity) : Expr := ⟨id, .constant (.int32 1) .int32⟩

/-- The element at an index, increased. -/
def increase (index right : Expr) : Expr :=
  ⟨12, .binary .add ⟨11, .binary .arrayIndex ⟨10, .parameter a⟩ index false false .int32⟩ right
    true false .int32⟩

def next : Expr := ⟨5, .member (some ⟨4, .parameter cursor⟩) (.property .object "Next" .int32)⟩

def storing : Expr := ⟨9, .binary .assign ⟨7, .parameter j⟩ (one 8) false false .int32⟩

/-- The answer is the number of calls before. -/
def host : Host := ⟨fun calls heap _ => some ⟨.value (.int32 calls.length), heap⟩⟩

def start : State where
  frame := { scope := [(a.id, .array 0 .int32), (cursor.id, .object ⟨1, .object⟩),
    (i.id, .int32 0), (j.id, .int32 0)] }
  heap := ⟨#[.array #[.int32 10, .int32 20], .external]⟩

/-- The first element is read and the second one written; where the index stays, they are the
same. -/
theorem second_place_is_written :
    (∃ s', (∃ n, run host n (increase next (one 6)) start = some (.value (.int32 11), s')) ∧
      s'.heap.elements 0 = #[.int32 10, .int32 11] ∧ s'.history.length = 2) ∧
    ∃ s', (∃ n, run host n (increase ⟨6, .parameter i⟩ storing) start =
        some (.value (.int32 11), s')) ∧
      s'.heap.elements 0 = #[.int32 11, .int32 20] ∧ s'.history.length = 0 := by
  have made (index right : Expr) : (increase index right).node =
      Update.node _ .int32 (.compound .add right false rfl) := rfl
  have twice (index right : Expr) :=
    update_locates_twice host _ (made index right) rfl start
  refine ⟨⟨_, ((twice next (one 6) _).1).mpr ⟨3, rfl⟩, rfl, rfl⟩, ?_⟩
  exact ⟨_, ((twice ⟨6, .parameter i⟩ storing _).2 (by decide)).mpr ⟨3, rfl⟩, rfl, rfl⟩

end MovingIndex

end ExprTree
