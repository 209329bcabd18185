import ExprTree.Eval.Run
import ExprTree.Proofs.Computation
import ExprTree.Proofs.References

/-!
Rules of evaluation.

What holds of the basic operations, and is kept by going on, holds of evaluation. Most nodes
evaluate some of their parts in turn and do something basic with the values: `Rules.runNode` says so
once for all of them. Blocks, loops, jumps and exception handling come later, because they do more.

A property is one of families of computations, so that it can compare evaluations, and it comes with
what is known of the values. `Knowledge` is what may be known of all data of a run.
-/

namespace ExprTree

theorem mem_of_lookup {α β : Type} [BEq α] [LawfulBEq α] {l : List (α × β)} {a : α} {b : β}
    (found : l.lookup a = some b) : (a, b) ∈ l := by
  obtain ⟨l₁, l₂, rfl, -⟩ := List.lookup_eq_some_iff.mp found
  exact List.mem_append_right _ List.mem_cons_self

/-- The expressions that a store to this one evaluates. -/
def Expr.storeParts (e : Expr) : List Expr :=
  match e.node with
  | .member (some receiver) _ => [receiver]
  | .binary .arrayIndex left right _ _ _ => [left, right]
  | .index receiver arguments _ => receiver :: arguments
  | _ => []

theorem Expr.storeParts_subset (e : Expr) : e.storeParts ⊆ e.children := by
  obtain ⟨id, node⟩ := e
  intro c mem
  cases node with
  | member receiver m =>
      cases receiver with
      | none => cases mem
      | some receiver => exact mem
  | binary op left right =>
      cases op with
      | arrayIndex => exact mem
      | _ => cases mem
  | index receiver arguments => exact mem
  | _ => cases mem

/-- The child that a node stores to. -/
def Node.stored : Node → List Expr
  | .unary op operand _ =>
    match op with
    | .preIncrementAssign | .preDecrementAssign | .postIncrementAssign | .postDecrementAssign =>
      [operand]
    | _ => []
  | .binary op left _ assign _ _ => if op = .assign || assign then [left] else []
  | _ => []

theorem Node.stored_subset (node : Node) : node.stored ⊆ node.children := by
  intro target mem
  cases node with
  | unary op operand =>
      cases op with
      | preIncrementAssign | preDecrementAssign | postIncrementAssign | postDecrementAssign =>
          exact mem
      | _ => cases mem
  | binary op left right assign =>
      simp only [Node.stored] at mem
      split at mem
      · rw [List.mem_singleton.mp mem]
        exact List.mem_cons_self
      · cases mem
  | _ => cases mem

/-- Whether a node of the kind does no more than evaluate children and use their values. -/
def Kind.isPlain : Kind → Bool
  | .lambda | .block | .loop | .jump _ | .attempt | .forLoop | .forEach | .whileLoop | .doWhile
  | .usingBlock => false
  | _ => true

/-! ### Knowledge of data -/

/-- What is known of a run: the places that values may refer to, the lambdas that closures in these
places may hold, an identity from which on none is used yet, and the failures that may occur, among
them all that have nothing to do with labels. -/
structure Knowledge where
  allows : Ref → Prop
  callable : Lambda → Prop
  unused : Supply
  expects : Failure → Prop
  other : ∀ {f : Failure}, f.isUnresolved = false → expects f

namespace Knowledge

variable (K : Knowledge)

/-- The value refers to an allowed place, if to any. -/
def Clear (v : Value) : Prop := ∀ r, v.ref? = some r → K.allows r

/-- What may stand in an allowed place. -/
def Fits : Cell → Prop
  | .array items => ∀ v ∈ items, K.Clear v
  | .plain i => (∀ f ∈ i.fields, K.Clear f.2) ∧ ∀ v ∈ i.items, K.Clear v
  | .closure l frame => K.callable l ∧ ∀ b ∈ frame.scope, K.Clear b.2
  | .external => True

/-- What is known holds of the heap. Places that do not exist yet are allowed. -/
structure Keeps (h : Heap) : Prop where
  fresh : ∀ r, h.cells.size ≤ r → K.allows r
  cells : ∀ r c, K.allows r → h.get? r = some c → K.Fits c

/-- What is known holds in the state. -/
structure Holds (s : State) : Prop extends K.Keeps s.heap where
  supply : K.unused ≤ s.supply
  scope : ∀ b ∈ s.frame.scope, K.Clear b.2

/-- Nothing is known. -/
def nothing : Knowledge := ⟨fun _ => True, fun _ => True, 0, fun _ => True, fun _ => ⟨⟩⟩

theorem clear_nothing (v : Value) : nothing.Clear v := fun _ _ => ⟨⟩

theorem fits_nothing (c : Cell) : nothing.Fits c := by
  cases c with
  | array items => exact fun v _ => clear_nothing v
  | plain i => exact ⟨fun f _ => clear_nothing f.2, fun v _ => clear_nothing v⟩
  | closure l frame => exact ⟨⟨⟩, fun b _ => clear_nothing b.2⟩
  | external => exact ⟨⟩

theorem holds_nothing (s : State) : nothing.Holds s :=
  ⟨⟨fun _ _ => ⟨⟩, fun _ c _ _ => fits_nothing c⟩, Nat.zero_le _, fun b _ => clear_nothing b.2⟩

variable {K}

theorem clear_of_ref? {v : Value} (none : v.ref? = none) : K.Clear v := by
  intro r found
  rw [none] at found
  cases found

theorem clear_object {o : ObjectRef} (allowed : K.allows o.ref) : K.Clear (.object o) := by
  rintro r ⟨⟩
  exact allowed

theorem Clear.of_eq_or {v w : Value} (clear : K.Clear v) (same : w = v ∨ w.ref? = none) :
    K.Clear w := by
  rcases same with rfl | none
  · exact clear
  · exact clear_of_ref? none

theorem Holds.elements {s : State} {r : Ref} (holds : K.Holds s) (allowed : K.allows r) :
    ∀ v ∈ s.heap.elements r, K.Clear v := by
  unfold Heap.elements
  split
  case h_1 items found => exact holds.cells r _ allowed found
  case h_2 => simp

theorem Fits.field {i : Instance} {name : String} {v : Value} (fits : K.Fits (.plain i))
    (found : i.field? name = some v) : K.Clear v :=
  fits.1 _ (mem_of_lookup found)

theorem Fits.setField {i : Instance} {v : Value} (fits : K.Fits (.plain i)) (name : String)
    (clear : K.Clear v) : K.Fits (.plain (i.setField name v)) := by
  unfold Instance.setField
  split
  · refine ⟨fun f mem => ?_, fits.2⟩
    obtain ⟨g, inside, rfl⟩ := List.mem_map.mp mem
    split
    · exact clear
    · exact fits.1 g inside
  · exact ⟨List.forall_mem_cons.mpr ⟨clear, fits.1⟩, fits.2⟩

theorem Fits.addItem {i : Instance} {v : Value} (fits : K.Fits (.plain i)) (clear : K.Clear v) :
    K.Fits (.plain (i.addItem v)) := by
  refine ⟨fits.1, fun w mem => ?_⟩
  rcases Array.mem_push.mp mem with mem | rfl
  · exact fits.2 w mem
  · exact clear

theorem fits_empty : K.Fits (.plain {}) := by
  constructor
  · exact fun f mem => nomatch mem
  · simp

end Knowledge

namespace Eval

/-- A property of families of computations and of what they give. It holds of the basic operations
that do not vary, and going on keeps it. -/
structure Rules {ι : Type} (host : Host) (K : Knowledge)
    (P : (α : Type) → (α → Prop) → (ι → Eval α) → Prop) : Prop where
  pure : ∀ {α : Type} {Q : α → Prop} {a : α}, Q a → P α Q fun _ => pure a
  fail : ∀ {α : Type} {Q : α → Prop} {f : Failure}, K.expects f → P α Q fun _ => fail f
  throwing : ∀ {α : Type} {Q : α → Prop} {v : Value}, K.Clear v → P α Q fun _ => throwing v
  get : P State K.Holds fun _ => get
  load : ∀ p, P Value K.Clear fun _ => load p
  newArray : ∀ element items, (∀ v ∈ items, K.Clear v) →
    P Value K.Clear fun _ => newArray element items
  newObject : ∀ type c, K.Fits c → P Value K.Clear fun _ => newObject type c
  setCell : ∀ r c, K.Fits c → P Unit (fun _ => True) fun _ => setCell r c
  ask : ∀ request unanswered, (∀ v ∈ request.handed, K.Clear v) →
    unanswered.isUnresolved = false → P Value K.Clear fun _ => ask host request unanswered
  bind : ∀ {α β : Type} {Q : α → Prop} {Q' : β → Prop} {x : ι → Eval α} {f : ι → α → Eval β},
    P α Q x → (∀ a, Q a → P β Q' fun i => f i a) → P β Q' fun i => x i >>= f i

namespace Rules

variable {ι : Type} {host : Host} {K : Knowledge}
  {P : (α : Type) → (α → Prop) → (ι → Eval α) → Prop} {run : ι → Expr → Eval Value}
  {apply : ι → Lambda → Frame → List Value → Eval Value} {α β : Type} {Q : α → Prop}
  {Q' : β → Prop}

theorem failing {f : Failure} (rules : Rules host K P) (other : f.isUnresolved = false) :
    P α Q fun _ => Eval.fail f :=
  rules.fail (K.other other)

theorem lift {x : Except Failure α} (rules : Rules host K P) (answers : Answers Q x) :
    P α Q fun _ => liftM x := by
  cases x with
  | ok a => exact rules.pure answers
  | error f => exact rules.failing answers

theorem map {x : ι → Eval α} {f : α → β} (rules : Rules host K P) (first : P α Q x)
    (given : ∀ a, Q a → Q' (f a)) : P β Q' fun i => f <$> x i :=
  rules.bind first fun a ha => rules.pure (given a ha)

theorem discard {x : ι → Eval α} (rules : Rules host K P) (first : P α Q x) :
    P Unit (fun _ => True) fun i => discard (x i) :=
  rules.map first fun _ _ => ⟨⟩

/-- To go on after a test. -/
theorem judge {x : ι → Eval Value} {f : ι → Bool → Eval β} (rules : Rules host K P)
    (test : P Value K.Clear x) (rest : ∀ holds, P β Q' fun i => f i holds) :
    P β Q' fun i => x i >>= fun v => liftM (truth v) >>= f i :=
  rules.bind test fun v _ => rules.bind (rules.lift (answers_truth v)) fun holds _ => rest holds

/-! ### Arrays and objects -/

theorem arrayGet {array : Value} (rules : Rules host K P) (clear : K.Clear array)
    (index : Value) : P Value K.Clear fun _ => arrayGet array index := by
  cases array with
  | array r element =>
      refine rules.bind rules.get fun s holds => rules.lift ?_
      exact (answers_elementAt _ index).imp (holds.elements (clear r rfl))
  | _ => exact rules.failing rfl

theorem arraySet {array v : Value} (rules : Rules host K P) (clearArray : K.Clear array)
    (index : Value) (clear : K.Clear v) :
    P Unit (fun _ => True) fun _ => arraySet array index v := by
  cases array with
  | array r element =>
      refine rules.bind rules.get fun s holds => ?_
      refine rules.bind (rules.lift (answers_position _ index)) fun i _ => ?_
      refine rules.setCell _ _ fun w mem => ?_
      rcases Array.mem_or_eq_of_mem_setIfInBounds mem with mem | rfl
      · exact holds.elements (clearArray r rfl) w mem
      · exact clear
  | _ => exact rules.failing rfl

theorem newInstance (rules : Rules host K P) (type : Ty) :
    P Value K.Clear fun _ => newInstance type :=
  rules.newObject type _ Knowledge.fits_empty

theorem newClosure {l : Lambda} (rules : Rules host K P) (callable : K.callable l) :
    P Value K.Clear fun _ => newClosure l :=
  rules.bind rules.get fun _ holds => rules.newObject _ _ ⟨callable, holds.scope⟩

theorem unwritten (rules : Rules host K P) (type : Ty) :
    P Value K.Clear fun _ => unwritten type := by
  unfold Eval.unwritten
  split
  · split
    · exact rules.pure (Knowledge.clear_of_ref? (Value.ref?_defaultOf _))
    · exact rules.newInstance _
  · exact rules.pure (Knowledge.clear_of_ref? (Value.ref?_defaultOf _))

theorem readField {i : Instance} (rules : Rules host K P) (fits : K.Fits (.plain i))
    (o : ObjectRef) (m : Member) : P Value K.Clear fun _ => readField o i m := by
  unfold Eval.readField
  split
  case h_1 v found => exact rules.pure (fits.field found)
  case h_2 =>
      split
      · exact rules.lift ((answers_count _).imp fun _ => Knowledge.clear_of_ref?)
      · refine rules.bind (rules.unwritten m.type) fun v clear => ?_
        refine rules.bind (rules.setCell _ _ (fits.setField _ clear)) fun _ _ => ?_
        exact rules.pure clear

theorem callPlain {i : Instance} {arguments : List Value} (rules : Rules host K P)
    (fits : K.Fits (.plain i)) (o : ObjectRef) (m : Method)
    (clear : ∀ v ∈ arguments, K.Clear v) :
    P Value K.Clear fun _ => callPlain o i m arguments := by
  have done : K.Clear .void := Knowledge.clear_of_ref? rfl
  unfold Eval.callPlain
  split
  case h_1 item _ =>
      refine rules.bind (rules.setCell _ _ (fits.addItem ?_)) fun _ _ => rules.pure done
      exact clear item List.mem_cons_self
  case h_2 =>
      refine rules.bind (rules.newArray _ _ fun v mem => ?_) fun item clearItem => ?_
      · exact clear v (List.mem_toArray.mp mem)
      · exact rules.bind (rules.setCell _ _ (fits.addItem clearItem)) fun _ _ => rules.pure done
  case h_3 index _ => exact rules.lift ((answers_elementAt _ index).imp fits.2)
  case h_4 => exact rules.failing rfl

theorem objectGet {o : ObjectRef} (rules : Rules host K P) (allowed : K.allows o.ref)
    (m : Member) : P Value K.Clear fun _ => objectGet host o m := by
  refine rules.bind rules.get fun s holds => ?_
  split
  case h_1 i found => exact rules.readField (holds.cells _ _ allowed found) o m
  case h_2 =>
      refine rules.ask _ _ (fun v mem => ?_) rfl
      exact List.mem_singleton.mp mem ▸ Knowledge.clear_object allowed
  case h_3 => exact rules.failing rfl

theorem objectSet {o : ObjectRef} {v : Value} (rules : Rules host K P) (allowed : K.allows o.ref)
    (m : Member) (clear : K.Clear v) :
    P Unit (fun _ => True) fun _ => objectSet host o m v := by
  refine rules.bind rules.get fun s holds => ?_
  split
  case h_1 i found => exact rules.setCell _ _ ((holds.cells _ _ allowed found).setField _ clear)
  case h_2 =>
      refine rules.discard (rules.ask _ _ (List.forall_mem_cons.mpr ⟨?_, fun w mem => ?_⟩) rfl)
      · exact Knowledge.clear_object allowed
      · exact List.mem_singleton.mp mem ▸ clear
  case h_3 => exact rules.failing rfl

theorem memberGet {target : Value} (rules : Rules host K P) (clear : K.Clear target)
    (m : Member) : P Value K.Clear fun _ => memberGet host target m := by
  have length (n : Nat) : P Value K.Clear fun _ => liftM (count n) :=
    rules.lift ((answers_count n).imp fun _ => Knowledge.clear_of_ref?)
  unfold Eval.memberGet
  split
  · exact rules.failing rfl
  case h_2 o => exact rules.objectGet (clear o.ref rfl) m
  · split
    · exact rules.bind rules.get fun s _ => length _
    · exact rules.failing rfl
  · split
    · exact length _
    · exact rules.failing rfl
  · exact rules.failing rfl

theorem memberSet {target v : Value} (rules : Rules host K P) (clearTarget : K.Clear target)
    (m : Member) (clear : K.Clear v) :
    P Unit (fun _ => True) fun _ => memberSet host target m v := by
  unfold Eval.memberSet
  split
  · exact rules.failing rfl
  case h_2 o => exact rules.objectSet (clearTarget o.ref rfl) m clear
  · exact rules.failing rfl

theorem callStatic {arguments : List Value} (rules : Rules host K P) (m : Method)
    (clear : ∀ v ∈ arguments, K.Clear v) :
    P Value K.Clear fun _ => callStatic host m arguments := by
  refine rules.bind rules.get fun s _ => ?_
  split
  · exact rules.ask _ _ clear rfl
  · split
    · split
      · exact rules.lift ((Value.answers_power _ _).imp fun _ => Knowledge.clear_of_ref?)
      · exact rules.failing rfl
    · exact rules.failing rfl

theorem runCreate (rules : Rules host K P) (type : Ty) (arguments : List Expr) :
    P Value K.Clear fun _ => runCreate type arguments := by
  unfold Eval.runCreate
  split
  · exact rules.failing rfl
  · split
    · exact rules.pure (Knowledge.clear_of_ref? (Value.ref?_defaultOf _))
    · exact rules.newInstance _

/-! ### Parts in turn -/

theorem runAll {es : List Expr} (rules : Rules host K P)
    (parts : ∀ e ∈ es, P Value K.Clear fun i => run i e) :
    P (List Value) (fun vs => ∀ v ∈ vs, K.Clear v) fun i => runAll (run i) es := by
  unfold Eval.runAll
  induction es with
  | nil => exact rules.pure fun v mem => nomatch mem
  | cons e es ih =>
      simp only [List.mapM_cons]
      refine rules.bind (parts e List.mem_cons_self) fun v clear => ?_
      refine rules.bind (ih fun e' mem => parts e' (.tail _ mem)) fun vs clearAll => ?_
      exact rules.pure (List.forall_mem_cons.mpr ⟨clear, clearAll⟩)

theorem runOptional {e : Option Expr} (rules : Rules host K P)
    (parts : ∀ e' ∈ e.toList, P Value K.Clear fun i => run i e') :
    P Unit (fun _ => True) fun i => runOptional (run i) e := by
  cases e with
  | none => exact rules.pure ⟨⟩
  | some e => exact rules.discard (parts e (List.mem_singleton_self e))

theorem matchesAny {tests : List Expr} (rules : Rules host K P) (v : Value)
    (parts : ∀ e ∈ tests, P Value K.Clear fun i => run i e) :
    P Bool (fun _ => True) fun i => matchesAny (run i) v tests := by
  induction tests with
  | nil => exact rules.pure ⟨⟩
  | cons test tests ih =>
      refine rules.bind (parts test List.mem_cons_self) fun found _ => ?_
      by_cases equal : found.equal v = true
      · simp only [if_pos equal]
        exact rules.pure ⟨⟩
      · simp only [if_neg equal]
        exact ih fun e mem => parts e (.tail _ mem)

theorem runCases {cases : List SwitchCase} {fallback : Option Expr} (rules : Rules host K P)
    (v : Value) (parts : ∀ e ∈ cases.flatMap (fun c => c.tests ++ [c.body]) ++ fallback.toList,
      P Value K.Clear fun i => run i e) :
    P Value K.Clear fun i => runCases (run i) v fallback cases := by
  induction cases with
  | nil =>
      cases fallback with
      | none => exact rules.pure (Knowledge.clear_of_ref? rfl)
      | some e => exact parts e (by simp)
  | cons c cs ih =>
      refine rules.bind (rules.matchesAny v fun e mem => parts e (by simp [mem])) fun found _ => ?_
      cases found with
      | true => exact parts c.body (by simp)
      | false =>
          refine ih fun e mem => parts e ?_
          rw [List.flatMap_cons, List.append_assoc]
          exact List.mem_append_right _ mem

/-! ### Calls -/

/-- The property holds of the calls of known lambdas with known arguments. -/
def Calls (K : Knowledge) (P : (α : Type) → (α → Prop) → (ι → Eval α) → Prop)
    (apply : ι → Lambda → Frame → List Value → Eval Value) : Prop :=
  ∀ l frame arguments, K.callable l → (∀ b ∈ frame.scope, K.Clear b.2) →
    (∀ v ∈ arguments, K.Clear v) → P Value K.Clear fun i => apply i l frame arguments

theorem objectCall {o : ObjectRef} {arguments : List Value} (rules : Rules host K P)
    (calls : Calls K P apply) (allowed : K.allows o.ref) (m : Method)
    (clear : ∀ v ∈ arguments, K.Clear v) :
    P Value K.Clear fun i => objectCall host (apply i) o m arguments := by
  refine rules.bind rules.get fun s holds => ?_
  cases found : s.heap.get? o.ref with
  | none => exact rules.failing rfl
  | some cell =>
      have fits := holds.cells _ _ allowed found
      cases cell with
      | array => exact rules.failing rfl
      | plain i => exact rules.callPlain fits o m clear
      | external =>
          refine rules.ask _ _ (List.forall_mem_cons.mpr ⟨?_, clear⟩) rfl
          exact Knowledge.clear_object allowed
      | closure l frame =>
          by_cases invoked : m.name = "Invoke"
          · simp only [if_pos invoked]
            exact calls l frame arguments fits.1 fits.2 clear
          · simp only [if_neg invoked]
            exact rules.failing rfl

theorem callOn {target : Value} {arguments : List Value} (rules : Rules host K P)
    (calls : Calls K P apply) (clearTarget : K.Clear target) (m : Method)
    (clear : ∀ v ∈ arguments, K.Clear v) :
    P Value K.Clear fun i => callOn host (apply i) target m arguments := by
  unfold Eval.callOn
  by_cases null : target.isNull = true
  · simp only [if_pos null]
    exact rules.failing rfl
  · simp only [if_neg null]
    by_cases typed : (m.name = "GetType" && arguments.isEmpty) = true
    · simp only [if_pos typed]
      exact rules.pure (Knowledge.clear_of_ref? rfl)
    · simp only [if_neg typed]
      cases target with
      | object o => exact rules.objectCall calls (clearTarget o.ref rfl) m clear
      | _ => exact rules.failing rfl

theorem indexGet {target : Value} {arguments : List Value} (rules : Rules host K P)
    (calls : Calls K P apply) (clearTarget : K.Clear target)
    (clear : ∀ v ∈ arguments, K.Clear v) (type : Ty) :
    P Value K.Clear fun i => indexGet host (apply i) target arguments type := by
  have called : P Value K.Clear fun i => Eval.callOn host (apply i) target
      (.ofInstance target.typeOf "get_Item" [] type) arguments :=
    rules.callOn calls clearTarget _ clear
  cases target with
  | array r element =>
      rcases arguments with _ | ⟨index, _ | _⟩
      · exact called
      · exact rules.arrayGet clearTarget index
      · exact called
  | string text =>
      rcases arguments with _ | ⟨index, _ | _⟩
      · exact called
      · refine rules.lift ((answers_elementAt _ index).imp fun v mem => ?_)
        obtain ⟨c, -, rfl⟩ := List.mem_map.mp (List.mem_toArray.mp mem)
        exact Knowledge.clear_of_ref? rfl
      · exact called
  | _ => exact called

theorem indexSet {target v : Value} {arguments : List Value} (rules : Rules host K P)
    (calls : Calls K P apply) (clearTarget : K.Clear target)
    (clear : ∀ v ∈ arguments, K.Clear v) (clearValue : K.Clear v) :
    P Unit (fun _ => True) fun i => indexSet host (apply i) target arguments v := by
  have called : P Unit (fun _ => True) fun i => Functor.discard (Eval.callOn host (apply i) target
      (.ofInstance target.typeOf "set_Item" [] .void) (arguments ++ [v])) :=
    rules.discard (rules.callOn calls clearTarget _
      (List.forall_mem_append.mpr ⟨clear, by simpa using clearValue⟩))
  cases target with
  | array r element =>
      rcases arguments with _ | ⟨index, _ | _⟩
      · exact called
      · exact rules.arraySet clearTarget index clearValue
      · exact called
  | _ => exact called

theorem runCall {target : Option Expr} {arguments : List Expr} (rules : Rules host K P)
    (parts : ∀ e ∈ target.toList ++ arguments, P Value K.Clear fun i => run i e)
    (calls : Calls K P fun i => applyWith (run i)) (m : Method) :
    P Value K.Clear fun i => runCall host (run i) target m arguments := by
  have evaluated := rules.runAll fun e mem => parts e (List.mem_append_right _ mem)
  cases target with
  | none => exact rules.bind evaluated fun vs clear => rules.callStatic _ clear
  | some target =>
      refine rules.bind (parts target (by simp)) fun receiver clearReceiver => ?_
      exact rules.bind evaluated fun vs clear => rules.callOn calls clearReceiver m clear

/-! ### Storing -/

theorem store {target : Expr} {v : Value} (rules : Rules host K P)
    (parts : ∀ e ∈ target.storeParts, P Value K.Clear fun i => run i e)
    (calls : Calls K P fun i => applyWith (run i))
    (assigns : ∀ p, target.node = .parameter p → P Unit (fun _ => True) fun _ => assign p v)
    (clear : K.Clear v) : P Unit (fun _ => True) fun i => store host (run i) target v := by
  obtain ⟨id, node⟩ := target
  cases node with
  | parameter p => exact assigns p rfl
  | member receiver m =>
      cases receiver with
      | none => exact rules.failing rfl
      | some receiver =>
          refine rules.bind (parts receiver (List.mem_singleton_self _)) fun object known => ?_
          exact rules.memberSet known m clear
  | binary op left right =>
      cases op with
      | arrayIndex =>
          refine rules.bind (parts left List.mem_cons_self) fun array known => ?_
          refine rules.bind (parts right (.tail _ List.mem_cons_self)) fun index _ => ?_
          exact rules.arraySet known index clear
      | _ => exact rules.failing rfl
  | index receiver arguments =>
      refine rules.bind (parts receiver List.mem_cons_self) fun object known => ?_
      refine rules.bind (rules.runAll fun e mem => parts e (.tail _ mem)) fun vs knownAll => ?_
      exact rules.indexSet calls known knownAll clear
  | _ => exact rules.failing rfl

/-! ### Operators -/

theorem runStep {operand : Expr} (rules : Rules host K P)
    (part : P Value K.Clear fun i => run i operand)
    (stores : ∀ v, K.Clear v → P Unit (fun _ => True) fun i => Eval.store host (run i) operand v)
    (op : UnaryOp) (givesNew : Bool) :
    P Value K.Clear fun i => runStep host (run i) op operand givesNew := by
  refine rules.bind part fun current clear => ?_
  refine rules.bind (rules.lift (Value.answers_unary op current)) fun updated plain => ?_
  have clearUpdated : K.Clear updated := Knowledge.clear_of_ref? plain
  refine rules.bind (stores updated clearUpdated) fun _ _ => rules.pure ?_
  cases givesNew with
  | true => exact clearUpdated
  | false => exact clear

theorem runUnary {op : UnaryOp} {operand : Expr} {type : Ty} (rules : Rules host K P)
    (part : P Value K.Clear fun i => run i operand)
    (stores : ∀ target ∈ (Node.unary op operand type).stored, ∀ v, K.Clear v →
      P Unit (fun _ => True) fun i => Eval.store host (run i) target v) :
    P Value K.Clear fun i => runUnary host (run i) op operand type := by
  cases op with
  | quote => exact part
  | throw =>
      refine rules.bind part fun exception clear => ?_
      split
      · exact rules.failing rfl
      · exact rules.throwing clear
  | preIncrementAssign | preDecrementAssign | postIncrementAssign | postDecrementAssign =>
      exact rules.runStep part (stores operand (List.mem_singleton_self _)) _ _
  | arrayLength => exact rules.bind part fun _ clear => rules.memberGet clear _
  | typeAs =>
      exact rules.bind part fun v clear => rules.pure (clear.of_eq_or (v.castOrNull_eq type))
  | convert | unbox | convertChecked =>
      refine rules.bind part fun v clear => rules.lift ?_
      exact (Value.answers_convert v type _).imp fun _ => clear.of_eq_or
  | _ =>
      refine rules.bind part fun v _ => rules.lift ?_
      exact (Value.answers_unary _ v).imp fun _ => Knowledge.clear_of_ref?

theorem runBinary {op : BinaryOp} {left right : Expr} {assign checked : Bool} {type : Ty}
    (rules : Rules host K P) (first : P Value K.Clear fun i => run i left)
    (second : P Value K.Clear fun i => run i right)
    (stores : ∀ target ∈ (Node.binary op left right assign checked type).stored, ∀ v, K.Clear v →
      P Unit (fun _ => True) fun i => Eval.store host (run i) target v) :
    P Value K.Clear fun i => runBinary host (run i) op left right assign checked := by
  have truthValue (b : Bool) : P Value K.Clear fun _ => Pure.pure (.boolean b) :=
    rules.pure (Knowledge.clear_of_ref? rfl)
  cases op with
  | assign =>
      refine rules.bind second fun v clear => ?_
      exact rules.bind (stores left (by simp [Node.stored]) v clear) fun _ _ => rules.pure clear
  | andAlso =>
      refine rules.judge first fun holds => ?_
      cases holds with
      | false => exact truthValue false
      | true => exact rules.judge second truthValue
  | orElse =>
      refine rules.judge first fun holds => ?_
      cases holds with
      | false => exact rules.judge second truthValue
      | true => exact truthValue true
  | coalesce =>
      refine rules.bind first fun v clear => ?_
      by_cases null : v.isNull = true
      · simp only [if_pos null]
        exact second
      · simp only [if_neg null]
        exact rules.pure clear
  | arrayIndex =>
      refine rules.bind first fun _ clear => ?_
      exact rules.bind second fun index _ => rules.arrayGet clear index
  | _ =>
      refine rules.bind first fun a _ => ?_
      refine rules.bind second fun b _ => ?_
      refine rules.bind (rules.lift (Value.answers_binary _ a b checked)) fun v plain => ?_
      have clear : K.Clear v := Knowledge.clear_of_ref? plain
      cases assign with
      | false => exact rules.pure clear
      | true =>
          exact rules.bind (stores left (by simp [Node.stored]) v clear) fun _ _ =>
            rules.pure clear

/-! ### Objects -/

theorem runNewArray {form : ArrayForm} {items : List Expr} (rules : Rules host K P) (type : Ty)
    (parts : ∀ e ∈ items, P Value K.Clear fun i => run i e) :
    P Value K.Clear fun i => runNewArray (run i) form type items := by
  refine rules.bind (rules.runAll parts) fun values clear => ?_
  split
  · exact rules.newArray _ _ fun v mem => clear v (List.mem_toArray.mp mem)
  · dsimp only
    split
    · exact rules.failing rfl
    · refine rules.newArray _ _ fun v mem => Knowledge.clear_of_ref? ?_
      rw [(Array.mem_replicate.mp mem).2, Value.ref?_defaultOf]
  · exact rules.failing rfl

theorem addAll {initializers : List ElementInit} {object : Value} (rules : Rules host K P)
    (parts : ∀ e ∈ initializers.flatMap ElementInit.arguments, P Value K.Clear fun i => run i e)
    (calls : Calls K P fun i => applyWith (run i)) (clear : K.Clear object) :
    P Unit (fun _ => True) fun i => addAll host (run i) object initializers := by
  induction initializers with
  | nil => exact rules.pure ⟨⟩
  | cons i is ih =>
      have evaluated := rules.runAll fun e mem => parts e (List.mem_append_left _ mem)
      refine rules.bind evaluated fun vs known => ?_
      refine rules.bind (rules.discard (rules.callOn calls clear i.method known)) fun _ _ => ?_
      exact ih fun e mem => parts e (List.mem_append_right _ mem)

mutual

theorem fill {object : Value} (rules : Rules host K P)
    (calls : Calls K P fun i => applyWith (run i)) (clear : K.Clear object) :
    (b : Binding) → (∀ e ∈ b.children, P Value K.Clear fun i => run i e) →
    P Unit (fun _ => True) fun i => fill host (run i) object b
  | .assignment m value, parts => by
      unfold Eval.fill
      refine rules.bind (parts value (List.mem_singleton_self value)) fun v known => ?_
      exact rules.memberSet clear m known
  | .elements m initializers, parts => by
      unfold Eval.fill
      refine rules.bind (rules.memberGet clear m) fun v known => ?_
      exact rules.addAll parts calls known
  | .members m nested, parts => by
      unfold Eval.fill
      refine rules.bind (rules.memberGet clear m) fun v known => ?_
      exact fillAll rules calls known nested parts

theorem fillAll {object : Value} (rules : Rules host K P)
    (calls : Calls K P fun i => applyWith (run i)) (clear : K.Clear object) :
    (bs : List Binding) → (∀ e ∈ Binding.childrenList bs, P Value K.Clear fun i => run i e) →
    P Unit (fun _ => True) fun i => fillAll host (run i) object bs
  | [], _ => by
      unfold Eval.fillAll
      exact rules.pure ⟨⟩
  | b :: bs, parts => by
      unfold Eval.fillAll
      refine rules.bind (fill rules calls clear b fun e mem => parts e ?_) fun _ _ => ?_
      · exact List.mem_append_left _ mem
      · exact fillAll rules calls clear bs fun e mem => parts e (List.mem_append_right _ mem)

end

/-! ### Nodes -/

/-- What holds of the evaluation of the parts holds of the evaluation of a node that does no more
than use their values. -/
theorem runNode {e : Expr} (rules : Rules host K P) (plain : e.kind.isPlain = true)
    (constants : ∀ v type, e.node = .constant v type → K.Clear v)
    (parts : ∀ c ∈ e.children, P Value K.Clear fun i => run i c)
    (calls : Calls K P fun i => applyWith (run i))
    (stores : ∀ target ∈ e.node.stored, ∀ v, K.Clear v →
      P Unit (fun _ => True) fun i => Eval.store host (run i) target v)
    (fuel : ι → Nat) : P Value K.Clear fun i => runNode host (run i) (fuel i) e := by
  have nothing : P Value K.Clear fun _ => Pure.pure .void :=
    rules.pure (Knowledge.clear_of_ref? rfl)
  obtain ⟨id, node⟩ := e
  cases node with
  | lambda | block | loop | jump | attempt | forLoop | forEach | whileLoop | doWhile
  | usingBlock => cases plain
  | constant v type => exact rules.pure (constants v type rfl)
  | default type => exact rules.pure (Knowledge.clear_of_ref? (Value.ref?_defaultOf type))
  | parameter p => exact rules.load p
  | unary op operand type =>
      exact rules.runUnary (parts operand (List.mem_singleton_self _)) stores
  | binary op left right assign checked type =>
      exact rules.runBinary (parts left List.mem_cons_self)
        (parts right (.tail _ List.mem_cons_self)) stores
  | typeTest op operand tested =>
      exact rules.bind (parts operand (List.mem_singleton_self _)) fun _ _ =>
        rules.pure (Knowledge.clear_of_ref? rfl)
  | conditional test ifTrue ifFalse type =>
      refine rules.judge (parts test List.mem_cons_self) fun holds => ?_
      cases holds with
      | true => exact parts ifTrue (.tail _ List.mem_cons_self)
      | false =>
          cases ifFalse with
          | none => exact nothing
          | some ifFalse => exact parts ifFalse (.tail _ (.tail _ List.mem_cons_self))
  | label target fallback =>
      cases fallback with
      | none => exact nothing
      | some fallback => exact parts fallback (List.mem_singleton_self _)
  | switch value cases fallback type =>
      refine rules.bind (parts value List.mem_cons_self) fun v _ => ?_
      exact rules.runCases v fun e mem => parts e (.tail _ mem)
  | create type arguments => exact rules.runCreate type arguments
  | newArray form type items => exact rules.runNewArray type parts
  | listInit created initializers =>
      refine rules.bind (parts created List.mem_cons_self) fun object clear => ?_
      refine rules.bind (rules.addAll (fun e mem => parts e (.tail _ mem)) calls clear)
        fun _ _ => ?_
      exact rules.pure clear
  | memberInit created bindings =>
      refine rules.bind (parts created List.mem_cons_self) fun object clear => ?_
      refine rules.bind
        (rules.fillAll calls clear bindings fun e mem => parts e (.tail _ mem)) fun _ _ => ?_
      exact rules.pure clear
  | call target m arguments => exact rules.runCall parts calls m
  | member target m =>
      cases target with
      | none => exact rules.failing rfl
      | some target =>
          refine rules.bind (parts target (List.mem_singleton_self _)) fun _ clear => ?_
          exact rules.memberGet clear m
  | invocation target arguments type =>
      refine rules.bind (parts target List.mem_cons_self) fun receiver clear => ?_
      refine rules.bind (rules.runAll fun e mem => parts e (.tail _ mem)) fun vs known => ?_
      exact rules.callOn calls clear _ known
  | index target arguments type =>
      refine rules.bind (parts target List.mem_cons_self) fun receiver clear => ?_
      refine rules.bind (rules.runAll fun e mem => parts e (.tail _ mem)) fun vs known => ?_
      exact rules.indexGet calls clear known type

end Rules

end Eval

end ExprTree
