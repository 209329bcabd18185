import ExprTree.Proofs.Nodes
import ExprTree.Proofs.TypeOrder

/-!
What lowering accepts, and what its results pass.

Lowering builds through the same checks as any other building, over parts that it has lowered
before. Whether those checks pass depends on the types and kinds of the parts, so that lowering
succeeds, that it keeps types and that its results pass all checks is one statement
(`Expr.decides_lower`), proved from children to parents. Of all the checks only two can fail: that
the test of a loop is boolean, and that the counter of a `for` can hold the start value.
-/

namespace ExprTree

open Build (Decides)

/-! ### Checks -/

/-- The parts of the node pass its checks. -/
def Expr.IsAccepted (e : Expr) : Prop := e.node.check = .ok ()

/-- Whether a node passes what lowering asks: a loop has a boolean test, and the counter of a `for`
can hold the start value. -/
def Expr.isLowerable (e : Expr) : Bool :=
  match e.node with
  | .forLoop counter start test _ _ _ _ =>
    test.type.isBoolean && counter.type.assignableFrom start.type
  | .whileLoop test _ _ _ | .doWhile _ test _ _ => test.type.isBoolean
  | _ => true

/-- All nodes of a tree pass what lowering asks. -/
def Expr.IsLowerable (e : Expr) : Prop := e.All fun d => d.isLowerable = true

instance (e : Expr) : Decidable e.IsAccepted :=
  inferInstanceAs (Decidable (e.node.check = .ok ()))

instance (e : Expr) : Decidable e.IsLowerable :=
  inferInstanceAs (Decidable (e.All fun d => d.isLowerable = true))

theorem require_eq_ok {condition : Bool} {error : BuildError} :
    require condition error = .ok () ↔ condition = true := by
  cases condition <;> simp [require]

theorem except_bind_eq_ok {α β : Type} {x : Except BuildError α} {f : α → Except BuildError β}
    {b : β} : (x >>= f) = .ok b ↔ ∃ a, x = .ok a ∧ f a = .ok b := by
  cases x <;> simp [bind, Except.bind]

theorem Expr.type_of_node {e : Expr} {node : Node} (made : e.node = node) : e.type = node.type := by
  obtain ⟨id, node'⟩ := e
  cases made
  rfl

theorem check_conditional {test ifTrue : Expr} {ifFalse : Option Expr} {type : Ty} :
    (Node.conditional test ifTrue ifFalse type).check = .ok () ↔ test.type.isBoolean = true :=
  require_eq_ok

theorem check_loop {body : Expr} {breakTo : Option Label} {l : Label} (typed : l.type = .void) :
    (Node.loop body breakTo (some l)).check = .ok () := by
  simp only [Node.check, checkContinue, require_eq_ok, typed, Ty.isVoid]

theorem check_arrayIndex {array index : Expr} {type : Ty} (passed : checkArray array = .ok ()) :
    (Node.binary .arrayIndex array index false false type).check = .ok () :=
  passed

theorem check_arrayLength {array : Expr} {type : Ty} (passed : checkArray array = .ok ()) :
    (Node.unary .arrayLength array type).check = .ok () :=
  passed

/-- A variable can be stored to, so storing to it is accepted if it can hold the value. -/
theorem check_store {p : Parameter} {target value : Expr} {type : Ty}
    (reads : target.node = .parameter p) :
    (Node.binary .assign target value false false type).check = .ok () ↔
      p.type.assignableFrom value.type = true := by
  have writable : target.isWritable = true := by
    simp only [Expr.isWritable, Expr.kind, reads, Node.kind]
  have typed : target.type = p.type := Expr.type_of_node reads
  have stored : (Node.binary .assign target value false false type).check =
      require (target.type.assignableFrom value.type)
        (.notAssignable target.type value.type) := by
    simp only [Node.check, checkBinary, checkWritable, checkAssignable, writable]
    rfl
  rw [stored, require_eq_ok, typed]

theorem isWritable_of_check_assign {target value : Expr} {type : Ty}
    (passes : (Node.binary .assign target value false false type).check = .ok ()) :
    target.isWritable = true := by
  obtain ⟨_, -, passes⟩ := except_bind_eq_ok.mp passes
  obtain ⟨_, -, passes⟩ := except_bind_eq_ok.mp passes
  obtain ⟨_, writable, -⟩ := except_bind_eq_ok.mp passes
  exact require_eq_ok.mp writable

namespace Lowering

/-! ### Nodes that lowering adds -/

/-- Under the assumption, all nodes of the tree are accepted. -/
def AcceptedIf (V : Prop) (e : Expr) : Prop := V → e.All Expr.IsAccepted

/-- A new node, accepted together with all nodes below it. -/
def Made (V : Prop) (node : Node) (e : Expr) : Prop := e.node = node ∧ AcceptedIf V e

/-- What becomes of a part of a loop: it keeps its type. -/
def Part (V : Prop) (c c' : Expr) : Prop := c'.type = c.type ∧ AcceptedIf V c'

-- New nodes are accepted if the nodes of the loop are, for which `V` stands.
variable (V : Prop)

theorem decides_checked {node : Node} {c : Prop} (check : node.check = .ok () ↔ c)
    (parts : ∀ d ∈ node.children, AcceptedIf V d) :
    Decides c (Made V node) (Build.checked node) where
  total holds := (Decides.checked node).total (check.mpr holds)
  sound k e k' ok := by
    obtain ⟨passed, rfl⟩ := (Decides.checked node).sound k e k' ok
    refine ⟨check.mp passed, rfl, fun valid => ?_⟩
    exact Expr.all_iff.mpr ⟨passed, fun d child => parts d child valid⟩

theorem decides_new {node : Node} (check : node.check = .ok ())
    (parts : ∀ d ∈ node.children, AcceptedIf V d) :
    Decides True (Made V node) (Build.checked node) :=
  decides_checked V (iff_of_true check trivial) parts

theorem decides_leaf {node : Node} (check : node.check = .ok ()) (leaf : node.children = []) :
    Decides True (Made V node) (Build.checked node) :=
  decides_new V check fun d mem => by
    rw [leaf] at mem
    cases mem

theorem decides_unchecked {node : Node} (check : node.check = .ok ())
    (parts : ∀ d ∈ node.children, AcceptedIf V d) :
    Decides True (Made V node) (Build.unchecked node) := by
  refine (Decides.unchecked node).imp Iff.rfl ?_
  rintro e rfl
  exact ⟨rfl, fun valid => Expr.all_iff.mpr ⟨check, fun d child => parts d child valid⟩⟩

variable {V}

/-- Storing a value to a variable. -/
theorem decides_store {p : Parameter} {target value : Expr} (reads : Made V (.parameter p) target)
    (part : AcceptedIf V value) :
    Decides (p.type.assignableFrom value.type = true) (AcceptedIf V)
      (Build.assign target value) := by
  refine (decides_checked V (check_store reads.1) ?_).imp Iff.rfl fun _ => And.right
  simp [Node.children, reads.2, part]

/-- Storing a value of its type to a variable. -/
theorem decides_store_same {p : Parameter} {target value : Expr}
    (reads : Made V (.parameter p) target) (part : AcceptedIf V value)
    (same : value.type = p.type) :
    Decides True (AcceptedIf V) (Build.assign target value) := by
  have fits : p.type.assignableFrom value.type = true := by
    rw [same]
    exact Ty.assignableFrom_self _
  exact (decides_store reads part).imp (iff_of_true fits trivial) fun _ given => given

theorem decides_innerLabels : Decides True (fun inner => inner.2.type = .void) innerLabels :=
  (Decides.label _ _).step fun _ _ => (Decides.label _ _).step fun _ typed => .pure typed

theorem decides_labelOr (target : Option Label) (name : String) :
    Decides True (fun _ => True) (labelOr target name) := by
  cases target with
  | none => exact (Decides.label _ _).imp Iff.rfl fun _ _ => trivial
  | some target => exact .pure trivial

theorem decides_closingLabel (V : Prop) (l : Label) :
    Decides True (AcceptedIf V) (closingLabel l) := by
  unfold closingLabel
  split
  · exact (decides_leaf V rfl rfl).imp Iff.rfl fun _ => And.right
  · refine (decides_leaf V rfl rfl).step fun fallback falls => ?_
    refine (decides_new V rfl ?_).imp Iff.rfl fun _ => And.right
    simp [Node.children, falls.2]

theorem decides_converted {value : Expr} (part : AcceptedIf V value) (type : Ty) :
    Decides True (fun e => e.type = type ∧ AcceptedIf V e) (converted value type) := by
  unfold converted
  split
  · rename_i same
    exact .pure ⟨same, part⟩
  · refine (decides_unchecked V rfl ?_).imp Iff.rfl fun e made => ⟨Expr.type_of_node made.1, made.2⟩
    simp [Node.children, part]

theorem decides_disposeUnlessNull (V : Prop) (p : Parameter) :
    Decides True (AcceptedIf V) (disposeUnlessNull p) := by
  refine (decides_leaf V rfl rfl).step fun left reads => ?_
  refine (decides_leaf V rfl rfl).step fun right null => ?_
  refine (decides_new V rfl (by simp [Node.children, reads.2, null.2])).step fun test tests => ?_
  refine (decides_leaf V rfl rfl).step fun target receives => ?_
  refine (decides_new V rfl (by simp [Node.children, receives.2])).step fun call calls => ?_
  have boolean : test.type = .boolean := Expr.type_of_node tests.1
  refine (decides_new V (check_conditional.mpr ?_) ?_).imp Iff.rfl fun _ => And.right
  · rw [boolean, Ty.isBoolean]
  · simp [Node.children, tests.2, calls.2]

theorem decides_disposal (V : Prop) (enumerator : Parameter) :
    Decides True (fun cleanup => ∀ e ∈ cleanup, AcceptedIf V e) (disposal enumerator) := by
  unfold disposal
  split
  · refine (decides_leaf V rfl rfl).step fun target reads => ?_
    refine (decides_new V rfl (by simp [Node.children, reads.2])).step fun call calls => ?_
    exact .pure (by simp [calls.2])
  · split
    · exact .pure (by simp)
    · refine (Decides.parameter _ _).step fun disposable typed => ?_
      refine (decides_disposeUnlessNull V disposable).step fun check disposes => ?_
      refine (decides_leaf V rfl rfl).step fun operand reads => ?_
      refine (decides_unchecked V rfl (by simp [Node.children, reads.2])).step fun cast casts => ?_
      refine (decides_leaf V rfl rfl).step fun target receives => ?_
      have same : cast.type = disposable.type := (Expr.type_of_node casts.1).trans typed.symm
      refine (decides_store_same receives casts.2 same).step fun store stores => ?_
      refine (decides_new V rfl (by simp [Node.children, stores, disposes])).step
        fun block holds => ?_
      exact .pure (by simp [holds.2])

theorem decides_guardedBy {looping : Expr} {cleanup : Option Expr} (part : AcceptedIf V looping)
    (final : ∀ e ∈ cleanup, AcceptedIf V e) :
    Decides True (AcceptedIf V) (guardedBy looping cleanup) := by
  cases cleanup with
  | none => exact .pure part
  | some cleanup =>
      refine (decides_new V rfl ?_).imp Iff.rfl fun _ => And.right
      simp [Node.children, part, final cleanup rfl]

/-! ### Lowered loops -/

variable {lower : Expr → Build Expr} {ok : Expr → Prop}

/-- A lowered `for` needs its parts, a boolean test and a start value that fits the counter. -/
theorem decides_forLoop {start test step body : Expr} (counter : Parameter)
    (breakTo continueTo : Option Label)
    (parts : ∀ c ∈ [start, test, step, body], Decides (ok c) (Part V c) (lower c)) :
    Decides ((test.type.isBoolean = true ∧ counter.type.assignableFrom start.type = true) ∧
        ∀ c ∈ [start, test, step, body], ok c)
      (fun e => e.type = Label.typeOrVoid breakTo ∧ AcceptedIf V e)
      (forLoop lower counter start test step body breakTo continueTo) := by
  simp only [List.forall_mem_cons] at parts
  obtain ⟨starts, tests, steps, bodies, -⟩ := parts
  suffices inOrder : Decides (ok body ∧ ok step ∧ ok test ∧ test.type.isBoolean = true ∧ ok start ∧
      counter.type.assignableFrom start.type = true)
      (fun e => e.type = Label.typeOrVoid breakTo ∧ AcceptedIf V e)
      (forLoop lower counter start test step body breakTo continueTo) from
    inOrder.imp (by simp; tauto) fun _ given => given
  refine decides_innerLabels.step fun inner void => ?_
  refine (decides_labelOr _ _).step fun breakLabel _ => ?_
  refine (decides_labelOr _ _).step fun continueLabel _ => ?_
  refine bodies.bind fun body' bodyPart => ?_
  refine (decides_leaf V rfl rfl).step fun place places => ?_
  refine steps.bind fun step' stepPart => ?_
  refine (decides_leaf V rfl rfl).step fun again goesOn => ?_
  refine (decides_new V rfl
    (by simp [Node.children, bodyPart.2, places.2, stepPart.2, goesOn.2])).step
    fun round rounds => ?_
  refine tests.bind fun test' testPart => ?_
  refine (decides_leaf V rfl rfl).step fun leave leaves => ?_
  refine (decides_checked V (testPart.1 ▸ check_conditional)
    (by simp [Node.children, testPart.2, rounds.2, leaves.2])).bind fun choice chooses => ?_
  refine (decides_new V rfl (by simp [Node.children, chooses.2])).step fun inside holds => ?_
  refine (decides_new V (check_loop void) (by simp [Node.children, holds.2])).step
    fun looping loops => ?_
  refine (decides_leaf V rfl rfl).step fun target reads => ?_
  refine starts.bind fun start' startPart => ?_
  refine (startPart.1 ▸ decides_store reads startPart.2).andThen fun store stores => ?_
  refine (decides_closingLabel V _).step fun closing closes => ?_
  refine (decides_new V rfl ?_).imp Iff.rfl fun e made => ⟨Expr.type_of_node made.1, made.2⟩
  simp [Node.children, stores, loops.2, closes]

theorem decides_whileLoop {test body : Expr} (breakTo continueTo : Option Label)
    (parts : ∀ c ∈ [test, body], Decides (ok c) (Part V c) (lower c)) :
    Decides (test.type.isBoolean = true ∧ ∀ c ∈ [test, body], ok c)
      (fun e => e.type = Label.typeOrVoid breakTo ∧ AcceptedIf V e)
      (whileLoop lower test body breakTo continueTo) := by
  simp only [List.forall_mem_cons] at parts
  obtain ⟨tests, bodies, -⟩ := parts
  suffices inOrder : Decides (ok body ∧ ok test ∧ test.type.isBoolean = true)
      (fun e => e.type = Label.typeOrVoid breakTo ∧ AcceptedIf V e)
      (whileLoop lower test body breakTo continueTo) from
    inOrder.imp (by simp; tauto) fun _ given => given
  refine decides_innerLabels.step fun inner void => ?_
  refine (decides_labelOr _ _).step fun breakLabel _ => ?_
  refine (decides_labelOr _ _).step fun continueLabel _ => ?_
  refine bodies.bind fun body' bodyPart => ?_
  refine (decides_leaf V rfl rfl).step fun again goesOn => ?_
  refine (decides_new V rfl (by simp [Node.children, bodyPart.2, goesOn.2])).step
    fun round rounds => ?_
  refine tests.bind fun test' testPart => ?_
  refine (decides_leaf V rfl rfl).step fun leave leaves => ?_
  refine (decides_checked V (testPart.1 ▸ check_conditional)
    (by simp [Node.children, testPart.2, rounds.2, leaves.2])).andThen fun choice chooses => ?_
  refine (decides_leaf V rfl rfl).step fun place places => ?_
  refine (decides_new V rfl (by simp [Node.children, places.2, chooses.2])).step
    fun inside holds => ?_
  refine (decides_new V (check_loop void) (by simp [Node.children, holds.2])).step
    fun looping loops => ?_
  refine (decides_closingLabel V _).step fun closing closes => ?_
  refine (decides_new V rfl ?_).imp Iff.rfl fun e made => ⟨Expr.type_of_node made.1, made.2⟩
  simp [Node.children, loops.2, closes]

theorem decides_doWhile {body test : Expr} (breakTo continueTo : Option Label)
    (parts : ∀ c ∈ [body, test], Decides (ok c) (Part V c) (lower c)) :
    Decides (test.type.isBoolean = true ∧ ∀ c ∈ [body, test], ok c)
      (fun e => e.type = Label.typeOrVoid breakTo ∧ AcceptedIf V e)
      (doWhile lower body test breakTo continueTo) := by
  simp only [List.forall_mem_cons] at parts
  obtain ⟨bodies, tests, -⟩ := parts
  suffices inOrder : Decides (ok test ∧ test.type.isBoolean = true ∧ ok body)
      (fun e => e.type = Label.typeOrVoid breakTo ∧ AcceptedIf V e)
      (doWhile lower body test breakTo continueTo) from
    inOrder.imp (by simp; tauto) fun _ given => given
  refine decides_innerLabels.step fun inner void => ?_
  refine (decides_labelOr _ _).step fun breakLabel _ => ?_
  refine (decides_labelOr _ _).step fun continueLabel _ => ?_
  refine tests.bind fun test' testPart => ?_
  refine (decides_leaf V rfl rfl).step fun again goesOn => ?_
  refine (decides_leaf V rfl rfl).step fun leave leaves => ?_
  refine (decides_checked V (testPart.1 ▸ check_conditional)
    (by simp [Node.children, testPart.2, goesOn.2, leaves.2])).bind fun choice chooses => ?_
  refine bodies.andThen fun body' bodyPart => ?_
  refine (decides_leaf V rfl rfl).step fun place places => ?_
  refine (decides_new V rfl (by simp [Node.children, bodyPart.2, places.2, chooses.2])).step
    fun inside holds => ?_
  refine (decides_new V (check_loop void) (by simp [Node.children, holds.2])).step
    fun looping loops => ?_
  refine (decides_closingLabel V _).step fun closing closes => ?_
  refine (decides_new V rfl ?_).imp Iff.rfl fun e made => ⟨Expr.type_of_node made.1, made.2⟩
  simp [Node.children, loops.2, closes]

theorem decides_usingBlock {resource body : Expr}
    (parts : ∀ c ∈ [resource, body], Decides (ok c) (Part V c) (lower c)) :
    Decides (∀ c ∈ [resource, body], ok c) (fun e => e.type = body.type ∧ AcceptedIf V e)
      (usingBlock lower resource body) := by
  simp only [List.forall_mem_cons] at parts
  obtain ⟨resources, bodies, -⟩ := parts
  suffices inOrder : Decides (ok body ∧ ok resource)
      (fun e => e.type = body.type ∧ AcceptedIf V e) (usingBlock lower resource body) from
    inOrder.imp (by simp; tauto) fun _ given => given
  refine (Decides.parameter _ _).step fun disposable typed => ?_
  refine bodies.bind fun body' bodyPart => ?_
  refine (decides_disposeUnlessNull V disposable).step fun cleanup disposes => ?_
  refine resources.andThen fun resource' resourcePart => ?_
  refine (decides_unchecked V rfl (by simp [Node.children, resourcePart.2])).step
    fun value converts => ?_
  refine (decides_leaf V rfl rfl).step fun target reads => ?_
  have same : value.type = disposable.type := (Expr.type_of_node converts.1).trans typed.symm
  refine (decides_store_same reads converts.2 same).step fun store stores => ?_
  refine (decides_new V rfl (by simp [Node.children, bodyPart.2, disposes])).step
    fun guarded guards => ?_
  refine (decides_new V rfl ?_).imp Iff.rfl fun e made =>
    ⟨(Expr.type_of_node made.1).trans bodyPart.1, made.2⟩
  simp [Node.children, stores, guards.2]

/-- A lowered `foreach` needs nothing but its parts: the variables that it adds have the types of
what is stored in them. -/
theorem decides_forEachIndexed {source body : Expr} (item : Parameter)
    (breakTo continueTo : Option Label) (array : source.type.isArray = true)
    (parts : ∀ c ∈ [source, body], Decides (ok c) (Part V c) (lower c)) :
    Decides (∀ c ∈ [source, body], ok c)
      (fun e => e.type = Label.typeOrVoid breakTo ∧ AcceptedIf V e)
      (forEachIndexed lower item source body breakTo continueTo) := by
  simp only [List.forall_mem_cons] at parts
  obtain ⟨sources, bodies, -⟩ := parts
  suffices inOrder : Decides (ok body ∧ ok source)
      (fun e => e.type = Label.typeOrVoid breakTo ∧ AcceptedIf V e)
      (forEachIndexed lower item source body breakTo continueTo) from
    inOrder.imp (by simp; tauto) fun _ given => given
  refine decides_innerLabels.step fun inner void => ?_
  refine (decides_labelOr _ _).step fun breakLabel _ => ?_
  refine (decides_labelOr _ _).step fun continueLabel _ => ?_
  refine (Decides.parameter _ _).step fun vector vectorTyped => ?_
  refine (Decides.parameter _ _).step fun index indexTyped => ?_
  have isArray {e : Expr} (reads : e.node = .parameter vector) : checkArray e = .ok () := by
    rw [checkArray, require_eq_ok, Expr.type_of_node reads, Node.type, vectorTyped]
    exact array
  refine (decides_leaf V rfl rfl).step fun array' readsArray => ?_
  refine (decides_leaf V rfl rfl).step fun index' readsIndex => ?_
  refine (decides_new V (check_arrayIndex (isArray readsArray.1))
    (by simp [Node.children, readsArray.2, readsIndex.2])).step fun element picks => ?_
  refine (decides_leaf V rfl rfl).step fun addend readsAddend => ?_
  refine (decides_leaf V rfl rfl).step fun one ones => ?_
  refine (decides_new V rfl (by simp [Node.children, readsAddend.2, ones.2])).step
    fun sum adds => ?_
  refine (decides_leaf V rfl rfl).step fun stepTarget stepReads => ?_
  have sumTyped : sum.type = index.type := by
    rw [Expr.type_of_node adds.1]
    exact Expr.type_of_node readsAddend.1
  refine (decides_store_same stepReads adds.2 sumTyped).step fun next steps => ?_
  refine (decides_leaf V rfl rfl).step fun itemTarget itemReads => ?_
  refine (decides_converted picks.2 _).step fun value converts => ?_
  refine (decides_store_same itemReads converts.2 converts.1).step fun storeItem storesItem => ?_
  refine bodies.bind fun body' bodyPart => ?_
  refine (decides_leaf V rfl rfl).step fun place places => ?_
  refine (decides_leaf V rfl rfl).step fun again goesOn => ?_
  refine (decides_new V rfl
    (by simp [Node.children, storesItem, bodyPart.2, places.2, steps, goesOn.2])).step
    fun round rounds => ?_
  refine (decides_leaf V rfl rfl).step fun operand measured => ?_
  refine (decides_new V (check_arrayLength (isArray measured.1))
    (by simp [Node.children, measured.2])).step fun length measures => ?_
  refine (decides_leaf V rfl rfl).step fun left readsLeft => ?_
  refine (decides_new V rfl (by simp [Node.children, readsLeft.2, measures.2])).step
    fun test tests => ?_
  refine (decides_leaf V rfl rfl).step fun leave leaves => ?_
  have boolean : test.type.isBoolean = true := by
    rw [Expr.type_of_node tests.1]
    rfl
  refine (decides_new V (check_conditional.mpr boolean)
    (by simp [Node.children, tests.2, rounds.2, leaves.2])).step fun choice chooses => ?_
  refine (decides_new V rfl (by simp [Node.children, chooses.2])).step fun inside holds => ?_
  refine (decides_new V (check_loop void) (by simp [Node.children, holds.2])).step
    fun looping loops => ?_
  refine (decides_leaf V rfl rfl).step fun arrayTarget arrayReads => ?_
  refine sources.andThen fun source' sourcePart => ?_
  have sourceTyped : source'.type = vector.type := sourcePart.1.trans vectorTyped.symm
  refine (decides_store_same arrayReads sourcePart.2 sourceTyped).step
    fun storeArray storesArray => ?_
  refine (decides_leaf V rfl rfl).step fun indexTarget indexReads => ?_
  refine (decides_leaf V rfl rfl).step fun zero starts => ?_
  have zeroTyped : zero.type = index.type := (Expr.type_of_node starts.1).trans indexTyped.symm
  refine (decides_store_same indexReads starts.2 zeroTyped).step fun storeIndex storesIndex => ?_
  refine (decides_closingLabel V _).step fun closing closes => ?_
  refine (decides_new V rfl ?_).imp Iff.rfl fun e made => ⟨Expr.type_of_node made.1, made.2⟩
  simp [Node.children, storesArray, storesIndex, loops.2, closes]

theorem decides_forEachEnumerated {source body : Expr} (item : Parameter)
    (breakTo continueTo : Option Label)
    (parts : ∀ c ∈ [source, body], Decides (ok c) (Part V c) (lower c)) :
    Decides (∀ c ∈ [source, body], ok c)
      (fun e => e.type = Label.typeOrVoid breakTo ∧ AcceptedIf V e)
      (forEachEnumerated lower item source body breakTo continueTo) := by
  simp only [List.forall_mem_cons] at parts
  obtain ⟨sources, bodies, -⟩ := parts
  suffices inOrder : Decides (ok source ∧ ok body)
      (fun e => e.type = Label.typeOrVoid breakTo ∧ AcceptedIf V e)
      (forEachEnumerated lower item source body breakTo continueTo) from
    inOrder.imp (by simp) fun _ given => given
  refine decides_innerLabels.step fun inner void => ?_
  refine (decides_labelOr _ _).step fun breakLabel _ => ?_
  refine (decides_labelOr _ _).step fun continueLabel _ => ?_
  refine (Decides.parameter _ _).step fun enumerator typed => ?_
  refine sources.bind fun source' sourcePart => ?_
  refine (decides_converted sourcePart.2 _).step fun receiver receives => ?_
  refine (decides_new V rfl (by simp [Node.children, receives.2])).step
    fun enumeration enumerates => ?_
  refine (decides_leaf V rfl rfl).step fun target reads => ?_
  refine (decides_new V rfl (by simp [Node.children, reads.2])).step fun current currents => ?_
  refine (decides_leaf V rfl rfl).step fun itemTarget itemReads => ?_
  refine (decides_converted currents.2 _).step fun value converts => ?_
  refine (decides_store_same itemReads converts.2 converts.1).step fun storeItem storesItem => ?_
  refine bodies.andThen fun body' bodyPart => ?_
  refine (decides_leaf V rfl rfl).step fun place places => ?_
  refine (decides_leaf V rfl rfl).step fun again goesOn => ?_
  refine (decides_new V rfl
    (by simp [Node.children, storesItem, bodyPart.2, places.2, goesOn.2])).step
    fun round rounds => ?_
  refine (decides_leaf V rfl rfl).step fun moved movesOn => ?_
  refine (decides_new V rfl (by simp [Node.children, movesOn.2])).step fun test tests => ?_
  refine (decides_leaf V rfl rfl).step fun leave leaves => ?_
  have boolean : test.type.isBoolean = true := by
    rw [Expr.type_of_node tests.1]
    rfl
  refine (decides_new V (check_conditional.mpr boolean)
    (by simp [Node.children, tests.2, rounds.2, leaves.2])).step fun choice chooses => ?_
  refine (decides_new V rfl (by simp [Node.children, chooses.2])).step fun inside holds => ?_
  refine (decides_new V (check_loop void) (by simp [Node.children, holds.2])).step
    fun looping loops => ?_
  refine (decides_disposal V enumerator).step fun cleanup final => ?_
  refine (decides_guardedBy loops.2 final).step fun guarded guards => ?_
  refine (decides_leaf V rfl rfl).step fun enumeratorTarget enumeratorReads => ?_
  have same : enumeration.type = enumerator.type :=
    (Expr.type_of_node enumerates.1).trans typed.symm
  refine (decides_store_same enumeratorReads enumerates.2 same).step
    fun storeEnumerator storesEnumerator => ?_
  refine (decides_closingLabel V _).step fun closing closes => ?_
  refine (decides_new V rfl ?_).imp Iff.rfl fun e made => ⟨Expr.type_of_node made.1, made.2⟩
  simp [Node.children, storesEnumerator, guards, closes]

/-- A derived node is reduced if its parts can be lowered and it passes what lowering asks of it. -/
theorem decides_reduceWith {e : Expr} (derived : e.isDerived = true)
    (parts : ∀ c ∈ e.children, Decides (ok c) (Part V c) (lower c)) :
    Decides (e.isLowerable = true ∧ ∀ c ∈ e.children, ok c)
      (fun e' => e'.type = e.type ∧ AcceptedIf V e') (e.reduceWith lower) := by
  obtain ⟨id, node⟩ := e
  cases node with
  | forLoop counter start test =>
      refine (decides_forLoop _ _ _ parts).imp (and_congr_left' ?_) fun _ given => given
      exact Bool.and_eq_true_iff.symm
  | whileLoop => exact decides_whileLoop _ _ parts
  | doWhile => exact decides_doWhile _ _ parts
  | forEach item source body breakTo continueTo =>
      simp only [Expr.reduceWith, forEach]
      split
      · rename_i vector
        have array := (Bool.and_eq_true_iff.mp vector).1
        exact (decides_forEachIndexed _ _ _ array parts).imp (and_iff_right rfl).symm
          fun _ given => given
      · exact (decides_forEachEnumerated _ _ _ parts).imp (and_iff_right rfl).symm
          fun _ given => given
  | usingBlock =>
      exact (decides_usingBlock parts).imp (and_iff_right rfl).symm fun _ given => given
  | _ => cases derived

end Lowering

/-! ### Nodes that are built anew -/

/-- What lowering keeps of an expression: its type, its kind unless a derived node is replaced, and
that all its nodes are accepted. -/
structure Expr.Keeps (e e' : Expr) : Prop where
  type : e'.type = e.type
  kind : e.isDerived = false → e'.kind = e.kind
  accepted : e.All Expr.IsAccepted → e'.All Expr.IsAccepted

section

variable {e e' left left' right right' : Expr}

/-- Only nodes that are not derived can be stored to. -/
theorem Expr.Keeps.checkWritable (keeps : e.Keeps e') (passed : checkWritable e = .ok ()) :
    checkWritable e' = .ok () := by
  have writable : e.isWritable = true := require_eq_ok.mp passed
  have plain : e.isDerived = false := by
    unfold Expr.isWritable at writable
    unfold Expr.isDerived
    split at writable <;> simp_all [Kind.isDerived]
  refine require_eq_ok.mpr ?_
  rw [Expr.isWritable, keeps.kind plain]
  exact writable

theorem Expr.Keeps.checkArray (keeps : e.Keeps e') (passed : checkArray e = .ok ()) :
    checkArray e' = .ok () := by
  refine require_eq_ok.mpr ?_
  rw [keeps.type]
  exact require_eq_ok.mp passed

theorem Expr.Keeps.checkNew (keeps : e.Keeps e')
    (passed : require e.isNew (.notNew e.kind) = .ok ()) :
    require e'.isNew (.notNew e'.kind) = .ok () := by
  have created : e.kind = .create := by simpa [Expr.isNew] using require_eq_ok.mp passed
  have plain : e.isDerived = false := by simp [Expr.isDerived, created, Kind.isDerived]
  refine require_eq_ok.mpr ?_
  simp [Expr.isNew, keeps.kind plain, created]

theorem Expr.Keeps.checkBinary {op : BinaryOp} {assign checked : Bool}
    (leftKeeps : left.Keeps left') (rightKeeps : right.Keeps right')
    (passed : checkBinary op left right assign checked = .ok ()) :
    checkBinary op left' right' assign checked = .ok () := by
  obtain ⟨_, flagged, passed⟩ := except_bind_eq_ok.mp passed
  obtain ⟨_, compound, passed⟩ := except_bind_eq_ok.mp passed
  refine except_bind_eq_ok.mpr ⟨_, flagged, except_bind_eq_ok.mpr ⟨_, compound, ?_⟩⟩
  cases op with
  | assign =>
      obtain ⟨_, writable, assignable⟩ := except_bind_eq_ok.mp passed
      refine except_bind_eq_ok.mpr ⟨(), leftKeeps.checkWritable writable, ?_⟩
      rw [leftKeeps.type, rightKeeps.type]
      exact assignable
  | arrayIndex => exact leftKeeps.checkArray passed
  | _ =>
      cases assign with
      | false => rfl
      | true => exact leftKeeps.checkWritable passed

end

/-- A node that is built anew around what keeps types and kinds passes the checks that the node
passed before. -/
theorem Node.Alike.check_of_keeps {v : Parameter → Parameter → Prop} {node node' : Node}
    (alike : node.Alike Expr.Keeps v node') (plain : node.kind.isDerived = false)
    (passed : node.check = .ok ()) : node'.check = .ok () := by
  cases alike with
  | @unary op _ _ _ operand =>
      cases op with
      | arrayLength => exact operand.checkArray passed
      | preIncrementAssign | postIncrementAssign | preDecrementAssign | postDecrementAssign =>
          exact operand.checkWritable passed
      | _ => rfl
  | binary left right => exact left.checkBinary right passed
  | block _ statements =>
      simpa only [Node.check, isEmpty_eq_of_forall₂ statements] using passed
  | conditional test =>
      rw [check_conditional, test.type]
      exact check_conditional.mp passed
  | attempt _ handlers fault finalizer =>
      simpa only [Node.check, isEmpty_eq_of_forall₂ handlers, isSome_eq_of_rel fault,
        isSome_eq_of_rel finalizer] using passed
  | listInit created => exact created.checkNew passed
  | memberInit created => exact created.checkNew passed
  | forLoop | forEach | whileLoop | doWhile | usingBlock => cases plain
  | _ => exact passed

/-! ### Lowered trees -/

theorem Expr.isLowerable_iff {e : Expr} :
    e.IsLowerable ↔ e.isLowerable = true ∧ ∀ c ∈ e.children, c.IsLowerable :=
  Expr.all_iff

theorem Expr.isLowerable_of_plain {e : Expr} (plain : e.isDerived = false) :
    e.isLowerable = true := by
  obtain ⟨id, node⟩ := e
  cases node with
  | forLoop | whileLoop | doWhile => cases plain
  | _ => rfl

/-- Lowering succeeds exactly when every node passes what it asks, and keeps type and acceptance. -/
theorem Expr.decides_lower (e : Expr) : Decides e.IsLowerable e.Keeps e.lower := by
  induction e using Expr.inductionOnChildren with
  | step e ih =>
      rw [Expr.lower_eq]
      by_cases derived : e.isDerived = true
      · rw [if_pos derived]
        have parts (c : Expr) (child : c ∈ e.children) : Decides c.IsLowerable
            (Lowering.Part (e.All Expr.IsAccepted) c) c.lower :=
          (ih c child).imp Iff.rfl fun c' keeps =>
            ⟨keeps.type, fun valid => keeps.accepted ((Expr.all_iff.mp valid).2 c child)⟩
        refine (Lowering.decides_reduceWith derived parts).imp Expr.isLowerable_iff.symm ?_
        rintro e' ⟨typed, accepted⟩
        exact ⟨typed, fun plain => by simp [derived] at plain, accepted⟩
      · have plain : e.isDerived = false := by simpa using derived
        rw [if_neg derived]
        have condition : (∀ c ∈ e.children, c.IsLowerable) ↔ e.IsLowerable := by
          rw [Expr.isLowerable_iff]
          exact ⟨fun below => ⟨Expr.isLowerable_of_plain plain, below⟩, And.right⟩
        refine Decides.imp (Decides.andThen (Node.decides_traverse ih) ?_) condition
          fun _ keeps => keeps
        intro node alike
        by_cases same : node.sameParts e.node = true
        · rw [if_pos same]
          exact .pure ⟨rfl, fun _ => rfl, fun accepted => accepted⟩
        · rw [if_neg same]
          have kind : node.kind = e.node.kind := alike.kind_eq.symm
          have typed : e.node.type = node.type :=
            alike.type_eq (fun _ _ _ keeps => keeps.type.symm) fun _ _ same => same ▸ rfl
          unfold Node.renewed
          rw [kind, show e.node.kind.isDerived = false from plain]
          refine (Decides.unchecked node).imp Iff.rfl ?_
          rintro e' rfl
          refine ⟨?_, fun _ => kind, fun accepted => ?_⟩
          · rw [Expr.type_of_node rfl, ← typed, Expr.type_of_node rfl]
          · obtain ⟨root, below⟩ := Expr.all_iff.mp accepted
            refine Expr.all_iff.mpr ⟨alike.check_of_keeps plain root, fun c' child' => ?_⟩
            obtain ⟨c, child, keeps⟩ := exists_of_forall₂_right alike.forall₂_children child'
            exact keeps.accepted (below c child)

/-- A node as some factory builds it: its parts pass the checks, or it is a unary operation of a
given type, for which nothing is checked. -/
def Expr.IsBuilt (e : Expr) : Prop := e.IsAccepted ∨ ∃ op, e.kind = .unary op

theorem Expr.IsBuilt.isLowerable {e : Expr} (built : e.IsBuilt) : e.isLowerable = true := by
  obtain ⟨id, node⟩ := e
  rcases built with passed | ⟨op, unary⟩
  · cases node with
    | forLoop =>
        obtain ⟨_, -, passed⟩ := except_bind_eq_ok.mp passed
        obtain ⟨_, fits, tests⟩ := except_bind_eq_ok.mp passed
        exact Bool.and_eq_true_iff.mpr ⟨require_eq_ok.mp tests, require_eq_ok.mp fits⟩
    | whileLoop | doWhile =>
        obtain ⟨_, -, tests⟩ := except_bind_eq_ok.mp passed
        exact require_eq_ok.mp tests
    | _ => rfl
  · cases node with
    | unary => rfl
    | _ => cases unary

/-- Lowering succeeds exactly on the trees whose loops have boolean tests and start values that fit.
What it gives has the type of the tree, and all its nodes are accepted if those of the tree are. So
every tree that is built through the checks can be lowered. -/
theorem lowering_keeps_types_and_checks (e : Expr) (k : Supply) :
    ((∃ r, e.lower k = .ok r) ↔ e.IsLowerable) ∧
    (∀ e' k', e.lower k = .ok (e', k') →
      e'.type = e.type ∧ (e.All Expr.IsAccepted → e'.All Expr.IsAccepted)) ∧
    (e.All Expr.IsBuilt → ∃ r, e.lower k = .ok r) := by
  have decides := e.decides_lower
  refine ⟨⟨?_, fun lowerable => decides.total lowerable k⟩, ?_, ?_⟩
  · rintro ⟨⟨e', k'⟩, ok⟩
    exact (decides.sound k e' k' ok).1
  · intro e' k' ok
    obtain ⟨-, keeps⟩ := decides.sound k e' k' ok
    exact ⟨keeps.type, keeps.accepted⟩
  · intro built
    exact decides.total (fun d mem => (built d mem).isLowerable) k

/-! ### Loops inside a lambda

`() => { for (int i = 0; i < 3; ++i) while (test) i }`, once with a test that is boolean and once
with one that is not. -/

namespace LoopsInLambda

def counter : Parameter := ⟨0, some "i", .int32⟩

def inner (test : Expr) : Expr := ⟨2, .whileLoop test ⟨1, .parameter counter⟩ none none⟩

def outer (test : Expr) : Expr :=
  ⟨9, .forLoop counter ⟨3, .constant (.int32 0) .int32⟩
    ⟨6, .binary .lessThan ⟨4, .parameter counter⟩ ⟨5, .constant (.int32 3) .int32⟩ false false
      .boolean⟩
    ⟨8, .unary .preIncrementAssign ⟨7, .parameter counter⟩ .int32⟩ (inner test) none none⟩

def lambda (test : Expr) : Expr := ⟨10, .lambda ⟨none, [], outer test, .void⟩⟩

def good : Expr := lambda ⟨11, .constant (.boolean false) .boolean⟩

def bad : Expr := lambda ⟨11, .constant (.int32 0) .int32⟩

theorem lowered_unless_test_is_number :
    (∃ e' k', good.lower 12 = .ok (e', k') ∧ e'.type = .ofClass "Action" ∧
      e'.All Expr.IsAccepted) ∧
    ¬ ∃ r, bad.lower 12 = .ok r := by
  have accepted : good.All Expr.IsAccepted := by decide
  constructor
  · obtain ⟨⟨e', k'⟩, ok⟩ :=
      (lowering_keeps_types_and_checks good 12).2.2 fun d mem => .inl (accepted d mem)
    obtain ⟨typed, passes⟩ := (lowering_keeps_types_and_checks good 12).2.1 e' k' ok
    exact ⟨e', k', ok, typed, passes accepted⟩
  · rw [(lowering_keeps_types_and_checks bad 12).1]
    decide

end LoopsInLambda

end ExprTree
