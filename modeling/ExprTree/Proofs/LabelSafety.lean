import ExprTree.Proofs.Agreement
import ExprTree.Proofs.Jumps

/-!
Label safety.

A jump that leaves a tree goes to one of its free labels, and lowering frees none. So a program
without free labels, in itself or in one of its lambdas, never fails because a jump finds no label:
a call ends a jump only when it leaves the body of a lambda. Closures that the program finds in its
data must be as safe (`Heap.Escapes`), and so must be what the host answers and leaves in the heap.
-/

namespace ExprTree

open Build (Yields)

/-! ### Safe trees -/

/-- The lambda that a node makes a closure of. -/
def Node.lambda? : Node → Option Lambda
  | .lambda l => some l
  | _ => none

/-- The value that a node is. -/
def Node.constant? : Node → Option Value
  | .constant v _ => some v
  | _ => none

theorem Node.eq_of_lambda? {node : Node} {l : Lambda} (found : l ∈ node.lambda?) :
    node = .lambda l := by
  cases node with
  | lambda =>
      cases found
      rfl
  | _ => cases found

theorem Node.eq_of_constant? {node : Node} {v : Value} (found : v ∈ node.constant?) :
    ∃ type, node = .constant v type := by
  cases node with
  | constant =>
      cases found
      exact ⟨_, rfl⟩
  | _ => cases found

/-- A lambda has no free label, and a constant is harmless. -/
def Expr.Settled (harmless : Value → Prop) (e : Expr) : Prop :=
  (∀ l ∈ e.node.lambda?, l.body.freeLabels = []) ∧ ∀ v ∈ e.node.constant?, harmless v

/-- No label is free in the tree or in a lambda in it, and the constants in it are harmless. -/
def Expr.LabelSafe (harmless : Value → Prop) (e : Expr) : Prop :=
  e.freeLabels = [] ∧ e.All (Expr.Settled harmless)

instance (harmless : Value → Prop) [DecidablePred harmless] :
    DecidablePred (Expr.Settled harmless) :=
  fun e => inferInstanceAs (Decidable ((∀ l ∈ e.node.lambda?, l.body.freeLabels = []) ∧
    ∀ v ∈ e.node.constant?, harmless v))

instance (harmless : Value → Prop) [DecidablePred harmless] :
    DecidablePred (Expr.LabelSafe harmless) :=
  fun e => inferInstanceAs (Decidable (e.freeLabels = [] ∧ e.All (Expr.Settled harmless)))

/-- Which constants are harmless is a question of its own. -/
theorem Expr.LabelSafe.of_constants {harmless harmless' : Value → Prop} {e : Expr}
    (safe : e.LabelSafe harmless)
    (constants : ∀ d ∈ e.nodes, ∀ v ∈ d.node.constant?, harmless v → harmless' v) :
    e.LabelSafe harmless' :=
  ⟨safe.1, fun d mem => ⟨(safe.2 d mem).1, fun v constant =>
    constants d mem v constant ((safe.2 d mem).2 v constant)⟩⟩

/-! ### Escapes -/

/-- The values that a cell mentions. A closure mentions those of the variables in its frame and the
constants in its body. -/
def Cell.Mentions : Cell → Value → Prop
  | .array items, v => v ∈ items
  | .plain i, v => (∃ f ∈ i.fields, f.2 = v) ∨ v ∈ i.items
  | .closure l frame, v => (∃ b ∈ frame.scope, b.2 = v) ∨
      ∃ d ∈ l.body.nodes, v ∈ d.node.constant?
  | .external, _ => False

/-- The place leads to a closure that a jump may escape from: a label is free in its body or in a
lambda in there. -/
inductive Heap.Escapes (h : Heap) : Ref → Prop
  | closure {r : Ref} {l : Lambda} {frame : Frame} (found : h.get? r = some (.closure l frame))
      (escapes : ¬ l.body.LabelSafe fun _ => True) : Escapes h r
  | mentioned {r r' : Ref} {c : Cell} {v : Value} (found : h.get? r = some c)
      (mentions : c.Mentions v) (refers : v.ref? = some r') (further : Escapes h r') : Escapes h r

/-- The value leads to no closure that a jump may escape from, for instance because it leads to no
closure at all. -/
def Heap.Harmless (h : Heap) (v : Value) : Prop := ∀ r, v.ref? = some r → ¬ h.Escapes r

theorem Heap.harmless_of_ref? (h : Heap) (v : Value) (none : v.ref? = none) : h.Harmless v := by
  intro r found
  rw [none] at found
  cases found

/-- From where `h` leads to no closure that a jump may escape from, `h'` leads to none either. -/
structure Heap.Confines (h h' : Heap) : Prop where
  exist : ∀ r, h.Escapes r → r < h'.cells.size
  mentioned : ∀ r c v, ¬ h.Escapes r → h'.get? r = some c → c.Mentions v → h.Harmless v
  closures : ∀ r l frame, ¬ h.Escapes r → h'.get? r = some (.closure l frame) →
    l.body.LabelSafe fun _ => True

theorem Heap.confines_refl (h : Heap) : h.Confines h := by
  refine ⟨fun r escapes => ?_, fun r c v allowed found mentions r' refers escapes => ?_,
    fun r l frame allowed found => ?_⟩
  · cases escapes with
    | closure found => exact (Array.getElem?_eq_some_iff.mp found).1
    | mentioned found => exact (Array.getElem?_eq_some_iff.mp found).1
  · exact allowed (.mentioned found mentions refers escapes)
  · by_contra escapes
    exact allowed (.closure found escapes)

/-- As long as the host gets hold of harmless values only, what it answers is harmless and no
failure about a label, and it lets nothing lead to a closure that a jump may escape from. -/
def Host.Contained (host : Host) (h : Heap) : Prop :=
  ∀ history h' request a, h.Confines h' → (∀ v ∈ request.handed, h.Harmless v) →
    host.answer history h' request = some a →
    h.Confines a.heap ∧
    match a.reply with
    | .value v | .throw v => h.Harmless v
    | .fail f => f.isUnresolved = false

/-- Values lead to no closure that a jump may escape from, and no failure is about a label. -/
def Knowledge.labelSafe (h : Heap) : Knowledge where
  allows := fun r => ¬ h.Escapes r
  callable := fun l => l.body.LabelSafe h.Harmless
  unused := 0
  expects := fun f => f.isUnresolved = false
  other := fun other => other

namespace Knowledge

theorem fits_labelSafe_iff {h : Heap} {c : Cell} :
    (labelSafe h).Fits c ↔ (∀ v, c.Mentions v → h.Harmless v) ∧
      ∀ l frame, c = .closure l frame → l.body.LabelSafe fun _ => True := by
  cases c with
  | array items => exact ⟨fun fits => ⟨fits, nofun⟩, And.left⟩
  | plain i =>
      constructor
      · rintro ⟨fields, items⟩
        refine ⟨?_, nofun⟩
        rintro v (⟨f, mem, rfl⟩ | mem)
        · exact fields f mem
        · exact items v mem
      · rintro ⟨clear, -⟩
        exact ⟨fun f mem => clear f.2 (.inl ⟨f, mem, rfl⟩), fun v mem => clear v (.inr mem)⟩
  | closure l frame =>
      constructor
      · rintro ⟨safe, scope⟩
        refine ⟨?_, ?_⟩
        · rintro v (⟨b, mem, rfl⟩ | ⟨d, mem, constant⟩)
          · exact scope b mem
          · exact (safe.2 d mem).2 v constant
        · rintro _ _ ⟨⟩
          exact safe.of_constants fun _ _ _ _ _ => ⟨⟩
      · rintro ⟨clear, safe⟩
        refine ⟨(safe l frame rfl).of_constants fun d mem v constant _ => ?_, fun b mem => ?_⟩
        · exact clear v (.inr ⟨d, mem, constant⟩)
        · exact clear b.2 (.inl ⟨b, mem, rfl⟩)
  | external => exact ⟨fun _ => ⟨nofun, nofun⟩, fun _ => ⟨⟩⟩

theorem keeps_labelSafe_iff {h h' : Heap} : (labelSafe h).Keeps h' ↔ h.Confines h' := by
  constructor
  · rintro ⟨fresh, cells⟩
    refine ⟨fun r escapes => ?_, fun r c v allowed found => ?_, fun r l frame allowed found => ?_⟩
    · by_contra outside
      exact fresh r (Nat.le_of_not_lt outside) escapes
    · exact (fits_labelSafe_iff.mp (cells r c allowed found)).1 v
    · exact (fits_labelSafe_iff.mp (cells r _ allowed found)).2 l frame rfl
  · rintro ⟨exist, mentioned, closures⟩
    refine ⟨fun r le escapes => absurd (exist r escapes) (Nat.not_lt.mpr le), ?_⟩
    intro r c allowed found
    refine fits_labelSafe_iff.mpr ⟨fun v => mentioned r c v allowed found, ?_⟩
    rintro l frame rfl
    exact closures r l frame allowed found

theorem holds_labelSafe {s : State} (scope : ∀ b ∈ s.frame.scope, s.heap.Harmless b.2) :
    (labelSafe s.heap).Holds s :=
  ⟨keeps_labelSafe_iff.mpr s.heap.confines_refl, Nat.zero_le _, scope⟩

theorem trusts_labelSafe {host : Host} {h : Heap} (contained : host.Contained h) :
    (labelSafe h).Trusts host := by
  intro history h' request a keeps handed answered
  obtain ⟨confines, harmless⟩ :=
    contained history h' request a (keeps_labelSafe_iff.mp keeps) handed answered
  refine ⟨?_, keeps_labelSafe_iff.mpr confines⟩
  obtain ⟨reply, heap⟩ := a
  cases reply with
  | value v => exact harmless
  | throw exception => exact harmless
  | fail f => exact harmless

end Knowledge

/-! ### Lowering -/

section

variable {harmless : Value → Prop} (plain : ∀ v : Value, v.ref? = none → harmless v)

include plain

theorem Expr.settled_of_isSynthetic (e : Expr) (synthetic : e.node.isSynthetic = true) :
    e.Settled harmless := by
  constructor
  · intro l found
    rw [Node.eq_of_lambda? found] at synthetic
    cases synthetic
  · intro v found
    obtain ⟨type, constant⟩ := Node.eq_of_constant? found
    rw [constant] at synthetic
    exact plain v (by simpa [Node.isSynthetic] using synthetic)

omit plain in
/-- A node that is built anew around lowered children is as safe as before. -/
theorem Expr.settled_of_alike {e e' : Expr} {v : Parameter → Parameter → Prop}
    (settled : e.Settled harmless) (alike : e.node.Alike Expr.LowersTo v e'.node) :
    e'.Settled harmless := by
  obtain ⟨id, node⟩ := e
  constructor
  · intro l' found
    rw [Node.eq_of_lambda? found] at alike
    cases alike with
    | @lambda l _ lambda =>
        have subset := Expr.freeLabels_subset_of_lowersTo lambda.body
        rw [settled.1 l rfl] at subset
        exact List.subset_nil.mp subset
  · intro v found
    obtain ⟨type, constant⟩ := Node.eq_of_constant? found
    rw [constant] at alike
    cases alike with
    | constant => exact settled.2 v rfl

theorem Expr.yields_settled {k : Supply} {e : Expr} (all : e.All (Expr.Settled harmless)) :
    Yields k (Expr.All (Expr.Settled harmless)) e.lower := by
  refine (Expr.yields_lower (Expr.settled_of_isSynthetic plain) ?_ ?_ e all).imp fun _ => And.left
  · intro d d' _ settled alike
    exact Expr.settled_of_alike settled alike
  · intro d _ _ allBelow _ _
    exact allBelow

/-- A safe tree is lowered to a safe one. -/
theorem Expr.LabelSafe.yields {k : Supply} {e : Expr} (safe : e.LabelSafe harmless) :
    Yields k (Expr.LabelSafe harmless) e.lower := by
  refine (Expr.yields_settled plain safe.2).visited.imp ?_
  rintro e' ⟨all, lowers⟩
  have subset := Expr.freeLabels_subset_of_lowersTo lowers
  rw [safe.1] at subset
  exact ⟨List.subset_nil.mp subset, all⟩

end

/-! ### Evaluation -/

namespace Eval

variable {host : Host} {h : Heap}

theorem agree_invokeWith_labelSafe {run : Expr → Eval Value} {l : Lambda} {arguments : List Value}
    (parts : ∀ e : Expr, e.All (Expr.Settled h.Harmless) →
      Agree (.labelSafe h) h.Harmless fun _ : Unit => run e)
    (confined : ∀ e, Confined e.freeLabels (run e)) (safe : l.body.LabelSafe h.Harmless)
    (clear : ∀ v ∈ arguments, h.Harmless v) :
    Agree (.labelSafe h) h.Harmless fun _ : Unit => invokeWith run l arguments := by
  refine .invokeWith (safe.yields h.harmless_of_ref?) (fun e lowered => parts e lowered.2)
    (.inr ?_) clear
  intro e lowered _
  rw [← lowered.1]
  exact confined e

/-- In a tree with safe lambdas, evaluation does not fail because of a label. -/
theorem agree_run_labelSafe (trusts : (Knowledge.labelSafe h).Trusts host) (fuel : Nat) {e : Expr}
    (all : e.All (Expr.Settled h.Harmless)) :
    Agree (.labelSafe h) h.Harmless fun _ : Unit => run host fuel e := by
  induction fuel generalizing e with
  | zero => exact (Agree.controlRules trusts).outOfFuel
  | succ fuel ih =>
      by_cases derived : e.isDerived = true
      · have reduced : Yields 0 (Expr.All (Expr.Settled h.Harmless)) e.reduce := by
          refine (Lowering.yields_reduceWith (Expr.settled_of_isSynthetic h.harmless_of_ref?)
            derived ?_).imp fun _ => And.left
          intro c child
          exact Expr.yields_settled h.harmless_of_ref? ((Expr.all_iff.mp all).2 c child)
        have reducing : run host (fuel + 1) e = build e.reduce >>= run host fuel := by
          obtain ⟨id, node⟩ := e
          cases node with
          | forLoop | forEach | whileLoop | doWhile | usingBlock => rfl
          | _ => cases derived
        simp only [reducing]
        exact (Agree.build reduced).bind fun e' all' => ih all'
      · refine Agree.runNode trusts ?_ ?_ ?_ (fun _ => ih) all (by simpa using derived) fuel
        · intro d v type settled constant
          exact settled.2 v (by rw [constant]; rfl)
        · intro d l allBelow lambda
          obtain ⟨settled, below⟩ := Expr.all_iff.mp allBelow
          refine ⟨settled.1 l (by rw [lambda]; rfl), below l.body ?_⟩
          rw [Expr.children, lambda]
          exact List.mem_cons_self
        · intro l frame arguments safe clear clearArguments
          exact (agree_invokeWith_labelSafe (fun _ => ih) (confined_run host fuel) safe
            clearArguments).inFrame clear

theorem Agree.label_resolved {x : Eval Value} {s s' : State} {o : Outcome Value}
    (agree : Agree (.labelSafe s.heap) s.heap.Harmless fun _ : Unit => x)
    (scope : ∀ b ∈ s.frame.scope, s.heap.Harmless b.2) (ended : x s = some (o, s'))
    (name : String) : o ≠ .fail (.unresolvedLabel name) := by
  rintro rfl
  have ends := (agree.known s (Knowledge.holds_labelSafe scope) () _ s' ended).2
  cases ends

/-- Label safety. If the evaluation of a lowered tree ends in a jump, its target is free in the tree
as it was before. So no call and no evaluation fails for a label that is not there, if no label is
free in the tree or in a lambda in it and if constants, arguments, variables in scope and what the
host answers lead to no closure with such a label. -/
theorem jumps_to_free_labels_only (host : Host) (n : Nat) :
    (∀ e e' : Expr, e.LowersTo e' → ∀ s target v s',
      run host n e' s = some (.jump target v, s') → target ∈ e.freeLabels) ∧
    ∀ s : State, host.Contained s.heap → (∀ b ∈ s.frame.scope, s.heap.Harmless b.2) →
      (∀ e : Expr, e.LabelSafe s.heap.Harmless →
        ∀ o s', e.evaluate host n s = some (o, s') → ∀ name, o ≠ .fail (.unresolvedLabel name)) ∧
      ∀ (l : Lambda) (arguments : List Value), l.body.LabelSafe s.heap.Harmless →
        (∀ v ∈ arguments, s.heap.Harmless v) →
        ∀ o s', l.invoke host n arguments s = some (o, s') →
          ∀ name, o ≠ .fail (.unresolvedLabel name) := by
  constructor
  · intro e e' lowers s target v s' ended
    exact Expr.freeLabels_subset_of_lowersTo lowers (confined_run host n e' _ _ _ _ ended)
  · intro s contained scope
    have parts (e : Expr) (all : e.All (Expr.Settled s.heap.Harmless)) :=
      agree_run_labelSafe (Knowledge.trusts_labelSafe contained) n all
    constructor
    · intro e safe o s' ended
      refine Agree.label_resolved ?_ scope ended
      refine (Agree.build (safe.yields s.heap.harmless_of_ref?)).bind fun e' lowered => ?_
      refine (parts e' lowered.2).concluded (.inr fun _ => ?_)
      rw [← lowered.1]
      exact confined_run host n e'
    · intro l arguments safe harmless o s' ended
      refine Agree.label_resolved ?_ scope ended
      exact agree_invokeWith_labelSafe parts (confined_run host n) safe harmless

/-! ### Jumps in a loop and in a closure

`while (true) { (x => { goto done; done: })(3); break; }`. -/

namespace NestedJumps

def leave : Label := ⟨0, some "leave", .void⟩

def done : Label := ⟨1, some "done", .void⟩

def closure : Lambda :=
  ⟨none, [⟨2, some "x", .int32⟩],
    ⟨5, .block [] [⟨3, .jump .goto done none⟩, ⟨4, .label done none⟩] .void⟩, .void⟩

def body : Expr :=
  ⟨10, .block []
    [⟨8, .invocation ⟨6, .lambda closure⟩ [⟨7, .constant (.int32 3) .int32⟩] .void⟩,
      ⟨9, .jump .breaking leave none⟩] .void⟩

def looping : Expr :=
  ⟨12, .whileLoop ⟨11, .constant (.boolean true) .boolean⟩ body (some leave) none⟩

def start : State := { supply := 13 }

theorem body_leaves_loop_resolves :
    (∃ e' s', body.LowersTo e' ∧ run .absent 8 e' start = some (.jump leave .void, s') ∧
      leave ∈ body.freeLabels) ∧
    (∃ s', looping.evaluate .absent 9 start = some (.value .void, s')) ∧
    (∀ n o s', looping.evaluate .absent n start = some (o, s') →
      ∀ name, o ≠ .fail (.unresolvedLabel name)) ∧
    ∀ n o s', closure.invoke .absent n [.int32 3] start = some (o, s') →
      ∀ name, o ≠ .fail (.unresolvedLabel name) := by
  have contained : Host.absent.Contained start.heap :=
    fun _ _ _ _ _ _ answered => nomatch answered
  have scope : ∀ b ∈ start.frame.scope, start.heap.Harmless b.2 := fun _ mem => nomatch mem
  have safe {e : Expr} (safe : e.LabelSafe fun v => v.ref? = none) :
      e.LabelSafe start.heap.Harmless :=
    safe.of_constants fun _ _ v _ plain => start.heap.harmless_of_ref? v plain
  refine ⟨?_, ⟨_, rfl⟩, fun n => ?_, fun n => ?_⟩
  · have lowers : body.LowersTo body := ⟨13, 13, rfl⟩
    exact ⟨body, _, lowers, rfl,
      (jumps_to_free_labels_only .absent 8).1 body body lowers start leave .void _ rfl⟩
  · exact ((jumps_to_free_labels_only .absent n).2 start contained scope).1 looping
      (safe (by decide))
  · refine ((jumps_to_free_labels_only .absent n).2 start contained scope).2 closure [.int32 3]
      (safe (by decide)) fun v mem => start.heap.harmless_of_ref? v ?_
    rw [List.mem_singleton.mp mem]
    rfl

end NestedJumps

end Eval

end ExprTree
