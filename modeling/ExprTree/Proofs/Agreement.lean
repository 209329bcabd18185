import ExprTree.Proofs.Control
import ExprTree.Proofs.Nodes

/-!
Agreement of evaluations.

Evaluators that differ in what they do with some trees agree on the others, as long as no value that
a program gets hold of leads to a tree they differ on. So agreement comes with knowledge of the
data: it is kept by every step, and it says what closures may be called. `Agree.runNode` is the step
from the parts of a node to the node.

The same development is about one evaluator when there is only one in the family: then it says what
remains known of the data.
-/

namespace ExprTree

open Build (Yields)

/-! ### Knowledge in a changed state -/

theorem Scope.mem_of_mem_insert {scope : Scope} {id : Identity} {v : Value} {b : Identity × Value}
    (mem : b ∈ scope.insert id v) : b = (id, v) ∨ b ∈ scope := by
  unfold Scope.insert at mem
  split at mem
  · obtain ⟨b', inside, rfl⟩ := List.mem_map.mp mem
    by_cases same : b'.1 = id
    · rw [if_pos same]
      exact .inl rfl
    · rw [if_neg same]
      exact .inr inside
  · exact List.mem_cons.mp mem

namespace Knowledge

variable {K : Knowledge} {s : State}

theorem clear_insert {scope : Scope} {v : Value} (clear : ∀ b ∈ scope, K.Clear b.2)
    (id : Identity) (clearValue : K.Clear v) : ∀ b ∈ scope.insert id v, K.Clear b.2 := by
  intro b mem
  rcases Scope.mem_of_mem_insert mem with rfl | mem
  · exact clearValue
  · exact clear b mem

theorem clear_restore {scope : Scope} {previous : Option Value}
    (clear : ∀ b ∈ scope, K.Clear b.2) (id : Identity) (clearPrevious : ∀ v ∈ previous, K.Clear v) :
    ∀ b ∈ scope.restore id previous, K.Clear b.2 := by
  cases previous with
  | none => exact fun b mem => clear b (List.mem_filter.mp mem).1
  | some v => exact clear_insert clear id (clearPrevious v rfl)

theorem Holds.setScope {scope : Scope} (holds : K.Holds s) (clear : ∀ b ∈ scope, K.Clear b.2) :
    K.Holds (Eval.setScope s scope) :=
  { holds with scope := clear }

/-- The next place is allowed, and what fits may be put there. -/
theorem Holds.alloc {c : Cell} (holds : K.Holds s) (fits : K.Fits c) :
    K.allows s.heap.cells.size ∧ K.Holds { s with heap := ⟨s.heap.cells.push c⟩ } := by
  refine ⟨holds.fresh _ (Nat.le_refl _), ⟨fun r le => ?_, fun r c' allowed found => ?_⟩,
    holds.supply, holds.scope⟩
  · simp only [Array.size_push] at le
    exact holds.fresh r (Nat.le_of_succ_le le)
  · simp only [Heap.get?, Array.getElem?_push] at found
    split at found
    · cases found
      exact fits
    · exact holds.cells r c' allowed found

theorem Holds.set {c : Cell} (holds : K.Holds s) (r : Ref) (fits : K.Fits c) :
    K.Holds { s with heap := s.heap.set r c } := by
  refine ⟨⟨fun r' le => holds.fresh r' ?_, fun r' c' allowed found => ?_⟩, holds.supply,
    holds.scope⟩
  · simpa [Heap.set] using le
  · simp only [Heap.get?, Heap.set, Array.getElem?_setIfInBounds] at found
    by_cases same : r = r'
    · rw [if_pos same] at found
      split at found
      · cases found
        exact fits
      · cases found
    · rw [if_neg same] at found
      exact holds.cells r' c' allowed found

variable (K) in
/-- The host replies as expected and leaves a heap of which the same is known, if it gets hold of
nothing else. -/
def Trusts (host : Host) : Prop :=
  ∀ history h request a, K.Keeps h → (∀ v ∈ request.handed, K.Clear v) →
    host.answer history h request = some a → K.Ends K.Clear (Eval.ofReply a.reply) ∧ K.Keeps a.heap

end Knowledge

namespace Eval

/-! ### Agreement -/

/-- From a state of which something is known, the computations of a family end alike, with an
outcome and in a state that are known as well. -/
structure Agree {ι α : Type} (K : Knowledge) (Q : α → Prop) (x : ι → Eval α) : Prop where
  same : ∀ s, K.Holds s → ∀ i j, x i s = x j s
  known : ∀ s, K.Holds s → ∀ i o s', x i s = some (o, s') → K.Holds s' ∧ K.Ends Q o

namespace Agree

variable {ι α β : Type} {K : Knowledge} {Q : α → Prop} {R : β → Prop} {x : ι → Eval α}

/-- A computation that does not vary agrees with itself. -/
theorem const {x : Eval α}
    (known : ∀ s, K.Holds s → ∀ o s', x s = some (o, s') → K.Holds s' ∧ K.Ends Q o) :
    Agree K Q fun _ : ι => x :=
  ⟨fun _ _ _ _ => rfl, fun s holds _ => known s holds⟩

/-- An outcome without any effect. -/
theorem finish {o : Outcome α} (ends : K.Ends Q o) : Agree K Q fun _ : ι => finish o := by
  apply const
  rintro s holds o' s' ⟨⟩
  exact ⟨holds, ends⟩

theorem bind {f : ι → α → Eval β} (first : Agree K Q x)
    (rest : ∀ a, Q a → Agree K R fun i => f i a) : Agree K R fun i => x i >>= f i := by
  constructor
  · intro s holds i j
    have same := first.same s holds i j
    cases h : x i s with
    | none => rw [bind_of_none h, bind_of_none (same ▸ h)]
    | some r =>
        obtain ⟨o, m⟩ := r
        obtain ⟨holds', ends⟩ := first.known s holds i o m h
        rcases o.value_or_passed β with ⟨a, rfl⟩ | ⟨o', passed⟩
        · rw [bind_of_value h, bind_of_value (same ▸ h)]
          exact (rest a ends).same m holds' i j
        · rw [bind_of_passed h passed, bind_of_passed (same ▸ h) passed]
  · intro s holds i o s' ended
    rcases bind_eq_some.mp ended with ⟨a, m, h, h'⟩ | ⟨o', h, passed⟩
    · obtain ⟨holds', given⟩ := first.known s holds i _ m h
      exact (rest a given).known m holds' i o s' h'
    · obtain ⟨holds', ends⟩ := first.known s holds i o' s' h
      refine ⟨holds', ?_⟩
      cases passed <;> exact ends

theorem settle (first : Agree K Q x) : Agree K (K.Ends Q) fun i => (x i).settle := by
  constructor
  · intro s holds i j
    simp only [Eval.settle, first.same s holds i j]
  · intro s holds i o s' ended
    obtain ⟨⟨o', m⟩, h, made⟩ := Option.map_eq_some_iff.mp ended
    cases made
    exact first.known s holds i _ _ h

/-- What is left undone is a failure, which must be expected unless nothing is left undone. -/
theorem concluded (first : Agree K Q x)
    (settled : (∀ f, K.expects f) ∨ ∀ i, Confined [] (x i)) :
    Agree K Q fun i => (x i).concluded := by
  constructor
  · intro s holds i j
    simp only [Eval.concluded, first.same s holds i j]
  · intro s holds i o s' ended
    obtain ⟨⟨o', m⟩, h, made⟩ := Option.map_eq_some_iff.mp ended
    cases made
    obtain ⟨holds', ends⟩ := first.known s holds i _ _ h
    refine ⟨holds', ?_⟩
    cases o' with
    | value a => exact ends
    | throw exception => exact K.other rfl
    | fail f => exact ends
    | jump target v =>
        rcases settled with expected | confined
        · exact expected _
        · exact absurd (confined i _ _ _ _ h) List.not_mem_nil

theorem build {b : Build α} (yields : Yields K.unused Q b) : Agree K Q fun _ : ι => build b := by
  apply const
  intro s holds o s' ended
  unfold Eval.build at ended
  split at ended
  case h_1 a supply ok =>
      cases ended
      obtain ⟨le, given⟩ := yields _ _ _ holds.supply ok
      exact ⟨{ holds with supply := le }, given⟩
  case h_2 =>
      cases ended
      exact ⟨holds, K.other rfl⟩

/-! ### Variables and frames -/

theorem assign {v : Value} (p : Parameter) (clear : K.Clear v) :
    Agree K (fun _ => True) fun _ : ι => assign p v := by
  apply const
  intro s holds o s' ended
  unfold Eval.assign at ended
  split at ended
  · cases ended
    exact ⟨holds.setScope (Knowledge.clear_insert holds.scope _ clear), ⟨⟩⟩
  · cases ended
    exact ⟨holds, K.other rfl⟩

theorem withVariable {v : Value} (first : Agree K Q x) (p : Parameter) (clear : K.Clear v) :
    Agree K Q fun i => withVariable p v (x i) := by
  have inside (s : State) (holds : K.Holds s) :
      K.Holds (setScope s (s.frame.scope.insert p.id v)) :=
    holds.setScope (Knowledge.clear_insert holds.scope _ clear)
  constructor
  · intro s holds i j
    simp only [Eval.withVariable, first.same _ (inside s holds) i j]
  · intro s holds i o s' ended
    obtain ⟨⟨o', m⟩, h, made⟩ := Option.map_eq_some_iff.mp ended
    cases made
    obtain ⟨holds', ends⟩ := first.known _ (inside s holds) i _ _ h
    refine ⟨holds'.setScope (Knowledge.clear_restore holds'.scope _ fun w found => ?_), ends⟩
    exact holds.scope _ (mem_of_lookup found)

theorem withVariables {bound : List (Parameter × Value)} (first : Agree K Q x)
    (clear : ∀ b ∈ bound, K.Clear b.2) : Agree K Q fun i => withVariables bound (x i) := by
  induction bound with
  | nil => exact first
  | cons b rest ih =>
      obtain ⟨clear, clearRest⟩ := List.forall_mem_cons.mp clear
      exact (ih clearRest).withVariable b.1 clear

theorem inFrame {frame : Frame} (first : Agree K Q x) (clear : ∀ b ∈ frame.scope, K.Clear b.2) :
    Agree K Q fun i => inFrame frame (x i) := by
  have inside (s : State) (holds : K.Holds s) : K.Holds { s with frame } :=
    { holds with scope := clear }
  constructor
  · intro s holds i j
    simp only [Eval.inFrame, first.same _ (inside s holds) i j]
  · intro s holds i o s' ended
    obtain ⟨⟨o', m⟩, h, made⟩ := Option.map_eq_some_iff.mp ended
    cases made
    obtain ⟨holds', ends⟩ := first.known _ (inside s holds) i _ _ h
    exact ⟨{ holds' with scope := holds.scope }, ends⟩

/-! ### Rules -/

variable {host : Host}

theorem controlRules (trusts : K.Trusts host) :
    ControlRules host K fun α Q (x : ι → Eval α) => Agree K Q x where
  pure := fun given => .finish given
  fail := fun expected => .finish expected
  throwing := fun clear => .finish clear
  jump := fun clear => .finish clear
  outOfFuel := .const fun _ _ _ _ ended => nomatch ended
  settle := settle
  bind := bind
  get := by
    apply const
    rintro s holds o s' ⟨⟩
    exact ⟨holds, holds⟩
  load := by
    intro p
    apply const
    intro s holds o s' ended
    unfold Eval.load at ended
    split at ended
    case h_1 v found =>
        cases ended
        exact ⟨holds, holds.scope _ (mem_of_lookup found)⟩
    case h_2 =>
        cases ended
        exact ⟨holds, K.other rfl⟩
  newArray := by
    intro element items clear
    apply const
    rintro s holds o s' ⟨⟩
    have fits : K.Fits (.array items) := clear
    obtain ⟨allowed, holds'⟩ := holds.alloc fits
    refine ⟨holds', ?_⟩
    rintro r ⟨⟩
    exact allowed
  newObject := by
    intro type c fits
    apply const
    rintro s holds o s' ⟨⟩
    obtain ⟨allowed, holds'⟩ := holds.alloc fits
    refine ⟨holds', ?_⟩
    rintro r ⟨⟩
    exact allowed
  setCell := by
    intro r c fits
    apply const
    rintro s holds o s' ⟨⟩
    exact ⟨holds.set r fits, ⟨⟩⟩
  ask := by
    intro request unanswered handed other
    apply const
    intro s holds o s' ended
    unfold Eval.ask at ended
    split at ended
    case h_1 a answered =>
        cases ended
        obtain ⟨ends, keeps⟩ := trusts _ _ _ a holds.toKeeps handed answered
        exact ⟨⟨keeps, holds.supply, holds.scope⟩, ends⟩
    case h_2 =>
        cases ended
        exact ⟨holds, K.other other⟩

/-! ### Calls and nodes -/

variable {run : ι → Expr → Eval Value} {p : Expr → Prop}

/-- A call of a lambda, if evaluation agrees on what its body is lowered to. -/
theorem invokeWith {l : Lambda} {arguments : List Value} {lowered : Expr → Prop}
    (lowers : Yields K.unused lowered l.body.lower)
    (bodies : ∀ e, lowered e → Agree K K.Clear fun i => run i e)
    (settled : (∀ f, K.expects f) ∨ ∀ e, lowered e → ∀ i, Confined [] (run i e))
    (clear : ∀ v ∈ arguments, K.Clear v) :
    Agree K K.Clear fun i => invokeWith (run i) l arguments := by
  unfold Eval.invokeWith
  split
  · exact .finish (K.other rfl)
  · refine (build lowers).bind fun body given => concluded ?_ ?_
    · refine (bodies body given).withVariables fun b mem => clear b.2 ?_
      exact (List.of_mem_zip mem).2
    · exact settled.imp_right fun confined i => (confined body given i).withVariables _

variable (trusts : K.Trusts host)
  (constants : ∀ (e : Expr) v type, p e → e.node = .constant v type → K.Clear v)
  (lambdas : ∀ (e : Expr) l, e.All p → e.node = .lambda l → K.callable l)
  (calls : Rules.Calls K (fun α Q (x : ι → Eval α) => Agree K Q x) fun i => applyWith (run i))
  (parts : ∀ e, e.All p → Agree K K.Clear fun i => run i e)

include trusts parts in
theorem tryHandler {h : Handler} {exception : Value}
    (all : ∀ e ∈ h.filter.toList ++ [h.body], e.All p) (clear : K.Clear exception) :
    Agree K (fun told => ∀ o ∈ told, K.Ends K.Clear o) fun i =>
      tryHandler (run i) h exception := by
  have handled := (controlRules trusts).handled fun e mem => parts e (all e mem)
  cases caught : h.caught with
  | none =>
      simp only [tryHandler_of_none _ caught]
      exact handled
  | some q =>
      simp only [tryHandler_of_caught _ caught]
      exact handled.withVariable q clear

include trusts constants lambdas calls parts in
/-- Evaluation agrees on a node that is not derived if it does on its parts. -/
theorem runNode {e : Expr} (all : e.All p) (plain : e.isDerived = false) (fuel : Nat) :
    Agree K K.Clear fun i => runNode host (run i) fuel e := by
  have rules : ControlRules host K fun α Q (x : ι → Eval α) => Agree K Q x := controlRules trusts
  obtain ⟨root, below⟩ := Expr.all_iff.mp all
  have children (c : Expr) (child : c ∈ e.children) := parts c (below c child)
  cases simple : e.kind.isPlain with
  | true =>
      refine rules.runNode simple (fun v type => constants e v type root) children calls ?_
        fun _ => fuel
      intro target mem v clear
      refine rules.store (fun c inside => ?_) calls (fun q _ => .assign q clear) clear
      have inTarget := (Expr.all_iff.mp (below target (e.node.stored_subset mem))).2
      exact parts c (inTarget c (target.storeParts_subset inside))
  | false =>
      obtain ⟨id, node⟩ := e
      cases node with
      | lambda l => exact rules.newClosure (lambdas _ l all rfl)
      | block locals statements type =>
          have inside := rules.runStatements children fuel (List.Subset.refl statements)
            (Knowledge.clear_of_ref? rfl : K.Clear .void)
          refine (inside.withVariables fun b mem => ?_).bind fun v clear => .finish ?_
          · obtain ⟨q, -, rfl⟩ := List.mem_map.mp mem
            exact Knowledge.clear_of_ref? (Value.ref?_defaultOf q.type)
          · cases type.isVoid with
            | true => exact Knowledge.clear_of_ref? rfl
            | false => exact clear
      | loop body breakTo continueTo =>
          exact rules.runLoop (children body List.mem_cons_self) breakTo continueTo fuel
      | jump kind target value =>
          cases value with
          | none => exact rules.jump (Knowledge.clear_of_ref? rfl)
          | some value =>
              exact (children value List.mem_cons_self).bind fun v clear => rules.jump clear
      | attempt body handlers fault finalizer =>
          refine rules.runAttempt (children body List.mem_cons_self) ?_ ?_ ?_
          · intro h mem exception clear
            refine tryHandler trusts parts (fun c inside => below c ?_) clear
            exact .tail _ (List.mem_append_left _ (List.mem_append_left _
              (List.mem_flatMap.mpr ⟨h, mem, inside⟩)))
          · intro c mem
            exact children c (.tail _ (List.mem_append_left _ (List.mem_append_right _ mem)))
          · intro c mem
            exact children c (.tail _ (List.mem_append_right _ mem))
      | forLoop | forEach | whileLoop | doWhile | usingBlock => cases plain
      | _ => cases simple

end Agree

end Eval

end ExprTree
