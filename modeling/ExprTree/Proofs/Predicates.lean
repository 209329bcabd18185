import ExprTree.Proofs.Combining
import ExprTree.Proofs.Scoping

/-!
Predicates made of predicates.

`Lambda.andAlso`, `Lambda.orElse` and `Lambda.negated` put the bodies of predicates on one new
parameter. To invoke what they make is to invoke the predicates one after the other, as long as the
first one does not store to its own parameter: both bodies read the same variable.
-/

namespace ExprTree

open Eval

/-! ### Asking one after the other -/

/-- Ask once, and a second time unless the first answer settles it. Only Booleans are answers. -/
def Eval.askUnless (settled : Bool) (first second : Eval Value) : Eval Value := do
  match ← first with
  | .boolean b =>
    if b = settled then return .boolean settled
    else
      match ← second with
      | .boolean c => return .boolean c
      | v => fail (.notBoolean v.typeOf)
  | v => fail (.notBoolean v.typeOf)

/-- Ends of an invocation and of a run: the same outcome, once the run is concluded too. -/
def Concludes (W : State → State → Prop) :
    Option (Outcome Value × State) → Option (Outcome Value × State) → Prop :=
  Option.Rel fun a b => a.1 = b.1.concluded ∧ W a.2 b.2

namespace Concludes

variable {W V : State → State → Prop} {s t : State} {x y : Eval Value}

theorem bind {f g : Value → Eval Value} (asked : Concludes W (x s) (y t))
    (rest : ∀ v s t, W s t → Concludes V (f v s) (g v t)) (weaker : ∀ {s t}, W s t → V s t) :
    Concludes V ((x >>= f) s) ((y >>= g) t) := by
  generalize left : x s = r, right : y t = r' at asked
  cases asked with
  | none =>
      rw [bind_of_none left, bind_of_none right]
      exact .none
  | @some a b ended =>
      obtain ⟨o, s'⟩ := a
      obtain ⟨o', t'⟩ := b
      obtain ⟨same, states⟩ := ended
      cases o' with
      | value v =>
          cases same
          rw [bind_of_value left, bind_of_value right]
          exact rest v s' t' states
      | jump target v =>
          cases same
          rw [bind_of_passed left (.fail _), bind_of_passed right (.jump _ _)]
          exact .some ⟨rfl, weaker states⟩
      | throw exception =>
          cases same
          rw [bind_of_passed left (.fail _), bind_of_passed right (.throw _)]
          exact .some ⟨rfl, weaker states⟩
      | fail f =>
          cases same
          rw [bind_of_passed left (.fail _), bind_of_passed right (.fail _)]
          exact .some ⟨rfl, weaker states⟩

theorem askUnless {first second : Eval Value} (settled : Bool)
    (asked : Concludes W (first s) (x t))
    (again : ∀ s t, W s t → Concludes V (second s) (y t)) (weaker : ∀ {s t}, W s t → V s t) :
    Concludes V (askUnless settled first second s) (askUnless settled x y t) := by
  refine asked.bind (fun v s t states => ?_) weaker
  cases v with
  | boolean b =>
      refine (?_ : Concludes V ((if b = settled then _ else _ : Eval Value) s) _)
      by_cases same : b = settled
      · simp only [if_pos same]
        exact .some ⟨rfl, weaker states⟩
      · simp only [if_neg same]
        refine (again s t states).bind (fun w s t states => ?_) id
        cases w <;> exact .some ⟨rfl, states⟩
  | _ => exact .some ⟨rfl, weaker states⟩

end Concludes

/-! ### Bodies on a new parameter -/

/-- States that differ in a variable that one of them holds the argument in. -/
structure Holds (x' : Identity) (v : Value) (s t : State) : Prop where
  heap : ∀ pace, s.heap.Match (FollowingClosures pace) t.heap
  history : List.Forall₂ HostCall.Alike s.history t.history
  functions : s.frame.functions = t.frame.functions
  others : ∀ {y}, y ≠ x' → s.frame.scope.find? y = t.frame.scope.find? y
  held : t.frame.scope.find? x' = some v

theorem Lambda.invoke_of_lower {l : Lambda} {d : Expr} {c : Supply} {s : State} (host : Host)
    (n : Nat) {arguments : List Value} (length : arguments.length = l.parameters.length)
    (lowered : l.body.lower s.supply = .ok (d, c)) :
    l.invoke host n arguments s =
      (withVariables (l.parameters.zip arguments) (run host n d)).concluded
        { s with supply := c } := by
  unfold Lambda.invoke invokeWith
  rw [if_neg (not_not.mpr length)]
  refine bind_of_value ?_
  rw [build, lowered]

section

variable {l : Lambda} {body : Expr} {x x' : Parameter} {k m a c : Supply} {s t : State}
  {v : Value}

/-- Where one variable holds the argument and another one is bound to it, they stand for each
other. -/
theorem Holds.states (holds : Holds x'.id v s t) (c : Supply) :
    (Renaming.replacing [(x, x')]).States (.resting c t.supply)
      (setScope { s with supply := c } (s.frame.scope.insert x.id v)) t where
  frames := {
    functions := holds.functions
    values := by
      rintro y y' (⟨rfl, rfl⟩ | ⟨other, other', rfl, -⟩)
      · simp [setScope, Scope.find?_insert, holds.held]
      · simp [setScope, Scope.find?_insert, other, holds.others other']
    inScope := by
      rintro y (rfl | never)
      · simp [setScope, Scope.find?_insert]
      · exact never.elim }
  heap := holds.heap _
  history := holds.history
  supplies := ⟨rfl, rfl⟩

/-- The variable that is bound is put back, and the other one still holds the argument unless it was
stored to. -/
theorem Holds.of_states {s' t' : State} {b : Supply} (holds : Holds x'.id v s t)
    (ended : (Renaming.replacing [(x, x')]).States (.resting c b) s' t') (different : x.id ≠ x'.id)
    (kept : s'.frame.scope.find? x.id = some v)
    (kept' : t'.frame.scope.find? x.id = t.frame.scope.find? x.id) :
    Holds x'.id v (setScope s' (s'.frame.scope.restore x.id (s.frame.scope.find? x.id))) t' where
  heap := fun _ => ended.heap.of_resting
  history := ended.history
  functions := ended.frames.functions
  others := by
    intro y other
    simp only [setScope, Scope.find?_restore]
    split
    · next same => rw [same, kept', holds.others different]
    · next other' =>
        refine ended.frames.values (.inr ⟨other', other, rfl, ?_⟩)
        exact List.forall_mem_singleton.mpr ⟨other', other⟩
  held := by
    rw [← ended.frames.values (.inl ⟨rfl, rfl⟩), kept]

/-- The body and its copy on another parameter are lowered in step. -/
theorem Lambda.WellFormed.exists_lower (formed : l.WellFormed k) (single : l.parameters = [x])
    (replaces : Replaces k [x] [x']) (alike : l.body.AlikeBy (Replaced k [(x, x')]) body)
    (older : body.Older m) (drawn : k + 1 ≤ m) (reached : m ≤ a) :
    ∃ d d' c, l.body.lower a = .ok (d, c) ∧ body.lower a = .ok (d', c) ∧ a ≤ c ∧
      d.AlikeBy (Renaming.replacing [(x, x')]).Local d' := by
  have distinct : Renaming.Distinct [(x, x')] := List.pairwise_singleton _ _
  have new : Matching m (Renaming.replacing [(x, x')]).Local :=
    Renaming.matching_replacing replaces (single ▸ formed.drawn) drawn
  have inStep := Expr.inStep_lower new (formed.older.mono (Nat.le_of_succ_le drawn)) older
    (alike.imp fun _ _ => Renaming.local_of_replaced replaces distinct) a a ⟨rfl, reached⟩
  obtain ⟨⟨d, c⟩, lowers⟩ :=
    l.body.decides_lower.total (fun d mem => (formed.built d mem).isLowerable) a
  rw [lowers] at inStep
  generalize lowered : body.lower a = r at inStep
  cases inStep with
  | @ok _ d' _ c' supplies le given =>
      obtain ⟨rfl, -⟩ := supplies
      exact ⟨d, d', c, lowers, rfl, le, (given c (Nat.le_refl c)).1⟩

/-- To invoke a predicate is to run its body on the variable that holds the argument. That variable
holds it afterwards too, unless the predicate stores to its parameter. -/
theorem Lambda.WellFormed.concludes_run {host : Host} {d d' : Expr} (formed : l.WellFormed k)
    (single : l.parameters = [x]) (replaces : Replaces k [x] [x'])
    (alike : l.body.AlikeBy (Replaced k [(x, x')]) body) (reached : k ≤ s.supply)
    (lowers : l.body.lower s.supply = .ok (d, c)) (lowered : body.lower s.supply = .ok (d', c))
    (related : d.AlikeBy (Renaming.replacing [(x, x')]).Local d') (discreet : host.Discreet)
    (holds : Holds x'.id v s t) (n : Nat) :
    Concludes (fun s t => s.Alike t ∧ (x.id ∉ l.body.assigned → Holds x'.id v s t ∧ s.supply = c))
      (l.invoke host n [v] s) (run host n d' t) := by
  have primitive : d.IsPrimitive := Expr.isPrimitive_of_lower (formed.older.mono reached) lowers
  have ran := Renaming.mirrors_run discreet n (.primitive related primitive) _ t (holds.states c)
  rw [Lambda.invoke_of_lower host n (by rw [single]; rfl) lowers, single]
  change Concludes _ ((withVariable x v (run host n d)).concluded { s with supply := c }) _
  unfold Eval.concluded withVariable
  generalize left : run host n d _ = r, right : run host n d' t = r' at ran
  cases ran with
  | none => exact .none
  | @some a b ended =>
      obtain ⟨o, s'⟩ := a
      obtain ⟨o', t'⟩ := b
      refine .some ⟨congrArg Outcome.concluded ended.1.eq, ⟨ended.2.heap.alike, ended.2.history⟩,
        fun unassigned => ⟨holds.of_states ended.2 ?_ ?_ ?_, ended.2.supplies.1⟩⟩
      · have old : x.id < k := formed.drawn x (single ▸ List.mem_singleton_self x)
        have newer := (replaces.drawn (List.mem_singleton_self x')).1
        exact Nat.ne_of_lt (Nat.lt_of_lt_of_le old newer)
      · rw [(keepsBut_run host n d _ _ _ left).value x.id fun mem =>
          unassigned (Expr.assigned_subset_of_lowersTo ⟨_, _, lowers⟩ mem)]
        simp [setScope, Scope.find?_insert]
      · refine (keepsBut_run host n d' _ _ _ right).value x.id fun mem => ?_
        have avoids : body.Avoids l.parameters :=
          formed.avoids (single ▸ replaces) (single ▸ alike)
        exact avoids.not_mem_assigned (single ▸ List.mem_singleton_self x)
          (Expr.assigned_subset_of_lowersTo ⟨_, _, lowered⟩ mem)

end

/-! ### Operations on bodies -/

/-- A node that is not derived is built anew from its lowered parts, or they are what they were. -/
theorem Expr.exists_lower {e : Expr} {node : Node} {a b : Supply} (plain : e.isDerived = false)
    (traversed : e.node.traverse Expr.lower pure a = .ok (node, b))
    (kept : node.sameParts e.node = true → node = e.node) :
    ∃ e' c, e.lower a = .ok (e', c) ∧ e'.node = node := by
  rw [Expr.lower_eq, plain, if_neg Bool.false_ne_true]
  by_cases same : node.sameParts e.node = true
  · refine ⟨e, b, Build.bind_eq_ok.mpr ⟨node, b, traversed, ?_⟩, (kept same).symm⟩
    rw [if_pos same]
    rfl
  · refine ⟨⟨b, node⟩, b + 1, Build.bind_eq_ok.mpr ⟨node, b, traversed, ?_⟩, rfl⟩
    have kind : node.kind.isDerived = false := by
      rw [Node.kind_of_traverse traversed]
      exact plain
    rw [if_neg same, Node.renewed, kind]
    rfl

theorem Expr.eq_of_lower {e e' : Expr} {k a b : Supply} (older : e.id < k) (reached : k ≤ a)
    (lowered : e.lower a = .ok (e', b)) (same : Expr.same e' e = true) : e' = e := by
  rcases (e.yields_same_or_new k a e' b reached lowered).2 with rfl | newer
  · rfl
  · rw [beq_iff_eq.mp same] at newer
    exact absurd older (Nat.not_lt.mpr newer)

section

variable {e left right left' right' : Expr} {k a b c : Supply} {type : Ty} {assign checked : Bool}

theorem Expr.exists_lower_binary {op : BinaryOp}
    (made : e.node = .binary op left right assign checked type) (older : e.Older k)
    (reached : k ≤ a) (first : left.lower a = .ok (left', b))
    (second : right.lower b = .ok (right', c)) :
    ∃ e' d, e.lower a = .ok (e', d) ∧ e'.node = .binary op left' right' assign checked type := by
  have below := (Expr.all_iff.mp older).2
  simp only [Expr.children, made, Node.children, List.forall_mem_cons] at below
  have advanced : k ≤ b := (left.lower_advances k a left' b reached first).1
  refine Expr.exists_lower (b := c) (by simp [Expr.isDerived, Expr.kind, made, Node.kind,
    Kind.isDerived]) ?_ fun same => ?_
  · rw [made]
    refine Build.bind_eq_ok.mpr ⟨left', b, first, Build.bind_eq_ok.mpr ⟨right', c, second, rfl⟩⟩
  · rw [made] at same ⊢
    have ids := pairwise_eq_true_iff.mp (Bool.and_eq_true_iff.mp same).1
    obtain ⟨sameLeft, ids⟩ := List.forall₂_cons.mp ids
    obtain ⟨sameRight, -⟩ := List.forall₂_cons.mp ids
    rw [Expr.eq_of_lower (below.1 left left.mem_nodes_self) reached first sameLeft,
      Expr.eq_of_lower (below.2.1 right right.mem_nodes_self) advanced second sameRight]

theorem Expr.exists_lower_unary {op : UnaryOp} (made : e.node = .unary op left type)
    (older : e.Older k) (reached : k ≤ a) (first : left.lower a = .ok (left', b)) :
    ∃ e' d, e.lower a = .ok (e', d) ∧ e'.node = .unary op left' type := by
  have below := (Expr.all_iff.mp older).2
  simp only [Expr.children, made, Node.children, List.forall_mem_singleton] at below
  refine Expr.exists_lower (b := b) (by simp [Expr.isDerived, Expr.kind, made, Node.kind,
    Kind.isDerived]) ?_ fun same => ?_
  · rw [made]
    exact Build.bind_eq_ok.mpr ⟨left', b, first, rfl⟩
  · rw [made] at same ⊢
    have ids := pairwise_eq_true_iff.mp (Bool.and_eq_true_iff.mp same).1
    obtain ⟨sameLeft, -⟩ := List.forall₂_cons.mp ids
    rw [Expr.eq_of_lower (below left left.mem_nodes_self) reached first sameLeft]

/-- The answer of the first operand that settles a logical operation. -/
def BinaryOp.settledBy : BinaryOp → Option Bool
  | .andAlso => some false
  | .orElse => some true
  | _ => none

theorem run_logical {op : BinaryOp} {settled : Bool} (settles : op.settledBy = some settled)
    (made : e.node = .binary op left right assign checked type) (host : Host) (n : Nat) :
    run host (n + 1) e = askUnless settled (run host n left) (run host n right) := by
  obtain ⟨i, node⟩ := e
  cases made
  change runBinary host (run host n) op left right assign checked = _
  unfold runBinary Eval.askUnless
  cases op with
  | andAlso =>
      cases settles
      refine bind_congr fun v => ?_
      cases v with
      | boolean b =>
          cases b with
          | false => rfl
          | true =>
              change (run host n right >>= _) = (run host n right >>= _)
              refine bind_congr fun w => ?_
              cases w <;> rfl
      | _ => rfl
  | orElse =>
      cases settles
      refine bind_congr fun v => ?_
      cases v with
      | boolean b =>
          cases b with
          | true => rfl
          | false =>
              change (run host n right >>= _) = (run host n right >>= _)
              refine bind_congr fun w => ?_
              cases w <;> rfl
      | _ => rfl
  | _ => cases settles

theorem run_not (made : e.node = .unary .not left type) (host : Host) (n : Nat) :
    run host (n + 1) e = run host n left >>= fun v => Value.unary .not v := by
  obtain ⟨i, node⟩ := e
  cases made
  rfl

end

/-! ### Predicates -/

theorem Concludes.sameEnd {r : Option (Outcome Value × State)} {s : State} {p : Parameter}
    {v : Value} {x : Eval Value}
    (ended : Concludes State.Alike r (x (setScope s (s.frame.scope.insert p.id v)))) :
    SameEnd r ((withVariable p v x).concluded s) := by
  unfold Eval.concluded withVariable
  generalize x _ = r' at ended
  cases ended with
  | none => exact .none
  | some ended => exact .some ⟨ended.1, ended.2.heap, ended.2.history⟩

theorem holds_bound {s : State} (primitive : s.heap.IsPrimitive) (p : Parameter) (v : Value)
    (c : Supply) :
    Holds p.id v s (setScope { s with supply := c } (s.frame.scope.insert p.id v)) where
  heap := fun _ => (Heap.isPrimitive_iff (a := 0) (b := 0).mp primitive).of_resting
  history := s.alike_self.history
  functions := rfl
  others := by
    intro y other
    simp [setScope, Scope.find?_insert, other]
  held := by simp [setScope, Scope.find?_insert]

namespace Lambda

variable {p q l : Lambda} {k k' m : Supply}

theorem single_of_checkPredicate {u : Unit} (ok : l.checkPredicate k = .ok (u, m)) :
    (∃ x, l.parameters = [x]) ∧ m = k := by
  obtain ⟨_, _, counted, typed⟩ := Combine.exists_of_bind ok
  unfold Combine.ensure at counted typed
  split at counted
  · next one =>
      cases counted
      split at typed
      · cases typed
        exact ⟨List.length_eq_one_iff.mp (beq_iff_eq.mp one), rfl⟩
      · cases typed
  · cases counted

/-- What is made of a predicate is made after it is found to be one. -/
theorem exists_of_checkPredicate {α : Type} {rest : Combine α} {r : α × Supply}
    (ok : (do l.checkPredicate; rest : Combine α) k = .ok r) :
    (∃ x, l.parameters = [x]) ∧ rest k = .ok r := by
  obtain ⟨_, _, checked, made⟩ := Combine.exists_of_bind ok
  obtain ⟨single, rfl⟩ := single_of_checkPredicate checked
  exact ⟨single, made⟩

theorem compatible_of_combineWith {c : Expr → Expr → Combine Expr} {r : Lambda × Supply}
    (ok : p.combineWith q c k = .ok r) : p.checkCompatible q k = .ok ((), k) := by
  obtain ⟨_, _, opened, -⟩ := Combine.exists_of_bind ok
  obtain ⟨_, m, compatible, -⟩ := Combine.exists_of_bind (x := p.checkCompatible q) opened
  rw [compatible, (types_eq_of_compatible compatible).2]

/-- What is made of two predicates by a logical operation on their bodies asks one after the
other. -/
theorem WellFormed.sameEnd_logical {op : BinaryOp} {settled : Bool} {x : Parameter} {host : Host}
    {s : State} (settles : op.settledBy = some settled) (formed : p.WellFormed k)
    (formed' : q.WellFormed k) (single : p.parameters = [x])
    (combined : p.combineWith q
      (fun left right => (liftM (Build.binary op left right) : Combine Expr)) k = .ok (l, k'))
    (unassigned : x.id ∉ p.body.assigned) (discreet : host.Discreet) (later : k' ≤ s.supply)
    (primitive : s.heap.IsPrimitive) (n : Nat) (v : Value) :
    SameEnd (askUnless settled (p.invoke host n [v]) (q.invoke host n [v]) s)
      (l.invoke host (n + 1) [v] s) := by
  obtain ⟨qs, left, right, m, replaces, replaces', drawn, alike, alike', older, older', made⟩ :=
    formed.combineWith_eq formed' (compatible_of_combineWith combined)
  rw [single] at replaces alike
  obtain ⟨x', rfl⟩ := List.length_eq_one_iff.mp replaces.length.symm
  obtain ⟨y, single'⟩ := List.length_eq_one_iff.mp replaces'.length
  rw [single'] at replaces' alike'
  rw [made] at combined
  obtain ⟨e, k'', built, given⟩ := Combine.exists_of_bind combined
  cases given
  obtain ⟨-, node, rfl, rfl⟩ := Build.checked_eq_ok.mp (Combine.ok_of_lift built)
  -- Both bodies are lowered where the predicates are when they are invoked one after the other.
  have reached : e.id ≤ s.supply := Nat.le_of_succ_le later
  obtain ⟨d, left', b, lowers, lowered, le, related⟩ :=
    formed.exists_lower single replaces alike older drawn reached
  obtain ⟨d', right', c, lowers', lowered', -, related'⟩ :=
    formed'.exists_lower single' replaces' alike' older' drawn (Nat.le_trans reached le)
  have whole : e.Older (e.id + 1) := by
    refine Expr.all_iff.mpr ⟨Nat.lt_succ_self _, ?_⟩
    simp only [Expr.children, node, Node.children, List.forall_mem_cons]
    exact ⟨older.mono (Nat.le_succ _), older'.mono (Nat.le_succ _), by simp⟩
  obtain ⟨e', c', lowersTo, node'⟩ := Expr.exists_lower_binary node whole later lowered lowered'
  rw [Lambda.invoke_of_lower host (n + 1) rfl lowersTo]
  refine Concludes.sameEnd ?_
  rw [run_logical settles node']
  have asked := formed.concludes_run single replaces alike
    (Nat.le_trans (Nat.le_of_succ_le drawn) reached) lowers lowered related discreet
    (holds_bound primitive x' v c') n
  refine asked.askUnless settled (fun s t states => ?_) And.left
  obtain ⟨holds, rfl⟩ := states.2 unassigned
  have askedAgain := formed'.concludes_run single' replaces' alike'
    (Nat.le_trans (Nat.le_of_succ_le drawn) (Nat.le_trans reached le)) lowers' lowered' related'
    discreet holds n
  exact rel_imp_of_mem askedAgain fun _ _ _ ended => ⟨ended.1, ended.2.1⟩

/-- What is made of a predicate by negating its body negates what the predicate gives. -/
theorem WellFormed.sameEnd_not {x : Parameter} {host : Host} {s : State} (formed : p.WellFormed k)
    (single : p.parameters = [x])
    (combined : p.combine (fun body => (liftM (Build.unary .not body) : Combine Expr)) k =
      .ok (l, k'))
    (discreet : host.Discreet) (later : k' ≤ s.supply) (primitive : s.heap.IsPrimitive) (n : Nat)
    (v : Value) :
    SameEnd ((p.invoke host n [v] >>= fun b => Value.unary .not b) s)
      (l.invoke host (n + 1) [v] s) := by
  obtain ⟨qs, body, m, replaces, drawn, alike, older, made⟩ := formed.combine_eq
  rw [single] at replaces alike
  obtain ⟨x', rfl⟩ := List.length_eq_one_iff.mp replaces.length.symm
  rw [made] at combined
  obtain ⟨e, k'', built, given⟩ := Combine.exists_of_bind combined
  cases given
  obtain ⟨-, node, rfl, rfl⟩ := Build.checked_eq_ok.mp (Combine.ok_of_lift built)
  have reached : e.id ≤ s.supply := Nat.le_of_succ_le later
  obtain ⟨d, body', b, lowers, lowered, le, related⟩ :=
    formed.exists_lower single replaces alike older drawn reached
  have whole : e.Older (e.id + 1) := by
    refine Expr.all_iff.mpr ⟨Nat.lt_succ_self _, ?_⟩
    simp only [Expr.children, node, Node.children, List.forall_mem_singleton]
    exact older.mono (Nat.le_succ _)
  obtain ⟨e', c', lowersTo, node'⟩ := Expr.exists_lower_unary node whole later lowered
  rw [Lambda.invoke_of_lower host (n + 1) rfl lowersTo]
  refine Concludes.sameEnd ?_
  rw [run_not node']
  have asked := formed.concludes_run single replaces alike
    (Nat.le_trans (Nat.le_of_succ_le drawn) reached) lowers lowered related discreet
    (holds_bound primitive x' v c') n
  refine asked.bind (fun w s t states => ?_) And.left
  change Concludes State.Alike (ofExcept (Value.unary .not w) s) (ofExcept (Value.unary .not w) t)
  cases Value.unary .not w with
  | ok b => exact .some ⟨rfl, states.1⟩
  | error f => exact .some ⟨rfl, states.1⟩

end Lambda

/-- Predicates that are made of predicates ask them in turn. A conjunction gives what the second
predicate gives, but `false` without asking it if the first one gives that, and a disjunction
likewise with `true`; only Booleans are answers. A negation gives the other Boolean, or fails as the
predicate does. The calls of the host are the same as well. -/
theorem predicates_asked_in_turn {p q : Lambda} {k : Supply} {host : Host} (formed : p.WellFormed k)
    (formed' : q.WellFormed k) (discreet : host.Discreet) :
    (∀ l k' s n v, p.andAlso q k = .ok (l, k') → (∀ x ∈ p.parameters, x.id ∉ p.body.assigned) →
      k' ≤ s.supply → s.heap.IsPrimitive →
      SameEnd (askUnless false (p.invoke host n [v]) (q.invoke host n [v]) s)
        (l.invoke host (n + 1) [v] s)) ∧
    (∀ l k' s n v, p.orElse q k = .ok (l, k') → (∀ x ∈ p.parameters, x.id ∉ p.body.assigned) →
      k' ≤ s.supply → s.heap.IsPrimitive →
      SameEnd (askUnless true (p.invoke host n [v]) (q.invoke host n [v]) s)
        (l.invoke host (n + 1) [v] s)) ∧
    ∀ l k' s n v, p.negated k = .ok (l, k') → k' ≤ s.supply → s.heap.IsPrimitive →
      (∀ b t, p.invoke host n [v] s = some (.value (.boolean b), t) →
        ∃ t', l.invoke host (n + 1) [v] s = some (.value (.boolean !b), t') ∧ t.Alike t') ∧
      ∀ f t, p.invoke host n [v] s = some (.fail f, t) →
        ∃ t', l.invoke host (n + 1) [v] s = some (.fail f, t') ∧ t.Alike t' := by
  refine ⟨?_, ?_, ?_⟩
  · intro l k' s n v ok unassigned later primitive
    obtain ⟨⟨x, single⟩, ok⟩ := Lambda.exists_of_checkPredicate ok
    obtain ⟨-, ok⟩ := Lambda.exists_of_checkPredicate ok
    exact formed.sameEnd_logical rfl formed' single ok
      (unassigned x (single ▸ List.mem_singleton_self x)) discreet later primitive n v
  · intro l k' s n v ok unassigned later primitive
    obtain ⟨⟨x, single⟩, ok⟩ := Lambda.exists_of_checkPredicate ok
    obtain ⟨-, ok⟩ := Lambda.exists_of_checkPredicate ok
    exact formed.sameEnd_logical rfl formed' single ok
      (unassigned x (single ▸ List.mem_singleton_self x)) discreet later primitive n v
  · intro l k' s n v ok later primitive
    obtain ⟨⟨x, single⟩, ok⟩ := Lambda.exists_of_checkPredicate ok
    have ended := formed.sameEnd_not single ok discreet later primitive n v
    refine ⟨fun b t asked => ?_, fun f t asked => ?_⟩
    · exact ended.exists_of_eq_some (bind_of_value asked)
    · exact ended.exists_of_eq_some (bind_of_passed asked (.fail f))

/-! ### A predicate that guards another one

`x => x != 0` and `y => 10 / y > 1`, which fails for 0. -/

namespace GuardedRatio

def x : Parameter := ⟨0, some "x", .int32⟩

def y : Parameter := ⟨1, some "y", .int32⟩

def guard : Lambda :=
  ⟨none, [x], ⟨4, .binary .notEqual ⟨2, .parameter x⟩ ⟨3, .constant (.int32 0) .int32⟩ false false
    .boolean⟩, .boolean⟩

def ratio : Lambda :=
  ⟨none, [y],
    ⟨9, .binary .greaterThan
      ⟨7, .binary .divide ⟨5, .constant (.int32 10) .int32⟩ ⟨6, .parameter y⟩ false false .int32⟩
      ⟨8, .constant (.int32 1) .int32⟩ false false .boolean⟩, .boolean⟩

def symbols : List Source.Symbol := [.parameter y, .parameter x]

/-- Both predicates are drawn from one supply, in the order of the identities. -/
theorem drawn_predicates :
    ∃ trees, Drawn 10 symbols trees ∧ guard.body ∈ trees ∧ ratio.body ∈ trees := by
  have named : Drawn 2 symbols [] := .parameter (.parameter (.nothing 0) rfl) rfl
  refine ⟨[ratio.body, ⟨8, .constant (.int32 1) .int32⟩,
    ⟨7, .binary .divide ⟨5, .constant (.int32 10) .int32⟩ ⟨6, .parameter y⟩ false false .int32⟩,
    ⟨6, .parameter y⟩, ⟨5, .constant (.int32 10) .int32⟩, guard.body,
    ⟨3, .constant (.int32 0) .int32⟩, ⟨2, .parameter x⟩],
    .node (.node (.node (.node (.node (.node (.node (.node named rfl ?_ ?_) rfl ?_ ?_) rfl ?_ ?_)
      rfl ?_ ?_) rfl ?_ ?_) rfl ?_ ?_) rfl ?_ ?_) rfl ?_ ?_, ?_, ?_⟩
  all_goals simp [Node.symbols, Node.parameters, Node.labels, Node.children, symbols]

/-- Asked about 0, the conjunction gives `false`, the disjunction fails as the second predicate
does, and the negation gives `true`. -/
theorem zero_is_guarded :
    guard.WellFormed 10 ∧ ratio.WellFormed 10 ∧ x.id ∉ guard.body.assigned ∧
    (∃ l k' t, guard.andAlso ratio 10 = .ok (l, k') ∧
      l.invoke .absent 5 [.int32 0] { supply := 40 } = some (.value (.boolean false), t)) ∧
    (∃ l k' t, guard.orElse ratio 10 = .ok (l, k') ∧
      l.invoke .absent 5 [.int32 0] { supply := 40 } = some (.fail .divideByZero, t)) ∧
    ∃ l k' t, guard.negated 10 = .ok (l, k') ∧
      l.invoke .absent 5 [.int32 0] { supply := 40 } = some (.value (.boolean true), t) := by
  have accepted : guard.body.All Expr.IsAccepted ∧ ratio.body.All Expr.IsAccepted := by decide
  obtain ⟨trees, drawn, guardBody, ratioBody⟩ := drawn_predicates
  have formed : guard.WellFormed 10 := drawn.wellFormed (by decide) (by simp [guard, symbols])
    guardBody fun d mem => .inl (accepted.1 d mem)
  have formed' : ratio.WellFormed 10 := drawn.wellFormed (by decide) (by simp [ratio, symbols])
    ratioBody fun d mem => .inl (accepted.2 d mem)
  have unassigned : ∀ p ∈ guard.parameters, p.id ∉ guard.body.assigned := by decide
  have primitive : Heap.IsPrimitive {} := by
    intro r l frame found
    simp [Heap.get?] at found
  obtain ⟨both, either, not⟩ :=
    predicates_asked_in_turn formed formed' Host.discreet_absent
  refine ⟨formed, formed', by decide, ?_, ?_, ?_⟩
  · have ended := both _ _ { supply := 40 } 4 (.int32 0) rfl unassigned (by decide) primitive
    obtain ⟨t, invoked, -⟩ := ended.exists_of_eq_some (o := .value (.boolean false)) rfl
    exact ⟨_, _, t, rfl, invoked⟩
  · have ended := either _ _ { supply := 40 } 4 (.int32 0) rfl unassigned (by decide) primitive
    obtain ⟨t, invoked, -⟩ := ended.exists_of_eq_some (o := .fail .divideByZero) rfl
    exact ⟨_, _, t, rfl, invoked⟩
  · obtain ⟨negates, -⟩ := not _ _ { supply := 40 } 4 (.int32 0) rfl (by decide) primitive
    obtain ⟨t, invoked, -⟩ := negates false _ rfl
    exact ⟨_, _, t, rfl, invoked⟩

end GuardedRatio

end ExprTree
