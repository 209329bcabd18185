import ExprTree.Proofs.Congruence

/-!
Comparison of evaluations.

A property that compares the computations of a family looks at their results only. It is kept by
all of evaluation, control included: `Extensional.runNode` has no condition on the node.
-/

namespace ExprTree.Eval

/-- A property of families of computations that holds of those that do not vary, and that is kept by
going on and by what is done to a state before a computation and to its result afterwards. -/
structure Extensional {ι : Type} (P : (α : Type) → (ι → Eval α) → Prop) : Prop where
  const : ∀ {α : Type} (x : Eval α), P α fun _ => x
  bind : ∀ {α β : Type} {x : ι → Eval α} {f : ι → α → Eval β},
    P α x → (∀ a, P β fun i => f i a) → P β fun i => x i >>= f i
  mapResult : ∀ {α β : Type} {x : ι → Eval α} (before : State → State)
    (after : State → Outcome α × State → Outcome β × State), P α x →
    P β fun i s => (x i (before s)).map (after s)

namespace Extensional

variable {β ι : Type} {P : (α : Type) → (ι → Eval α) → Prop} {run : ι → Expr → Eval Value}

theorem compatible (closed : Extensional P) : Compatible P where
  steady := fun {_ x} _ => closed.const x
  bind := closed.bind

theorem settle {α : Type} {x : ι → Eval α} (closed : Extensional P) (first : P α x) :
    P (Outcome α) fun i => (x i).settle :=
  closed.mapResult (fun s => s) (fun _ r => (.value r.1, r.2)) first

theorem concluded {α : Type} {x : ι → Eval α} (closed : Extensional P) (first : P α x) :
    P α fun i => (x i).concluded :=
  closed.mapResult (fun s => s) (fun _ r => (r.1.concluded, r.2)) first

theorem inFrame {α : Type} {x : ι → Eval α} (closed : Extensional P) (frame : Frame)
    (first : P α x) : P α fun i => inFrame frame (x i) :=
  closed.mapResult (fun s => { s with frame }) (fun s r => (r.1, { r.2 with frame := s.frame }))
    first

theorem withVariable {α : Type} {x : ι → Eval α} (closed : Extensional P) (p : Parameter)
    (v : Value) (first : P α x) : P α fun i => withVariable p v (x i) :=
  closed.mapResult (fun s => setScope s (s.frame.scope.insert p.id v))
    (fun s r => (r.1, setScope r.2 (r.2.frame.scope.restore p.id (s.frame.scope.find? p.id)))) first

theorem withVariables {α : Type} {x : ι → Eval α} (closed : Extensional P)
    (bound : List (Parameter × Value)) (first : P α x) :
    P α fun i => withVariables bound (x i) := by
  induction bound with
  | nil => exact first
  | cons b rest ih => exact closed.withVariable b.1 b.2 ih

/-! ### Control -/

theorem controlRules (closed : Extensional P) (host : Host) :
    ControlRules host .nothing fun α Q (x : ι → Eval α) => P α x ∧ ∀ i, Gives Q (x i) :=
  closed.compatible.controlRules host (fun _ _ => closed.const _) (closed.const _) closed.settle

theorem afterStatement {goOn : ι → List Expr → Value → Eval Value} (closed : Extensional P)
    (rest : ∀ es v, P Value fun i => goOn i es v) (whole es : List Expr) (o : Outcome Value) :
    P Value fun i => afterStatement whole (goOn i) es o := by
  have next := (closed.controlRules .absent).afterStatement whole
    (fun v _ => Compatible.known (rest es v)) (fun _ es' _ v _ => Compatible.known (rest es' v))
    (Knowledge.ends_nothing o)
  exact next.1

theorem afterRound {k : Outcome Value → Eval β} {again : ι → Eval β} (closed : Extensional P)
    (rest : P β again) (breakTo continueTo : Option Label) (o : Outcome Value) :
    P β fun i => afterRound breakTo continueTo k (again i) o :=
  ControlRules.afterRound (P := fun α _ => P α) (Q := fun _ => True) (k := fun _ => k)
    (fun o _ => closed.const (k o)) rest breakTo continueTo (Knowledge.ends_nothing o)

theorem tryHandler (closed : Extensional P) (parts : ∀ e, P Value fun i => run i e) (h : Handler)
    (exception : Value) : P (Option (Outcome Value)) fun i => tryHandler (run i) h exception := by
  have handled : P (Option (Outcome Value)) fun i => Eval.handled (run i) h :=
    ((closed.controlRules .absent).handled fun e _ => Compatible.known (parts e)).1
  cases caught : h.caught with
  | none => simpa only [tryHandler_of_none _ caught] using handled
  | some p =>
      simpa only [tryHandler_of_caught _ caught] using closed.withVariable p exception handled

/-! ### Nodes -/

theorem applyWith (closed : Extensional P) (parts : ∀ e, P Value fun i => run i e) (l : Lambda)
    (frame : Frame) (arguments : List Value) :
    P Value fun i => applyWith (run i) l frame arguments := by
  refine closed.inFrame frame ?_
  unfold Eval.invokeWith
  by_cases count : arguments.length ≠ l.parameters.length
  · simp only [if_pos count]
    exact closed.const _
  · simp only [if_neg count]
    refine closed.bind (closed.const _) fun body => ?_
    exact closed.concluded (closed.withVariables _ (parts body))

/-- What holds of the evaluation of every expression with one unit of fuel less holds of the
evaluation of a node. -/
theorem runNode (closed : Extensional P) (host : Host) (parts : ∀ e, P Value fun i => run i e)
    (fuel : Nat) (e : Expr) : P Value fun i => runNode host (run i) fuel e := by
  have calls := closed.applyWith parts
  have known (e : Expr) := Compatible.known (parts e)
  have rules := closed.controlRules host
  cases plain : e.kind.isPlain with
  | true =>
      have stores (target : Expr) (v : Value) : P Unit fun i => store host (run i) target v :=
        closed.compatible.store (fun c _ => parts c) calls (fun p v _ => closed.const _) v
      exact closed.compatible.runNode plain (fun c _ => parts c) calls
        (fun target _ => stores target)
        fun _ => fuel
  | false =>
      obtain ⟨id, node⟩ := e
      cases node with
      | lambda l => exact closed.const _
      | block locals statements type =>
          refine closed.bind (closed.withVariables _ ?_) fun v => closed.const _
          exact (rules.runStatements (fun e _ => known e) fuel (List.Subset.refl statements)
            (Knowledge.clear_nothing .void)).1
      | loop body breakTo continueTo =>
          exact (rules.runLoop (known body) breakTo continueTo fuel).1
      | jump kind target value =>
          cases value with
          | none => exact closed.const _
          | some value => exact closed.bind (parts value) fun v => closed.const _
      | attempt body handlers fault finalizer =>
          refine (rules.runAttempt (known body) (fun h _ exception _ => ?_) (fun e _ => known e)
            fun e _ => known e).1
          exact ⟨closed.tryHandler parts h exception, fun _ _ _ _ _ o _ => Knowledge.ends_nothing o⟩
      | forLoop | forEach | whileLoop | doWhile | usingBlock =>
          exact closed.bind (closed.const _) fun e' => parts e'
      | _ => cases plain

end Extensional

end ExprTree.Eval
