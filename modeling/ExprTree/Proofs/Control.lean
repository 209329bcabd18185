import ExprTree.Proofs.Rules

/-!
Rules of control.

Statement lists and loops are written as computations that go on after the end of one statement or
one round, whatever that end is. A property that follows the rules of evaluation and that can also
be told of held back ends (`ControlRules`) holds of lists, loops and exception handling if it holds
of their parts. Variables that a block or a handler binds are left to the property at hand.
-/

namespace ExprTree

namespace Eval

/-! ### Equations of control -/

variable {α β : Type} (run : Expr → Eval Value)

/-- What comes after the end of a statement that others follow, if `goOn` runs what is left of the
whole list. -/
def afterStatement (whole : List Expr) (goOn : List Expr → Value → Eval Value) (es : List Expr) :
    Outcome Value → Eval Value
  | .value v => goOn es v
  | .jump target v =>
    match after? target whole with
    | some rest => goOn rest v
    | none => jump target v
  | .throw exception => throwing exception
  | .fail f => fail f

/-- What comes after the end of the body of a loop, if `again` is the loop again and `k` comes after
the loop. -/
def afterRound (breakTo continueTo : Option Label) (k : Outcome Value → Eval β) (again : Eval β) :
    Outcome Value → Eval β
  | .value _ => again
  | .jump target v =>
    if reaches breakTo target then k (.value v)
    else if reaches continueTo target then again
    else k (.jump target v)
  | .throw exception => k (.throw exception)
  | .fail f => k (.fail f)

theorem runStatements_nil (whole : List Expr) (fuel : Nat) (last : Value) :
    runStatements run whole fuel [] last = (pure last : Eval Value) := by
  cases fuel <;> rfl

theorem runStatements_cons (whole : List Expr) (fuel : Nat) (e : Expr) (es : List Expr)
    (last : Value) :
    runStatements run whole (fuel + 1) (e :: es) last =
      (run e).settle >>= afterStatement whole (runStatements run whole fuel) es := by
  funext s
  cases h : run e s with
  | none =>
      rw [settle_bind_of_none h]
      simp only [runStatements, h]
  | some r =>
      obtain ⟨o, s'⟩ := r
      rw [settle_bind_of_some h]
      simp only [runStatements, h]
      cases o with
      | jump target v =>
          simp only [afterStatement]
          cases after? target whole <;> rfl
      | _ => rfl

theorem runLoop_succ (body : Expr) (breakTo continueTo : Option Label) (fuel : Nat) :
    runLoop run body breakTo continueTo (fuel + 1) =
      (run body).settle >>= afterRound breakTo continueTo Outcome.resume
        (runLoop run body breakTo continueTo fuel) := by
  funext s
  cases h : run body s with
  | none =>
      rw [settle_bind_of_none h]
      simp only [runLoop, h]
  | some r =>
      obtain ⟨o, s'⟩ := r
      rw [settle_bind_of_some h]
      simp only [runLoop, h]
      cases o with
      | jump target v =>
          simp only [afterRound]
          cases reaches breakTo target <;> cases reaches continueTo target <;> rfl
      | _ => rfl

theorem after?_subset {target : Label} {es rest : List Expr}
    (found : after? target es = some rest) : rest ⊆ es := by
  induction es with
  | nil => cases found
  | cons e es ih =>
      rw [after?] at found
      split at found
      · cases found
        exact List.subset_cons_self e _
      · exact List.Subset.trans (ih found) (List.subset_cons_self e _)

/-- What a handler does with an exception whose variable is in scope: nothing if its filter
refuses, and else its body, with the end held back. -/
def handled (h : Handler) : Eval (Option (Outcome Value)) := do
  if ← accepts run h.filter then return some (← (run h.body).settle) else return none

theorem tryHandler_of_caught {h : Handler} {p : Parameter} (caught : h.caught = some p)
    (exception : Value) :
    tryHandler run h exception = withVariable p exception (handled run h) := by
  simp only [tryHandler, caught]
  rfl

theorem tryHandler_of_none {h : Handler} (caught : h.caught = none) (exception : Value) :
    tryHandler run h exception = handled run h := by
  simp only [tryHandler, caught]
  rfl

end Eval

/-! ### Held back ends -/

/-- What is known of an end, where values are known to be so. -/
def Knowledge.Ends {α : Type} (K : Knowledge) (Q : α → Prop) : Outcome α → Prop
  | .value a => Q a
  | .jump _ v => K.Clear v
  | .throw exception => K.Clear exception
  | .fail f => K.expects f

theorem Knowledge.ends_nothing (o : Outcome Value) : nothing.Ends nothing.Clear o := by
  cases o with
  | value v => exact clear_nothing v
  | jump target v => exact clear_nothing v
  | throw exception => exact clear_nothing exception
  | fail f => exact ⟨⟩

namespace Eval

theorem Gives.ends_settle {α : Type} {Q : α → Prop} {x : Eval α} (gives : Gives Q x) :
    Gives (Knowledge.nothing.Ends Q) x.settle := by
  intro s o s' ended
  obtain ⟨⟨o', m⟩, h, made⟩ := Option.map_eq_some_iff.mp ended
  cases made
  cases o with
  | value a => exact gives _ _ _ h
  | jump target v => exact Knowledge.clear_nothing v
  | throw exception => exact Knowledge.clear_nothing exception
  | fail f => exact ⟨⟩

/-- A property that follows the rules of evaluation, holds of jumps and of computations without
fuel, and can be told of held back ends. -/
structure ControlRules {ι : Type} (host : Host) (K : Knowledge)
    (P : (α : Type) → (α → Prop) → (ι → Eval α) → Prop) : Prop extends Rules host K P where
  jump : ∀ {α : Type} {Q : α → Prop} {target : Label} {v : Value}, K.Clear v →
    P α Q fun _ => jump target v
  outOfFuel : ∀ {α : Type} {Q : α → Prop}, P α Q fun _ => outOfFuel
  settle : ∀ {α : Type} {Q : α → Prop} {x : ι → Eval α}, P α Q x →
    P (Outcome α) (K.Ends Q) fun i => (x i).settle

namespace ControlRules

variable {ι : Type} {host : Host} {K : Knowledge}
  {P : (α : Type) → (α → Prop) → (ι → Eval α) → Prop} {run : ι → Expr → Eval Value}

theorem resume {α : Type} {Q : α → Prop} {o : Outcome α} (rules : ControlRules host K P)
    (ends : K.Ends Q o) : P α Q fun _ => o.resume := by
  cases o with
  | value a => exact rules.pure ends
  | jump target v => exact rules.jump ends
  | throw exception => exact rules.throwing ends
  | fail f => exact rules.fail ends

/-! ### Statements and loops -/

theorem afterStatement {goOn : ι → List Expr → Value → Eval Value} {es : List Expr}
    {o : Outcome Value} (rules : ControlRules host K P) (whole : List Expr)
    (next : ∀ v, K.Clear v → P Value K.Clear fun i => goOn i es v)
    (rest : ∀ target es', after? target whole = some es' →
      ∀ v, K.Clear v → P Value K.Clear fun i => goOn i es' v)
    (ends : K.Ends K.Clear o) : P Value K.Clear fun i => afterStatement whole (goOn i) es o := by
  cases o with
  | value v => exact next v ends
  | jump target v =>
      simp only [Eval.afterStatement]
      cases found : after? target whole with
      | none => exact rules.jump ends
      | some es' => exact rest target es' found v ends
  | throw exception => exact rules.throwing ends
  | fail f => exact rules.fail ends

theorem afterRound {β : Type} {Q : β → Prop} {k : ι → Outcome Value → Eval β} {again : ι → Eval β}
    {o : Outcome Value} (leave : ∀ o, K.Ends K.Clear o → P β Q fun i => k i o)
    (rest : P β Q again) (breakTo continueTo : Option Label) (ends : K.Ends K.Clear o) :
    P β Q fun i => afterRound breakTo continueTo (k i) (again i) o := by
  cases o with
  | value v => exact rest
  | jump target v =>
      simp only [Eval.afterRound]
      cases reaches breakTo target with
      | true => exact leave (.value v) ends
      | false =>
          cases reaches continueTo target with
          | true => exact rest
          | false => exact leave (.jump target v) ends
  | throw exception => exact leave _ ends
  | fail f => exact leave _ ends

theorem runStatements {whole : List Expr} (rules : ControlRules host K P)
    (parts : ∀ e ∈ whole, P Value K.Clear fun i => run i e) (fuel : Nat) {es : List Expr}
    (subset : es ⊆ whole) {last : Value} (clear : K.Clear last) :
    P Value K.Clear fun i => runStatements (run i) whole fuel es last := by
  induction fuel generalizing es last with
  | zero =>
      cases es with
      | nil => exact rules.pure clear
      | cons => exact rules.outOfFuel
  | succ fuel ih =>
      cases es with
      | nil => exact rules.pure clear
      | cons e es =>
          simp only [runStatements_cons]
          refine rules.bind (rules.settle (parts e (subset List.mem_cons_self))) fun o ends => ?_
          refine rules.afterStatement whole (fun v known => ih ?_ known)
            (fun target es' found v known => ih (after?_subset found) known) ends
          exact List.subset_of_cons_subset subset

theorem runLoop {body : Expr} (rules : ControlRules host K P)
    (part : P Value K.Clear fun i => run i body) (breakTo continueTo : Option Label) (fuel : Nat) :
    P Value K.Clear fun i => runLoop (run i) body breakTo continueTo fuel := by
  induction fuel with
  | zero => exact rules.outOfFuel
  | succ fuel ih =>
      simp only [runLoop_succ]
      refine rules.bind (rules.settle part) fun o ends => ?_
      exact afterRound (fun _ leaves => rules.resume leaves) ih breakTo continueTo ends

/-! ### Exception handling -/

theorem exceptionOf {o : Outcome Value} (rules : ControlRules host K P)
    (ends : K.Ends K.Clear o) :
    P (Option Value) (fun caught => ∀ v ∈ caught, K.Clear v) fun _ => exceptionOf o := by
  have none : P (Option Value) (fun caught => ∀ v ∈ caught, K.Clear v) fun _ => Pure.pure none :=
    rules.pure fun _ mem => nomatch mem
  cases o with
  | value v => exact none
  | jump target v => exact none
  | throw exception =>
      refine rules.pure ?_
      rintro v ⟨⟩
      exact ends
  | fail f =>
      unfold Eval.exceptionOf
      dsimp only
      split
      · refine rules.map (rules.newInstance _) ?_
        rintro v clear w ⟨⟩
        exact clear
      · exact none

theorem accepts {filter : Option Expr} (rules : ControlRules host K P)
    (part : ∀ e ∈ filter.toList, P Value K.Clear fun i => run i e) :
    P Bool (fun _ => True) fun i => accepts (run i) filter := by
  cases filter with
  | none => exact rules.pure ⟨⟩
  | some e =>
      refine rules.bind (rules.settle (part e (List.mem_singleton_self e))) fun o _ => ?_
      split
      · exact rules.pure ⟨⟩
      · exact rules.pure ⟨⟩

theorem handled {h : Handler} (rules : ControlRules host K P)
    (parts : ∀ e ∈ h.filter.toList ++ [h.body], P Value K.Clear fun i => run i e) :
    P (Option (Outcome Value)) (fun told => ∀ o ∈ told, K.Ends K.Clear o) fun i =>
      handled (run i) h := by
  refine rules.bind (rules.accepts fun e mem => parts e (List.mem_append_left _ mem))
    fun accepted _ => ?_
  cases accepted with
  | true =>
      refine rules.bind (rules.settle (parts h.body (by simp))) fun o ends => rules.pure ?_
      rintro o' ⟨⟩
      exact ends
  | false => exact rules.pure fun _ mem => nomatch mem

theorem runHandlers {hs : List Handler} {exception : Value} (rules : ControlRules host K P)
    (each : ∀ h ∈ hs, P (Option (Outcome Value)) (fun told => ∀ o ∈ told, K.Ends K.Clear o)
      fun i => tryHandler (run i) h exception) :
    P (Option (Outcome Value)) (fun told => ∀ o ∈ told, K.Ends K.Clear o) fun i =>
      runHandlers (run i) exception hs := by
  induction hs with
  | nil => exact rules.pure fun _ mem => nomatch mem
  | cons h hs ih =>
      have rest := ih fun h' mem => each h' (.tail _ mem)
      unfold Eval.runHandlers
      by_cases caught : h.tested.assignableFrom exception.typeOf = true
      · simp only [if_pos caught]
        refine rules.bind (each h List.mem_cons_self) fun told ends => ?_
        cases told with
        | none => exact rest
        | some o => exact rules.pure ends
      · simp only [if_neg caught]
        exact rest

theorem runAttempt {body : Expr} {handlers : List Handler} {fault finalizer : Option Expr}
    (rules : ControlRules host K P) (first : P Value K.Clear fun i => run i body)
    (each : ∀ h ∈ handlers, ∀ exception, K.Clear exception →
      P (Option (Outcome Value)) (fun told => ∀ o ∈ told, K.Ends K.Clear o)
        fun i => tryHandler (run i) h exception)
    (faulty : ∀ e ∈ fault.toList, P Value K.Clear fun i => run i e)
    (final : ∀ e ∈ finalizer.toList, P Value K.Clear fun i => run i e) :
    P Value K.Clear fun i => runAttempt (run i) body handlers fault finalizer := by
  have leave (o : Outcome Value) (ends : K.Ends K.Clear o) :
      P Value K.Clear fun i => runOptional (run i) finalizer >>= fun _ => o.resume :=
    rules.bind (rules.runOptional final) fun _ _ => rules.resume ends
  refine rules.bind (rules.settle first) fun ended ends => ?_
  refine rules.bind (rules.exceptionOf ends) fun caught clear => ?_
  cases caught with
  | none => exact leave ended ends
  | some exception =>
      have searched := rules.runHandlers fun h mem => each h mem exception (clear exception rfl)
      refine rules.bind searched fun told known => ?_
      cases told with
      | some o => exact leave o (known o rfl)
      | none => exact rules.bind (rules.runOptional faulty) fun _ _ => leave ended ends

end ControlRules

end Eval

end ExprTree
