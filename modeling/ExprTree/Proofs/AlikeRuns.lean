import ExprTree.Proofs.Simulation

/-!
Evaluation of nodes that are alike.

If trees that are related run alike and closures that correspond are called alike, then primitive
nodes whose parts are related run alike (`Correspondence.Evaluates.runNode`). A derived node is not
run part by part, but reduced (`Eval.run_of_isDerived`).
-/

namespace ExprTree

open Eval

/-- Trees that are related run alike, and closures that correspond are called alike. -/
structure Correspondence.Evaluates (C : Correspondence) (host : Host) (r : Expr → Expr → Prop)
    (run run' : Expr → Eval Value) : Prop extends C.Sound host where
  opens : ∀ {e e' : Expr}, r e e' → e.node.Alike r C.locals e'.node
  parts : ∀ {e e' : Expr}, r e e' → Mirrors C Eq (run e) (run' e')
  calls : ∀ {l l' : Lambda} {frame frame' : Frame}, C.closures l frame l' frame' →
    ∀ arguments, Mirrors C Eq (applyWith run l frame arguments) (applyWith run' l' frame' arguments)
  lambdas : ∀ {l l' : Lambda}, l.Alike r C.locals l' → ∀ {s t : State}, C.states s t →
    C.closures l s.frame l' t.frame

namespace Correspondence.Evaluates

variable {C : Correspondence} {host : Host} {r : Expr → Expr → Prop}
  {run run' : Expr → Eval Value} {e e' : Expr} {es es' : List Expr}

/-! ### Parts in turn -/

theorem runAll (same : C.Evaluates host r run run') (parts : List.Forall₂ r es es') :
    Mirrors C Eq (runAll run es) (runAll run' es') := by
  unfold Eval.runAll
  induction parts with
  | nil => exact .pure rfl
  | cons first _ ih =>
      simp only [List.mapM_cons]
      refine (same.parts first).andThen fun v => ?_
      exact ih.andThen fun vs => .pure rfl

theorem runOptional {a a' : Option Expr} (same : C.Evaluates host r run run')
    (part : Option.Rel r a a') : Mirrors C Eq (runOptional run a) (runOptional run' a') := by
  cases part with
  | none => exact .pure rfl
  | some part => exact (same.parts part).discard

theorem matchesAny (same : C.Evaluates host r run run') (v : Value)
    (tests : List.Forall₂ r es es') :
    Mirrors C Eq (matchesAny run v es) (matchesAny run' v es') := by
  induction tests with
  | nil => exact .pure rfl
  | cons first _ ih =>
      unfold Eval.matchesAny
      refine (same.parts first).andThen fun found => ?_
      split
      · exact .pure rfl
      · exact ih

theorem runCases {cs cs' : List SwitchCase} {a a' : Option Expr}
    (same : C.Evaluates host r run run') (v : Value)
    (cases : List.Forall₂ (SwitchCase.Alike r) cs cs') (fallback : Option.Rel r a a') :
    Mirrors C Eq (runCases run v a cs) (runCases run' v a' cs') := by
  induction cases with
  | nil =>
      cases fallback with
      | none => exact .pure rfl
      | some part => exact same.parts part
  | cons first _ ih =>
      unfold Eval.runCases
      refine (same.matchesAny v first.tests).andThen fun found => ?_
      cases found with
      | true => exact same.parts first.body
      | false => exact ih

/-! ### Calls -/

theorem objectCall (same : C.Evaluates host r run run') (o : ObjectRef) (m : Method)
    (arguments : List Value) :
    Mirrors C Eq (objectCall host (applyWith run) o m arguments)
      (objectCall host (applyWith run') o m arguments) := by
  intro s t states
  have cell := same.cells states o.ref
  simp only [Eval.objectCall, get_bind]
  generalize found : s.heap.get? o.ref = c, t.heap.get? o.ref = d at cell
  cases cell with
  | none => exact Mirrors.fail s t states
  | some cell =>
      cases cell with
      | array => exact Mirrors.fail s t states
      | plain => exact same.callPlain states found m arguments
      | external => exact same.ask _ _ s t states
      | closure closures =>
          refine (?_ : Mirrors C Eq _ _) s t states
          dsimp only
          split
          · exact same.calls closures arguments
          · exact .fail

theorem callOn (same : C.Evaluates host r run run') (target : Value) (m : Method)
    (arguments : List Value) :
    Mirrors C Eq (callOn host (applyWith run) target m arguments)
      (callOn host (applyWith run') target m arguments) := by
  unfold Eval.callOn
  split
  · exact .fail
  · split
    · exact .pure rfl
    · cases target with
      | object o => exact same.objectCall o m arguments
      | _ => exact .fail

theorem indexGet (same : C.Evaluates host r run run') (target : Value) (arguments : List Value)
    (type : Ty) :
    Mirrors C Eq (indexGet host (applyWith run) target arguments type)
      (indexGet host (applyWith run') target arguments type) := by
  unfold Eval.indexGet
  split
  · exact same.arrayGet _ _
  · exact .lift _
  · exact same.callOn _ _ _

theorem indexSet (same : C.Evaluates host r run run') (target : Value) (arguments : List Value)
    (v : Value) :
    Mirrors C Eq (indexSet host (applyWith run) target arguments v)
      (indexSet host (applyWith run') target arguments v) := by
  unfold Eval.indexSet
  split
  · exact same.arraySet _ _ v
  · exact (same.callOn _ _ _).discard

theorem runCall {a a' : Option Expr} (same : C.Evaluates host r run run')
    (target : Option.Rel r a a') (m : Method) (arguments : List.Forall₂ r es es') :
    Mirrors C Eq (runCall host run a m es) (runCall host run' a' m es') := by
  cases target with
  | none => exact (same.runAll arguments).andThen fun vs => same.callStatic m vs
  | some target =>
      refine (same.parts target).andThen fun receiver => ?_
      exact (same.runAll arguments).andThen fun vs => same.callOn receiver m vs

/-! ### Storing and operators -/

theorem store (same : C.Evaluates host r run run') (target : r e e') (v : Value) :
    Mirrors C Eq (store host run e v) (store host run' e' v) := by
  have alike := same.opens target
  unfold Eval.store Expr.kind
  generalize e.node = n, e'.node = n' at alike
  cases alike with
  | parameter reads => exact same.assign reads v
  | member receiver =>
      cases receiver with
      | none => exact .fail
      | some receiver => exact (same.parts receiver).andThen fun object => same.memberSet object _ v
  | @binary op a a' b b' assign checked t left right =>
      cases op with
      | arrayIndex =>
          refine (same.parts left).andThen fun array => ?_
          exact (same.parts right).andThen fun index => same.arraySet array index v
      | _ => exact .fail
  | index receiver arguments =>
      refine (same.parts receiver).andThen fun object => ?_
      exact (same.runAll arguments).andThen fun vs => same.indexSet object vs v
  | _ => exact .fail

theorem runStep (same : C.Evaluates host r run run') (operand : r e e') (op : UnaryOp)
    (givesNew : Bool) :
    Mirrors C Eq (runStep host run op e givesNew) (runStep host run' op e' givesNew) := by
  refine (same.parts operand).andThen fun current => ?_
  refine (Mirrors.lift _).andThen fun updated => ?_
  exact (same.store operand updated).andThen fun _ => .pure rfl

theorem runUnary (same : C.Evaluates host r run run') (operand : r e e') (op : UnaryOp)
    (type : Ty) : Mirrors C Eq (runUnary host run op e type) (runUnary host run' op e' type) := by
  cases op with
  | quote => exact same.parts operand
  | throw =>
      refine (same.parts operand).andThen fun exception => ?_
      split
      · exact .fail
      · exact .throwing
  | preIncrementAssign | preDecrementAssign | postIncrementAssign | postDecrementAssign =>
      exact same.runStep operand _ _
  | arrayLength => exact (same.parts operand).andThen fun array => same.memberGet array _
  | typeAs => exact (same.parts operand).andThen fun v => .pure rfl
  | _ => exact (same.parts operand).andThen fun v => .lift _

theorem runBinary {a a' b b' : Expr} (same : C.Evaluates host r run run') (left : r a a')
    (right : r b b') (op : BinaryOp) (assign checked : Bool) :
    Mirrors C Eq (runBinary host run op a b assign checked)
      (runBinary host run' op a' b' assign checked) := by
  cases op with
  | assign =>
      refine (same.parts right).andThen fun v => ?_
      exact (same.store left v).andThen fun _ => .pure rfl
  | andAlso =>
      refine (same.parts left).judge fun holds => ?_
      cases holds with
      | false => exact .pure rfl
      | true => exact (same.parts right).judge fun holds => .pure rfl
  | orElse =>
      refine (same.parts left).judge fun holds => ?_
      cases holds with
      | false => exact (same.parts right).judge fun holds => .pure rfl
      | true => exact .pure rfl
  | coalesce =>
      refine (same.parts left).andThen fun v => ?_
      split
      · exact same.parts right
      · exact .pure rfl
  | arrayIndex =>
      refine (same.parts left).andThen fun array => ?_
      exact (same.parts right).andThen fun index => same.arrayGet array index
  | _ =>
      refine (same.parts left).andThen fun x => ?_
      refine (same.parts right).andThen fun y => ?_
      refine (Mirrors.lift _).andThen fun v => ?_
      cases assign with
      | false => exact .pure rfl
      | true => exact (same.store left v).andThen fun _ => .pure rfl

/-! ### Objects -/

theorem runNewArray (same : C.Evaluates host r run run') (form : ArrayForm) (type : Ty)
    (items : List.Forall₂ r es es') :
    Mirrors C Eq (runNewArray run form type es) (runNewArray run' form type es') := by
  refine (same.runAll items).andThen fun vs => ?_
  split
  · exact same.newArray _ _
  · dsimp only
    split
    · exact .fail
    · exact same.newArray _ _
  · exact .fail

theorem addAll {is is' : List ElementInit} (same : C.Evaluates host r run run') (object : Value)
    (initializers : List.Forall₂ (ElementInit.Alike r) is is') :
    Mirrors C Eq (addAll host run object is) (addAll host run' object is') := by
  induction initializers with
  | nil => exact .pure rfl
  | cons first _ ih =>
      unfold Eval.addAll
      rw [first.method]
      refine (same.runAll first.arguments).andThen fun vs => ?_
      exact (same.callOn object _ vs).discard.andThen fun _ => ih

mutual

theorem fill (same : C.Evaluates host r run run') (object : Value) :
    {b b' : Binding} → Binding.Alike r b b' →
    Mirrors C Eq (fill host run object b) (fill host run' object b')
  | _, _, .assignment given => by
      unfold Eval.fill
      exact (same.parts given).andThen fun v => same.memberSet object _ v
  | _, _, .elements each => by
      unfold Eval.fill
      exact (same.memberGet object _).andThen fun v => same.addAll v each
  | _, _, .members each => by
      unfold Eval.fill
      exact (same.memberGet object _).andThen fun v => fillAll same v each

theorem fillAll (same : C.Evaluates host r run run') (object : Value) :
    {bs bs' : List Binding} → List.Forall₂ (Binding.Alike r) bs bs' →
    Mirrors C Eq (fillAll host run object bs) (fillAll host run' object bs')
  | _, _, .nil => by
      unfold Eval.fillAll
      exact .pure rfl
  | _, _, .cons first rest => by
      unfold Eval.fillAll
      exact (fill same object first).andThen fun _ => fillAll same object rest

end

/-! ### Statements and loops -/

theorem isPlaceOf (same : C.Evaluates host r run run') (target : Label) (related : r e e') :
    isPlaceOf target e = isPlaceOf target e' := by
  have alike := same.opens related
  unfold Eval.isPlaceOf
  generalize e.node = n, e'.node = n' at alike
  cases alike <;> rfl

theorem after? (same : C.Evaluates host r run run') (target : Label)
    (related : List.Forall₂ r es es') :
    Option.Rel (List.Forall₂ r) (after? target es) (after? target es') := by
  induction related with
  | nil => exact .none
  | cons first rest ih =>
      unfold Eval.after?
      rw [same.isPlaceOf target first]
      split
      · exact .some rest
      · exact ih

theorem runStatements {whole whole' : List Expr} (same : C.Evaluates host r run run')
    (related : List.Forall₂ r whole whole') (fuel : Nat) (rest : List.Forall₂ r es es')
    (last : Value) :
    Mirrors C Eq (runStatements run whole fuel es last)
      (runStatements run' whole' fuel es' last) := by
  induction fuel generalizing es es' last with
  | zero =>
      cases rest with
      | nil => exact .pure rfl
      | cons => exact .outOfFuel
  | succ fuel ih =>
      cases rest with
      | nil => exact .pure rfl
      | cons first rest =>
          simp only [runStatements_cons]
          refine (same.parts first).settle.bind fun o o' ended => ?_
          cases ended with
          | value given =>
              cases given
              exact ih rest _
          | throw => exact .throwing
          | fail => exact .fail
          | @jump target v =>
              simp only [afterStatement]
              have found := same.after? target related
              generalize Eval.after? target whole = a, Eval.after? target whole' = b at found
              cases found with
              | none => exact .jump
              | some later => exact ih later v

theorem runBlock {ps ps' : List Parameter} (same : C.Evaluates host r run run')
    (locals : List.Forall₂ C.locals ps ps') (statements : List.Forall₂ r es es') (fuel : Nat)
    (type : Ty) :
    Mirrors C Eq (runBlock run fuel ps es type) (runBlock run' fuel ps' es' type) := by
  have bound : List.Forall₂ (fun b b' : Parameter × Value => C.locals b.1 b'.1 ∧ b.2 = b'.2)
      (ps.map fun p => (p, .defaultOf p.type)) (ps'.map fun p => (p, .defaultOf p.type)) := by
    rw [List.forall₂_map_left_iff, List.forall₂_map_right_iff]
    exact locals.imp fun p p' related => ⟨related, by rw [same.typed related]⟩
  refine (same.withVariables ?_ bound).andThen fun v => .pure rfl
  exact same.runStatements statements fuel statements .void

theorem runLoop (same : C.Evaluates host r run run') (body : r e e')
    (breakTo continueTo : Option Label) (fuel : Nat) :
    Mirrors C Eq (runLoop run e breakTo continueTo fuel)
      (runLoop run' e' breakTo continueTo fuel) := by
  induction fuel with
  | zero => exact .outOfFuel
  | succ fuel ih =>
      simp only [runLoop_succ]
      refine (same.parts body).settle.bind fun o o' ended => ?_
      cases ended with
      | value given => exact ih
      | throw => exact .resume .throw
      | fail => exact .resume .fail
      | @jump target v =>
          simp only [afterRound]
          cases reaches breakTo target with
          | true => exact .resume (.value rfl)
          | false =>
              cases reaches continueTo target with
              | true => exact ih
              | false => exact .resume .jump

/-! ### Exception handling -/

theorem exceptionOf {o o' : Outcome Value} (same : C.Evaluates host r run run')
    (ended : o.Match Eq o') : Mirrors C Eq (exceptionOf o) (exceptionOf o') := by
  cases ended with
  | value | jump | throw => exact .pure rfl
  | fail =>
      unfold Eval.exceptionOf
      dsimp only
      split
      · exact (same.newInstance _).andThen fun v => .pure rfl
      · exact .pure rfl

theorem accepts {a a' : Option Expr} (same : C.Evaluates host r run run')
    (filter : Option.Rel r a a') : Mirrors C Eq (accepts run a) (accepts run' a') := by
  cases filter with
  | none => exact .pure rfl
  | some part =>
      refine (same.parts part).settle.bind fun o o' ended => ?_
      cases ended with
      | value given =>
          cases given
          split
          · exact .pure rfl
          · exact .pure rfl
      | jump | throw | fail => exact .pure rfl

theorem handled {h h' : Handler} (same : C.Evaluates host r run run')
    (alike : h.Alike r C.locals h') :
    Mirrors C (Option.Rel (Outcome.Match Eq)) (handled run h) (handled run' h') := by
  refine (same.accepts alike.filter).andThen fun accepted => ?_
  cases accepted with
  | true => exact (same.parts alike.body).settle.bind fun o o' ended => .pure (.some ended)
  | false => exact .pure .none

theorem tryHandler {h h' : Handler} (same : C.Evaluates host r run run')
    (alike : h.Alike r C.locals h') (exception : Value) :
    Mirrors C (Option.Rel (Outcome.Match Eq)) (tryHandler run h exception)
      (tryHandler run' h' exception) := by
  have caught := alike.caught
  generalize left : h.caught = a, right : h'.caught = b at caught
  cases caught with
  | none =>
      rw [tryHandler_of_none run left, tryHandler_of_none run' right]
      exact same.handled alike
  | some related =>
      rw [tryHandler_of_caught run left, tryHandler_of_caught run' right]
      exact same.bound related (same.handled alike)

theorem runHandlers {hs hs' : List Handler} (same : C.Evaluates host r run run')
    (handlers : List.Forall₂ (Handler.Alike r C.locals) hs hs') (exception : Value) :
    Mirrors C (Option.Rel (Outcome.Match Eq)) (runHandlers run exception hs)
      (runHandlers run' exception hs') := by
  induction handlers with
  | nil => exact .pure .none
  | cons first _ ih =>
      unfold Eval.runHandlers
      rw [first.tested]
      split
      · refine (same.tryHandler first exception).bind fun told told' ended => ?_
        cases ended with
        | none => exact ih
        | some ended => exact .pure (.some ended)
      · exact ih

theorem runAttempt {hs hs' : List Handler} {a a' b b' : Option Expr}
    (same : C.Evaluates host r run run') (body : r e e')
    (handlers : List.Forall₂ (Handler.Alike r C.locals) hs hs') (fault : Option.Rel r a a')
    (finalizer : Option.Rel r b b') :
    Mirrors C Eq (runAttempt run e hs a b) (runAttempt run' e' hs' a' b') := by
  have leave (o o' : Outcome Value) (ended : o.Match Eq o') :
      Mirrors C Eq (Eval.runOptional run b >>= fun _ => o.resume)
        (Eval.runOptional run' b' >>= fun _ => o'.resume) :=
    (same.runOptional finalizer).andThen fun _ => .resume ended
  refine (same.parts body).settle.bind fun o o' ended => ?_
  refine (same.exceptionOf ended).andThen fun caught => ?_
  cases caught with
  | none => exact leave o o' ended
  | some exception =>
      refine (same.runHandlers handlers exception).bind fun told told' answered => ?_
      cases answered with
      | some answered => exact leave _ _ answered
      | none => exact (same.runOptional fault).andThen fun _ => leave o o' ended

/-! ### Nodes -/

theorem runNode (same : C.Evaluates host r run run') (related : r e e')
    (primitive : e.isDerived = false) (fuel : Nat) :
    Mirrors C Eq (runNode host run fuel e) (runNode host run' fuel e') := by
  have alike := same.opens related
  unfold Eval.runNode
  unfold Expr.isDerived Expr.kind at primitive
  generalize e.node = n, e'.node = n' at alike primitive
  cases alike with
  | constant | default => exact .pure rfl
  | parameter reads => exact same.load reads
  | lambda lambda =>
      exact same.newClosure (lambda.type_eq fun _ _ => same.typed) fun _ _ => same.lambdas lambda
  | unary operand => exact same.runUnary operand _ _
  | binary left right => exact same.runBinary left right _ _ _
  | typeTest operand => exact (same.parts operand).andThen fun v => .pure rfl
  | block locals statements => exact same.runBlock locals statements fuel _
  | conditional test ifTrue ifFalse =>
      refine (same.parts test).judge fun holds => ?_
      cases holds with
      | true => exact same.parts ifTrue
      | false =>
          cases ifFalse with
          | none => exact .pure rfl
          | some part => exact same.parts part
  | loop body => exact same.runLoop body _ _ fuel
  | jump value =>
      cases value with
      | none => exact .jump
      | some part => exact (same.parts part).andThen fun v => .jump
  | label fallback =>
      cases fallback with
      | none => exact .pure rfl
      | some part => exact same.parts part
  | switch value cases fallback =>
      exact (same.parts value).andThen fun v => same.runCases v cases fallback
  | attempt body handlers fault finalizer => exact same.runAttempt body handlers fault finalizer
  | create arguments => exact same.runCreate (by cases arguments <;> rfl)
  | newArray items => exact same.runNewArray _ _ items
  | listInit created initializers =>
      refine (same.parts created).andThen fun object => ?_
      exact (same.addAll object initializers).andThen fun _ => .pure rfl
  | memberInit created bindings =>
      refine (same.parts created).andThen fun object => ?_
      exact (same.fillAll object bindings).andThen fun _ => .pure rfl
  | call target arguments => exact same.runCall target _ arguments
  | member target =>
      cases target with
      | none => exact .fail
      | some target => exact (same.parts target).andThen fun v => same.memberGet v _
  | invocation target arguments =>
      refine (same.parts target).andThen fun receiver => ?_
      exact (same.runAll arguments).andThen fun vs => same.callOn receiver _ vs
  | index target arguments =>
      refine (same.parts target).andThen fun receiver => ?_
      exact (same.runAll arguments).andThen fun vs => same.indexGet receiver vs _
  | forLoop | forEach | whileLoop | doWhile | usingBlock => cases primitive

end Correspondence.Evaluates

/-- A derived node is reduced when it runs. -/
theorem Eval.run_of_isDerived {host : Host} {n : Nat} {e : Expr} (derived : e.isDerived = true) :
    run host (n + 1) e = build e.reduce >>= run host n := by
  obtain ⟨id, node⟩ := e
  cases node with
  | forLoop | forEach | whileLoop | doWhile | usingBlock => rfl
  | _ => cases derived

end ExprTree
