import ExprTree.Proofs.Comparison

/-!
Evaluation with as much fuel as it takes.

More fuel never changes a result (`run_mono`). So an expression has one meaning, `denote`: the
result it has with enough fuel, if there is one. The meaning of a node is made of the meanings of
its parts as its evaluation is made of theirs; only blocks and loops still count their steps, and
their meanings satisfy the equations that one expects of them.
-/

namespace ExprTree.Eval

variable {α β : Type}

/-! ### More fuel -/

theorem extensional_approximates :
    Extensional fun α (x : Bool → Eval α) => Approximates (x false) (x true) where
  const := fun x => .refl x
  bind := fun first rest => first.bind rest
  mapResult := fun before after first => first.mapResult before after

theorem Approximates.runNode {run run' : Expr → Eval Value}
    (parts : ∀ e, Approximates (run e) (run' e)) (host : Host) (fuel : Nat) (e : Expr) :
    Approximates (runNode host run fuel e) (runNode host run' fuel e) :=
  let both : Bool → Expr → Eval Value := fun more => bif more then run' else run
  @Extensional.runNode Bool _ both extensional_approximates host parts fuel e

theorem Approximates.withVariables {x y : Eval α} (bound : List (Parameter × Value))
    (first : Approximates x y) : Approximates (withVariables bound x) (withVariables bound y) :=
  let both : Bool → Eval α := fun more => bif more then y else x
  @Extensional.withVariables Bool _ α both extensional_approximates bound first

theorem Approximates.afterStatement {goOn goOn' : List Expr → Value → Eval Value}
    (rest : ∀ es v, Approximates (goOn es v) (goOn' es v)) (whole es : List Expr)
    (o : Outcome Value) :
    Approximates (afterStatement whole goOn es o) (afterStatement whole goOn' es o) :=
  let both : Bool → List Expr → Value → Eval Value := fun more => bif more then goOn' else goOn
  @Extensional.afterStatement Bool _ both extensional_approximates rest whole es o

theorem Approximates.afterRound {k : Outcome Value → Eval β} {again again' : Eval β}
    (rest : Approximates again again') (breakTo continueTo : Option Label) (o : Outcome Value) :
    Approximates (afterRound breakTo continueTo k again o)
      (afterRound breakTo continueTo k again' o) :=
  let both : Bool → Eval β := fun more => bif more then again' else again
  @Extensional.afterRound β Bool _ k both extensional_approximates rest breakTo continueTo o

theorem runStatements_mono (run : Expr → Eval Value) (whole : List Expr) {n m : Nat} (le : n ≤ m)
    (es : List Expr) (last : Value) :
    Approximates (runStatements run whole n es last) (runStatements run whole m es last) := by
  induction n generalizing m es last with
  | zero =>
      cases es with
      | nil =>
          rw [runStatements_nil, runStatements_nil]
          exact .refl _
      | cons => exact .outOfFuel _
  | succ n ih =>
      obtain ⟨m, rfl⟩ : ∃ m', m = m' + 1 := ⟨m - 1, by omega⟩
      cases es with
      | nil => exact .refl _
      | cons e es =>
          rw [runStatements_cons, runStatements_cons]
          exact .bind (.refl _) fun o => .afterStatement (fun es v => ih (by omega) es v) whole es o

theorem runLoop_mono (run : Expr → Eval Value) (body : Expr) (breakTo continueTo : Option Label)
    {n m : Nat} (le : n ≤ m) :
    Approximates (runLoop run body breakTo continueTo n)
      (runLoop run body breakTo continueTo m) := by
  induction n generalizing m with
  | zero => exact .outOfFuel _
  | succ n ih =>
      obtain ⟨m, rfl⟩ : ∃ m', m = m' + 1 := ⟨m - 1, by omega⟩
      rw [runLoop_succ, runLoop_succ]
      exact .bind (.refl _) fun o => .afterRound (ih (by omega)) breakTo continueTo o

theorem runNode_mono (host : Host) (run : Expr → Eval Value) (e : Expr) {n m : Nat} (le : n ≤ m) :
    Approximates (runNode host run n e) (runNode host run m e) := by
  obtain ⟨id, node⟩ := e
  cases node with
  | block locals statements type =>
      refine .bind (.withVariables _ ?_) fun v => .refl _
      exact runStatements_mono run statements le statements .void
  | loop body breakTo continueTo => exact runLoop_mono run body breakTo continueTo le
  | member target m => cases target <;> exact .refl _
  | _ => exact .refl _

/-- More fuel never changes a result. -/
theorem run_mono (host : Host) {n m : Nat} (le : n ≤ m) (e : Expr) :
    Approximates (run host n e) (run host m e) := by
  induction n generalizing m e with
  | zero => exact .outOfFuel _
  | succ n ih =>
      obtain ⟨m, rfl⟩ : ∃ m', m = m' + 1 := ⟨m - 1, by omega⟩
      have le' : n ≤ m := by omega
      exact (Approximates.runNode (ih le') host n e).trans (runNode_mono host _ e le')

/-! ### Limits -/

/-- With more fuel, more of the computations end. -/
def Rising (x : Nat → Eval α) : Prop := ∀ ⦃n m⦄, n ≤ m → Approximates (x n) (x m)

/-- The computation ends as soon as one of the others does, in the same way. -/
def IsLimit (x : Nat → Eval α) (y : Eval α) : Prop := ∀ s r, y s = some r ↔ ∃ n, x n s = some r

open Classical in
/-- The result that a computation has with enough fuel. -/
noncomputable def limit (x : Nat → Eval α) : Eval α := fun s =>
  if ended : ∃ r n, x n s = some r then some ended.choose else none

theorem Rising.isLimit {x : Nat → Eval α} (rising : Rising x) : IsLimit x (limit x) := by
  intro s r
  unfold limit
  split
  case isTrue ended =>
      obtain ⟨n, chosen⟩ := ended.choose_spec
      constructor
      · rintro ⟨⟩
        exact ⟨n, chosen⟩
      · rintro ⟨m, other⟩
        have first := rising (Nat.le_max_left n m) _ _ chosen
        have second := rising (Nat.le_max_right n m) _ _ other
        exact first.symm.trans second
  case isFalse never =>
      constructor
      · rintro ⟨⟩
      · rintro ⟨n, ended⟩
        exact absurd ⟨r, n, ended⟩ never

theorem IsLimit.unique {x : Nat → Eval α} {y z : Eval α} (first : IsLimit x y)
    (second : IsLimit x z) : y = z := by
  funext s
  exact Option.ext fun r => (first s r).trans (second s r).symm

theorem IsLimit.const (x : Eval α) : IsLimit (fun _ => x) x :=
  fun _ _ => ⟨fun ended => ⟨0, ended⟩, fun ⟨_, ended⟩ => ended⟩

/-- What ends after the limit ends after one of the computations. -/
theorem IsLimit.exists_of_bind {x : Nat → Eval α} {y : Eval α} {k : α → Eval β} {s s' : State}
    {o : Outcome β} (limit : IsLimit x y) (ended : (y >>= k) s = some (o, s')) :
    ∃ n, (x n >>= k) s = some (o, s') := by
  rcases bind_eq_some.mp ended with ⟨a, m, h, h'⟩ | ⟨o', h, passed⟩
  · obtain ⟨n, h⟩ := (limit _ _).mp h
    exact ⟨n, bind_eq_some.mpr (.inl ⟨a, m, h, h'⟩)⟩
  · obtain ⟨n, h⟩ := (limit _ _).mp h
    exact ⟨n, bind_of_passed h passed⟩

/-- What bounds all computations together with what follows bounds the limit. -/
theorem IsLimit.bind_le {x : Nat → Eval α} {y : Eval α} {k : α → Eval β} {z : Eval β}
    (limit : IsLimit x y) (bounds : ∀ n, Approximates (x n >>= k) z) :
    Approximates (y >>= k) z := by
  rintro s ⟨o, s'⟩ ended
  obtain ⟨n, ended⟩ := limit.exists_of_bind ended
  exact bounds n _ _ ended

theorem IsLimit.settle_bind_le {x : Nat → Eval α} {y : Eval α} {k : Outcome α → Eval β}
    {z : Eval β} (limit : IsLimit x y) (bounds : ∀ n, Approximates ((x n).settle >>= k) z) :
    Approximates (y.settle >>= k) z := by
  intro s r ended
  cases h : y s with
  | none =>
      rw [settle_bind_of_none h] at ended
      cases ended
  | some r' =>
      obtain ⟨o, s'⟩ := r'
      obtain ⟨n, h'⟩ := (limit _ _).mp h
      rw [settle_bind_of_some h] at ended
      exact bounds n _ _ ((settle_bind_of_some h').trans ended)

/-- The first computations do not matter. -/
theorem IsLimit.tail {x : Nat → Eval α} {y : Eval α} (rising : Rising x) (limit : IsLimit x y) :
    IsLimit (fun n => x (n + 1)) y := by
  intro s r
  rw [limit s r]
  constructor
  · rintro ⟨n, ended⟩
    exact ⟨n, rising (Nat.le_succ n) _ _ ended⟩
  · rintro ⟨n, ended⟩
    exact ⟨n + 1, ended⟩

/-- The limit of a family with two kinds of fuel is reached with the same amount of both. -/
theorem IsLimit.diagonal {x : Nat → Nat → Eval α} {y : Nat → Eval α} {z : Eval α}
    (rising : ∀ n, Rising fun i => x i n) (limits : ∀ n, IsLimit (fun i => x i n) (y n))
    (steps : ∀ i, Rising (x i)) (outer : IsLimit y z) : IsLimit (fun n => x n n) z := by
  intro s r
  rw [outer s r]
  constructor
  · rintro ⟨n, ended⟩
    obtain ⟨i, ended⟩ := (limits n s r).mp ended
    have raised := rising n (Nat.le_max_left i n) _ _ ended
    exact ⟨max i n, steps _ (Nat.le_max_right i n) _ _ raised⟩
  · rintro ⟨n, ended⟩
    exact ⟨n, (limits n s r).mpr ⟨n, ended⟩⟩

/-- A family of computations together with its limit. -/
def Converges (x : Option Nat → Eval α) : Prop :=
  (Rising fun n => x (some n)) ∧ IsLimit (fun n => x (some n)) (x none)

/-- A family of computations, followed by its limit. -/
def withLimit (x : Nat → Eval α) (y : Eval α) : Option Nat → Eval α
  | some n => x n
  | none => y

theorem converges_withLimit {x : Nat → Eval α} {y : Eval α} (rising : Rising x)
    (limit : IsLimit x y) : Converges (withLimit x y) :=
  ⟨rising, limit⟩

theorem Converges.bind {x : Option Nat → Eval α} {f : Option Nat → α → Eval β}
    (first : Converges x) (rest : ∀ a, Converges fun i => f i a) :
    Converges fun i => x i >>= f i := by
  obtain ⟨rising, limit⟩ := first
  refine ⟨fun n m le => (rising le).bind fun a => (rest a).1 le, ?_⟩
  rintro s ⟨o, s'⟩
  constructor
  · intro ended
    rcases bind_eq_some.mp ended with ⟨a, mid, h, h'⟩ | ⟨o', h, passed⟩
    · obtain ⟨n, h⟩ := (limit _ _).mp h
      obtain ⟨m, h'⟩ := ((rest a).2 _ _).mp h'
      refine ⟨max n m, bind_eq_some.mpr (.inl ⟨a, mid, ?_, ?_⟩)⟩
      · exact rising (Nat.le_max_left n m) _ _ h
      · exact (rest a).1 (Nat.le_max_right n m) _ _ h'
    · obtain ⟨n, h⟩ := (limit _ _).mp h
      exact ⟨n, bind_of_passed h passed⟩
  · rintro ⟨n, ended⟩
    have below : Approximates (x (some n)) (x none) := fun _ _ h => (limit _ _).mpr ⟨n, h⟩
    have below' (a : α) : Approximates (f (some n) a) (f none a) :=
      fun _ _ h => ((rest a).2 _ _).mpr ⟨n, h⟩
    exact below.bind below' _ _ ended

theorem extensional_converges : Extensional fun α (x : Option Nat → Eval α) => Converges x where
  const := fun x => ⟨fun _ _ _ => .refl x, .const x⟩
  bind := Converges.bind
  mapResult := by
    rintro α β x before after ⟨rising, limit⟩
    refine ⟨fun n m le => (rising le).mapResult before after, ?_⟩
    intro s r
    constructor
    · intro ended
      obtain ⟨r', h, made⟩ := Option.map_eq_some_iff.mp ended
      obtain ⟨n, h⟩ := (limit _ _).mp h
      exact ⟨n, Option.map_eq_some_iff.mpr ⟨r', h, made⟩⟩
    · rintro ⟨n, ended⟩
      obtain ⟨r', h, made⟩ := Option.map_eq_some_iff.mp ended
      exact Option.map_eq_some_iff.mpr ⟨r', (limit _ _).mpr ⟨n, h⟩, made⟩

/-! ### Meaning -/

variable (host : Host)

/-- What evaluating an expression comes to, with as much fuel as it takes. -/
noncomputable def denote (e : Expr) : Eval Value := limit fun n => run host n e

theorem rising_run (e : Expr) : Rising fun n => run host n e := fun _ _ le => run_mono host le e

theorem isLimit_run (e : Expr) : IsLimit (fun n => run host n e) (denote host e) :=
  (rising_run host e).isLimit

/-- Evaluation within some fuel, or with as much as it takes. -/
noncomputable def runWithin : Option Nat → Expr → Eval Value
  | some n => run host n
  | none => denote host

theorem converges_runWithin (e : Expr) : Converges fun i => runWithin host i e :=
  ⟨rising_run host e, isLimit_run host e⟩

theorem isLimit_runNode (e : Expr) :
    IsLimit (fun n => runNode host (denote host) n e) (denote host e) := by
  have rising : Rising fun n => runNode host (denote host) n e :=
    fun n m le => runNode_mono host _ e le
  have nodes (n : Nat) : Converges fun i => runNode host (runWithin host i) n e :=
    extensional_converges.runNode host (converges_runWithin host) n e
  have steps (i : Nat) : Rising fun n => runNode host (run host i) n e :=
    fun n m le => runNode_mono host _ e le
  have diagonal :=
    IsLimit.diagonal (fun n => (nodes n).1) (fun n => (nodes n).2) steps rising.isLimit
  have eq : limit (fun n => runNode host (denote host) n e) = denote host e :=
    diagonal.unique ((isLimit_run host e).tail (rising_run host e))
  exact eq ▸ rising.isLimit

/-- All nodes but blocks and loops have meanings made of the meanings of their parts. -/
theorem denote_eq {e : Expr} (noBlock : e.kind ≠ .block) (noLoop : e.kind ≠ .loop) :
    denote host e = runNode host (denote host) 0 e := by
  have limit := isLimit_runNode host e
  have fixed : (fun n => runNode host (denote host) n e) =
      fun _ => runNode host (denote host) 0 e := by
    funext n
    obtain ⟨id, node⟩ := e
    cases node with
    | block => exact absurd rfl noBlock
    | loop => exact absurd rfl noLoop
    | member target m => cases target <;> rfl
    | _ => rfl
  rw [fixed] at limit
  exact limit.unique (.const _)

theorem denote_of_node {e : Expr} {node : Node} (h : e.node = node)
    (other : [Kind.block, .loop].contains node.kind = false) :
    denote host e = runNode host (denote host) 0 ⟨e.id, node⟩ := by
  obtain ⟨id, node'⟩ := e
  cases h
  apply denote_eq host
  · intro block
    simp [show node'.kind = .block from block] at other
  · intro loop
    simp [show node'.kind = .loop from loop] at other

theorem denote_conditional {e test ifTrue ifFalse : Expr} {type : Ty}
    (h : e.node = .conditional test ifTrue (some ifFalse) type) :
    denote host e = denote host test >>= fun v => liftM (truth v) >>= fun holds =>
      if holds then denote host ifTrue else denote host ifFalse :=
  denote_of_node host h rfl

theorem denote_jump {e : Expr} {kind : JumpKind} {target : Label}
    (h : e.node = .jump kind target none) : denote host e = jump target .void :=
  denote_of_node host h rfl

theorem denote_place {e : Expr} {target : Label} (h : e.node = .label target none) :
    denote host e = pure .void :=
  denote_of_node host h rfl

/-! ### Statements -/

/-- What is left of a list of statements, with as much fuel as it takes. -/
noncomputable def denoteStatements (whole es : List Expr) (last : Value) : Eval Value :=
  limit fun n => runStatements (denote host) whole n es last

/-- What is left of a list of statements, in some steps or as many as it takes. -/
noncomputable def statementsWithin (whole : List Expr) :
    Option Nat → List Expr → Value → Eval Value
  | some n => runStatements (denote host) whole n
  | none => denoteStatements host whole

theorem converges_statementsWithin (whole es : List Expr) (last : Value) :
    Converges fun i => statementsWithin host whole i es last := by
  have rising : Rising fun n => runStatements (denote host) whole n es last :=
    fun _ _ le => runStatements_mono _ whole le es last
  exact ⟨rising, rising.isLimit⟩

@[simp]
theorem denoteStatements_nil (whole : List Expr) (last : Value) :
    denoteStatements host whole [] last = pure last := by
  unfold denoteStatements
  simp only [runStatements_nil]
  exact (Rising.isLimit fun _ _ _ => .refl _).unique (.const _)

theorem denoteStatements_cons (whole : List Expr) (e : Expr) (es : List Expr) (last : Value) :
    denoteStatements host whole (e :: es) last =
      (denote host e).settle >>= afterStatement whole (denoteStatements host whole) es := by
  have closed := extensional_converges
  have goesOn : Converges fun i =>
      (denote host e).settle >>= afterStatement whole (statementsWithin host whole i) es :=
    closed.bind (closed.const _) fun o =>
      closed.afterStatement (converges_statementsWithin host whole) whole es o
  obtain ⟨rising, limit⟩ := converges_statementsWithin host whole (e :: es) last
  have shifted := limit.tail rising
  simp only [statementsWithin, runStatements_cons] at shifted
  exact shifted.unique goesOn.2

theorem denote_block {e : Expr} {locals : List Parameter} {statements : List Expr} {type : Ty}
    (block : e.node = .block locals statements type) :
    denote host e = do
      let v ← withVariables (locals.map fun p => (p, .defaultOf p.type))
        (denoteStatements host statements statements .void)
      return if type.isVoid then .void else v := by
  have limit := isLimit_runNode host e
  simp only [runNode, block] at limit
  have within := extensional_converges.withVariables (locals.map fun p => (p, .defaultOf p.type))
    (converges_statementsWithin host statements statements .void)
  have whole := extensional_converges.bind within fun v =>
    extensional_converges.const (pure (if type.isVoid then .void else v))
  exact limit.unique whole.2

/-! ### Loops -/

/-- A loop, with as much fuel as it takes. -/
noncomputable def denoteLoop (body : Expr) (breakTo continueTo : Option Label) : Eval Value :=
  limit fun n => runLoop (denote host) body breakTo continueTo n

theorem isLimit_runLoop (body : Expr) (breakTo continueTo : Option Label) :
    IsLimit (fun n => runLoop (denote host) body breakTo continueTo n)
      (denoteLoop host body breakTo continueTo) :=
  Rising.isLimit fun _ _ le => runLoop_mono _ body breakTo continueTo le

theorem denote_loop {e body : Expr} {breakTo continueTo : Option Label}
    (loop : e.node = .loop body breakTo continueTo) :
    denote host e = denoteLoop host body breakTo continueTo := by
  have limit := isLimit_runNode host e
  simp only [runNode, loop] at limit
  exact limit.unique (isLimit_runLoop host body breakTo continueTo)

end ExprTree.Eval
