import ExprTree.Proofs.Control

/-!
Congruence of evaluation.

The basic operations are steady. So a property that holds of all steady computations and that going
on keeps follows the rules of evaluation, with nothing known of the data, and the rules of control
if it also holds of jumps and of held back ends.
-/

namespace ExprTree.Eval

/-! ### Steady operations -/

theorem Steady.newClosure (l : Lambda) : Steady (newClosure l) :=
  .bind .get fun _ => .newObject _ _

/-- What a lambda leaves undone is a failure, so no jump leaves a call. -/
theorem Confined.invokeWith (run : Expr → Eval Value) (labels : List Label) (l : Lambda)
    (arguments : List Value) : Confined labels (invokeWith run l arguments) := by
  unfold Eval.invokeWith
  split
  · exact (Steady.fail _).confined _
  · exact .bind ((Steady.build _).confined _) fun body => .concluded _ _

/-- A call of a closure is steady, whatever its body does. -/
theorem Steady.applyWith (run : Expr → Eval Value) (l : Lambda) (frame : Frame)
    (arguments : List Value) : Steady (applyWith run l frame arguments) :=
  (Confined.invokeWith run [] l arguments).steady_inFrame frame

/-! ### Compatible properties -/

/-- A property of families of computations that holds of the steady ones that do not vary, and that
going on keeps. -/
structure Compatible {ι : Type} (P : (α : Type) → (ι → Eval α) → Prop) : Prop where
  steady : ∀ {α : Type} {x : Eval α}, Steady x → P α fun _ => x
  bind : ∀ {α β : Type} {x : ι → Eval α} {f : ι → α → Eval β},
    P α x → (∀ a, P β fun i => f i a) → P β fun i => x i >>= f i

namespace Compatible

variable {ι : Type} {P : (α : Type) → (ι → Eval α) → Prop} {run : ι → Expr → Eval Value}
  {α β : Type}

theorem map {x : ι → Eval α} (compatible : Compatible P) (f : α → β) (first : P α x) :
    P β fun i => f <$> x i :=
  compatible.bind first fun a => compatible.steady (.pure (f a))

/-- To go on after a test. -/
theorem judge {x : ι → Eval Value} {f : ι → Bool → Eval β} (compatible : Compatible P)
    (test : P Value x) (rest : ∀ holds, P β fun i => f i holds) :
    P β fun i => x i >>= fun v => liftM (truth v) >>= f i :=
  compatible.bind test fun _ => compatible.bind (compatible.steady (.lift _)) rest

/-- It is enough to go on after the values that there are. -/
theorem bind_of_gives {Q : α → Prop} {x : ι → Eval α} {f : ι → α → Eval β}
    (compatible : Compatible P) (first : P α x) (gives : ∀ i, Gives Q (x i))
    (rest : ∀ a, Q a → P β fun i => f i a) : P β fun i => x i >>= f i := by
  classical
  have same (i : ι) : x i >>= f i = x i >>= fun a => if Q a then f i a else fail .nullReference :=
    (gives i).bind_congr fun a given => (if_pos given).symm
  simp only [same]
  refine compatible.bind first fun a => ?_
  by_cases given : Q a
  · simp only [if_pos given]
    exact rest a given
  · simp only [if_neg given]
    exact compatible.steady (.fail _)

theorem rules (compatible : Compatible P) (host : Host) :
    Rules host .nothing fun α Q (x : ι → Eval α) => P α x ∧ ∀ i, Gives Q (x i) where
  pure := fun given => ⟨compatible.steady (.pure _), fun _ => .pure given⟩
  fail := fun _ => ⟨compatible.steady (.fail _), fun _ _ _ _ ended => nomatch ended⟩
  throwing := fun _ => ⟨compatible.steady (.throwing _), fun _ _ _ _ ended => nomatch ended⟩
  get := ⟨compatible.steady .get, fun _ _ s _ _ => Knowledge.holds_nothing s⟩
  load := fun p => ⟨compatible.steady (.load p), fun _ _ v _ _ => Knowledge.clear_nothing v⟩
  newArray := fun _ _ _ =>
    ⟨compatible.steady (.newArray _ _), fun _ _ v _ _ => Knowledge.clear_nothing v⟩
  newObject := fun _ _ _ =>
    ⟨compatible.steady (.newObject _ _), fun _ _ v _ _ => Knowledge.clear_nothing v⟩
  setCell := fun _ _ _ => ⟨compatible.steady (.setCell _ _), fun _ _ _ _ _ => ⟨⟩⟩
  ask := fun _ _ _ _ =>
    ⟨compatible.steady (.ask _ _ _), fun _ _ v _ _ => Knowledge.clear_nothing v⟩
  bind := fun first rest =>
    ⟨compatible.bind_of_gives first.1 first.2 fun a given => (rest a given).1,
    fun i => (first.2 i).bind fun a given => (rest a given).2 i⟩

theorem controlRules (compatible : Compatible P) (host : Host)
    (jump : ∀ {α : Type} target v, P α fun _ => jump target v)
    (outOfFuel : ∀ {α : Type}, P α fun _ => outOfFuel)
    (settle : ∀ {α : Type} {x : ι → Eval α}, P α x → P (Outcome α) fun i => (x i).settle) :
    ControlRules host .nothing fun α Q (x : ι → Eval α) => P α x ∧ ∀ i, Gives Q (x i) where
  toRules := compatible.rules host
  jump := fun _ => ⟨jump _ _, fun _ _ _ _ ended => nomatch ended⟩
  outOfFuel := ⟨outOfFuel, fun _ _ _ _ ended => nomatch ended⟩
  settle := fun first => ⟨settle first.1, fun i => (first.2 i).ends_settle⟩

/-- There is nothing to know of a value. -/
theorem known {x : ι → Eval Value} (first : P Value x) :
    P Value x ∧ ∀ i, Gives Knowledge.nothing.Clear (x i) :=
  ⟨first, fun _ _ v _ _ => Knowledge.clear_nothing v⟩

theorem runOptional {e : Option Expr} (compatible : Compatible P)
    (parts : ∀ e' ∈ e.toList, P Value fun i => run i e') :
    P Unit fun i => runOptional (run i) e :=
  ((compatible.rules .absent).runOptional fun e' mem => known (parts e' mem)).1

theorem store {host : Host} {target : Expr} (compatible : Compatible P)
    (parts : ∀ e ∈ target.storeParts, P Value fun i => run i e)
    (calls : ∀ l frame arguments, P Value fun i => applyWith (run i) l frame arguments)
    (assigns : ∀ p v, target.node = .parameter p → P Unit fun _ => assign p v) (v : Value) :
    P Unit fun i => store host (run i) target v :=
  ((compatible.rules host).store (fun e mem => known (parts e mem))
    (fun l frame arguments _ _ _ => known (calls l frame arguments))
    (fun p reads => ⟨assigns p v reads, fun _ _ _ _ _ => ⟨⟩⟩) (Knowledge.clear_nothing v)).1

/-- What holds of the evaluation of the parts holds of the evaluation of a node that does no more
than use their values. -/
theorem runNode {host : Host} {e : Expr} (compatible : Compatible P)
    (plain : e.kind.isPlain = true) (parts : ∀ c ∈ e.children, P Value fun i => run i c)
    (calls : ∀ l frame arguments, P Value fun i => applyWith (run i) l frame arguments)
    (stores : ∀ target ∈ e.node.stored, ∀ v, P Unit fun i => Eval.store host (run i) target v)
    (fuel : ι → Nat) : P Value fun i => runNode host (run i) (fuel i) e :=
  ((compatible.rules host).runNode plain (fun v _ _ => Knowledge.clear_nothing v)
    (fun c mem => known (parts c mem))
    (fun l frame arguments _ _ _ => known (calls l frame arguments))
    (fun target mem v _ => ⟨stores target mem v, fun _ _ _ _ _ => ⟨⟩⟩) fuel).1

end Compatible

end ExprTree.Eval
