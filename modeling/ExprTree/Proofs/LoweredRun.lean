import ExprTree.Proofs.Agreement
import ExprTree.Proofs.Hosts

/-!
Evaluation of lowered trees.

Calls and evaluations lower a tree before they run it, and closures are made of lowered trees. So
nothing of what a run evaluates is derived: whatever evaluation did with derived nodes
(`Eval.runOr`), it would end alike.

Closures that a run finds in the heap must be lowered when they are called, so their bodies must be
older than the supply, or have been lowered before (`State.Lowerable`). Every run leaves the heap
so, with a host that makes closures of lowered trees only.
-/

namespace ExprTree

/-- Every closure there is has a body that lowering makes primitive. -/
def State.Lowerable (s : State) : Prop :=
  ∀ r l frame, s.heap.get? r = some (.closure l frame) →
    l.body.IsPrimitive ∨ l.body.Older s.supply

/-- All that is known is that closures have bodies that lowering makes primitive, with a supply that
has reached the given identity. -/
def Knowledge.lowerable (k : Supply) : Knowledge where
  allows := fun _ => True
  callable := fun l => l.body.IsPrimitive ∨ l.body.Older k
  unused := k
  expects := fun _ => True
  other := fun _ => ⟨⟩

namespace Knowledge

variable {k : Supply}

theorem clear_lowerable (v : Value) : (lowerable k).Clear v := fun _ _ => ⟨⟩

theorem keeps_lowerable_iff {h : Heap} :
    (lowerable k).Keeps h ↔ ∀ r l frame, h.get? r = some (.closure l frame) →
      l.body.IsPrimitive ∨ l.body.Older k := by
  constructor
  · intro keeps r l frame found
    exact (keeps.cells r _ ⟨⟩ found).1
  · intro closures
    refine ⟨fun _ _ => ⟨⟩, fun r c _ found => ?_⟩
    cases c with
    | array items => exact fun v _ => clear_lowerable v
    | plain i => exact ⟨fun f _ => clear_lowerable f.2, fun v _ => clear_lowerable v⟩
    | closure l frame => exact ⟨closures r l frame found, fun b _ => clear_lowerable b.2⟩
    | external => exact ⟨⟩

theorem trusts_lowerable {host : Host} (lowered : host.KeepsLowered) :
    (lowerable k).Trusts host := by
  intro history h request a keeps _ answered
  constructor
  · cases a.reply with
    | value v => exact clear_lowerable v
    | throw exception => exact clear_lowerable exception
    | fail f => exact ⟨⟩
  · refine keeps_lowerable_iff.mpr fun r l frame found => ?_
    rcases lowered history h request a answered r l frame found with before | primitive
    · exact keeps_lowerable_iff.mp keeps r l frame before
    · exact .inl primitive

theorem holds_lowerable {s : State} (closures : s.Lowerable) : (lowerable s.supply).Holds s :=
  ⟨keeps_lowerable_iff.mpr closures, Nat.le_refl _, fun b _ => clear_lowerable b.2⟩

theorem Holds.lowerable {s : State} (holds : (lowerable k).Holds s) : s.Lowerable := by
  intro r l frame found
  exact (keeps_lowerable_iff.mp holds.toKeeps r l frame found).imp_right fun older =>
    older.mono holds.supply

end Knowledge

/-- What lowering makes primitive is lowered to a primitive tree. -/
theorem Expr.yields_of_lowerable {e : Expr} {k : Supply} (lowerable : e.IsPrimitive ∨ e.Older k) :
    Build.Yields k Expr.IsPrimitive e.lower := by
  rcases lowerable with primitive | older
  · rw [Expr.lower_of_isPrimitive primitive]
    exact .pure primitive
  · exact Expr.yields_isPrimitive older

namespace Eval

/-- Evaluation that does something else with derived nodes. -/
def runOr (derived : Nat → Expr → Eval Value) (host : Host) : Nat → Expr → Eval Value
  | 0, _ => outOfFuel
  | fuel + 1, e =>
    if e.isDerived then derived fuel e else runNode host (runOr derived host fuel) fuel e

/-- Evaluate a tree after it is lowered. -/
def evaluateWith (run : Expr → Eval Value) (e : Expr) : Eval Value := do
  let lowered ← build e.lower
  (run lowered).concluded

/-- Evaluation reduces derived nodes. -/
theorem runOr_reduce (host : Host) :
    runOr (fun fuel e => do run host fuel (← build e.reduce)) host = run host := by
  funext fuel
  induction fuel with
  | zero => rfl
  | succ fuel ih =>
      funext e
      simp only [runOr, ih]
      obtain ⟨id, node⟩ := e
      cases node <;> rfl

variable {host : Host} {k : Supply}

theorem agree_invokeWith {run : (Nat → Expr → Eval Value) → Expr → Eval Value} {l : Lambda}
    (parts : ∀ e : Expr, e.IsPrimitive →
      Agree (.lowerable k) (Knowledge.lowerable k).Clear fun derived => run derived e)
    (lowerable : (Knowledge.lowerable k).callable l) (arguments : List Value) :
    Agree (.lowerable k) (Knowledge.lowerable k).Clear fun derived =>
      invokeWith (run derived) l arguments :=
  .invokeWith (Expr.yields_of_lowerable lowerable) parts (.inl fun _ => ⟨⟩) fun v _ =>
    Knowledge.clear_lowerable v

/-- On primitive trees evaluation does not depend on what it does with derived nodes. -/
theorem agree_runOr (lowered : host.KeepsLowered) (fuel : Nat) {e : Expr}
    (primitive : e.IsPrimitive) :
    Agree (.lowerable k) (Knowledge.lowerable k).Clear fun derived =>
      runOr derived host fuel e := by
  induction fuel generalizing e with
  | zero => exact (Agree.controlRules (Knowledge.trusts_lowerable lowered)).outOfFuel
  | succ fuel ih =>
      have plain : e.isDerived = false := (Expr.all_iff.mp primitive).1
      simp only [runOr, plain, if_neg Bool.false_ne_true]
      refine Agree.runNode (Knowledge.trusts_lowerable lowered) ?_ ?_ ?_ (fun _ => ih) primitive
        plain fuel
      · intro d v _ _ _
        exact Knowledge.clear_lowerable v
      · intro d l all lambda
        refine .inl (Expr.IsPrimitive.child all ?_)
        rw [Expr.children, lambda]
        exact List.mem_cons_self
      · intro l frame arguments lowerable clear _
        exact (agree_invokeWith (fun _ => ih) lowerable arguments).inFrame clear

theorem agree_evaluateWith (lowered : host.KeepsLowered) (fuel : Nat) {e : Expr}
    (older : e.Older k) :
    Agree (.lowerable k) (Knowledge.lowerable k).Clear fun derived =>
      evaluateWith (runOr derived host fuel) e :=
  (Agree.build (Expr.yields_isPrimitive older)).bind fun _ primitive =>
    (agree_runOr lowered fuel primitive).concluded (.inl fun _ => ⟨⟩)

/-- Computations that agree, whatever is done with derived nodes, are the one that reduces them, and
they leave closures that lowering makes primitive. -/
theorem Agree.eq_reducing {x : (Nat → Expr → Eval Value) → Eval Value} {s : State}
    (agree : Agree (.lowerable s.supply) (Knowledge.lowerable s.supply).Clear x)
    (closures : s.Lowerable) (derived reducing : Nat → Expr → Eval Value) :
    x derived s = x reducing s ∧ ∀ o s', x reducing s = some (o, s') → s'.Lowerable := by
  have holds := Knowledge.holds_lowerable closures
  refine ⟨agree.same s holds derived reducing, fun o s' ended => ?_⟩
  exact (agree.known s holds reducing o s' ended).1.lowerable

/-- Lowering leaves primitive nodes only, and shares the rest. A tree whose nodes are older than the
supply is lowered to one without derived nodes; subtrees without derived nodes are subtrees of the
lowered tree, and lowered by themselves they come back as they are, like the lowered tree. So it
makes no difference to any call or evaluation what is done with derived nodes, also in the closures
that are called on the way or later. -/
theorem lowering_leaves_primitive_nodes :
    (∀ (e e' : Expr) (k k' : Supply), e.Older k → e.lower k = .ok (e', k') →
      e'.IsPrimitive ∧ (∀ m, e'.lower m = .ok (e', m)) ∧
      ∀ c ∈ e.nodes, c.IsPrimitive → c ∈ e'.nodes ∧ ∀ m, c.lower m = .ok (c, m)) ∧
    ∀ (derived : Nat → Expr → Eval Value) (host : Host), host.KeepsLowered →
      ∀ (fuel : Nat) (s : State), s.Lowerable →
      (∀ e : Expr, e.Older s.supply →
        evaluateWith (runOr derived host fuel) e s = e.evaluate host fuel s ∧
        ∀ o s', e.evaluate host fuel s = some (o, s') → s'.Lowerable) ∧
      ∀ (l : Lambda) (arguments : List Value), l.body.Older s.supply →
        invokeWith (runOr derived host fuel) l arguments s = l.invoke host fuel arguments s ∧
        ∀ o s', l.invoke host fuel arguments s = some (o, s') → s'.Lowerable := by
  constructor
  · intro e e' k k' older ok
    have primitive := Expr.isPrimitive_of_lower older ok
    refine ⟨primitive, fun m => ?_, fun c mem primitiveChild => ⟨?_, fun m => ?_⟩⟩
    · rw [Expr.lower_of_isPrimitive primitive]
      rfl
    · exact Expr.mem_nodes_of_lowersTo ⟨k, k', ok⟩ mem primitiveChild
    · rw [Expr.lower_of_isPrimitive primitiveChild]
      rfl
  · intro derived host lowered fuel s closures
    constructor
    · intro e older
      have agree := agree_evaluateWith lowered fuel older
      have same := agree.eq_reducing closures derived fun n e => do run host n (← build e.reduce)
      rwa [runOr_reduce] at same
    · intro l arguments older
      have agree := agree_invokeWith (fun _ => agree_runOr lowered fuel) (.inr older) arguments
      have same := agree.eq_reducing closures derived fun n e => do run host n (← build e.reduce)
      rwa [runOr_reduce] at same

/-! ### A loop in a closure

`(x => { do 1; while (false); x; })(3)`: only the loop is derived. -/

namespace LoopInClosure

def x : Parameter := ⟨0, some "x", .int32⟩

def doLoop : Expr :=
  ⟨3, .doWhile ⟨1, .constant (.int32 1) .int32⟩ ⟨2, .constant (.boolean false) .boolean⟩ none none⟩

def body : Expr := ⟨5, .block [] [doLoop, ⟨4, .parameter x⟩] .int32⟩

def three : Expr := ⟨7, .constant (.int32 3) .int32⟩

def call : Expr := ⟨8, .invocation ⟨6, .lambda ⟨none, [x], body, .int32⟩⟩ [three] .int32⟩

theorem evaluated_without_derived_nodes :
    ¬ call.IsPrimitive ∧
    (∃ e' k', call.lower 9 = .ok (e', k') ∧ e'.IsPrimitive ∧ three ∈ e'.nodes) ∧
    ∃ s', evaluateWith (runOr (fun _ _ => outOfFuel) .absent 12) call { supply := 9 } =
      some (.value (.int32 3), s') ∧ s'.Lowerable := by
  have older : call.Older 9 := by decide
  have lowering := lowering_leaves_primitive_nodes
  refine ⟨by decide, ⟨_, _, rfl, ?_⟩, ?_⟩
  · have lowered := lowering.1 call _ 9 _ older rfl
    refine ⟨lowered.1, (lowered.2.2 three ?_ (by decide)).1⟩
    exact Expr.nodes_subset_of_child (.tail _ List.mem_cons_self) three.mem_nodes_self
  · have closures : State.Lowerable { supply := 9 } := by
      intro r l frame found
      simp [Heap.get?] at found
    have lowered := Host.keepsHeap_absent.keepsLowered
    have same := (lowering.2 (fun _ _ => outOfFuel) .absent lowered 12 _ closures).1 call older
    rw [same.1]
    exact ⟨_, rfl, same.2 _ _ rfl⟩

end LoopInClosure

end Eval

end ExprTree
