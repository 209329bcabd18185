import ExprTree.Proofs.AlikeLowering
import ExprTree.Proofs.Renaming

/-!
Binding variables that stand for each other.

A renaming is extended when a variable is bound on one side and another one on the other side, and
is what it was when both are put back (`Renaming.mirrors_extend`). So lambdas whose bodies are alike
once their parameters stand for each other are invoked alike (`Renaming.sameEnd_invoke`), whether
their bodies are primitive or not.
-/

namespace ExprTree

open Eval

/-! ### States that are alike -/

/-- States with heaps and histories that are alike. -/
structure State.Alike (s t : State) : Prop where
  heap : s.heap.Alike t.heap
  history : List.Forall₂ HostCall.Alike s.history t.history

/-- Ends with the same outcome and with states that are alike, or no end on either side. -/
def SameEnd {α : Type} : Option (Outcome α × State) → Option (Outcome α × State) → Prop :=
  Option.Rel fun a b => a.1 = b.1 ∧ a.2.Alike b.2

theorem SameEnd.exists_of_eq_some {α : Type} {o : Outcome α} {s : State}
    {r r' : Option (Outcome α × State)} (same : SameEnd r r') (ended : r = some (o, s)) :
    ∃ t, r' = some (o, t) ∧ s.Alike t := by
  subst ended
  cases same with
  | @some _ b ended =>
      obtain ⟨o', t⟩ := b
      cases ended.1
      exact ⟨t, rfl, ended.2⟩

namespace Renaming

/-- Variables with a property stand for themselves. -/
def fixing (keep : Identity → Prop) : Renaming where
  locals x x' := x = x' ∧ keep x
  inScope _ := False
  unique := ⟨fun _ _ _ first second => first.1.trans second.1.symm,
    fun _ _ _ first second => first.1.symm.trans second.1⟩

theorem frames_fixing (keep : Identity → Prop) (f : Frame) : (fixing keep).Frames f f where
  functions := rfl
  values := fun related => related.1 ▸ rfl
  inScope := fun known => known.elim

theorem local_fixing {keep : Identity → Prop} {p : Parameter} (kept : keep p.id) :
    (fixing keep).Local p p :=
  ⟨⟨rfl, kept⟩, rfl, .inl rfl⟩

end Renaming

theorem Heap.match_of_closures {related : Lambda → Frame → Lambda → Frame → Prop} {h : Heap}
    (each : ∀ r l frame, h.get? r = some (.closure l frame) → related l frame l frame) :
    h.Match related h := by
  intro r
  cases found : h.get? r with
  | none => exact .none
  | some c =>
      refine .some ?_
      cases c with
      | array => exact .array
      | plain => exact .plain
      | external => exact .external
      | closure l frame => exact .closure (each r l frame found)

theorem FollowingClosures.self {pace : Pace} {l : Lambda}
    (body : (Renaming.fixing fun _ => True).Follows pace l.body l.body) (frame : Frame) :
    FollowingClosures pace l frame l frame :=
  ⟨.fixing fun _ => True,
    ⟨rfl, List.forall₂_same.mpr fun _ _ => Renaming.local_fixing ⟨⟩, body, rfl⟩,
    Renaming.frames_fixing _ frame⟩

/-- Closures run like themselves, whether their bodies are primitive or not. -/
theorem Heap.match_self (h : Heap) : h.Match (FollowingClosures .together) h :=
  Heap.match_of_closures fun _ _ frame _ =>
    FollowingClosures.self (.same fun _ => Renaming.local_fixing ⟨⟩) frame

theorem HostCall.alike_self (call : HostCall) : call.Alike call := ⟨rfl, call.heap.match_self.alike⟩

theorem State.alike_self (s : State) : s.Alike s :=
  ⟨s.heap.match_self.alike, List.forall₂_same.mpr fun call _ => call.alike_self⟩

/-- All closures have primitive bodies. -/
def Heap.IsPrimitive (h : Heap) : Prop :=
  ∀ r l frame, h.get? r = some (.closure l frame) → l.body.IsPrimitive

theorem Heap.isPrimitive_iff {h : Heap} {a b : Supply} :
    h.IsPrimitive ↔ h.Match (FollowingClosures (.resting a b)) h := by
  constructor
  · intro primitive
    refine Heap.match_of_closures fun r l frame found => .self (.primitive ?_ ?_) frame
    · exact Expr.alike_self fun _ _ _ _ => Renaming.local_fixing ⟨⟩
    · exact primitive r l frame found
  · intro same r l frame found
    have cell := same r
    rw [found] at cell
    cases cell with
    | some cell =>
        cases cell with
        | closure closures =>
            obtain ⟨σ, alike, -⟩ := closures
            cases alike.body with
            | primitive _ primitive => exact primitive

/-! ### Variables that are bound on both sides -/

namespace Renaming

variable {σ : Renaming} {x x' : Identity} {f f' g g' : Frame} {pace : Pace} {s t : State}

theorem states_fixing (keep : Identity → Prop) (s : State) : (fixing keep).States .together s s :=
  ⟨frames_fixing keep s.frame, s.heap.match_self, s.alike_self.history, rfl⟩

theorem States.alike (same : σ.States pace s t) : s.Alike t := ⟨same.heap.alike, same.history⟩

/-- A variable stands for another one, and neither for anything else. -/
def extend (σ : Renaming) (x x' : Identity) : Renaming where
  locals y y' := (y = x ∧ y' = x') ∨ (y ≠ x ∧ y' ≠ x' ∧ σ.locals y y')
  inScope y := y = x ∨ σ.inScope y
  unique := by
    constructor
    · rintro y z y' (⟨rfl, rfl⟩ | ⟨-, other, first⟩) (⟨rfl, same⟩ | ⟨-, other', second⟩)
      · rfl
      · exact absurd rfl other'
      · exact absurd same other
      · exact σ.unique.1 first second
    · rintro y y' z' (⟨rfl, rfl⟩ | ⟨other, -, first⟩) (⟨same, rfl⟩ | ⟨other', -, second⟩)
      · rfl
      · exact absurd rfl other'
      · exact absurd same other
      · exact σ.unique.2 first second

theorem Frames.enter (frames : σ.Frames f f') (v : Value) :
    (σ.extend x x').Frames { f with scope := f.scope.insert x v }
      { f' with scope := f'.scope.insert x' v } where
  functions := frames.functions
  values := by
    intro y y' related
    rw [Scope.find?_insert, Scope.find?_insert]
    rcases related with ⟨rfl, rfl⟩ | ⟨other, other', related⟩
    · simp
    · rw [if_neg other, if_neg other', frames.values related]
  inScope := by
    intro y known
    rw [Scope.find?_insert]
    split
    · rfl
    · next other => exact frames.inScope (known.resolve_left other)

/-- Variables that stand for each other if for anything are put back to what they were. -/
theorem Frames.leave (apart : ∀ {y y'}, σ.locals y y' → (y = x ↔ y' = x'))
    (frames : σ.Frames f f') (last : (σ.extend x x').Frames g g') :
    σ.Frames { g with scope := g.scope.restore x (f.scope.find? x) }
      { g' with scope := g'.scope.restore x' (f'.scope.find? x') } where
  functions := last.functions
  values := by
    intro y y' related
    rw [Scope.find?_restore, Scope.find?_restore]
    by_cases same : y = x
    · have same' := (apart related).mp same
      subst same same'
      simpa using frames.values related
    · have other' : y' ≠ x' := fun same' => same ((apart related).mpr same')
      rw [if_neg same, if_neg other', last.values (.inr ⟨same, other', related⟩)]
  inScope := by
    intro y known
    rw [Scope.find?_restore]
    split
    · next same => exact frames.inScope (same ▸ known)
    · exact last.inScope (.inr known)

theorem mirrors_extend {α β : Type} {Q : α → β → Prop} {x : Eval α} {y : Eval β} {p q : Parameter}
    (apart : ∀ {y y'}, σ.locals y y' → (y = p.id ↔ y' = q.id)) (v : Value)
    (inner : Mirrors ((σ.extend p.id q.id).correspondence pace) Q x y) :
    Mirrors (σ.correspondence pace) Q (withVariable p v x) (withVariable q v y) := by
  intro s t same
  have ended := inner (setScope s (s.frame.scope.insert p.id v))
    (setScope t (t.frame.scope.insert q.id v)) { same with frames := same.frames.enter v }
  unfold withVariable
  generalize x _ = x', y _ = y' at ended
  cases ended with
  | none => exact .none
  | some ended =>
      refine .some ⟨ended.1, { ended.2 with frames := ?_ }⟩
      exact Frames.leave apart same.frames ended.2.frames

/-- Variables stand for others, one after another. -/
def extendAll (σ : Renaming) : List (Parameter × Parameter) → Renaming
  | [] => σ
  | (p, q) :: rest => (σ.extend p.id q.id).extendAll rest

/-- Pairs of variables that are different from each other, on both sides. -/
def Distinct (pairs : List (Parameter × Parameter)) : Prop :=
  pairs.Pairwise fun b c => b.1.id ≠ c.1.id ∧ b.2.id ≠ c.2.id

theorem mirrors_extendAll {α β : Type} {Q : α → β → Prop} {x : Eval α} {y : Eval β}
    {pairs : List (Parameter × Parameter)} {arguments : List Value} (distinct : Distinct pairs)
    (apart : ∀ b ∈ pairs, ∀ {y y'}, σ.locals y y' → (y = b.1.id ↔ y' = b.2.id))
    (length : pairs.length = arguments.length)
    (inner : Mirrors ((σ.extendAll pairs).correspondence pace) Q x y) :
    Mirrors (σ.correspondence pace) Q (withVariables ((pairs.map Prod.fst).zip arguments) x)
      (withVariables ((pairs.map Prod.snd).zip arguments) y) := by
  induction pairs generalizing σ arguments with
  | nil => exact inner
  | cons first rest ih =>
      obtain ⟨p, q⟩ := first
      obtain ⟨others, distinct⟩ := List.pairwise_cons.mp distinct
      cases arguments with
      | nil => cases length
      | cons v arguments =>
          refine mirrors_extend (apart _ List.mem_cons_self) v ?_
          refine ih distinct (fun b mem => ?_) (Nat.succ.inj length) inner
          rintro y y' (⟨rfl, rfl⟩ | ⟨-, -, related⟩)
          · exact iff_of_false (others b mem).1 (others b mem).2
          · exact apart b (.tail _ mem) related

/-! ### What stands for what -/

theorem extendAll_of_locals {y y' : Identity} {pairs : List (Parameter × Parameter)}
    (related : σ.locals y y') (others : ∀ b ∈ pairs, y ≠ b.1.id ∧ y' ≠ b.2.id) :
    (σ.extendAll pairs).locals y y' := by
  induction pairs generalizing σ with
  | nil => exact related
  | cons first rest ih =>
      obtain ⟨apart, others⟩ := List.forall_mem_cons.mp others
      exact ih (Or.inr ⟨apart.1, apart.2, related⟩) others

theorem extendAll_of_inScope {y : Identity} {pairs : List (Parameter × Parameter)}
    (known : σ.inScope y) : (σ.extendAll pairs).inScope y := by
  induction pairs generalizing σ with
  | nil => exact known
  | cons first rest ih => exact ih (Or.inr known)

theorem extendAll_of_mem {pair : Parameter × Parameter} {pairs : List (Parameter × Parameter)}
    (distinct : Distinct pairs) (mem : pair ∈ pairs) :
    (σ.extendAll pairs).locals pair.1.id pair.2.id ∧ (σ.extendAll pairs).inScope pair.1.id := by
  induction pairs generalizing σ with
  | nil => cases mem
  | cons first rest ih =>
      obtain ⟨p, q⟩ := first
      obtain ⟨others, distinct⟩ := List.pairwise_cons.mp distinct
      rcases List.mem_cons.mp mem with rfl | mem
      · exact ⟨extendAll_of_locals (σ := σ.extend p.id q.id) (.inl ⟨rfl, rfl⟩) others,
          extendAll_of_inScope (σ := σ.extend p.id q.id) (.inl rfl)⟩
      · exact ih distinct mem

/-! ### Invocations -/

/-- To go on with trees that are alike once they are lowered, if lowering succeeds. -/
theorem rel_build {α : Type} {R : Outcome α × State → Outcome α × State → Prop} {k : Supply}
    {e e' : Expr} {x y : Expr → Eval α} (new : Matching k σ.Local) (older : e.Older k)
    (older' : e'.Older k) (alike : e.AlikeBy σ.Local e') (reached : k ≤ s.supply)
    (sameSupply : s.supply = t.supply) (failed : ∀ f, R (.fail f, s) (.fail f, t))
    (rest : ∀ d d' c, e.lower s.supply = .ok (d, c) → d.AlikeBy σ.Local d' →
      Option.Rel R (x d { s with supply := c }) (y d' { t with supply := c })) :
    Option.Rel R ((build e.lower >>= x) s) ((build e'.lower >>= y) t) := by
  have lowered := Expr.inStep_lower new older older' alike s.supply t.supply ⟨sameSupply, reached⟩
  change Option.Rel R (Eval.andThen (build e.lower) x s) (Eval.andThen (build e'.lower) y t)
  unfold Eval.andThen build
  generalize left : e.lower s.supply = r, e'.lower t.supply = r' at lowered
  cases lowered with
  | error => exact .some (failed _)
  | @ok d d' c c' supplies le given =>
      obtain ⟨rfl, -⟩ := supplies
      exact rest d d' c left (given c (Nat.le_refl c)).1

/-- Lambdas are invoked alike if their bodies are alike once their parameters stand for each
other. -/
theorem sameEnd_invoke {host : Host} {l l' : Lambda} {k : Supply} (discreet : host.Discreet)
    (length : l.parameters.length = l'.parameters.length)
    (distinct : Distinct (l.parameters.zip l'.parameters))
    (apart : ∀ b ∈ l.parameters.zip l'.parameters, ∀ {y y'}, σ.locals y y' →
      (y = b.1.id ↔ y' = b.2.id))
    (new : Matching k (σ.extendAll (l.parameters.zip l'.parameters)).Local)
    (older : l.body.Older k) (older' : l'.body.Older k)
    (alike : l.body.AlikeBy (σ.extendAll (l.parameters.zip l'.parameters)).Local l'.body)
    (reached : k ≤ s.supply) (same : σ.States .together s t) (n : Nat) (arguments : List Value) :
    SameEnd (l.invoke host n arguments s) (l'.invoke host n arguments t) := by
  unfold Lambda.invoke invokeWith
  rw [length]
  split
  · exact .some ⟨rfl, same.alike⟩
  · next counted =>
      refine rel_build new older older' alike reached same.supplies
        (fun f => ⟨rfl, same.alike⟩) fun d d' c lowered alike => ?_
      have primitive : d.IsPrimitive :=
        Expr.isPrimitive_of_lower (older.mono reached) lowered
      have given : (l.parameters.zip l'.parameters).length = arguments.length := by
        rw [List.length_zip, length, Nat.min_self]
        exact (not_not.mp counted).symm
      have ran : Mirrors ((σ.extendAll (l.parameters.zip l'.parameters)).correspondence .together)
          Eq (run host n d) (run host n d') :=
        mirrors_run discreet n (.primitive alike primitive)
      have bound := mirrors_extendAll (σ := σ) distinct apart given ran
      rw [List.map_fst_zip (Nat.le_of_eq length), List.map_snd_zip (Nat.le_of_eq length.symm)]
        at bound
      have ended := bound.concluded { s with supply := c } { t with supply := c }
        { same with supplies := rfl }
      exact rel_imp_of_mem ended fun _ _ _ ended => ⟨ended.1.eq, ended.2.alike⟩

end Renaming

/-- Invocations keep a heap primitive, since they lower what they run. -/
theorem Heap.IsPrimitive.of_invoke {host : Host} {l : Lambda} {n : Nat} {arguments : List Value}
    {s s' : State} {o : Outcome Value} (primitive : s.heap.IsPrimitive)
    (older : l.body.Older s.supply) (discreet : host.Discreet)
    (ended : l.invoke host n arguments s = some (o, s')) : s'.heap.IsPrimitive := by
  unfold Lambda.invoke invokeWith at ended
  split at ended
  · cases ended
    exact primitive
  · cases lowered : l.body.lower s.supply with
    | error e =>
        have built : build l.body.lower s = some (.fail (.construction e), s) := by
          rw [build, lowered]
        rw [bind_of_passed built (.fail _)] at ended
        cases ended
        exact primitive
    | ok pair =>
        obtain ⟨d, c⟩ := pair
        have built : build l.body.lower s = some (.value d, { s with supply := c }) := by
          rw [build, lowered]
        rw [bind_of_value built] at ended
        have same (p : Parameter) : (Renaming.fixing fun _ => True).Local p p :=
          Renaming.local_fixing ⟨⟩
        have ran : Mirrors ((Renaming.fixing fun _ => True).correspondence (.resting c c)) Eq
            (run host n d) (run host n d) :=
          Renaming.mirrors_run discreet n (.primitive (Expr.alike_self fun _ _ p _ => same p)
            (Expr.isPrimitive_of_lower older lowered))
        have parameters := List.forall₂_same.mpr fun p (_ : p ∈ l.parameters) => same p
        have twice := ((Renaming.sound discreet).withVariables ran
          (Renaming.forall₂_zip parameters arguments)).concluded { s with supply := c }
          { s with supply := c }
          ⟨Renaming.frames_fixing _ _, Heap.isPrimitive_iff.mp primitive, s.alike_self.history,
            rfl, rfl⟩
        rw [ended] at twice
        cases twice with
        | some twice => exact Heap.isPrimitive_iff.mpr twice.2.heap

end ExprTree
