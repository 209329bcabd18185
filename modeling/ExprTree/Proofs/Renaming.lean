import ExprTree.Proofs.AlikeRuns
import ExprTree.Proofs.Hosts

/-!
Runs that differ in their variables.

A renaming tells which variables of one run stand for which of another one. Two states are the same
under a renaming if variables that stand for each other have the same values, and if heaps and
histories are alike: the same, except that closures may differ in their variables. From states that
are the same under a renaming, primitive trees that are alike under it run alike
(`Renaming.mirrors_run`). Trees that are not primitive draw identities when they run, so they have
to be the same, and so have the supplies.

A host that could look into closures would tell such runs apart, and closures of its own making
could draw identities, so this is about hosts that do neither (`Host.Discreet`).
-/

namespace ExprTree

open Eval

/-- Which variables of one run stand for which of another, each for at most one. Some of them are
known to be in scope wherever they are used. -/
structure Renaming where
  locals : Identity → Identity → Prop
  inScope : Identity → Prop
  unique : Relator.BiUnique locals

namespace Renaming

/-- Variables that stand for each other. A variable that may be missing is called the same. -/
structure Local (σ : Renaming) (p q : Parameter) : Prop where
  locals : σ.locals p.id q.id
  type : p.type = q.type
  called : describe p = describe q ∨ σ.inScope p.id

/-- Frames in which variables that stand for each other have the same values. -/
structure Frames (σ : Renaming) (f f' : Frame) : Prop where
  functions : f.functions = f'.functions
  values : ∀ {x x' : Identity}, σ.locals x x' → f.scope.find? x = f'.scope.find? x'
  inScope : ∀ {x : Identity}, σ.inScope x → (f.scope.find? x).isSome = true

theorem eq_iff (σ : Renaming) {x x' y y' : Identity} (first : σ.locals x x')
    (second : σ.locals y y') : x = y ↔ x' = y' := by
  constructor
  · rintro rfl
    exact σ.unique.2 first second
  · rintro rfl
    exact σ.unique.1 first second

end Renaming

/-! ### Heaps and histories -/

/-- Closures that are the same but for their variables. -/
def AlikeClosures (l : Lambda) (frame : Frame) (l' : Lambda) (frame' : Frame) : Prop :=
  ∃ σ : Renaming, l.Alike (Expr.AlikeBy σ.Local) σ.Local l' ∧ σ.Frames frame frame'

/-- Heaps that are the same but for the variables of closures. -/
def Heap.Alike (h h' : Heap) : Prop := h.Match AlikeClosures h'

/-- Calls of the host that are the same but for the variables of closures. -/
structure HostCall.Alike (c c' : HostCall) : Prop where
  request : c.request = c'.request
  heap : c.heap.Alike c'.heap

/-- Answers that are the same but for the variables of closures. -/
structure Answer.Alike (a a' : Answer) : Prop where
  reply : a.reply = a'.reply
  heap : a.heap.Alike a'.heap

/-- The host does not look into closures: what it answers does not depend on their variables, and it
makes closures of lowered trees only. -/
structure Host.Discreet (host : Host) : Prop where
  answers : ∀ history history' h h' request, List.Forall₂ HostCall.Alike history history' →
    h.Alike h' →
    Option.Rel Answer.Alike (host.answer history h request) (host.answer history' h' request)
  lowered : host.KeepsLowered

theorem Host.discreet_absent : Host.absent.Discreet :=
  ⟨fun _ _ _ _ _ _ _ => .none, keepsHeap_absent.keepsLowered⟩

/-- A host that follows scripts counts requests, and does not look at heaps at all. -/
theorem Host.discreet_scripted (scripts : List Script) : (Host.scripted scripts).Discreet := by
  refine ⟨fun history history' h h' request alike heaps => ?_,
    (keepsHeap_scripted scripts).keepsLowered⟩
  have counted : history.countP (fun call => call.request.subject = request.subject) =
      history'.countP fun call => call.request.subject = request.subject := by
    induction alike with
    | nil => rfl
    | cons first _ ih => simp only [List.countP_cons, ih, first.request]
  simp only [Host.scripted, counted]
  cases Script.find? scripts request.subject with
  | none => exact .none
  | some script => exact .some ⟨rfl, heaps⟩

namespace Heap.Match

variable {related related' : Lambda → Frame → Lambda → Frame → Prop} {h h' : Heap}

theorem imp (same : h.Match related h')
    (weaker : ∀ {l f l' f'}, related l f l' f' → related' l f l' f') : h.Match related' h' := by
  intro r
  refine rel_imp_of_mem (same r) fun c c' _ cell => ?_
  cases cell with
  | array => exact .array
  | plain => exact .plain
  | closure closures => exact .closure (weaker closures)
  | external => exact .external

theorem alloc (same : h.Match related h') {c c' : Cell} (cell : c.Match related c') :
    (h.alloc c).2.Match related (h'.alloc c').2 := by
  intro r
  simp only [Heap.alloc, Heap.get?, Array.getElem?_push, Heap.size_eq_of_cells same]
  split
  · exact .some cell
  · exact same r

theorem set (same : h.Match related h') {c : Cell} (cell : c.Match related c) (r : Ref) :
    (h.set r c).Match related (h'.set r c) := by
  intro r'
  simp only [Heap.set, Heap.get?, Array.getElem?_setIfInBounds, Heap.size_eq_of_cells same]
  split
  · split
    · exact .some cell
    · exact .none
  · exact same r'

end Heap.Match

theorem Cell.Becomes.match_self {related : Lambda → Frame → Lambda → Frame → Prop} {c d : Cell}
    (becomes : c.Becomes d) : d.Match related d := by
  cases becomes with
  | array => exact .array
  | plain => exact .plain

/-! ### What runs alike -/

/-- How the supplies of two runs go on: both draw the same identities, or neither draws any. -/
inductive Pace where
  | together
  | resting (a b : Supply)

/-- The supplies of two states, at a pace. -/
def Pace.Supplies : Pace → Supply → Supply → Prop
  | .together, x, y => x = y
  | .resting a b, x, y => x = a ∧ y = b

/-- Trees that run alike under a renaming: primitive ones that are alike and, if the runs draw the
same identities, any tree and itself. -/
inductive Renaming.Follows (σ : Renaming) : Pace → Expr → Expr → Prop
  | primitive {pace : Pace} {e e' : Expr} (alike : e.AlikeBy σ.Local e')
      (primitive : e.IsPrimitive) : Follows σ pace e e'
  | same {e : Expr} (all : ∀ p, σ.Local p p) : Follows σ .together e e

/-- Closures that run alike. -/
def FollowingClosures (pace : Pace) (l : Lambda) (frame : Frame) (l' : Lambda) (frame' : Frame) :
    Prop :=
  ∃ σ : Renaming, l.Alike (σ.Follows pace) σ.Local l' ∧ σ.Frames frame frame'

theorem Lambda.Alike.imp {r r' : Expr → Expr → Prop} {v : Parameter → Parameter → Prop}
    {l l' : Lambda} (alike : l.Alike r v l') (weaker : r l.body l'.body → r' l.body l'.body) :
    l.Alike r' v l' :=
  { alike with body := weaker alike.body }

namespace Renaming

variable {σ : Renaming} {pace : Pace} {e e' : Expr}

theorem Follows.alike (follows : σ.Follows pace e e') : e.AlikeBy σ.Local e' := by
  cases follows with
  | primitive alike => exact alike
  | same all => exact Expr.alike_self fun _ _ p _ => all p

/-- What runs alike without drawing does so at any pace. -/
theorem Follows.of_resting {a b : Supply} (follows : σ.Follows (.resting a b) e e') :
    σ.Follows pace e e' := by
  cases follows with
  | primitive alike primitive => exact .primitive alike primitive

end Renaming

theorem Heap.Match.alike {pace : Pace} {h h' : Heap}
    (same : h.Match (FollowingClosures pace) h') : h.Alike h' :=
  same.imp fun ⟨σ, alike, frames⟩ => ⟨σ, alike.imp Renaming.Follows.alike, frames⟩

theorem Heap.Match.of_resting {pace : Pace} {a b : Supply} {h h' : Heap}
    (same : h.Match (FollowingClosures (.resting a b)) h') : h.Match (FollowingClosures pace) h' :=
  same.imp fun ⟨σ, alike, frames⟩ => ⟨σ, alike.imp Renaming.Follows.of_resting, frames⟩

/-- Where closures run alike, they still do in heaps that are alike and have no other closures but
lowered ones. -/
theorem Heap.Match.of_keepsLowered {pace : Pace} {h h' g g' : Heap}
    (before : h.Match (FollowingClosures pace) h') (after : g.Alike g')
    (kept : h.KeepsLowered g) (kept' : h'.KeepsLowered g') :
    g.Match (FollowingClosures pace) g' := by
  intro r
  have cell := after r
  generalize left : g.get? r = c, right : g'.get? r = c' at cell
  cases cell with
  | none => exact .none
  | some cell =>
      refine .some ?_
      cases cell with
      | array => exact .array
      | plain => exact .plain
      | external => exact .external
      | @closure l l' frame frame' closures =>
          obtain ⟨σ, alike, frames⟩ := closures
          have of_primitive (primitive : l.body.IsPrimitive) :
              FollowingClosures pace l frame l' frame' :=
            ⟨σ, alike.imp fun body => .primitive body primitive, frames⟩
          refine .closure ?_
          rcases kept r l frame left with found | primitive
          · rcases kept' r l' frame' right with found' | primitive'
            · have cell := before r
              rw [found, found'] at cell
              cases cell with
              | some cell =>
                  cases cell with
                  | closure closures => exact closures
            · exact of_primitive (alike.body.isPrimitive_iff.mpr primitive')
          · exact of_primitive primitive

/-! ### States -/

namespace Renaming

variable {σ τ : Renaming} {f f' : Frame} {pace : Pace} {s t : State} {e e' : Expr}

theorem Frames.insert {x x' : Identity} (frames : σ.Frames f f') (related : σ.locals x x')
    (v : Value) :
    σ.Frames { f with scope := f.scope.insert x v } { f' with scope := f'.scope.insert x' v } where
  functions := frames.functions
  values := by
    intro y y' other
    rw [Scope.find?_insert, Scope.find?_insert, frames.values other]
    simp only [σ.eq_iff other related]
  inScope := by
    intro y known
    rw [Scope.find?_insert]
    split
    · rfl
    · exact frames.inScope known

/-- Variables that stand for each other are put back to what they were. -/
theorem Frames.restore {g g' : Frame} {x x' : Identity} (frames : σ.Frames f f')
    (last : σ.Frames g g') (related : σ.locals x x') :
    σ.Frames { g with scope := g.scope.restore x (f.scope.find? x) }
      { g' with scope := g'.scope.restore x' (f'.scope.find? x') } where
  functions := last.functions
  values := by
    intro y y' other
    rw [Scope.find?_restore, Scope.find?_restore, last.values other, frames.values related]
    simp only [σ.eq_iff other related]
  inScope := by
    intro y known
    rw [Scope.find?_restore]
    split
    · next same => exact frames.inScope (same ▸ known)
    · exact last.inScope known

/-- States that are the same under a renaming, with supplies at a pace. -/
structure States (σ : Renaming) (pace : Pace) (s t : State) : Prop where
  frames : σ.Frames s.frame t.frame
  heap : s.heap.Match (FollowingClosures pace) t.heap
  history : List.Forall₂ HostCall.Alike s.history t.history
  supplies : pace.Supplies s.supply t.supply

/-- What corresponds in two runs that differ in their variables. -/
def correspondence (σ : Renaming) (pace : Pace) : Correspondence where
  locals := σ.Local
  closures := FollowingClosures pace
  states := σ.States pace

theorem Local.describe_eq {p q : Parameter} (related : σ.Local p q) (frames : σ.Frames f f')
    (missing : f'.scope.find? q.id = none) : describe p = describe q := by
  rcases related.called with same | known
  · exact same
  · have found := frames.inScope known
    rw [frames.values related.locals, missing] at found
    cases found

theorem mirrors_load {p q : Parameter} (related : σ.Local p q) :
    Mirrors (σ.correspondence pace) Eq (load p) (load q) := by
  intro s t same
  unfold load
  rw [same.frames.values related.locals]
  cases found : t.frame.scope.find? q.id with
  | some v => exact .some ⟨.value rfl, same⟩
  | none =>
      rw [related.describe_eq same.frames found]
      exact .some ⟨.fail, same⟩

theorem mirrors_assign {p q : Parameter} (related : σ.Local p q) (v : Value) :
    Mirrors (σ.correspondence pace) Eq (assign p v) (assign q v) := by
  intro s t same
  unfold assign
  rw [same.frames.values related.locals]
  cases found : t.frame.scope.find? q.id with
  | some old =>
      refine .some ⟨.value rfl, { same with frames := ?_ }⟩
      exact same.frames.insert related.locals v
  | none =>
      rw [related.describe_eq same.frames found]
      exact .some ⟨.fail, same⟩

theorem mirrors_withVariable {α β : Type} {Q : α → β → Prop} {x : Eval α} {y : Eval β}
    {p q : Parameter} (related : σ.Local p q) (v : Value)
    (inner : Mirrors (σ.correspondence pace) Q x y) :
    Mirrors (σ.correspondence pace) Q (withVariable p v x) (withVariable q v y) := by
  intro s t same
  have ended := inner (setScope s (s.frame.scope.insert p.id v))
    (setScope t (t.frame.scope.insert q.id v))
    { same with frames := same.frames.insert related.locals v }
  unfold withVariable
  generalize x _ = x', y _ = y' at ended
  cases ended with
  | none => exact .none
  | some ended =>
      refine .some ⟨ended.1, { ended.2 with frames := ?_ }⟩
      exact same.frames.restore ended.2.frames related.locals

/-- A discreet host answers alike, and leaves states that are the same. -/
theorem States.asks {host : Host} (same : σ.States pace s t) (discreet : host.Discreet)
    (request : Request) :
    Option.Rel (fun a b => a.reply = b.reply ∧
        σ.States pace (answered request a s) (answered request b t))
      (host.answer s.history s.heap request) (host.answer t.history t.heap request) := by
  have answers := discreet.answers _ _ _ _ request same.history same.heap.alike
  generalize left : host.answer s.history s.heap request = a,
    right : host.answer t.history t.heap request = b at answers
  cases answers with
  | none => exact .none
  | some alike =>
      refine .some ⟨alike.reply, { same with
        heap := ?_
        history := .cons ⟨rfl, same.heap.alike⟩ same.history }⟩
      exact same.heap.of_keepsLowered alike.heap (discreet.lowered _ _ _ _ left)
        (discreet.lowered _ _ _ _ right)

theorem sound {host : Host} (discreet : host.Discreet) :
    (σ.correspondence pace).Sound host where
  typed := fun related => related.type
  load := mirrors_load
  assign := mirrors_assign
  bound := fun related inner => mirrors_withVariable related _ inner
  functions := fun same => same.frames.functions
  cells := fun same => same.heap
  alloc := fun same cell => { same with heap := same.heap.alloc cell }
  write := fun same _ becomes => { same with heap := same.heap.set becomes.match_self _ }
  asks := fun same => same.asks discreet

/-! ### Runs -/

/-- A closure that is called in its frame runs under the renaming that it was found alike with. -/
theorem mirrors_inFrame {x y : Eval Value} (frames : τ.Frames f f')
    (inner : Mirrors (τ.correspondence pace) Eq x y) :
    Mirrors (σ.correspondence pace) Eq (inFrame f x) (inFrame f' y) := by
  intro s t same
  have ended := inner { s with frame := f } { t with frame := f' } { same with frames }
  unfold inFrame
  generalize x _ = x', y _ = y' at ended
  cases ended with
  | none => exact .none
  | some ended => exact .some ⟨ended.1, { ended.2 with frames := same.frames }⟩

/-- Runs that draw the same identities build the same. -/
theorem mirrors_build {α : Type} (x : Build α) :
    Mirrors (σ.correspondence .together) Eq (build x) (build x) := by
  intro s t same
  have drawn : s.supply = t.supply := same.supplies
  unfold build
  rw [drawn]
  cases x t.supply with
  | ok pair => exact .some ⟨.value rfl, { same with supplies := rfl }⟩
  | error e => exact .some ⟨.fail, same⟩

/-- A lambda whose body is primitive is called without drawing identities. -/
theorem invokeWith_of_isPrimitive {l : Lambda} (primitive : l.body.IsPrimitive)
    (run : Expr → Eval Value) (arguments : List Value) :
    invokeWith run l arguments =
      if arguments.length ≠ l.parameters.length then
        fail (.argumentCount l.parameters.length arguments.length)
      else (withVariables (l.parameters.zip arguments) (run l.body)).concluded := by
  unfold invokeWith
  rw [Expr.lower_of_isPrimitive primitive]
  rfl

theorem forall₂_zip {v : Parameter → Parameter → Prop} {ps qs : List Parameter}
    (related : List.Forall₂ v ps qs) (arguments : List Value) :
    List.Forall₂ (fun b b' => v b.1 b'.1 ∧ b.2 = b'.2) (ps.zip arguments) (qs.zip arguments) := by
  induction related generalizing arguments with
  | nil => exact .nil
  | cons first _ ih =>
      cases arguments with
      | nil => exact .nil
      | cons v arguments => exact .cons ⟨first, rfl⟩ (ih arguments)

theorem mirrors_invokeWith {host : Host} {l l' : Lambda} {run : Expr → Eval Value}
    (discreet : host.Discreet) (alike : l.Alike (σ.Follows pace) σ.Local l')
    (bodies : ∀ {e e'}, σ.Follows pace e e' →
      Mirrors (σ.correspondence pace) Eq (run e) (run e'))
    (arguments : List Value) :
    Mirrors (σ.correspondence pace) Eq (invokeWith run l arguments)
      (invokeWith run l' arguments) := by
  have bound := forall₂_zip alike.parameters arguments
  obtain ⟨-, parameters, body, -⟩ := alike
  obtain ⟨name, ps, e, returns⟩ := l
  obtain ⟨name', ps', e', returns'⟩ := l'
  cases body with
  | primitive body primitive =>
      rw [invokeWith_of_isPrimitive primitive,
        invokeWith_of_isPrimitive (body.isPrimitive_iff.mp primitive), parameters.length_eq]
      split
      · exact .fail
      · exact ((sound discreet).withVariables (bodies (.primitive body primitive)) bound).concluded
  | same all =>
      unfold invokeWith
      rw [parameters.length_eq]
      split
      · exact .fail
      · refine (mirrors_build _).andThen fun d => ?_
        exact ((sound discreet).withVariables (bodies (.same all)) bound).concluded

theorem Follows.opens (follows : σ.Follows pace e e') :
    e.node.Alike (σ.Follows pace) σ.Local e'.node := by
  cases follows with
  | primitive alike primitive =>
      exact (Expr.alike_iff.mp alike).imp
        (fun c child c' alike => .primitive alike (primitive.child child)) fun _ _ _ h => h
  | same all => exact Node.alike_of_mem (fun c _ => .same all) fun p _ => all p

/-- Trees that are alike run alike, if they are primitive or the same. -/
theorem mirrors_run {host : Host} (discreet : host.Discreet) (n : Nat)
    (follows : σ.Follows pace e e') :
    Mirrors (σ.correspondence pace) Eq (run host n e) (run host n e') := by
  induction n generalizing σ e e' with
  | zero => exact .outOfFuel
  | succ n ih =>
      have same : (σ.correspondence pace).Evaluates host (σ.Follows pace) (run host n)
          (run host n) := {
        sound discreet with
        opens := Follows.opens
        parts := ih
        calls := fun ⟨_, alike, frames⟩ arguments =>
          mirrors_inFrame frames (mirrors_invokeWith discreet alike ih arguments)
        lambdas := fun alike _ _ states => ⟨σ, alike, states.frames⟩ }
      cases follows with
      | primitive alike primitive =>
          exact same.runNode (.primitive alike primitive) (primitive e e.mem_nodes_self) n
      | same all =>
          cases derived : e.isDerived with
          | false => exact same.runNode (.same all) derived n
          | true =>
              rw [run_of_isDerived derived]
              exact (mirrors_build _).andThen fun d => ih (.same all)

end Renaming

end ExprTree
