import ExprTree.Proofs.Alike
import ExprTree.Proofs.Control

/-!
Runs that mirror each other.

Two runs of trees that are alike go the same way, step by step, if their states correspond: they ask
the host for the same, allocate the same, and end with the same values. What it means that states
correspond is left open. A correspondence is sound if basic operations keep it
(`Correspondence.Sound`), and then evaluation of alike nodes keeps it too
(`Correspondence.Evaluates.runNode`).
-/

namespace ExprTree

/-! ### Results that match -/

/-- Outcomes that match: the same, but for values. -/
inductive Outcome.Match {α β : Type} (Q : α → β → Prop) : Outcome α → Outcome β → Prop
  | value {a : α} {b : β} (given : Q a b) : Match Q (.value a) (.value b)
  | jump {l : Label} {v : Value} : Match Q (.jump l v) (.jump l v)
  | throw {exception : Value} : Match Q (.throw exception) (.throw exception)
  | fail {f : Failure} : Match Q (.fail f) (.fail f)

theorem Outcome.Match.eq {α : Type} {o o' : Outcome α} (same : o.Match Eq o') : o = o' := by
  cases same with
  | value same => rw [same]
  | _ => rfl

/-- Cells that match: the same, but for closures that correspond. -/
inductive Cell.Match (c : Lambda → Frame → Lambda → Frame → Prop) : Cell → Cell → Prop
  | array {items : Array Value} : Match c (.array items) (.array items)
  | plain {i : Instance} : Match c (.plain i) (.plain i)
  | closure {l l' : Lambda} {frame frame' : Frame} (same : c l frame l' frame') :
      Match c (.closure l frame) (.closure l' frame')
  | external : Match c .external .external

/-- Heaps that match: the same, but for closures that correspond. -/
def Heap.Match (c : Lambda → Frame → Lambda → Frame → Prop) (h h' : Heap) : Prop :=
  ∀ r, Option.Rel (Cell.Match c) (h.get? r) (h'.get? r)

/-- What may take the place of a cell: an array keeps its length, and an object remains one. -/
inductive Cell.Becomes : Cell → Cell → Prop
  | array {items items' : Array Value} (size : items'.size = items.size) :
      Becomes (.array items) (.array items')
  | plain {i i' : Instance} : Becomes (.plain i) (.plain i')

/-- What corresponds in two runs. -/
structure Correspondence where
  locals : Parameter → Parameter → Prop
  closures : Lambda → Frame → Lambda → Frame → Prop
  states : State → State → Prop

open Eval

variable {α β γ δ : Type}

/-- Two runs end alike: neither of them at all, or both with outcomes that match and with states
that correspond. -/
def Correspondence.Ends (C : Correspondence) (Q : α → β → Prop) :
    Option (Outcome α × State) → Option (Outcome β × State) → Prop :=
  Option.Rel fun a b => a.1.Match Q b.1 ∧ C.states a.2 b.2

/-- To go on after computations that end alike, to where less may be known of the states. -/
theorem Correspondence.Ends.bind {C C' : Correspondence} {Q : α → β → Prop} {Q' : γ → δ → Prop}
    {x : Eval α} {y : Eval β} {f : α → Eval γ} {g : β → Eval δ} {s t : State}
    (first : C.Ends Q (x s) (y t))
    (rest : ∀ a b, Q a b → ∀ s t, C.states s t → C'.Ends Q' (f a s) (g b t))
    (weaker : ∀ {s t}, C.states s t → C'.states s t) : C'.Ends Q' ((x >>= f) s) ((y >>= g) t) := by
  generalize left : x s = a, right : y t = b at first
  cases first with
  | none =>
      rw [bind_of_none left, bind_of_none right]
      exact .none
  | @some a b h =>
      obtain ⟨o, s'⟩ := a
      obtain ⟨o', t'⟩ := b
      obtain ⟨matches', same⟩ := h
      cases matches' with
      | value given =>
          rw [bind_of_value left, bind_of_value right]
          exact rest _ _ given s' t' same
      | jump =>
          rw [bind_of_passed left (.jump _ _), bind_of_passed right (.jump _ _)]
          exact .some ⟨.jump, weaker same⟩
      | throw =>
          rw [bind_of_passed left (.throw _), bind_of_passed right (.throw _)]
          exact .some ⟨.throw, weaker same⟩
      | fail =>
          rw [bind_of_passed left (.fail _), bind_of_passed right (.fail _)]
          exact .some ⟨.fail, weaker same⟩

namespace Eval

/-- From states that correspond the computations go the same way, to values that are related. -/
def Mirrors (C : Correspondence) (Q : α → β → Prop) (x : Eval α) (y : Eval β) : Prop :=
  ∀ s t, C.states s t → C.Ends Q (x s) (y t)

namespace Mirrors

variable {C : Correspondence} {Q : α → β → Prop} {Q' : γ → δ → Prop} {x : Eval α} {y : Eval β}

theorem pure {a : α} {b : β} (given : Q a b) : Mirrors C Q (pure a) (pure b) :=
  fun _ _ same => .some ⟨.value given, same⟩

theorem fail {f : Failure} : Mirrors C Q (fail f) (fail f) := fun _ _ same => .some ⟨.fail, same⟩

theorem throwing {exception : Value} : Mirrors C Q (throwing exception) (throwing exception) :=
  fun _ _ same => .some ⟨.throw, same⟩

theorem jump {l : Label} {v : Value} : Mirrors C Q (jump l v) (jump l v) :=
  fun _ _ same => .some ⟨.jump, same⟩

theorem outOfFuel : Mirrors C Q outOfFuel outOfFuel := fun _ _ _ => .none

theorem bind {f : α → Eval γ} {g : β → Eval δ} (first : Mirrors C Q x y)
    (rest : ∀ a b, Q a b → Mirrors C Q' (f a) (g b)) : Mirrors C Q' (x >>= f) (y >>= g) :=
  fun s t same => (first s t same).bind (fun a b given s' t' => rest a b given s' t') id

/-- To go on after a value that is the same. -/
theorem andThen {x y : Eval α} {f : α → Eval γ} {g : α → Eval δ} (first : Mirrors C Eq x y)
    (rest : ∀ a, Mirrors C Q' (f a) (g a)) : Mirrors C Q' (x >>= f) (y >>= g) :=
  first.bind fun a _ same => same ▸ rest a

theorem lift (x : Except Failure α) : Mirrors C Eq (liftM x : Eval α) (liftM x) := by
  cases x with
  | ok a => exact .pure rfl
  | error f => exact .fail

theorem discard {x y : Eval α} (first : Mirrors C Eq x y) :
    Mirrors C Eq (Functor.discard x) (Functor.discard y) :=
  first.andThen fun _ => .pure rfl

/-- To go on after a test. -/
theorem judge {x y : Eval Value} {f : Bool → Eval γ} {g : Bool → Eval δ} (test : Mirrors C Eq x y)
    (rest : ∀ holds, Mirrors C Q' (f holds) (g holds)) :
    Mirrors C Q' (x >>= fun v => liftM (truth v) >>= f) (y >>= fun v => liftM (truth v) >>= g) :=
  test.andThen fun v => (lift (truth v)).andThen rest

theorem settle (first : Mirrors C Q x y) :
    Mirrors C (Outcome.Match Q) x.settle y.settle := by
  intro s t same
  have ended := first s t same
  unfold Eval.settle
  generalize x s = a, y t = b at ended
  cases ended with
  | none => exact .none
  | some h => exact .some ⟨.value h.1, h.2⟩

theorem resume {o : Outcome α} {o' : Outcome β} (given : o.Match Q o') :
    Mirrors C Q o.resume o'.resume :=
  fun _ _ same => .some ⟨given, same⟩

theorem concluded (first : Mirrors C Q x y) : Mirrors C Q x.concluded y.concluded := by
  intro s t same
  have ended := first s t same
  unfold Eval.concluded
  generalize x s = a, y t = b at ended
  cases ended with
  | none => exact .none
  | @some a b ended =>
      refine .some ⟨?_, ended.2⟩
      obtain ⟨o, m⟩ := a
      obtain ⟨o', m'⟩ := b
      cases ended.1 with
      | value given => exact .value given
      | jump | throw | fail => exact .fail

end Mirrors

end Eval

/-! ### Sound correspondences -/

open Eval

theorem Eval.get_bind {α : Type} (f : State → Eval α) (s : State) : (get >>= f) s = f s s := rfl

theorem Heap.get?_of_elements {h : Heap} {r : Ref} (nonempty : 0 < (h.elements r).size) :
    h.get? r = some (.array (h.elements r)) := by
  unfold Heap.elements at nonempty ⊢
  split at nonempty
  · assumption
  · simp at nonempty

theorem Heap.size_eq_of_cells {h h' : Heap} {related : Cell → Cell → Prop}
    (cells : ∀ r, Option.Rel related (h.get? r) (h'.get? r)) : h.cells.size = h'.cells.size := by
  have unused (r : Ref) : h.cells.size ≤ r ↔ h'.cells.size ≤ r := by
    have cell := cells r
    simp only [← Array.getElem?_eq_none_iff]
    simp only [Heap.get?] at cell
    generalize h.cells[r]? = a, h'.cells[r]? = b at cell
    cases cell <;> simp
  exact Nat.le_antisymm ((unused _).mpr (Nat.le_refl _)) ((unused _).mp (Nat.le_refl _))

theorem Heap.Match.elements_eq {c : Lambda → Frame → Lambda → Frame → Prop} {h h' : Heap}
    (same : h.Match c h') (r : Ref) : h.elements r = h'.elements r := by
  have cell := same r
  unfold Heap.elements
  generalize h.get? r = a, h'.get? r = b at cell
  cases cell with
  | none => rfl
  | some cell => cases cell <;> rfl

theorem Eval.lt_of_position {n i : Nat} {index : Value} (placed : position n index = .ok i) :
    i < n := by
  unfold position at placed
  split at placed
  · cases placed
  · split at placed
    · next inside =>
        cases placed
        omega
    · cases placed

/-- Basic operations keep the correspondence. -/
structure Correspondence.Sound (C : Correspondence) (host : Host) : Prop where
  typed : ∀ {p q : Parameter}, C.locals p q → p.type = q.type
  load : ∀ {p q : Parameter}, C.locals p q → Mirrors C Eq (load p) (load q)
  assign : ∀ {p q : Parameter}, C.locals p q → ∀ v, Mirrors C Eq (assign p v) (assign q v)
  bound : ∀ {p q : Parameter} {v : Value} {α β : Type} {Q : α → β → Prop} {x : Eval α}
    {y : Eval β}, C.locals p q → Mirrors C Q x y →
      Mirrors C Q (withVariable p v x) (withVariable q v y)
  functions : ∀ {s t : State}, C.states s t → s.frame.functions = t.frame.functions
  cells : ∀ {s t : State}, C.states s t → s.heap.Match C.closures t.heap
  alloc : ∀ {s t : State} {c c' : Cell}, C.states s t → Cell.Match C.closures c c' →
    C.states { s with heap := (s.heap.alloc c).2 } { t with heap := (t.heap.alloc c').2 }
  write : ∀ {s t : State} {r : Ref} {c d : Cell}, C.states s t → s.heap.get? r = some c →
    c.Becomes d → C.states { s with heap := s.heap.set r d } { t with heap := t.heap.set r d }
  asks : ∀ {s t : State}, C.states s t → ∀ request,
    Option.Rel
      (fun a b => a.reply = b.reply ∧ C.states (answered request a s) (answered request b t))
      (host.answer s.history s.heap request) (host.answer t.history t.heap request)

namespace Correspondence

namespace Sound

variable {C : Correspondence} {host : Host} {s t : State}

theorem size_eq (sound : C.Sound host) (same : C.states s t) :
    s.heap.cells.size = t.heap.cells.size :=
  Heap.size_eq_of_cells (sound.cells same)

theorem elements_eq (sound : C.Sound host) (same : C.states s t) (r : Ref) :
    s.heap.elements r = t.heap.elements r :=
  (sound.cells same).elements_eq r

theorem newArray (sound : C.Sound host) (element : Ty) (items : Array Value) :
    Mirrors C Eq (newArray element items) (newArray element items) := by
  intro s t same
  refine .some ⟨.value ?_, sound.alloc same .array⟩
  simp only [sound.size_eq same]

theorem newInstance (sound : C.Sound host) (type : Ty) :
    Mirrors C Eq (newInstance type) (newInstance type) := by
  intro s t same
  refine .some ⟨.value ?_, sound.alloc same .plain⟩
  simp only [sound.size_eq same]

theorem newClosure {l l' : Lambda} (sound : C.Sound host) (typed : l.type = l'.type)
    (made : ∀ s t, C.states s t → C.closures l s.frame l' t.frame) :
    Mirrors C Eq (newClosure l) (newClosure l') := by
  intro s t same
  refine .some ⟨.value ?_, sound.alloc same (.closure (made s t same))⟩
  simp only [sound.size_eq same, typed]

theorem ask (sound : C.Sound host) (request : Request) (unanswered : Failure) :
    Mirrors C Eq (ask host request unanswered) (ask host request unanswered) := by
  intro s t same
  have answers := sound.asks same request
  unfold Eval.ask
  generalize host.answer s.history s.heap request = left, host.answer t.history t.heap request =
    right at answers
  cases answers with
  | none => exact .some ⟨.fail, same⟩
  | @some a b answers =>
      obtain ⟨reply, states⟩ := answers
      refine .some ⟨?_, states⟩
      rw [reply]
      cases b.reply with
      | value v => exact .value rfl
      | throw v => exact .throw
      | fail f => exact .fail

theorem withVariables {α β : Type} {Q : α → β → Prop} {x : Eval α} {y : Eval β}
    {bound bound' : List (Parameter × Value)} (sound : C.Sound host)
    (inner : Mirrors C Q x y)
    (related : List.Forall₂ (fun b b' => C.locals b.1 b'.1 ∧ b.2 = b'.2) bound bound') :
    Mirrors C Q (withVariables bound x) (withVariables bound' y) := by
  induction related with
  | nil => exact inner
  | @cons b b' _ _ first _ ih =>
      obtain ⟨p, v⟩ := b
      obtain ⟨p', v'⟩ := b'
      obtain ⟨locals, rfl⟩ := first
      exact sound.bound locals ih

/-! ### Arrays and objects -/

theorem arrayGet (sound : C.Sound host) (array index : Value) :
    Mirrors C Eq (arrayGet array index) (arrayGet array index) := by
  cases array with
  | array r element =>
      intro s t same
      show C.Ends Eq ((liftM (elementAt (s.heap.elements r) index) : Eval Value) s)
        ((liftM (elementAt (t.heap.elements r) index) : Eval Value) t)
      rw [sound.elements_eq same]
      exact Mirrors.lift _ s t same
  | _ => exact .fail

theorem arraySet (sound : C.Sound host) (array index v : Value) :
    Mirrors C Eq (arraySet array index v) (arraySet array index v) := by
  cases array with
  | array r element =>
      intro s t same
      show C.Ends Eq
        ((liftM (position (s.heap.elements r).size index) >>= fun i =>
          setCell r (.array ((s.heap.elements r).setIfInBounds i v))) s)
        ((liftM (position (t.heap.elements r).size index) >>= fun i =>
          setCell r (.array ((t.heap.elements r).setIfInBounds i v))) t)
      rw [← sound.elements_eq same]
      cases placed : position (s.heap.elements r).size index with
      | error f => exact .some ⟨.fail, same⟩
      | ok i =>
          -- There is an element, so there is an array.
          have array := Heap.get?_of_elements (Nat.zero_lt_of_lt (lt_of_position placed))
          exact .some ⟨.value rfl, sound.write same array (.array (by simp))⟩
  | _ => exact .fail

/-- The value is the same in both runs, and the cell is still there. -/
def Gives (C : Correspondence) (r : Ref) (c : Cell) (x : Eval Value) : Prop :=
  ∀ s t, C.states s t → s.heap.get? r = some c → ∃ v s' t',
    x s = some (.value v, s') ∧ x t = some (.value v, t') ∧ C.states s' t' ∧
      s'.heap.get? r = some c

theorem Gives.pure {r : Ref} {c : Cell} (v : Value) : Gives C r c (Pure.pure v) :=
  fun s t same found => ⟨v, s, t, rfl, rfl, same, found⟩

theorem gives_newArray (sound : C.Sound host) {r : Ref} {c : Cell} (element : Ty)
    (items : Array Value) : Gives C r c (Eval.newArray element items) := by
  intro s t same found
  refine ⟨_, _, _, rfl, ?_, sound.alloc same .array, Heap.get?_alloc found _⟩
  simp only [Eval.newArray, Heap.newArray, Heap.alloc, sound.size_eq same]

theorem gives_newInstance (sound : C.Sound host) {r : Ref} {c : Cell} (type : Ty) :
    Gives C r c (Eval.newInstance type) := by
  intro s t same found
  refine ⟨_, _, _, rfl, ?_, sound.alloc same .plain, Heap.get?_alloc found _⟩
  simp only [Eval.newInstance, newObject, Heap.newObject, Heap.alloc, sound.size_eq same]

theorem gives_unwritten (sound : C.Sound host) {r : Ref} {c : Cell} (type : Ty) :
    Gives C r c (unwritten type) := by
  unfold unwritten
  split
  · split
    · exact .pure _
    · exact sound.gives_newInstance _
  · exact .pure _

/-- To write a cell that was read before. -/
theorem write_after {r : Ref} {c : Cell} {d : Value → Cell} {x : Eval Value}
    (sound : C.Sound host) (given : Gives C r c x) (becomes : ∀ v, c.Becomes (d v))
    (result : Value → Value) (same : C.states s t) (found : s.heap.get? r = some c) :
    C.Ends Eq ((x >>= fun v => setCell r (d v) >>= fun _ => pure (result v)) s)
      ((x >>= fun v => setCell r (d v) >>= fun _ => pure (result v)) t) := by
  obtain ⟨v, s', t', left, right, same', found'⟩ := given s t same found
  rw [bind_of_value left, bind_of_value right]
  exact .some ⟨.value rfl, sound.write same' found' (becomes v)⟩

theorem readField (sound : C.Sound host) (same : C.states s t) {o : ObjectRef} {i : Instance}
    (found : s.heap.get? o.ref = some (.plain i)) (m : Member) :
    C.Ends Eq (readField o i m s) (readField o i m t) := by
  unfold Eval.readField
  cases i.field? m.name with
  | some v => exact Mirrors.pure rfl s t same
  | none =>
      dsimp only
      split
      · exact Mirrors.lift _ s t same
      · exact sound.write_after (sound.gives_unwritten m.type) (fun _ => .plain) (fun v => v) same
          found

theorem callPlain (sound : C.Sound host) (same : C.states s t) {o : ObjectRef} {i : Instance}
    (found : s.heap.get? o.ref = some (.plain i)) (m : Method) (arguments : List Value) :
    C.Ends Eq (callPlain o i m arguments s) (callPlain o i m arguments t) := by
  generalize called : Eval.callPlain o i m arguments = x
  unfold Eval.callPlain at called
  split at called <;> subst called
  · exact .some ⟨.value rfl, sound.write same found .plain⟩
  · exact sound.write_after (sound.gives_newArray _ _) (fun _ => .plain) (fun _ => .void) same found
  · exact Mirrors.lift _ s t same
  · exact Mirrors.fail s t same

theorem objectGet (sound : C.Sound host) (o : ObjectRef) (m : Member) :
    Mirrors C Eq (objectGet host o m) (objectGet host o m) := by
  intro s t same
  have cell := sound.cells same o.ref
  simp only [Eval.objectGet, get_bind]
  generalize found : s.heap.get? o.ref = c, t.heap.get? o.ref = d at cell
  cases cell with
  | none => exact Mirrors.fail s t same
  | some cell =>
      cases cell with
      | array | closure => exact Mirrors.fail s t same
      | plain => exact sound.readField same found m
      | external => exact sound.ask _ _ s t same

theorem objectSet (sound : C.Sound host) (o : ObjectRef) (m : Member) (v : Value) :
    Mirrors C Eq (objectSet host o m v) (objectSet host o m v) := by
  intro s t same
  have cell := sound.cells same o.ref
  simp only [Eval.objectSet, get_bind]
  generalize found : s.heap.get? o.ref = c, t.heap.get? o.ref = d at cell
  cases cell with
  | none => exact Mirrors.fail s t same
  | some cell =>
      cases cell with
      | array | closure => exact Mirrors.fail s t same
      | plain => exact .some ⟨.value rfl, sound.write same found .plain⟩
      | external => exact (sound.ask _ _).discard s t same

theorem memberGet (sound : C.Sound host) (target : Value) (m : Member) :
    Mirrors C Eq (memberGet host target m) (memberGet host target m) := by
  cases target with
  | object o => exact sound.objectGet o m
  | array r element =>
      unfold Eval.memberGet
      dsimp only
      split
      · intro s t same
        show C.Ends Eq ((liftM (count (s.heap.elements r).size) : Eval Value) s)
          ((liftM (count (t.heap.elements r).size) : Eval Value) t)
        rw [sound.elements_eq same]
        exact Mirrors.lift _ s t same
      · exact .fail
  | string text =>
      unfold Eval.memberGet
      dsimp only
      split
      · exact .lift _
      · exact .fail
  | _ => exact .fail

theorem memberSet (sound : C.Sound host) (target : Value) (m : Member) (v : Value) :
    Mirrors C Eq (memberSet host target m v) (memberSet host target m v) := by
  cases target with
  | object o => exact sound.objectSet o m v
  | _ => exact .fail

theorem callStatic (sound : C.Sound host) (m : Method) (arguments : List Value) :
    Mirrors C Eq (callStatic host m arguments) (callStatic host m arguments) := by
  intro s t same
  simp only [Eval.callStatic, get_bind, sound.functions same]
  cases t.frame.functions.lookup (m.declaring.text ++ "." ++ m.name) with
  | some handle => exact sound.ask _ _ s t same
  | none =>
      refine (?_ : Mirrors C Eq _ _) s t same
      dsimp only
      split
      · split
        · exact .lift _
        · exact .fail
      · exact .fail

theorem runCreate (sound : C.Sound host) {type : Ty} {es es' : List Expr}
    (length : es.isEmpty = es'.isEmpty) :
    Mirrors C Eq (runCreate type es) (runCreate type es') := by
  unfold Eval.runCreate
  rw [length]
  split
  · exact .fail
  · split
    · exact .pure rfl
    · exact sound.newInstance type

end Sound

end Correspondence

end ExprTree
