import ExprTree.Eval.Basic

/-!
Laws of computations.

A computation that goes on after another one ends as the second does, or as the first one does when
that gives no value. Three notions are used throughout: `Steady` computations leave the frame alone
and do not jump, `Confined` ones jump to known labels only, and `Approximates` orders computations
by how far their fuel lasts.
-/

namespace ExprTree

/-- The same end, other than by a value, of computations of two types. -/
inductive Outcome.Passed {α β : Type} : Outcome α → Outcome β → Prop
  | jump (target : Label) (v : Value) : Passed (.jump target v) (.jump target v)
  | throw (exception : Value) : Passed (.throw exception) (.throw exception)
  | fail (f : Failure) : Passed (.fail f) (.fail f)

theorem Outcome.value_or_passed {α : Type} (β : Type) (o : Outcome α) :
    (∃ a, o = .value a) ∨ ∃ o' : Outcome β, o.Passed o' := by
  cases o with
  | value a => exact .inl ⟨a, rfl⟩
  | jump target v => exact .inr ⟨_, .jump target v⟩
  | throw exception => exact .inr ⟨_, .throw exception⟩
  | fail f => exact .inr ⟨_, .fail f⟩

theorem Outcome.Passed.eq {α : Type} {o o' : Outcome α} (passed : o.Passed o') : o' = o := by
  cases passed <;> rfl

theorem Outcome.Passed.common {α β γ : Type} {o : Outcome α} {o₁ : Outcome β} {o₂ : Outcome γ}
    (first : o.Passed o₁) (second : o.Passed o₂) : o₁.Passed o₂ := by
  cases first <;> cases second <;> constructor

theorem Outcome.Passed.trans {α β γ : Type} {o : Outcome α} {o₁ : Outcome β} {o₂ : Outcome γ}
    (first : o.Passed o₁) (second : o₁.Passed o₂) : o.Passed o₂ := by
  cases first <;> cases second <;> constructor

/-! ### Variables in scope -/

/-- To change what is listed under a key in its place. -/
theorem lookup_replace {α β : Type} [BEq α] [LawfulBEq α] [DecidableEq α] (l : List (α × β))
    (a a' : α) (v : β) : (l.map fun b => if b.1 = a then (a, v) else b).lookup a' =
      if a' = a then (l.lookup a).map fun _ => v else l.lookup a' := by
  induction l with
  | nil => simp
  | cons b l ih => by_cases first : b.1 = a <;> grind

theorem Scope.find?_insert (scope : Scope) (id id' : Identity) (v : Value) :
    (scope.insert id v).find? id' = if id' = id then some v else scope.find? id' := by
  unfold Scope.insert Scope.find?
  split
  case isTrue bound =>
      obtain ⟨old, found⟩ := Option.isSome_iff_exists.mp bound
      rw [lookup_replace, found, Option.map_some]
  case isFalse =>
      rw [List.lookup_cons]
      grind

theorem Scope.find?_erase (scope : Scope) (id id' : Identity) :
    (scope.erase id).find? id' = if id' = id then none else scope.find? id' := by
  unfold Scope.erase Scope.find?
  induction scope with
  | nil => simp
  | cons b scope ih => grind

/-- A variable that is put back is what it was, and the others are left alone. -/
theorem Scope.find?_restore (scope : Scope) (id id' : Identity) (previous : Option Value) :
    (scope.restore id previous).find? id' = if id' = id then previous else scope.find? id' := by
  cases previous with
  | none => exact scope.find?_erase id id'
  | some v => exact scope.find?_insert id id' v

/-! ### Cells of the heap -/

namespace Heap

variable {h : Heap} {r r' : Ref} {c : Cell}

theorem get?_alloc (found : h.get? r = some c) (d : Cell) : (h.alloc d).2.get? r = some c := by
  obtain ⟨lt, -⟩ := Array.getElem?_eq_some_iff.mp found
  simp only [Heap.alloc, Heap.get?, Array.getElem?_push, Nat.ne_of_lt lt, if_false]
  exact found

theorem get?_alloc_new (h : Heap) (c : Cell) :
    h.get? (h.alloc c).1 = none ∧ (h.alloc c).2.get? (h.alloc c).1 = some c := by
  simp [Heap.alloc, Heap.get?]

theorem get?_set (found : h.get? r = some c) (d : Cell) : (h.set r d).get? r = some d := by
  obtain ⟨lt, -⟩ := Array.getElem?_eq_some_iff.mp found
  simp [Heap.set, Heap.get?, lt]

theorem get?_set_of_ne (other : r' ≠ r) (d : Cell) : (h.set r d).get? r' = h.get? r' := by
  simp [Heap.set, Heap.get?, other.symm]

end Heap

namespace Eval

variable {α β : Type} {s s' : State}

/-! ### Going on -/

theorem bind_of_value {x : Eval α} {f : α → Eval β} {a : α} (h : x s = some (.value a, s')) :
    (x >>= f) s = f a s' := by
  change Eval.andThen x f s = _
  simp only [Eval.andThen, h]

theorem bind_of_passed {x : Eval α} {f : α → Eval β} {o : Outcome α} {o' : Outcome β}
    (h : x s = some (o, s')) (passed : o.Passed o') : (x >>= f) s = some (o', s') := by
  change Eval.andThen x f s = _
  cases passed <;> simp only [Eval.andThen, h]

theorem bind_of_none {x : Eval α} {f : α → Eval β} (h : x s = none) : (x >>= f) s = none := by
  change Eval.andThen x f s = _
  simp only [Eval.andThen, h]

/-- How a computation in two parts ends. -/
theorem bind_eq_some {x : Eval α} {f : α → Eval β} {o : Outcome β} :
    (x >>= f) s = some (o, s') ↔
      (∃ a m, x s = some (.value a, m) ∧ f a m = some (o, s')) ∨
        ∃ o', x s = some (o', s') ∧ o'.Passed o := by
  constructor
  · intro ended
    cases h : x s with
    | none =>
        rw [bind_of_none h] at ended
        cases ended
    | some r =>
        obtain ⟨o', m⟩ := r
        rcases o'.value_or_passed β with ⟨a, rfl⟩ | ⟨o'', passed⟩
        · rw [bind_of_value h] at ended
          exact .inl ⟨a, m, rfl, ended⟩
        · rw [bind_of_passed h passed] at ended
          cases ended
          exact .inr ⟨o', rfl, passed⟩
  · rintro (⟨a, m, first, second⟩ | ⟨o', first, passed⟩)
    · rw [bind_of_value first, second]
    · exact bind_of_passed first passed

theorem bind_pure_eq (x : Eval α) : x >>= pure = x := by
  funext s
  cases h : x s with
  | none => exact bind_of_none h
  | some r =>
      obtain ⟨o, m⟩ := r
      rcases o.value_or_passed α with ⟨a, rfl⟩ | ⟨o', passed⟩
      · exact bind_of_value h
      · rw [bind_of_passed h passed, passed.eq]

theorem bind_bind_eq {γ : Type} (x : Eval α) (f : α → Eval β) (g : β → Eval γ) :
    x >>= f >>= g = x >>= fun a => f a >>= g := by
  funext s
  cases h : x s with
  | none => rw [bind_of_none (bind_of_none h), bind_of_none h]
  | some r =>
      obtain ⟨o, m⟩ := r
      rcases o.value_or_passed β with ⟨a, rfl⟩ | ⟨o₁, first⟩
      · rw [bind_of_value h]
        change Eval.andThen (x >>= f) g s = Eval.andThen (f a) g m
        simp only [Eval.andThen, bind_of_value h]
      · rcases o.value_or_passed γ with ⟨a, rfl⟩ | ⟨o₂, second⟩
        · cases first
        · rw [bind_of_passed (bind_of_passed h first) (first.common second),
            bind_of_passed h second]

instance : LawfulMonad Eval :=
  LawfulMonad.mk' Eval bind_pure_eq (fun _ _ => rfl) bind_bind_eq

theorem settle_bind_of_some {x : Eval α} {f : Outcome α → Eval β} {o : Outcome α}
    (h : x s = some (o, s')) : (x.settle >>= f) s = f o s' :=
  bind_of_value (by simp only [settle, h, Option.map_some])

theorem settle_bind_of_none {x : Eval α} {f : Outcome α → Eval β} (h : x s = none) :
    (x.settle >>= f) s = none :=
  bind_of_none (by simp only [settle, h, Option.map_none])

/-- How a computation ends that goes on after every end of another. -/
theorem settle_bind_eq_some {x : Eval α} {f : Outcome α → Eval β} {o : Outcome β} :
    (x.settle >>= f) s = some (o, s') ↔ ∃ o' m, x s = some (o', m) ∧ f o' m = some (o, s') := by
  cases h : x s with
  | none =>
      rw [settle_bind_of_none h]
      constructor
      · rintro ⟨⟩
      · rintro ⟨o', m, ⟨⟩, -⟩
  | some r =>
      rw [settle_bind_of_some h]
      constructor
      · intro ended
        exact ⟨r.1, r.2, rfl, ended⟩
      · rintro ⟨o', m, ⟨⟩, ended⟩
        exact ended

theorem discard_eq (x : Eval α) : discard x = x >>= fun _ => pure () := rfl

/-! ### Going on whatever the end -/

variable {γ : Type}

theorem finish_settle_bind (o : Outcome α) (k : Outcome α → Eval β) :
    (finish o).settle >>= k = k o :=
  rfl

/-- Computations that go on after every end of another agree if they do at the ends it has. -/
theorem settle_bind_congr {x : Eval α} {f g : Outcome α → Eval β}
    (agree : ∀ s o s', x s = some (o, s') → f o = g o) : x.settle >>= f = x.settle >>= g := by
  funext s
  cases h : x s with
  | none => rw [settle_bind_of_none h, settle_bind_of_none h]
  | some r =>
      obtain ⟨o, s'⟩ := r
      rw [settle_bind_of_some h, settle_bind_of_some h, agree _ _ _ h]

theorem settle_bind_settle_bind (x : Eval α) (f : Outcome α → Eval γ) (k : Outcome γ → Eval β) :
    (x.settle >>= f).settle >>= k = x.settle >>= fun o => (f o).settle >>= k := by
  funext s
  cases h : x s with
  | none =>
      rw [settle_bind_of_none h]
      exact settle_bind_of_none (settle_bind_of_none h)
  | some r =>
      obtain ⟨o, s'⟩ := r
      rw [settle_bind_of_some h]
      cases h' : f o s' with
      | none =>
          rw [settle_bind_of_none h']
          exact settle_bind_of_none ((settle_bind_of_some h).trans h')
      | some r' =>
          rw [settle_bind_of_some h']
          exact settle_bind_of_some ((settle_bind_of_some h).trans h')

/-- To go on after a value is to go on after every end, where other ends are passed on. -/
theorem bind_eq_settle_bind (x : Eval α) (f : α → Eval β) :
    x >>= f = x.settle >>= fun
      | .value a => f a
      | .jump target v => jump target v
      | .throw exception => throwing exception
      | .fail failure => fail failure := by
  funext s
  cases h : x s with
  | none => rw [settle_bind_of_none h, bind_of_none h]
  | some r =>
      obtain ⟨o, s'⟩ := r
      rw [settle_bind_of_some h]
      cases o with
      | value a => rw [bind_of_value h]
      | jump target v => exact bind_of_passed h (.jump target v)
      | throw exception => exact bind_of_passed h (.throw exception)
      | fail failure => exact bind_of_passed h (.fail failure)

theorem bind_settle_bind (x : Eval α) (f : α → Eval γ) (k : Outcome γ → Eval β) :
    (x >>= f).settle >>= k = x.settle >>= fun
      | .value a => (f a).settle >>= k
      | .jump target v => k (.jump target v)
      | .throw exception => k (.throw exception)
      | .fail failure => k (.fail failure) := by
  rw [bind_eq_settle_bind x f, settle_bind_settle_bind]
  refine settle_bind_congr fun s o s' _ => ?_
  cases o <;> rfl

/-! ### Values that a computation gives -/

/-- Every value of the computation is of a certain kind. -/
def Gives (post : α → Prop) (x : Eval α) : Prop := ∀ s a s', x s = some (.value a, s') → post a

theorem Gives.pure {post : α → Prop} {a : α} (h : post a) : Gives post (pure a : Eval α) := by
  rintro s a' s' ⟨⟩
  exact h

theorem Gives.bind {pre : α → Prop} {post : β → Prop} {x : Eval α} {f : α → Eval β}
    (first : Gives pre x) (rest : ∀ a, pre a → Gives post (f a)) : Gives post (x >>= f) := by
  intro s b s' ended
  rcases bind_eq_some.mp ended with ⟨a, m, h, h'⟩ | ⟨o, -, passed⟩
  · exact rest a (first _ _ _ h) _ _ _ h'
  · cases passed

theorem Gives.trivial (x : Eval α) : Gives (fun _ => True) x := fun _ _ _ _ => ⟨⟩

theorem Gives.bind_congr {post : α → Prop} {x : Eval α} {f g : α → Eval β} (gives : Gives post x)
    (agree : ∀ a, post a → f a = g a) : x >>= f = x >>= g := by
  funext s
  cases h : x s with
  | none => rw [bind_of_none h, bind_of_none h]
  | some r =>
      obtain ⟨o, s'⟩ := r
      rcases o.value_or_passed β with ⟨a, rfl⟩ | ⟨o', passed⟩
      · rw [bind_of_value h, bind_of_value h, agree a (gives _ _ _ h)]
      · rw [bind_of_passed h passed, bind_of_passed h passed]

theorem Gives.build (b : Build α) : Gives (fun a => ∃ k k', b k = .ok (a, k')) (build b) := by
  intro s a s' ended
  unfold Eval.build at ended
  split at ended
  case h_1 a' k' built =>
      cases ended
      exact ⟨_, k', built⟩
  case h_2 => cases ended

/-! ### Steady computations -/

/-- Whatever happens, the frame is left alone and there is no jump. -/
def Steady (x : Eval α) : Prop :=
  ∀ s o s', x s = some (o, s') → s'.frame = s.frame ∧ ∀ target v, o ≠ .jump target v

theorem Steady.pure (a : α) : Steady (pure a : Eval α) := by
  rintro s o s' ⟨⟩
  exact ⟨rfl, by simp⟩

theorem Steady.fail (f : Failure) : Steady (fail f : Eval α) := by
  rintro s o s' ⟨⟩
  exact ⟨rfl, by simp⟩

theorem Steady.throwing (exception : Value) : Steady (throwing exception : Eval α) := by
  rintro s o s' ⟨⟩
  exact ⟨rfl, by simp⟩

theorem Steady.get : Steady get := by
  rintro s o s' ⟨⟩
  exact ⟨rfl, by simp⟩

theorem Steady.lift (x : Except Failure α) : Steady (liftM x : Eval α) := by
  cases x with
  | ok a => exact .pure a
  | error f => exact .fail f

theorem Steady.newArray (element : Ty) (items : Array Value) : Steady (newArray element items) := by
  rintro s o s' ⟨⟩
  exact ⟨rfl, by simp⟩

theorem Steady.newObject (type : Ty) (c : Cell) : Steady (newObject type c) := by
  rintro s o s' ⟨⟩
  exact ⟨rfl, by simp⟩

theorem Steady.setCell (r : Ref) (c : Cell) : Steady (setCell r c) := by
  rintro s o s' ⟨⟩
  exact ⟨rfl, by simp⟩

theorem Steady.build (b : Build α) : Steady (build b) := by
  intro s o s' ended
  unfold Eval.build at ended
  split at ended <;> cases ended
  · exact ⟨rfl, by simp⟩
  · exact ⟨rfl, by simp⟩

theorem Steady.ask (host : Host) (request : Request) (unanswered : Failure) :
    Steady (ask host request unanswered) := by
  intro s o s' ended
  unfold Eval.ask at ended
  split at ended <;> cases ended
  · rename_i a _
    refine ⟨rfl, fun target v => ?_⟩
    cases a.reply <;> simp [ofReply]
  · exact ⟨rfl, by simp⟩

theorem Steady.load (p : Parameter) : Steady (load p) := by
  intro s o s' ended
  unfold Eval.load at ended
  split at ended <;> cases ended
  · exact ⟨rfl, by simp⟩
  · exact ⟨rfl, by simp⟩

theorem Steady.bind {x : Eval α} {f : α → Eval β} (first : Steady x) (rest : ∀ a, Steady (f a)) :
    Steady (x >>= f) := by
  intro s o s' ended
  rcases bind_eq_some.mp ended with ⟨a, m, h, h'⟩ | ⟨o', h, passed⟩
  · obtain ⟨kept, -⟩ := first _ _ _ h
    obtain ⟨kept', noJump⟩ := rest a _ _ _ h'
    exact ⟨kept'.trans kept, noJump⟩
  · obtain ⟨kept, noJump⟩ := first _ _ _ h
    refine ⟨kept, ?_⟩
    rintro target v rfl
    cases passed
    exact noJump target v rfl

theorem Steady.map {x : Eval α} (f : α → β) (steady : Steady x) : Steady (f <$> x) :=
  steady.bind fun a => .pure (f a)

/-! ### Confined computations -/

/-- The computation jumps to no label but these. -/
def Confined (labels : List Label) (x : Eval α) : Prop :=
  ∀ s target v s', x s = some (.jump target v, s') → target ∈ labels

theorem Steady.confined {x : Eval α} (steady : Steady x) (labels : List Label) :
    Confined labels x := by
  intro s target v s' ended
  exact absurd rfl ((steady _ _ _ ended).2 target v)

theorem Confined.bind {labels : List Label} {x : Eval α} {f : α → Eval β}
    (first : Confined labels x) (rest : ∀ a, Confined labels (f a)) :
    Confined labels (x >>= f) := by
  intro s target v s' ended
  rcases bind_eq_some.mp ended with ⟨a, m, -, h⟩ | ⟨o, h, passed⟩
  · exact rest a _ _ _ _ h
  · cases passed
    exact first _ _ _ _ h

theorem Confined.subset {labels labels' : List Label} {x : Eval α} (confined : Confined labels x)
    (subset : labels ⊆ labels') : Confined labels' x :=
  fun _ _ _ _ ended => subset (confined _ _ _ _ ended)

theorem Confined.settle (labels : List Label) (x : Eval α) : Confined labels x.settle := by
  intro s target v s' ended
  obtain ⟨r, -, made⟩ := Option.map_eq_some_iff.mp ended
  cases made

theorem Confined.concluded (labels : List Label) (x : Eval α) : Confined labels x.concluded := by
  intro s target v s' ended
  obtain ⟨⟨o, m⟩, -, made⟩ := Option.map_eq_some_iff.mp ended
  cases o <;> cases made

theorem Confined.withVariable {labels : List Label} {x : Eval α} (p : Parameter) (v : Value)
    (confined : Confined labels x) : Confined labels (withVariable p v x) := by
  intro s target v s' ended
  obtain ⟨⟨o, m⟩, h, made⟩ := Option.map_eq_some_iff.mp ended
  cases made
  exact confined _ _ _ _ h

theorem Confined.withVariables {labels : List Label} {x : Eval α}
    (bound : List (Parameter × Value)) (confined : Confined labels x) :
    Confined labels (withVariables bound x) := by
  induction bound with
  | nil => exact confined
  | cons b rest ih => exact ih.withVariable b.1 b.2

/-- In another frame, only a jump can be seen from outside. -/
theorem Confined.steady_inFrame {x : Eval α} (confined : Confined [] x) (frame : Frame) :
    Steady (inFrame frame x) := by
  intro s o s' ended
  obtain ⟨⟨o', m⟩, h, made⟩ := Option.map_eq_some_iff.mp ended
  cases made
  refine ⟨rfl, ?_⟩
  rintro target v rfl
  exact absurd (confined _ _ _ _ h) List.not_mem_nil

/-! ### Variables -/

/-- What a computation with a variable in scope leaves of the scope outside. -/
theorem find?_of_withVariable {p : Parameter} {v : Value} {x : Eval α} {o : Outcome α}
    (ended : withVariable p v x s = some (o, s')) :
    s'.frame.scope.find? p.id = s.frame.scope.find? p.id := by
  obtain ⟨⟨o', m⟩, -, made⟩ := Option.map_eq_some_iff.mp ended
  cases made
  exact (Scope.find?_restore _ _ _ _).trans (if_pos rfl)

theorem withVariable_bind_pure (p : Parameter) (v : Value) (x : Eval α) (f : α → β) :
    (withVariable p v x >>= fun a => pure (f a)) =
      withVariable p v (x >>= fun a => pure (f a)) := by
  funext s
  -- Both sides run `x` from here.
  cases h : x (setScope s (s.frame.scope.insert p.id v)) with
  | none =>
      have ended : withVariable p v x s = none := by simp only [withVariable, h, Option.map_none]
      rw [bind_of_none ended]
      simp only [withVariable, bind_of_none h, Option.map_none]
  | some r =>
      obtain ⟨o, m⟩ := r
      have ended : withVariable p v x s =
          some (o, setScope m (m.frame.scope.restore p.id (s.frame.scope.find? p.id))) := by
        simp only [withVariable, h, Option.map_some]
      rcases o.value_or_passed β with ⟨a, rfl⟩ | ⟨o', passed⟩
      · rw [bind_of_value ended]
        simp only [withVariable, bind_of_value h]
        rfl
      · rw [bind_of_passed ended passed]
        simp only [withVariable, bind_of_passed h passed, Option.map_some]

/-! ### Approximation -/

/-- Where the first computation ends, the second ends in the same way. -/
def Approximates (x y : Eval α) : Prop := ∀ s r, x s = some r → y s = some r

theorem Approximates.refl (x : Eval α) : Approximates x x := fun _ _ ended => ended

theorem Approximates.trans {x y z : Eval α} (first : Approximates x y)
    (second : Approximates y z) : Approximates x z :=
  fun s r ended => second s r (first s r ended)

theorem Approximates.antisymm {x y : Eval α} (first : Approximates x y)
    (second : Approximates y x) : x = y := by
  funext s
  exact Option.ext fun r => ⟨first s r, second s r⟩

theorem Approximates.outOfFuel (x : Eval α) : Approximates outOfFuel x := by
  rintro s r ⟨⟩

theorem Approximates.bind {x y : Eval α} {f g : α → Eval β} (first : Approximates x y)
    (rest : ∀ a, Approximates (f a) (g a)) : Approximates (x >>= f) (y >>= g) := by
  rintro s ⟨o, s'⟩ ended
  rcases bind_eq_some.mp ended with ⟨a, m, h, h'⟩ | ⟨o', h, passed⟩
  · exact bind_eq_some.mpr (.inl ⟨a, m, first _ _ h, rest a _ _ h'⟩)
  · exact bind_eq_some.mpr (.inr ⟨o', first _ _ h, passed⟩)

/-- To change the result of a run afterwards keeps the order. -/
theorem Approximates.mapResult {x y : Eval α} (first : Approximates x y) (before : State → State)
    (after : State → Outcome α × State → Outcome β × State) :
    Approximates (fun s => (x (before s)).map (after s))
      (fun s => (y (before s)).map (after s)) := by
  intro s r ended
  obtain ⟨r', h, rfl⟩ := Option.map_eq_some_iff.mp ended
  exact Option.map_eq_some_iff.mpr ⟨r', first _ _ h, rfl⟩

end Eval

end ExprTree
