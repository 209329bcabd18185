import ExprTree.Proofs.EndlessLoop
import ExprTree.Proofs.ForEachRounds
import ExprTree.Proofs.Nodes

/-!
Leaving a lowered `foreach`.

The enumerator is in a variable, so what the lowered loop asks of it is what the rules ask of the
enumerator (`CallsOn.denote_eq`). When the loop is left, the final block of its guard does what the
rules say (`DisposalShape.leave_iff`), if its own variable is not that of the enumerator.
-/

namespace ExprTree

namespace Lowering

open Eval Direct

variable {host : Host}

/-! ### Parts of a lowered `foreach` -/

theorem callOn_eq_call {m : Method} (other : m.name ≠ "Invoke")
    (apply : Lambda → Frame → List Value → Eval Value) (v : Value) :
    callOn host apply v m [] = ForEach.call host v m := by
  unfold ForEach.call callOn
  split
  · rfl
  · split
    · rfl
    · cases v with
      | object o =>
          unfold objectCall
          refine bind_congr fun s => ?_
          cases s.heap.get? o.ref with
          | none => rfl
          | some cell =>
              cases cell with
              | closure l frame => simp only [if_neg other]
              | _ => rfl
      | _ => rfl

theorem CallsOn.denote_eq {p : Parameter} {m : Method} {e : Expr} (calls : CallsOn p m e)
    (other : m.name ≠ "Invoke") :
    denote host e = load p >>= fun v => ForEach.call host v m := by
  obtain ⟨target, calls, reads⟩ := calls
  rw [denote_of_node host calls rfl]
  simp only [runNode, runCall]
  rw [denote_of_node host reads rfl]
  refine bind_congr fun v => ?_
  exact callOn_eq_call other _ v

theorem Converts.denote_eq {value e : Expr} {type : Ty} (converts : Converts value type e) :
    denote host e = denote host value >>= fun v => liftM (ForEach.cast value.type type v) := by
  unfold Converts at converts
  split at converts
  case isTrue same =>
      rw [converts]
      simp only [ForEach.cast, if_pos same]
      exact (bind_pure_eq _).symm
  case isFalse other =>
      rw [denote_of_node host converts rfl]
      simp only [ForEach.cast, if_neg other]
      rfl

theorem Expr.type_of_member {e target : Expr} {m : Member}
    (reads : e.node = .member (some target) m) : e.type = m.type := by
  obtain ⟨id, node⟩ := e
  cases reads
  rfl

theorem equal_null (v : Value) : v.equal .null = v.isNull := by
  cases v <;> rfl

theorem DisposesUnlessNull.denote_eq {p : Parameter} {e : Expr}
    (disposes : DisposesUnlessNull p e) :
    denote host e = load p >>= fun v =>
      if v.isNull then pure .void else load p >>= fun v => ForEach.call host v .dispose := by
  obtain ⟨test, call, left, right, choice, compares, reads, null, calls⟩ := disposes
  rw [denote_of_node host choice rfl]
  simp only [runNode]
  rw [denote_of_node host compares rfl]
  simp only [runNode, runBinary]
  rw [denote_of_node host reads rfl, denote_of_node host null rfl,
    calls.denote_eq (by decide)]
  simp only [runNode, bind_assoc, pure_bind]
  refine bind_congr fun v => ?_
  have compared : Value.binary .notEqual v .null false = .ok (.boolean !v.isNull) := by
    rw [← equal_null]
    rfl
  rw [compared]
  cases v.isNull <;> rfl

/-! ### Disposal -/

/-- The variable of a final block that has one. -/
def finalVariable? (cleanup : Option Expr) : Option Parameter :=
  match cleanup with
  | some e =>
    match e.node with
    | .block [p] _ _ => some p
    | _ => none
  | none => none

/-- What comes after the loop was left in some way. -/
noncomputable def leave (host : Host) (cleanup : Option Expr) (ended : Outcome Value) :
    Eval Value :=
  match cleanup with
  | some cleanup => do
    let _ ← exceptionOf ended
    let _ ← denote host cleanup
    ended.resume
  | none => ended.resume

theorem settle_bind_resume (x : Eval α) : x.settle >>= Outcome.resume = x := by
  refine (settle_bind_congr fun s o s' _ => ?_).trans ((bind_eq_settle_bind x pure).symm.trans
    (bind_pure_eq x))
  cases o <;> rfl

theorem Guards.denote_eq {cleanup : Option Expr} {looping e : Expr}
    (guards : Guards cleanup looping e) :
    denote host e = (denote host looping).settle >>= leave host cleanup := by
  cases cleanup with
  | none =>
      cases guards
      exact (settle_bind_resume _).symm
  | some cleanup =>
      rw [denote_of_node host guards rfl]
      simp only [runNode, runAttempt]
      refine bind_congr fun ended => ?_
      have ran : (discard (denote host cleanup) >>= fun _ => ended.resume) =
          denote host cleanup >>= fun _ => ended.resume := by
        rw [discard_eq, bind_assoc]
        rfl
      simp only [leave]
      refine bind_congr fun caught => ?_
      cases caught <;> exact ran

theorem bind_finish_iff {x : Eval Value} {ended o : Outcome Value} {s s' : State} :
    (x >>= fun _ => finish ended) s = some (o, s') ↔
      ∃ o', x s = some (o', s') ∧ o = if o'.completes then ended else o' := by
  rw [bind_eq_some]
  constructor
  · rintro (⟨v, m, h, ⟨⟩⟩ | ⟨o', h, passed⟩)
    · exact ⟨_, h, rfl⟩
    · exact ⟨_, h, by rw [if_neg passed.incomplete, passed.eq]⟩
  · rintro ⟨o', h, rfl⟩
    cases o' with
    | value v => exact .inl ⟨v, _, h, rfl⟩
    | jump target v => exact .inr ⟨_, h, .jump target v⟩
    | throw exception => exact .inr ⟨_, h, .throw exception⟩
    | fail f => exact .inr ⟨_, h, .fail f⟩

variable {loop : ForEach} {enumerator : Value} {s s' : State}

theorem castOrNull_disposable (v : Value) :
    v.castOrNull .disposable =
      if Ty.disposable.assignableFrom v.typeOf then v else .null := by
  unfold Value.castOrNull Value.passes
  cases v with
  | null => rfl
  | _ => rfl

/-- The final block of a loop whose enumerator may be disposable. -/
theorem disposal_iff {store check value operand : Expr} {o : Outcome Value}
    (other : loop.enumerator.type.isDisposable = false)
    (reference : loop.enumerator.type.isValueType = false)
    (stores : Stores loop.disposable value store)
    (casts : value.node = .unary .typeAs operand .disposable)
    (reads : operand.node = .parameter loop.enumerator)
    (disposes : DisposesUnlessNull loop.disposable check)
    (held : s.frame.scope.find? loop.enumerator.id = some enumerator)
    (bound : (s.frame.scope.find? loop.disposable.id).isSome = true) :
    (denote host store >>= fun _ => denote host check) s = some (o, s') ↔
      ∃ steps, loop.Disposal host enumerator
        (holding loop.disposable (enumerator.castOrNull .disposable) s) steps o s' := by
  have valued : denote host value =
      load loop.enumerator >>= fun v => pure (v.castOrNull .disposable) := by
    rw [denote_of_node host casts rfl]
    simp only [runNode, runUnary]
    rw [denote_of_node host reads rfl]
    rfl
  have stored : denote host store s = some (.value (enumerator.castOrNull .disposable),
      holding loop.disposable (enumerator.castOrNull .disposable) s) := by
    rw [stores.denote_eq, valued, bind_assoc, bind_of_value (load_of_find? held), pure_bind,
      bind_of_value (assign_of_bound bound _)]
    rfl
  have loaded (v : Value) (s : State) :
      load loop.disposable (holding loop.disposable v s) =
        some (.value v, holding loop.disposable v s) := by
    apply load_of_find?
    rw [ForEach.find?_holding, if_pos rfl]
  have wanted : loop.disposes enumerator = Ty.disposable.assignableFrom enumerator.typeOf := by
    simp [ForEach.disposes, other, reference]
  rw [bind_of_value stored, disposes.denote_eq, bind_of_value (loaded _ _), castOrNull_disposable]
  cases assignable : Ty.disposable.assignableFrom enumerator.typeOf with
  | true =>
      have notNull : enumerator.isNull = false := by
        cases enumerator with
        | null => cases assignable
        | _ => rfl
      simp only [if_true, notNull, Bool.false_eq_true, if_false]
      rw [bind_of_value (loaded _ _)]
      constructor
      · intro ended
        exact ⟨_, .called (wanted.trans assignable) ended⟩
      · rintro ⟨steps, disposal⟩
        cases disposal with
        | called _ disposed => exact disposed
        | spared unwanted => exact absurd (unwanted.symm.trans wanted) (by simp [assignable])
  | false =>
      simp only [Bool.false_eq_true, if_false]
      constructor
      · rintro ⟨⟩
        exact ⟨[], .spared (wanted.trans assignable)⟩
      · rintro ⟨steps, disposal⟩
        cases disposal with
        | called needed _ => exact absurd (needed.symm.trans wanted) (by simp [assignable])
        | spared _ => rfl

/-- What follows once the loop was left in some way is what the rules say. -/
theorem DisposalShape.bind_finish_iff {cleanup : Expr} {ended o : Outcome Value}
    (disposal : DisposalShape loop.enumerator (some cleanup))
    (own : ∀ p ∈ finalVariable? (some cleanup),
      p = loop.disposable ∧ loop.enumerator.id ≠ p.id)
    (held : s.frame.scope.find? loop.enumerator.id = some enumerator) :
    (denote host cleanup >>= fun _ => finish ended) s = some (o, s') ↔
      ∃ steps o', loop.Cleanup host enumerator s steps o' s' ∧
        o = if o'.completes then ended else o' := by
  cases disposal with
  | known _ disposable calls =>
      have wanted : loop.disposes enumerator = true := by simp [ForEach.disposes, disposable]
      rw [Lowering.bind_finish_iff, calls.denote_eq (by decide),
        bind_of_value (load_of_find? held)]
      constructor
      · rintro ⟨o', disposed, rfl⟩
        exact ⟨_, o', .known disposable (.called wanted disposed), rfl⟩
      · rintro ⟨steps, o', cleanup, rfl⟩
        cases cleanup with
        | known _ disposal =>
            cases disposal with
            | called _ disposed => exact ⟨o', disposed, rfl⟩
            | spared unwanted => exact absurd wanted (by simp [unwanted])
        | asked other => exact absurd disposable (by simp [other])
  | asked disposable _ store value operand check other reference block stores casts reads
      disposes =>
      obtain ⟨rfl, apart⟩ := own disposable (by simp [finalVariable?, block])
      have storeFree : store.freeLabels = [] := by
        refine List.eq_nil_iff_forall_not_mem.mpr fun t mem => ?_
        simpa [Expr.freeLabels_of_node casts, Node.freeLabels, Node.children,
          freeLabels_of_reads reads] using stores.mem_freeLabels mem
      have blocked : (denote host cleanup >>= fun _ => finish ended) =
          withVariable loop.disposable (.defaultOf loop.disposable.type)
            (denote host store >>= fun _ => denote host check) >>= fun _ => finish ended := by
        have checked (v : Value) :
            denoteStatements host [store, check] [check] v = denote host check := by
          rw [denoteStatements_cons_of_unplaced host _ _ (by simp [disposes.freeLabels_eq])]
          exact (bind_congr fun v => denoteStatements_nil host _ v).trans (bind_pure_eq _)
        rw [denote_block host block, bind_assoc,
          denoteStatements_cons_of_unplaced host _ _ (by simp [storeFree]), funext checked]
        rfl
      have inner {o : Outcome Value} :
          withVariable loop.disposable (.defaultOf loop.disposable.type)
              (denote host store >>= fun _ => denote host check) s = some (o, s') ↔
            ∃ steps, Held loop.disposable (.defaultOf loop.disposable.type)
              (fun s => loop.Disposal host enumerator
                (holding loop.disposable (enumerator.castOrNull .disposable) s)) s steps o s' := by
        refine withVariable_iff_held
          (disposal_iff other reference stores casts reads disposes ?_ ?_)
        · rwa [ForEach.find?_holding, if_neg apart]
        · rw [ForEach.find?_holding, if_pos rfl]
          rfl
      rw [blocked, Lowering.bind_finish_iff]
      constructor
      · rintro ⟨o', ran, rfl⟩
        obtain ⟨steps, held⟩ := inner.mp ran
        exact ⟨steps, o', .asked other reference held, rfl⟩
      · rintro ⟨steps, o', cleanup, rfl⟩
        cases cleanup with
        | known disposable => exact absurd disposable (by simp [other])
        | asked _ _ held => exact ⟨o', inner.mpr ⟨steps, held⟩, rfl⟩

/-- Leaving the loop, disposal included. -/
theorem DisposalShape.leave_iff {cleanup : Option Expr} {ended o : Outcome Value}
    (disposal : DisposalShape loop.enumerator cleanup)
    (own : ∀ p ∈ finalVariable? cleanup, p = loop.disposable ∧ loop.enumerator.id ≠ p.id)
    (held : s.frame.scope.find? loop.enumerator.id = some enumerator) :
    leave host cleanup ended s = some (o, s') ↔
      ∃ steps, loop.Leaving host enumerator ended s steps o s' := by
  cases cleanup with
  | none =>
      cases disposal with
      | needless other value =>
          constructor
          · rintro ⟨⟩
            exact ⟨[], .needless other value⟩
          · rintro ⟨steps, leaving⟩
            cases leaving with
            | needless => rfl
            | cleaned noted cleanup =>
                cases cleanup with
                | known disposable => exact absurd disposable (by simp [other])
                | asked _ reference => exact absurd value (by simp [reference])
  | some cleanup =>
      constructor
      · intro left
        rcases bind_eq_some.mp left with ⟨caught, m, noted, rest⟩ | ⟨o', noted, passed⟩
        · have held : m.frame.scope.find? loop.enumerator.id = some enumerator := by
            rwa [(Steady.exceptionOf ended _ _ _ noted).1]
          obtain ⟨steps, o', cleanup, rfl⟩ := (disposal.bind_finish_iff own held).mp rest
          exact ⟨steps, .cleaned noted cleanup⟩
        · exact absurd (ForEach.exceptionOf_eq_some noted).1 passed.incomplete
      · rintro ⟨steps, leaving⟩
        cases leaving with
        | needless other value =>
            cases disposal with
            | known _ disposable => exact absurd disposable (by simp [other])
            | asked _ _ _ _ _ _ _ reference => exact absurd value (by simp [reference])
        | cleaned noted cleanup =>
            rw [← (Steady.exceptionOf ended _ _ _ noted).1] at held
            refine bind_eq_some.mpr (.inl ⟨_, _, noted, ?_⟩)
            exact (disposal.bind_finish_iff own held).mpr ⟨steps, _, cleanup, rfl⟩

/-! ### The variable of the final block -/

end Lowering

end ExprTree
