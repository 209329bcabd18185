import ExprTree.Eval.Object
import ExprTree.Proofs.Computation
import ExprTree.Proofs.Integers
import Mathlib.Data.List.Forall2

/-!
Plain objects remember what is done with them.

An object that the host knows nothing about is read, written and called. `Change` says what one
operation makes of it and how it is answered. From that, after any operations, the fields and items
of the object are those that the operations so far tell (`Remembers`), and every further operation
is answered from them alone (`Faithful`).
-/

namespace ExprTree

/-! ### Fields and items -/

namespace Instance

variable (i : Instance) (name : String) (v : Value)

theorem field?_setField (name' : String) :
    (i.setField name v).field? name' = if name' = name then some v else i.field? name' := by
  unfold setField field?
  split
  case isTrue held =>
      obtain ⟨old, found⟩ := Option.isSome_iff_exists.mp held
      rw [lookup_replace, found, Option.map_some]
  case isFalse =>
      rw [List.lookup_cons]
      grind

theorem items_setField : (i.setField name v).items = i.items := by
  unfold setField
  split <;> rfl

theorem field?_addItem : (i.addItem v).field? name = i.field? name := rfl

theorem toList_items_addItem : (i.addItem v).items.toList = i.items.toList ++ [v] :=
  Array.toList_push

end Instance

namespace Eval

/-! ### Operations -/

/-- What is done with an object. -/
inductive Operation where
  | read (m : Member)
  | write (m : Member) (v : Value)
  | call (m : Method) (arguments : List Value)

/-- An operation and how it ended. -/
abbrev Exchange := Operation × Outcome Value

section

variable (host : Host) (apply : Lambda → Frame → List Value → Eval Value) (o : ObjectRef)

def Operation.perform : Operation → Eval Value
  | .read m => objectGet host o m
  | .write m v => do
    objectSet host o m v
    return .void
  | .call m arguments => objectCall host apply o m arguments

def exchange (op : Operation) : Eval Exchange := do
  return (op, ← (op.perform host apply o).settle)

/-- Operations in turn, each whatever came of those before it. -/
def performAll (ops : List Operation) : Eval (List Exchange) := ops.mapM (exchange host apply o)

end

/-! ### What a record tells -/

def writtenTo? (name : String) : Operation → Option Value
  | .write m v => if m.name = name then some v else none
  | _ => none

def added? : Operation → Option (List Value)
  | .call m arguments => if m.name = "Add" then some arguments else none
  | _ => none

def readFrom? (name : String) : Exchange → Option Value
  | (.read m, .value v) => if m.name = name then some v else none
  | _ => none

/-- The value of the last write to the name. -/
def lastWrite? (ops : List Operation) (name : String) : Option Value :=
  ops.reverse.findSome? (writtenTo? name)

/-- The arguments of every call of `Add`. -/
def additions (ops : List Operation) : List (List Value) := ops.filterMap added?

/-- What the first read of the name gave. -/
def firstRead? (record : List Exchange) (name : String) : Option Value :=
  record.findSome? (readFrom? name)

/-- What a member of the name holds: the last value written to it, or the one that it was first
found to have. A `Count` that is only read is no member. -/
def remembered? (record : List Exchange) (name : String) : Option Value :=
  (lastWrite? (record.map Prod.fst) name).or
    (if name = "Count" then none else firstRead? record name)

theorem lastWrite?_append (ops more : List Operation) (name : String) :
    lastWrite? (ops ++ more) name = (lastWrite? more name).or (lastWrite? ops name) := by
  simp [lastWrite?, List.findSome?_append]

theorem additions_append (ops more : List Operation) :
    additions (ops ++ more) = additions ops ++ additions more :=
  List.filterMap_append

section

variable (record later : List Exchange) (name : String)

theorem firstRead?_append :
    firstRead? (record ++ later) name = (firstRead? record name).or (firstRead? later name) := by
  simp [firstRead?, List.findSome?_append]

theorem remembered?_snoc (op : Operation) (answer : Outcome Value) :
    remembered? (record ++ [(op, answer)]) name = (writtenTo? name op).or
      ((remembered? record name).or
        (if name = "Count" then none else readFrom? name (op, answer))) := by
  have wrote : lastWrite? [op] name = writtenTo? name op := by
    simp [lastWrite?]
  have read : firstRead? [(op, answer)] name = readFrom? name (op, answer) := by
    simp [firstRead?]
  unfold remembered?
  rw [List.map_append, lastWrite?_append, firstRead?_append, List.map_singleton, wrote, read]
  split <;> simp only [Option.or_assoc, Option.or_none]

/-- Once a member holds something, only a write to it changes that. -/
theorem remembered?_append (unwritten : lastWrite? (later.map Prod.fst) name = none)
    (settled : name = "Count" ∨ remembered? record name ≠ none) :
    remembered? (record ++ later) name = remembered? record name := by
  unfold remembered? at *
  rw [List.map_append, lastWrite?_append, firstRead?_append, unwritten, Option.none_or]
  by_cases named : name = "Count"
  · rw [if_pos named, if_pos named]
  · simp only [named, if_false, false_or] at settled ⊢
    cases last : lastWrite? (record.map Prod.fst) name with
    | some v => rfl
    | none =>
        cases first : firstRead? record name with
        | some v => rfl
        | none => simp [last, first] at settled

end

/-! ### One operation -/

/-- The cells of the first heap are those of the second, but for one. -/
def KeepsCellsBut (r : Ref) (h h' : Heap) : Prop :=
  ∀ r' c, r' ≠ r → h.get? r' = some c → h'.get? r' = some c

/-- What a member of the type is found to have when it is first read: a new object for a class or
interface, and the default of any other type. -/
inductive IsUnwritten (h h' : Heap) (type : Ty) : Value → Prop
  | object {r : Ref} (declared : type.declaration?.isSome = true)
      (reference : type.isValueType = false) (unused : h.get? r = none)
      (placed : h'.get? r = some (.plain {})) : IsUnwritten h h' type (.object ⟨r, type⟩)
  | default (other : type.declaration? = none ∨ type.isValueType = true) :
      IsUnwritten h h' type (.defaultOf type)

/-- What is kept of the arguments of `Add`: a single one as it is, and otherwise an array. -/
inductive IsEntry (h : Heap) : List Value → Value → Prop
  | single (item : Value) : IsEntry h [item] item
  | several {arguments : List Value} {r : Ref} (several : ∀ item, arguments ≠ [item])
      (placed : h.get? r = some (.array arguments.toArray)) :
      IsEntry h arguments (.array r .object)

/-- How a computation ends that may fail. -/
def ended : Except Failure Value → Outcome Value
  | .ok v => .value v
  | .error f => .fail f

/-- What an operation makes of a plain object, and its answer. -/
inductive Change (type : Ty) (h h' : Heap) (i : Instance) :
    Operation → Outcome Value → Instance → Prop
  | held {m : Member} {v : Value} (found : i.field? m.name = some v) :
      Change type h h' i (.read m) (.value v) i
  | count {m : Member} (missing : i.field? m.name = none) (named : m.name = "Count") :
      Change type h h' i (.read m) (ended (count i.items.size)) i
  | made {m : Member} {v : Value} (missing : i.field? m.name = none) (other : m.name ≠ "Count")
      (unwritten : IsUnwritten h h' m.type v) :
      Change type h h' i (.read m) (.value v) (i.setField m.name v)
  | written (m : Member) (v : Value) :
      Change type h h' i (.write m v) (.value .void) (i.setField m.name v)
  | added {m : Method} {arguments : List Value} {v : Value} (named : m.name = "Add")
      (entry : IsEntry h' arguments v) :
      Change type h h' i (.call m arguments) (.value .void) (i.addItem v)
  | item {m : Method} (index : Value) (named : m.name = "get_Item") :
      Change type h h' i (.call m [index]) (ended (elementAt i.items index)) i
  | unknown {m : Method} {arguments : List Value} (noAdd : m.name ≠ "Add")
      (noItem : m.name = "get_Item" → ∀ index, arguments ≠ [index]) :
      Change type h h' i (.call m arguments) (.fail (.missingMember type m.name)) i

variable (host : Host) (apply : Lambda → Frame → List Value → Eval Value) {o : ObjectRef}
  {s s' : State} {i i' : Instance} {h h' : Heap} {op : Operation} {answer : Outcome Value}
  {record : List Exchange} {type : Ty}

theorem lift_eq (x : Except Failure Value) : (liftM x : Eval Value) s = some (ended x, s) := by
  cases x <;> rfl

theorem keepsCellsBut_set (h : Heap) (r : Ref) (c : Cell) : KeepsCellsBut r h (h.set r c) :=
  fun _ _ other found => (Heap.get?_set_of_ne other c).trans found

theorem KeepsCellsBut.after_alloc {r : Ref} (c d : Cell) :
    KeepsCellsBut r h ((h.alloc c).2.set r d) :=
  fun _ _ other found => keepsCellsBut_set _ r d _ _ other (Heap.get?_alloc found c)

/-- Run in the state, where the object is a plain one, the computation does the operation. -/
def Performs (o : ObjectRef) (i : Instance) (op : Operation) (s : State) (x : Eval Value) : Prop :=
  ∃ answer s' i', x s = some (answer, s') ∧ s'.heap.get? o.ref = some (.plain i') ∧
    Change o.type s.heap s'.heap i op answer i' ∧ KeepsCellsBut o.ref s.heap s'.heap

/-- An operation that leaves everything as it is. -/
theorem performs_of_unchanged {x : Eval Value} (found : s.heap.get? o.ref = some (.plain i))
    (ran : x s = some (answer, s)) (change : Change o.type s.heap s.heap i op answer i) :
    Performs o i op s x :=
  ⟨answer, s, i, ran, found, change, fun _ _ _ => id⟩

/-- A place that is taken is not the new one. -/
theorem new_ne {r : Ref} {c : Cell} (found : h.get? r = some c) (d : Cell) : (h.alloc d).1 ≠ r := by
  rintro rfl
  rw [(Heap.get?_alloc_new h d).1] at found
  cases found

theorem performs_callPlain (found : s.heap.get? o.ref = some (.plain i)) (m : Method)
    (arguments : List Value) :
    Performs o i (.call m arguments) s (callPlain o i m arguments) := by
  generalize called : callPlain o i m arguments = x
  unfold callPlain at called
  split at called <;> subst called
  case h_1 item named =>
      exact ⟨_, _, _, rfl, Heap.get?_set found _, .added named (.single item),
        keepsCellsBut_set _ _ _⟩
  case h_2 named several =>
      refine ⟨_, _, _, rfl, Heap.get?_set (Heap.get?_alloc found _) _,
        .added named (.several (fun item => several item) ?_), .after_alloc _ _⟩
      exact (Heap.get?_set_of_ne (new_ne found _) _).trans (Heap.get?_alloc_new _ _).2
  case h_3 index named =>
      exact performs_of_unchanged found (lift_eq _) (.item index named)
  case h_4 noAdd _ noItem =>
      refine performs_of_unchanged found rfl (.unknown noAdd ?_)
      exact fun named index single => noItem index named single

theorem unwritten_eq (type : Ty) (s : State) :
    ∃ v s', unwritten type s = some (.value v, s') ∧ IsUnwritten s.heap s'.heap type v ∧
      ∀ r c, s.heap.get? r = some c → s'.heap.get? r = some c := by
  cases type with
  | named d =>
      unfold unwritten
      cases held : (Ty.named d).isValueType with
      | true => exact ⟨_, s, rfl, .default (.inr held), fun _ _ => id⟩
      | false =>
          obtain ⟨unused, placed⟩ := Heap.get?_alloc_new s.heap (.plain {})
          exact ⟨_, _, rfl, .object rfl held unused placed,
            fun _ _ found => Heap.get?_alloc found _⟩
  | _ => exact ⟨_, s, rfl, .default (.inl rfl), fun _ _ => id⟩

theorem IsUnwritten.set {v : Value} {r : Ref} {c : Cell} (unwritten : IsUnwritten h h' type v)
    (found : h.get? r = some c) (d : Cell) : IsUnwritten h (h'.set r d) type v := by
  cases unwritten with
  | object declared reference unused placed =>
      refine .object declared reference unused ((Heap.get?_set_of_ne ?_ d).trans placed)
      rintro rfl
      rw [unused] at found
      cases found
  | default other => exact .default other

theorem performs_readField (found : s.heap.get? o.ref = some (.plain i)) (m : Member) :
    Performs o i (.read m) s (readField o i m) := by
  cases field : i.field? m.name with
  | some v =>
      refine performs_of_unchanged found ?_ (.held field)
      simp only [readField, field]
      rfl
  | none =>
      by_cases named : m.name = "Count"
      · refine performs_of_unchanged found ?_ (.count field named)
        simp only [readField, field, if_pos named]
        exact lift_eq _
      · obtain ⟨v, t, made, unwritten, kept⟩ := unwritten_eq m.type s
        refine ⟨.value v, { t with heap := t.heap.set o.ref (.plain (i.setField m.name v)) },
          i.setField m.name v, ?_, Heap.get?_set (kept _ _ found) _,
          .made field named (unwritten.set found _), fun r c other inside => ?_⟩
        · simp only [readField, field, if_neg named]
          exact bind_of_value made
        · exact keepsCellsBut_set _ _ _ r c other (kept r c inside)

/-- An operation on a plain object always ends, and does what `Change` says. -/
theorem performs_perform (found : s.heap.get? o.ref = some (.plain i)) (op : Operation) :
    Performs o i op s (op.perform host apply o) := by
  cases op with
  | read m =>
      have opened : objectGet host o m s = readField o i m s := by
        rw [objectGet, bind_of_value rfl]
        simp only [found]
      simpa only [Performs, Operation.perform, opened] using performs_readField found m
  | write m v =>
      have opened : objectSet host o m v s = setCell o.ref (.plain (i.setField m.name v)) s := by
        rw [objectSet, bind_of_value rfl]
        simp only [found]
      exact ⟨_, _, _, bind_of_value opened, Heap.get?_set found _, .written m v,
        keepsCellsBut_set _ _ _⟩
  | call m arguments =>
      have opened : objectCall host apply o m arguments s = callPlain o i m arguments s := by
        rw [objectCall, bind_of_value rfl]
        simp only [found]
      simpa only [Performs, Operation.perform, opened] using performs_callPlain found m arguments

/-! ### What is remembered -/

theorem IsEntry.mono {r : Ref} {arguments : List Value} {v : Value}
    (entry : IsEntry h arguments v) (found : h.get? r = some (.plain i))
    (keeps : KeepsCellsBut r h h') : IsEntry h' arguments v := by
  cases entry with
  | single => exact .single v
  | several several placed =>
      -- The array is in another place than the object, which is no array.
      refine .several several (keeps _ _ ?_ placed)
      rintro rfl
      rw [found] at placed
      cases placed

theorem Change.field? (change : Change type h h' i op answer i') (name : String) :
    i'.field? name = (writtenTo? name op).or
      ((i.field? name).or (if name = "Count" then none else readFrom? name (op, answer))) := by
  cases change with
  | held found => grind [writtenTo?, readFrom?]
  | count missing named =>
      cases Eval.count i.items.size <;> simp only [ended, writtenTo?, readFrom?] <;> grind
  | made missing other => grind [writtenTo?, readFrom?, Instance.field?_setField]
  | written => grind [writtenTo?, readFrom?, Instance.field?_setField]
  | added | item | unknown => simp [writtenTo?, readFrom?, Instance.field?_addItem]

theorem Change.items (change : Change type h h' i op answer i') :
    ∃ new, i'.items.toList = i.items.toList ++ new ∧
      List.Forall₂ (IsEntry h') (additions [op]) new := by
  cases change with
  | added named entry =>
      refine ⟨_, i.toList_items_addItem _, ?_⟩
      simp [additions, added?, named, entry]
  | unknown noAdd => exact ⟨[], (List.append_nil _).symm, by simp [additions, added?, noAdd]⟩
  | item index named => exact ⟨[], (List.append_nil _).symm, by simp [additions, added?, named]⟩
  | made | written => exact ⟨[], by simp [Instance.items_setField], .nil⟩
  | held | count => exact ⟨[], (List.append_nil _).symm, .nil⟩

/-- The object holds what the operations so far tell. -/
structure Remembers (h : Heap) (record : List Exchange) (i : Instance) : Prop where
  field : ∀ name, i.field? name = remembered? record name
  items : List.Forall₂ (IsEntry h) (additions (record.map Prod.fst)) i.items.toList

theorem Remembers.change {r : Ref} (remembers : Remembers h record i)
    (found : h.get? r = some (.plain i)) (keeps : KeepsCellsBut r h h')
    (change : Change type h h' i op answer i') : Remembers h' (record ++ [(op, answer)]) i' := by
  constructor
  · intro name
    rw [change.field?, remembers.field, remembered?_snoc]
  · obtain ⟨new, items, entries⟩ := change.items
    rw [List.map_append, additions_append, items]
    exact List.rel_append (remembers.items.imp fun _ _ entry => entry.mono found keeps) entries

theorem remembers_new (h : Heap) : Remembers h [] {} := by
  refine ⟨fun name => ?_, .nil⟩
  simp [remembered?, lastWrite?, firstRead?, Instance.field?]

/-- Operations on a plain object all end, and it remembers them. Its items stay. -/
theorem performAll_remembers (found : s.heap.get? o.ref = some (.plain i))
    (remembers : Remembers s.heap record i) (ops : List Operation) :
    ∃ later s' i', performAll host apply o ops s = some (.value later, s') ∧
      s'.heap.get? o.ref = some (.plain i') ∧ Remembers s'.heap (record ++ later) i' ∧
      later.map Prod.fst = ops ∧ i.items.toList <+: i'.items.toList := by
  -- Every operation adds to the end of the record, so the rest of them starts with a longer one.
  induction ops generalizing record s i with
  | nil =>
      refine ⟨[], s, i, rfl, found, ?_, rfl, List.prefix_rfl⟩
      rwa [List.append_nil]
  | cons op ops ih =>
      obtain ⟨answer, m, j, ran, foundMiddle, change, keeps⟩ :=
        performs_perform host apply found op
      obtain ⟨later, s', i', ranRest, foundLast, remembersLast, same, kept⟩ :=
        ih foundMiddle (remembers.change found keeps change)
      obtain ⟨new, items, -⟩ := change.items
      refine ⟨(op, answer) :: later, s', i', ?_, foundLast, ?_, ?_, ?_⟩
      · have first : exchange host apply o op s = some (.value (op, answer), m) :=
          settle_bind_of_some ran
        rw [performAll, List.mapM_cons, bind_of_value first]
        exact bind_of_value ranRest
      · rwa [List.append_cons]
      · rw [List.map_cons, same]
      · exact (items ▸ List.prefix_append _ _).trans kept

/-! ### Answers -/

theorem elementAt_of_getElem? {items : Array Value} {index v : Value} {k : Nat}
    (counted : index.integer? = some (k : Int)) (entry : items.toList[k]? = some v) :
    elementAt items index = .ok v := by
  rw [Array.getElem?_toList] at entry
  obtain ⟨inside, rfl⟩ := Array.getElem?_eq_some_iff.mp entry
  simp [elementAt, position, counted, inside, bind, Except.bind]

theorem elementAt_of_outside {items : Array Value} {index : Value} {n : Int}
    (counted : index.integer? = some n) (outside : n < 0 ∨ items.size ≤ n) :
    elementAt items index = .error (.indexOutOfRange (BitVec.ofInt 64 n).toInt) := by
  have out : ¬ (0 ≤ n ∧ n < items.size) := by omega
  simp only [elementAt, position, counted, if_neg out]
  rfl

/-- What is found at an index is one of the items. -/
theorem getElem?_of_elementAt {items : Array Value} {index v : Value}
    (found : elementAt items index = .ok v) :
    ∃ k : Nat, index.integer? = some (k : Int) ∧ items.toList[k]? = some v := by
  cases counted : index.integer? with
  | none => simp [elementAt, position, counted, bind, Except.bind] at found
  | some n =>
      by_cases outside : n < 0 ∨ items.size ≤ n
      · rw [elementAt_of_outside counted outside] at found
        cases found
      · obtain ⟨k, rfl⟩ := Int.eq_ofNat_of_zero_le (show 0 ≤ n by omega)
        have inside : k < items.toList.length := by
          rw [Array.length_toList]
          omega
        have entry := List.getElem?_eq_getElem inside
        rw [elementAt_of_getElem? counted entry] at found
        cases found
        exact ⟨k, rfl, entry⟩

/-- The first operation may change how the second is answered. -/
def Operation.Changes : Operation → Operation → Prop
  | .write m _, .read m' => m.name = m'.name
  | .call m _, .read m' => m.name = "Add" ∧ m'.name = "Count"
  | .call m _, .call m' _ => m.name = "Add" ∧ m'.name = "get_Item"
  | _, _ => False

/-- The operation is not the first read of a member. -/
def Operation.Settled (record : List Exchange) : Operation → Prop
  | .read m => m.name = "Count" ∨ remembered? record m.name ≠ none
  | _ => True

/-- The objects are the same as far as the operation looks at them. -/
def Operation.SeesSame (i j : Instance) : Operation → Prop
  | .read m => i.field? m.name = j.field? m.name ∧ (m.name = "Count" → i.items = j.items)
  | .write _ _ => True
  | .call m _ => m.name = "get_Item" → i.items = j.items

/-- Objects that an operation sees no difference between answer it the same, unless a new object is
made for the answer. -/
theorem Change.answer_eq {h₁ h₁' h₂ h₂' : Heap} {j j' : Instance} {answer' : Outcome Value}
    (first : Change type h₁ h₁' i op answer i') (second : Change type h₂ h₂' j op answer' j')
    (remembers : Remembers h₁ record i) (settled : op.Settled record) (same : op.SeesSame i j) :
    answer = answer' := by
  cases first with
  | held found =>
      obtain ⟨sameField, -⟩ := same
      rw [sameField] at found
      cases second with
      | held found' =>
          rw [found] at found'
          cases found'
          rfl
      | count missing | made missing =>
          rw [found] at missing
          cases missing
  | count missing named =>
      obtain ⟨sameField, sameItems⟩ := same
      rw [sameField] at missing
      cases second with
      | held found =>
          rw [missing] at found
          cases found
      | count => rw [sameItems named]
      | made _ other => exact absurd named other
  | made missing other =>
      -- What is made at a first read differs from run to run, but then nothing was settled.
      rw [remembers.field] at missing
      exact absurd missing (settled.resolve_left other)
  | written =>
      cases second
      rfl
  | added named =>
      cases second with
      | added => rfl
      | item _ named' => simp [named] at named'
      | unknown noAdd => exact absurd named noAdd
  | item index named =>
      cases second with
      | added named' => simp [named] at named'
      | item => rw [same named]
      | unknown _ noItem => exact absurd rfl (noItem named index)
  | unknown noAdd noItem =>
      cases second with
      | added named => exact absurd named noAdd
      | item index named => exact absurd rfl (noItem named index)
      | unknown => rfl

/-- Operations that do not change the answer leave the object the same to the one that asks. -/
theorem Remembers.seesSame {later : List Exchange} (remembers : Remembers h record i)
    (after : Remembers h' (record ++ later) i') (kept : i.items.toList <+: i'.items.toList)
    (settled : op.Settled record) (spares : ∀ other ∈ later.map Prod.fst, ¬ other.Changes op) :
    op.SeesSame i i' := by
  have sameItems (noAdd : ∀ other ∈ later.map Prod.fst, added? other = none) :
      i.items = i'.items := by
    have none : additions (later.map Prod.fst) = [] := List.filterMap_eq_nil_iff.mpr noAdd
    have length : i.items.toList.length = i'.items.toList.length := by
      rw [← remembers.items.length_eq, ← after.items.length_eq, List.map_append, additions_append,
        none, List.append_nil]
    exact Array.toList_inj.mp (kept.eq_of_length length)
  cases op with
  | read m =>
      refine ⟨?_, fun named => sameItems fun other inside => ?_⟩
      · have unwritten : lastWrite? (later.map Prod.fst) m.name = none := by
          refine List.findSome?_eq_none_iff.mpr fun other inside => ?_
          have spared := spares other (List.mem_reverse.mp inside)
          cases other with
          | write m' v => exact if_neg spared
          | _ => rfl
        rw [remembers.field, after.field, remembered?_append _ _ _ unwritten settled]
      · have spared := spares other inside
        cases other with
        | call m' arguments => exact if_neg fun add => spared ⟨add, named⟩
        | _ => rfl
  | write m v => trivial
  | call m arguments =>
      refine fun named => sameItems fun other inside => ?_
      have spared := spares other inside
      cases other with
      | call m' arguments => exact if_neg fun add => spared ⟨add, named⟩
      | _ => rfl

section

variable (o)

/-- The operation is answered so in the state. -/
def Operation.Answered (op : Operation) (s : State) (answer : Outcome Value) : Prop :=
  ∃ s', op.perform host apply o s = some (answer, s')

/-- How an object answers after operations, of which there is a record. -/
structure Faithful (ops : List Operation) (record : List Exchange) (s : State) : Prop where
  /-- A member has the last value written to it, or else what it was found to have when it was first
  read. -/
  members : ∀ m : Member, m.name ≠ "Count" → ∃ v s',
    (Operation.read m).perform host apply o s = some (.value v, s') ∧
      match (lastWrite? ops m.name).or (firstRead? record m.name) with
      | some w => v = w
      | none => IsUnwritten s.heap s'.heap m.type v
  /-- The items are the entries of `Add`, in order, and no index but theirs is in range. -/
  items : ∃ entries, List.Forall₂ (IsEntry s.heap) (additions ops) entries ∧
    ∀ (m : Method) (index : Value) (n : Int), m.name = "get_Item" → index.integer? = some n →
      (∀ (k : Nat) (v : Value), n = k → entries[k]? = some v →
        (Operation.call m [index]).Answered host apply o s (.value v)) ∧
      (n < 0 ∨ entries.length ≤ n → (Operation.call m [index]).Answered host apply o s
        (.fail (.indexOutOfRange (BitVec.ofInt 64 n).toInt)))
  /-- `Count` is the number of calls of `Add`, as far as 32 bits can count. -/
  count : ∀ m : Member, m.name = "Count" → lastWrite? ops "Count" = none →
    ((additions ops).length < 2 ^ 31 → ∃ v, Value.Is .int32 (additions ops).length v ∧
      (Operation.read m).Answered host apply o s (.value v)) ∧
    (2 ^ 31 ≤ (additions ops).length →
      (Operation.read m).Answered host apply o s (.fail .overflow))
  /-- An item stays where it is, whatever is done with the object. -/
  lasting : ∀ (m : Method) (index v : Value) (more : List Operation), m.name = "get_Item" →
    (Operation.call m [index]).Answered host apply o s (.value v) →
      ∃ later s', performAll host apply o more s = some (.value later, s') ∧
        (Operation.call m [index]).Answered host apply o s' (.value v)
  /-- Operations on other members, and on the items if these are not asked for, change no answer. -/
  independent : ∀ (op : Operation) (more : List Operation), op.Settled record →
    (∀ other ∈ more, ¬ other.Changes op) →
      ∃ later s' answer, performAll host apply o more s = some (.value later, s') ∧
        op.Answered host apply o s answer ∧ op.Answered host apply o s' answer

end

theorem answered_item (found : s.heap.get? o.ref = some (.plain i)) {m : Method}
    (named : m.name = "get_Item") (index : Value) :
    (Operation.call m [index]).Answered host apply o s (ended (elementAt i.items index)) := by
  obtain ⟨answer, s', i', ran, -, change, -⟩ :=
    performs_perform host apply found (.call m [index])
  cases change with
  | added add => simp [named] at add
  | item => exact ⟨s', ran⟩
  | unknown _ noItem => exact absurd rfl (noItem named index)

theorem eq_ok_of_answered (found : s.heap.get? o.ref = some (.plain i)) {m : Method}
    {index v : Value} (named : m.name = "get_Item")
    (answered : (Operation.call m [index]).Answered host apply o s (.value v)) :
    elementAt i.items index = .ok v := by
  obtain ⟨t, ran⟩ := answered
  obtain ⟨t', ran'⟩ := answered_item host apply found named index
  cases element : elementAt i.items index <;> rw [element, ran] at ran' <;> cases ran'
  rfl

theorem answered_count (found : s.heap.get? o.ref = some (.plain i)) {m : Member}
    (named : m.name = "Count") (missing : i.field? "Count" = none) :
    (Operation.read m).Answered host apply o s (ended (count i.items.size)) := by
  obtain ⟨answer, s', i', ran, -, change, -⟩ :=
    performs_perform host apply found (.read m)
  cases change with
  | held held => simp [named, missing] at held
  | count => exact ⟨s', ran⟩
  | made _ other => exact absurd named other

theorem count_inRange {n : Nat} : Integral.int32.InRange n ↔ n < 2 ^ 31 := by
  simp only [Integral.InRange, Integral.signed, Integral.width, if_true]
  omega

theorem faithful_of_remembers (found : s.heap.get? o.ref = some (.plain i))
    (remembers : Remembers s.heap record i) :
    Faithful host apply o (record.map Prod.fst) record s where
  members m other := by
    obtain ⟨answer, s', i', ran, -, change, -⟩ :=
      performs_perform host apply found (.read m)
    have tells := remembers.field m.name
    rw [remembered?, if_neg other] at tells
    cases change with
    | held held =>
        refine ⟨_, s', ran, ?_⟩
        rw [← tells, held]
    | count _ named => exact absurd named other
    | made missing _ unwritten =>
        refine ⟨_, s', ran, ?_⟩
        rw [← tells, missing]
        exact unwritten
  items := by
    refine ⟨i.items.toList, remembers.items, fun m index n named counted => ⟨?_, fun outside => ?_⟩⟩
    · rintro k v rfl entry
      have answered := answered_item host apply found named index
      rwa [elementAt_of_getElem? counted entry] at answered
    · have answered := answered_item host apply found named index
      rw [Array.length_toList] at outside
      rwa [elementAt_of_outside counted outside] at answered
  count m named unwritten := by
    have missing : i.field? "Count" = none := by
      rw [remembers.field, remembered?, unwritten]
      rfl
    have answered := answered_count host apply found named missing
    rw [← Array.length_toList, ← remembers.items.length_eq] at answered
    constructor
    · intro small
      obtain ⟨v, counted, is⟩ := Value.gives_narrow (count_inRange.mpr small)
      rw [Eval.count, counted] at answered
      exact ⟨v, is, answered⟩
    · intro large
      rwa [Eval.count, Value.narrow_eq_overflow (count_inRange.not.mpr (Nat.not_lt.mpr large))]
        at answered
  lasting m index v more named answered := by
    obtain ⟨later, s', i', ran, foundLast, -, -, rest, kept⟩ :=
      performAll_remembers host apply found remembers more
    obtain ⟨k, counted, entry⟩ :=
      getElem?_of_elementAt (eq_ok_of_answered host apply found named answered)
    obtain ⟨inside, -⟩ := List.getElem?_eq_some_iff.mp entry
    -- Whatever was added since is behind the item.
    have entryLast : i'.items.toList[k]? = some v := by
      rw [← kept, List.getElem?_append_left inside, entry]
    have answeredLast := answered_item host apply foundLast named index
    rw [elementAt_of_getElem? counted entryLast] at answeredLast
    exact ⟨later, s', ran, answeredLast⟩
  independent op more settled spares := by
    obtain ⟨later, s', i', ran, foundLast, after, same, kept⟩ :=
      performAll_remembers host apply found remembers more
    obtain ⟨answer, t, j, asked, -, change, -⟩ :=
      performs_perform host apply found op
    obtain ⟨answer', t', j', askedLast, -, changeLast, -⟩ :=
      performs_perform host apply foundLast op
    have seen := remembers.seesSame after kept settled (same ▸ spares)
    refine ⟨later, s', answer, ran, ⟨t, asked⟩, t', ?_⟩
    rw [change.answer_eq changeLast remembers settled seen]
    exact askedLast

/-- A new object remembers all that is done with it. -/
theorem new_object_remembers (type : Ty) (s : State) (ops : List Operation) :
    ∃ o s₀ record s₁ i, newInstance type s = some (.value (.object o), s₀) ∧
      performAll host apply o ops s₀ = some (.value record, s₁) ∧ record.map Prod.fst = ops ∧
      s₁.heap.get? o.ref = some (.plain i) ∧ Remembers s₁.heap record i := by
  let o : ObjectRef := ⟨(s.heap.alloc (.plain {})).1, type⟩
  let s₀ : State := { s with heap := (s.heap.alloc (.plain {})).2 }
  have placed : s₀.heap.get? o.ref = some (.plain {}) := (Heap.get?_alloc_new s.heap _).2
  obtain ⟨record, s₁, i, ran, found, remembers, same, -⟩ :=
    performAll_remembers host apply placed (remembers_new _) ops
  exact ⟨o, s₀, record, s₁, i, rfl, ran, same, found, remembers⟩

/-- A new object of a type that the host knows nothing about is a faithful store. It answers every
operation, whatever was done with it before: a member has the last value written to it, or else the
one it was first found to have; an item is the entry of its call of `Add`, and there are no others;
`Count` is the number of those calls, unless it was written or they are more than 32 bits can count;
and no operation changes what is answered about another member or, if it adds nothing, about the
items. -/
theorem new_object_is_faithful_store (type : Ty) (s : State) (ops : List Operation) :
    ∃ o s₀ record s₁, newInstance type s = some (.value (.object o), s₀) ∧
      performAll host apply o ops s₀ = some (.value record, s₁) ∧ record.map Prod.fst = ops ∧
      Faithful host apply o ops record s₁ := by
  obtain ⟨o, s₀, record, s₁, i, made, ran, same, found, remembers⟩ :=
    new_object_remembers host apply type s ops
  refine ⟨o, s₀, record, s₁, made, ran, same, ?_⟩
  exact same ▸ faithful_of_remembers host apply found remembers

/-! An object that is given one item, two items at once and a size, and asked for its label in
between. -/

namespace Basket

def basket : Ty := .ofClass "Basket"

def label : Member := .property basket "Label" (.ofClass "Label")

def size : Member := .property basket "Size" .int32

def count : Member := .property basket "Count" .int32

def add : Method := .ofInstance basket "Add" [.object] .void

def item : Method := .ofInstance basket "get_Item" [.int32] .object

def filling : List Operation :=
  [.call add [.int32 1], .read label, .call add [.int32 2, .int32 3], .write size (.int32 7)]

def noCalls : Lambda → Frame → List Value → Eval Value := fun _ _ _ => outOfFuel

theorem filled_basket_answers :
    ∃ o s₀ record s₁, newInstance basket {} = some (.value (.object o), s₀) ∧
      performAll .absent noCalls o filling s₀ = some (.value record, s₁) ∧
      (Operation.read size).Answered .absent noCalls o s₁ (.value (.int32 7)) ∧
      (∃ r, s₁.heap.get? r = some (.array #[.int32 2, .int32 3]) ∧
        (Operation.call item [.int32 1]).Answered .absent noCalls o s₁
          (.value (.array r .object))) ∧
      (Operation.call item [.int32 2]).Answered .absent noCalls o s₁ (.fail (.indexOutOfRange 2)) ∧
      ∃ v, Value.Is .int32 2 v ∧
        (Operation.read count).Answered .absent noCalls o s₁ (.value v) := by
  obtain ⟨o, s₀, record, s₁, made, ran, -, faithful⟩ :=
    new_object_is_faithful_store .absent noCalls basket {} filling
  obtain ⟨v, s', read, rfl⟩ := faithful.members size (by decide)
  obtain ⟨entries, added, items⟩ := faithful.items
  obtain ⟨counted, is, asked⟩ := (faithful.count count rfl rfl).1 (by decide)
  cases added with
  | cons first rest =>
      cases rest with
      | cons second rest =>
          cases rest
          cases second with
          | several _ placed =>
              exact ⟨o, s₀, record, s₁, made, ran, ⟨s', read⟩,
                ⟨_, placed, (items item (.int32 1) 1 rfl rfl).1 1 _ rfl rfl⟩,
                (items item (.int32 2) 2 rfl rfl).2 (.inr (by simp)), counted, is, asked⟩

/-- So many items, one at a time. -/
def stuffing (n : Nat) : List Operation := List.replicate n (.call add [.int32 1])

theorem additions_stuffing (n : Nat) : additions (stuffing n) = List.replicate n [.int32 1] :=
  List.filterMap_replicate_of_some rfl

theorem lastWrite?_stuffing (n : Nat) (name : String) : lastWrite? (stuffing n) name = none := by
  refine List.findSome?_eq_none_iff.mpr fun op mem => ?_
  rw [List.eq_of_mem_replicate (List.mem_reverse.mp mem)]
  rfl

/-- From some number of items on, `Count` cannot tell it. -/
theorem count_overflows {n : Nat} (large : 2 ^ 31 ≤ n) :
    ∃ o s₀ record s₁, newInstance basket {} = some (.value (.object o), s₀) ∧
      performAll .absent noCalls o (stuffing n) s₀ = some (.value record, s₁) ∧
      (Operation.read count).Answered .absent noCalls o s₁ (.fail .overflow) := by
  obtain ⟨o, s₀, record, s₁, i, made, ran, same, found, remembers⟩ :=
    new_object_remembers .absent noCalls basket {} (stuffing n)
  have faithful := faithful_of_remembers .absent noCalls found remembers
  rw [same] at faithful
  refine ⟨o, s₀, record, s₁, made, ran, (faithful.count count rfl ?_).2 ?_⟩
  · exact lastWrite?_stuffing n "Count"
  · rw [additions_stuffing, List.length_replicate]
    exact large

theorem overfull_basket_is_not_counted :
    (additions (stuffing 2147483648)).length = 2147483648 ∧
    lastWrite? (stuffing 2147483648) "Count" = none ∧
    ∃ o s₀ record s₁, newInstance basket {} = some (.value (.object o), s₀) ∧
      performAll .absent noCalls o (stuffing 2147483648) s₀ = some (.value record, s₁) ∧
      (Operation.read count).Answered .absent noCalls o s₁ (.fail .overflow) := by
  refine ⟨?_, lastWrite?_stuffing _ _, count_overflows (Nat.le_refl _)⟩
  rw [additions_stuffing, List.length_replicate]

end Basket

end Eval

end ExprTree
