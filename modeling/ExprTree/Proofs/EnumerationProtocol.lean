import ExprTree.Lowering.ForEach
import ExprTree.Proofs.Conversions
import ExprTree.Proofs.TypeOrder

/-!
How a source without an enumerator of its own is enumerated.

The strongest protocol is the one of an `IEnumerable<T>` that the source implements and whose
elements the loop variable accepts, and that of `IEnumerable` if there is none. `Protocol.resolve`
looks at the first generic interface of that name only. It finds the strongest protocol exactly if
that interface decides (`Protocol.resolve_iff`), which it does if it is the only one.
-/

namespace ExprTree

/-! ### What a type implements -/

namespace Ty

variable {s t u : Ty}

/-- What a source can hold can be held by an interface that the source implements. -/
theorem assignableFrom_of_implements (above : t.implements u = true)
    (interface : u.isInterface = true) (held : t.assignableFrom s = true) :
    u.assignableFrom s = true := by
  refine assignableFrom_iff.mpr (.inr ?_)
  rcases assignableFrom_iff.mp held with rfl | ⟨noVoid, rfl | ⟨below, -⟩⟩
  · refine ⟨?_, .inr ⟨above, fun _ => interface⟩⟩
    rintro rfl
    rw [List.mem_singleton.mp (implements_iff.mp above)] at interface
    cases interface
  · -- `object` holds everything and implements nothing, so it is not what is implemented here.
    rw [eq_object_of_implements above] at interface
    cases interface
  · exact ⟨noVoid, .inr ⟨implements_trans below above, fun _ => interface⟩⟩

theorem implements_enumerable (iterable : t.isIterable = true) (plain : t.ownEnumerator? = none) :
    t.implements enumerable = true := by
  simp only [isIterable, plain, Option.isSome_none, Bool.or_false, Bool.or_eq_true] at iterable
  rcases iterable with array | implemented
  · cases t <;> cases array
    rw [implements_iff, supertypes]
    split <;> simp
  · exact implemented

/-- Every `IEnumerable<T>` above a type is met when the first is looked for. -/
theorem enumerableElement_ne_none {element : Ty}
    (implemented : t.implements (.enumerableOf element) = true) : t.enumerableElement? ≠ none := by
  intro missing
  rw [enumerableElement?, List.findSome?_eq_none_iff] at missing
  have unmatched := missing _ (implements_iff.mp implemented)
  simp [enumerableOf, argumentOf?, Named.plain] at unmatched

end Ty

/-! ### Protocols -/

namespace Lowering.Protocol

/-- The protocol of `IEnumerable<T>`. -/
def typed (element : Ty) : Protocol := ⟨.enumerableOf element, .enumeratorOf element, element⟩

/-- The protocol of `IEnumerable`. -/
def untyped : Protocol := ⟨.enumerable, .enumerator, .object⟩

/-- The source implements `IEnumerable<T>`, and the variable accepts a `T`. -/
def Offers (source item element : Ty) : Prop :=
  source.implements (.enumerableOf element) = true ∧ item.assignableFrom element = true

/-- A typed protocol that the source offers, or the untyped one if it offers none. -/
def Strongest (source item : Ty) (p : Protocol) : Prop :=
  (∃ element, Offers source item element ∧ p = typed element) ∨
    (∀ element, ¬ Offers source item element) ∧ p = untyped

/-- The source implements the receiver, so that what it holds becomes the receiver as it is. -/
def Upcasts (source : Ty) (p : Protocol) : Prop :=
  source.implements p.receiver = true ∧ p.receiver.assignableFrom source = true ∧
    ∀ (v : Value) checked, v.Fits source → v.convert p.receiver checked = .ok v

/-- The first generic interface of the name is the `IEnumerable<T>` it is taken for, if the variable
accepts its argument. -/
def FirstIsGenuine (source item : Ty) : Prop :=
  ∀ element, source.enumerableElement? = some element → item.assignableFrom element = true →
    source.implements (.enumerableOf element) = true

/-- If the variable does not accept the argument of the first generic interface of the name, then
neither does it accept that of a later one. -/
def FirstIsDecisive (source item : Ty) : Prop :=
  ∀ element, source.enumerableElement? = some element → item.assignableFrom element = false →
    ∀ later, ¬ Offers source item later

/-- Only an `IEnumerable<T>` has its name and one argument. -/
def NamesAreGenuine (source : Ty) : Prop :=
  ∀ t ∈ source.supertypes, ∀ element, t.argumentOf? "IEnumerable" = some element →
    t = .enumerableOf element

variable {source item element : Ty} {p : Protocol}

theorem resolve_of_none (plain : source.ownEnumerator? = none)
    (missing : source.enumerableElement? = none) : resolve source item = untyped := by
  simp [resolve, plain, missing, untyped]

theorem resolve_of_some (plain : source.ownEnumerator? = none)
    (found : source.enumerableElement? = some element) :
    resolve source item = if item.assignableFrom element then typed element else untyped := by
  simp [resolve, plain, found, typed, untyped]

theorem upcasts_of_implements (interface : p.receiver.isInterface = true)
    (implemented : source.implements p.receiver = true) : Upcasts source p := by
  have accepts {s : Ty} (held : source.assignableFrom s = true) :
      p.receiver.assignableFrom s = true :=
    Ty.assignableFrom_of_implements implemented interface held
  have reference : p.receiver.isValueType = false :=
    Ty.isValueType_of_isInterface interface
  refine ⟨implemented, accepts (by simp [Ty.assignableFrom]), fun v checked fits => ?_⟩
  by_cases absent : v = .null
  · subst absent
    exact Value.convert_null reference
  · have held : source.assignableFrom v.typeOf = true := by
      unfold Value.Fits at fits
      split at fits
      · simp [fits, Ty.assignableFrom]
      · exact fits.resolve_left absent
    rw [Value.convert_reference reference absent, if_pos (accepts held)]

theorem typed_upcasts_iff :
    Upcasts source (typed element) ↔ source.implements (.enumerableOf element) = true :=
  ⟨fun upcasts => upcasts.1, upcasts_of_implements (p := typed element) rfl⟩

theorem untyped_upcasts (implemented : source.implements .enumerable = true) :
    Upcasts source untyped :=
  upcasts_of_implements rfl implemented

theorem typed_ne_untyped : typed element ≠ untyped := by
  simp [typed, untyped, Ty.enumerableOf, Ty.enumerable, Ty.ofInterface, Named.plain]

theorem typed_inj {other : Ty} (same : typed element = typed other) : element = other :=
  congrArg Protocol.element same

theorem strongest_typed_iff :
    Strongest source item (typed element) ↔ Offers source item element := by
  constructor
  · rintro (⟨other, offers, same⟩ | ⟨-, same⟩)
    · rwa [typed_inj same]
    · exact absurd same typed_ne_untyped
  · intro offers
    exact .inl ⟨element, offers, rfl⟩

theorem strongest_untyped_iff :
    Strongest source item untyped ↔ ∀ element, ¬ Offers source item element := by
  constructor
  · rintro (⟨other, -, same⟩ | ⟨none, -⟩)
    · exact absurd same.symm typed_ne_untyped
    · exact none
  · intro none
    exact .inr ⟨none, rfl⟩

/-- A typed protocol is found exactly if the variable accepts the argument of the first generic
interface of the name, and is the one of that argument. -/
theorem resolve_eq_iff (item : Ty) (plain : source.ownEnumerator? = none) :
    (∀ element, resolve source item = typed element ↔
      source.enumerableElement? = some element ∧ item.assignableFrom element = true) ∧
    (resolve source item = untyped ↔ ∀ element, source.enumerableElement? = some element →
      item.assignableFrom element = false) := by
  cases found : source.enumerableElement? with
  | none => simp [resolve_of_none plain found, typed_ne_untyped.symm]
  | some first =>
      rw [resolve_of_some plain found]
      cases accepted : item.assignableFrom first with
      | true =>
          refine ⟨fun element => ⟨fun same => ?_, ?_⟩, by simp [typed_ne_untyped, accepted]⟩
          · rw [← typed_inj same]
            exact ⟨rfl, accepted⟩
          · rintro ⟨same, -⟩
            cases same
            rfl
      | false => simp [typed_ne_untyped.symm, accepted]

/-- The two things that go wrong are that the first interface is not what it is taken for, and that
a later one is passed over. -/
theorem resolve_iff (item : Ty) (plain : source.ownEnumerator? = none)
    (implemented : source.implements .enumerable = true) :
    (Upcasts source (resolve source item) ↔ FirstIsGenuine source item) ∧
    (Strongest source item (resolve source item) ↔
      FirstIsGenuine source item ∧ FirstIsDecisive source item) := by
  unfold FirstIsGenuine FirstIsDecisive
  cases found : source.enumerableElement? with
  | none =>
      rw [resolve_of_none plain found, strongest_untyped_iff]
      have offersNone (element : Ty) : ¬ Offers source item element := by
        intro offers
        exact Ty.enumerableElement_ne_none offers.1 found
      simp [untyped_upcasts implemented, offersNone]
  | some element =>
      rw [resolve_of_some plain found]
      cases accepted : item.assignableFrom element with
      | true => simp [typed_upcasts_iff, strongest_typed_iff, Offers, accepted]
      | false => simp [untyped_upcasts implemented, strongest_untyped_iff, accepted]

theorem genuine_of_names (names : NamesAreGenuine source) : FirstIsGenuine source item := by
  intro element found _
  obtain ⟨t, above, argument⟩ := List.exists_of_findSome?_eq_some found
  rw [Ty.implements_iff, ← names t above element argument]
  exact above

theorem strongest_upcasts (implemented : source.implements .enumerable = true)
    (strongest : Strongest source item p) : Upcasts source p := by
  rcases strongest with ⟨element, offers, rfl⟩ | ⟨-, rfl⟩
  · exact typed_upcasts_iff.mpr offers.1
  · exact untyped_upcasts implemented

theorem decisive_of_single (names : NamesAreGenuine source)
    (single : ∀ first later, source.implements (.enumerableOf first) = true →
      source.implements (.enumerableOf later) = true → first = later) :
    FirstIsDecisive source item := by
  intro element found refused later offers
  obtain ⟨t, above, argument⟩ := List.exists_of_findSome?_eq_some found
  rw [names t above element argument, ← Ty.implements_iff] at above
  rw [single element later above offers.1, offers.2] at refused
  cases refused

/-- The protocol that is found for a source without an enumerator of its own goes by the first
generic interface of the name. Its receiver is one that the source implements, exactly if that
interface is genuine, and it is the strongest, exactly if the interface also decides. Both hold if
no other interface has the name and the source implements it for one type of elements. -/
theorem strongest_iff_first_decides (plain : source.ownEnumerator? = none)
    (iterable : source.isIterable = true) :
    (∀ element, resolve source item = typed element ↔
      source.enumerableElement? = some element ∧ item.assignableFrom element = true) ∧
    (resolve source item = untyped ↔ ∀ element, source.enumerableElement? = some element →
      item.assignableFrom element = false) ∧
    (Upcasts source (resolve source item) ↔ FirstIsGenuine source item) ∧
    (Strongest source item (resolve source item) ↔
      FirstIsGenuine source item ∧ FirstIsDecisive source item) ∧
    (∀ p, Strongest source item p → Upcasts source p) ∧
    (NamesAreGenuine source →
      Upcasts source (resolve source item) ∧
      ((∀ first later, source.implements (.enumerableOf first) = true →
          source.implements (.enumerableOf later) = true → first = later) →
        Strongest source item (resolve source item))) := by
  have implemented := Ty.implements_enumerable iterable plain
  obtain ⟨upcasts, strongest⟩ := resolve_iff item plain implemented
  obtain ⟨isTyped, isUntyped⟩ := resolve_eq_iff item plain
  refine ⟨isTyped, isUntyped, upcasts, strongest, fun p => strongest_upcasts implemented, ?_⟩
  intro names
  refine ⟨upcasts.mpr (genuine_of_names names), fun single => strongest.mpr ?_⟩
  exact ⟨genuine_of_names names, decisive_of_single names single⟩

/-! A class that implements `IEnumerable<string>` before `IEnumerable<int>`, and one that implements
an interface of the same name that is no `IEnumerable`. -/

namespace TwoElements

def both : Ty :=
  .named { Named.plain "Both" .classType with
    interfaces := [.enumerableOf .string, .enumerableOf .int32] }

def homonym : Ty :=
  .named { Named.plain "IEnumerable" .interfaceType with arguments := [.int32] }

def namesake : Ty :=
  .named { Named.plain "Namesake" .classType with interfaces := [homonym, .enumerable] }

theorem second_is_passed_over :
    (Offers both .int32 .int32 ∧ resolve both .int32 = untyped ∧
      ¬ Strongest both .int32 (resolve both .int32) ∧ Upcasts both (resolve both .int32)) ∧
    ¬ Upcasts namesake (resolve namesake .int32) ∧
    Strongest (.vector .int32) .int32 (resolve (.vector .int32) .int32) := by
  refine ⟨⟨⟨by decide, by decide⟩, ?_, ?_, ?_⟩, ?_, ?_⟩
  · refine (strongest_iff_first_decides rfl (by decide)).2.1.mpr fun element found => ?_
    cases found
    decide
  · intro strongest
    have decisive := ((strongest_iff_first_decides rfl (by decide)).2.2.2.1.mp strongest).2
    exact decisive .string (by decide) (by decide) .int32 ⟨by decide, by decide⟩
  · refine (strongest_iff_first_decides rfl (by decide)).2.2.1.mpr fun element found accepted => ?_
    cases found
    cases accepted
  · intro upcasts
    have genuine := (strongest_iff_first_decides rfl (by decide)).2.2.1.mp upcasts
    exact absurd (genuine .int32 (by decide) (by decide)) (by decide)
  · refine (strongest_iff_first_decides rfl (by decide)).2.2.2.1.mpr ⟨fun element found _ => ?_, ?_⟩
    · cases found
      decide
    · intro element found refused
      cases found
      cases refused

end TwoElements

end Lowering.Protocol

end ExprTree
