import ExprTree.Proofs.Writing

/-!
Names that are made up.

The writer names every parameter and label through its table, so the names of those that have none
of their own are those that the table makes up. Of each sort they are numbered from zero in the
order in which the symbols are first written, and two symbols have the same name only if they are
the same one. This holds of all that one writer writes, one item after the other, whether or not an
item has a source form: `NameTable.Records` is kept by every name that the table is asked for.
-/

namespace ExprTree

namespace Source

/-! ### Sorts of symbols -/

inductive SymbolSort where
  | parameter | label
deriving DecidableEq, Repr

def Symbol.sort : Symbol → SymbolSort
  | .parameter _ => .parameter
  | .label _ => .label

/-- The name that is made up for the symbol of this number. -/
def SymbolSort.numbered : SymbolSort → Nat → String
  | .parameter, n => "var_$" ++ toString n
  | .label, n => "label_$" ++ toString n

theorem toString_injective {m n : Nat} (same : toString m = toString n) : m = n := by
  simp only [Nat.toString_eq_ofList_toDigits, String.ofList_inj] at same
  have numbers := congrArg (Nat.ofDigitChars 10 · 0) same
  simpa only [Nat.ofDigitChars_ten_toDigits] using numbers

theorem SymbolSort.numbered_injective {k k' : SymbolSort} {n n' : Nat}
    (same : k.numbered n = k'.numbered n') : k = k' ∧ n = n' := by
  have letters := congrArg String.toList same
  cases k <;> cases k'
  case parameter.parameter => exact ⟨rfl, toString_injective ((String.append_right_inj _).mp same)⟩
  case label.label => exact ⟨rfl, toString_injective ((String.append_right_inj _).mp same)⟩
  all_goals simp [numbered] at letters

namespace NameTable

/-- How many symbols of a sort have been given names. -/
def count (t : NameTable) : SymbolSort → Nat
  | .parameter => t.parameters
  | .label => t.labels

theorem nextName_eq (t : NameTable) (s : Symbol) :
    t.nextName s = s.sort.numbered (t.count s.sort) := by
  cases s <;> rfl

theorem count_assign (t : NameTable) (s : Symbol) (k : SymbolSort) :
    (t.assign s).count k = if s.sort = k then t.count k + 1 else t.count k := by
  cases s <;> cases k <;> rfl

theorem assigned_assign (t : NameTable) (s : Symbol) :
    (t.assign s).assigned = (s.id, t.nextName s) :: t.assigned := by
  cases s <;> rfl

end NameTable

/-! ### Occurrences -/

/-- A parameter or label that has no name of its own, and the name that is written for it. -/
structure Occurrence where
  symbol : Symbol
  name : String

/-- What a directive names, if that has no name of its own. -/
def Directive.occurrence? : Directive → Option Occurrence
  | .identifier name (.parameter p) => if p.name = none then some ⟨.parameter p, name⟩ else none
  | .identifier name (.label l) => if l.name = none then some ⟨.label l, name⟩ else none
  | _ => none

def occurrencesIn (ds : List Directive) : List Occurrence := ds.filterMap Directive.occurrence?

theorem occurrence?_symbol (s : Symbol) (name : String) :
    (Directive.identifier name s.referent).occurrence? =
      if s.ownName = none then some ⟨s, name⟩ else none := by
  cases s <;> rfl

section

variable {β : Type} [BEq β] [LawfulBEq β] {k : SymbolSort} {f : Occurrence → β}

/-- What the symbols of a sort have at their occurrences, without repetitions, in the order in which
it is first there. -/
def firstsIn (k : SymbolSort) (f : Occurrence → β) (os : List Occurrence) : List β :=
  ((os.filter (·.symbol.sort = k)).map f).eraseDups

theorem mem_firstsIn {os : List Occurrence} {b : β} :
    b ∈ firstsIn k f os ↔ ∃ o ∈ os, o.symbol.sort = k ∧ f o = b := by
  simp [firstsIn, List.mem_eraseDups, and_assoc]

theorem firstsIn_concat_of_mem {os : List Occurrence} {o : Occurrence}
    (mem : o.symbol.sort = k → f o ∈ firstsIn k f os) :
    firstsIn k f (os ++ [o]) = firstsIn k f os := by
  by_cases sort : o.symbol.sort = k
  · have known := mem sort
    rw [firstsIn, List.mem_eraseDups] at known
    simp [firstsIn, sort, List.eraseDups_append, List.removeAll, known]
  · simp [firstsIn, sort]

theorem firstsIn_concat_of_not_mem {os : List Occurrence} {o : Occurrence}
    (sort : o.symbol.sort = k) (new : f o ∉ firstsIn k f os) :
    firstsIn k f (os ++ [o]) = firstsIn k f os ++ [f o] := by
  rw [firstsIn, List.mem_eraseDups] at new
  have single : [f o].eraseDups = [f o] := rfl
  simp [firstsIn, sort, List.eraseDups_append, List.removeAll, new, single]

end

/-- No parameter has the identity of a label, as where both are drawn from one supply. -/
def SortsApart (os : List Occurrence) : Prop :=
  ∀ a ∈ os, ∀ b ∈ os, a.symbol.id = b.symbol.id → a.symbol.sort = b.symbol.sort

instance (os : List Occurrence) : Decidable (SortsApart os) :=
  inferInstanceAs (Decidable
    (∀ a ∈ os, ∀ b ∈ os, a.symbol.id = b.symbol.id → a.symbol.sort = b.symbol.sort))

theorem SortsApart.subset {os os' : List Occurrence} (apart : SortsApart os') (within : os ⊆ os') :
    SortsApart os :=
  fun a memA b memB => apart a (within memA) b (within memB)

/-! ### What the table knows -/

/-- Two occurrences have the same name exactly if they are of the same symbol. The names of each
sort are those numbered from zero, as many as there are symbols of the sort, in the order in which
these first occur. -/
structure NumberedInOrder (os : List Occurrence) : Prop where
  consistent : ∀ a ∈ os, ∀ b ∈ os, a.name = b.name ↔ a.symbol.id = b.symbol.id
  parameters : firstsIn .parameter (·.name) os =
    (List.range (firstsIn .parameter (·.symbol.id) os).length).map fun n => "var_$" ++ toString n
  labels : firstsIn .label (·.name) os =
    (List.range (firstsIn .label (·.symbol.id) os).length).map fun n => "label_$" ++ toString n

/-- The table knows the names of the occurrences, all of which it made up. -/
structure NameTable.Records (t : NameTable) (os : List Occurrence) : Prop where
  found : ∀ id name, t.assigned.lookup id = some name ↔
    ∃ o ∈ os, o.symbol.id = id ∧ o.name = name
  apart : ∀ a ∈ os, ∀ b ∈ os, a.name = b.name → a.symbol.id = b.symbol.id
  names : ∀ k, firstsIn k (·.name) os = (List.range (t.count k)).map k.numbered
  identities : ∀ k, (firstsIn k (·.symbol.id) os).length = t.count k

namespace NameTable.Records

variable {t : NameTable} {os : List Occurrence} {s : Symbol}

theorem empty : Records {} [] where
  found := by simp
  apart := by simp
  names := fun k => by cases k <;> rfl
  identities := fun k => by cases k <;> rfl

theorem name_eq_numbered (records : t.Records os) {o : Occurrence} (mem : o ∈ os) :
    ∃ n < t.count o.symbol.sort, o.symbol.sort.numbered n = o.name := by
  have first : o.name ∈ firstsIn o.symbol.sort (·.name) os :=
    mem_firstsIn.mpr ⟨o, mem, rfl, rfl⟩
  simpa [records.names] using first

theorem name_eq_iff (records : t.Records os) {a b : Occurrence} (memA : a ∈ os) (memB : b ∈ os) :
    a.name = b.name ↔ a.symbol.id = b.symbol.id := by
  refine ⟨records.apart a memA b memB, fun same => ?_⟩
  have first := (records.found a.symbol.id a.name).mpr ⟨a, memA, rfl, rfl⟩
  have second := (records.found a.symbol.id b.name).mpr ⟨b, memB, same.symm, rfl⟩
  exact Option.some.inj (first.symm.trans second)

theorem numberedInOrder (records : t.Records os) : NumberedInOrder os := by
  constructor
  case consistent => exact fun a memA b memB => records.name_eq_iff memA memB
  case parameters =>
    rw [records.identities]
    exact records.names .parameter
  case labels =>
    rw [records.identities]
    exact records.names .label

/-- A symbol that has a name is given it again. -/
theorem again {name : String} (records : t.Records os) (known : t.assigned.lookup s.id = some name)
    (sorts : SortsApart (os ++ [⟨s, name⟩])) : t.Records (os ++ [⟨s, name⟩]) := by
  obtain ⟨o, mem, id, same⟩ := (records.found s.id name).mp known
  have sort : o.symbol.sort = s.sort := sorts o (by simp [mem]) ⟨s, name⟩ (by simp) id
  constructor
  case found =>
    intro id' name'
    simp only [List.mem_append, List.mem_singleton, or_and_right, exists_or, exists_eq_left,
      ← records.found]
    grind
  case apart =>
    simp only [List.mem_append, List.mem_singleton]
    grind [records.apart]
  case names =>
    intro k
    rw [firstsIn_concat_of_mem, records.names]
    exact fun own => mem_firstsIn.mpr ⟨o, mem, sort.trans own, same⟩
  case identities =>
    intro k
    rw [firstsIn_concat_of_mem, records.identities]
    exact fun own => mem_firstsIn.mpr ⟨o, mem, sort.trans own, id⟩

/-- A symbol that has no name is given the next number of its sort. -/
theorem new (records : t.Records os) (unknown : t.assigned.lookup s.id = none) :
    (t.assign s).Records (os ++ [⟨s, t.nextName s⟩]) := by
  have fresh (o : Occurrence) (mem : o ∈ os) : o.symbol.id ≠ s.id := by
    intro id
    have known := (records.found s.id o.name).mpr ⟨o, mem, id, rfl⟩
    rw [unknown] at known
    cases known
  have unused (o : Occurrence) (mem : o ∈ os) : o.name ≠ t.nextName s := by
    intro same
    obtain ⟨n, lt, name⟩ := records.name_eq_numbered mem
    rw [← name, nextName_eq] at same
    obtain ⟨sort, number⟩ := SymbolSort.numbered_injective same
    rw [sort] at lt
    omega
  constructor
  case found =>
    intro id name
    rw [assigned_assign, List.lookup_cons]
    simp only [List.mem_append, List.mem_singleton, or_and_right, exists_or, exists_eq_left]
    by_cases own : id = s.id
    · subst own
      have none : ¬ ∃ o ∈ os, o.symbol.id = s.id ∧ o.name = name := by
        rintro ⟨o, mem, same, -⟩
        exact fresh o mem same
      simp only [none, beq_self_eq_true, Option.some.injEq, false_or, true_and]
    · simp only [beq_false_of_ne own, records.found, Ne.symm own, false_and, or_false]
  case apart =>
    simp only [List.mem_append, List.mem_singleton]
    grind [records.apart]
  case names =>
    intro k
    rw [count_assign]
    split
    case isTrue own =>
      have absent : t.nextName s ∉ firstsIn k (·.name) os := by
        rw [mem_firstsIn]
        rintro ⟨o, mem, -, same⟩
        exact unused o mem same
      rw [firstsIn_concat_of_not_mem own absent, records.names, List.range_succ, List.map_append,
        nextName_eq, own]
      rfl
    case isFalse other =>
      rw [firstsIn_concat_of_mem (fun own => absurd own other), records.names]
  case identities =>
    intro k
    rw [count_assign]
    split
    case isTrue own =>
      have absent : s.id ∉ firstsIn k (·.symbol.id) os := by
        rw [mem_firstsIn]
        rintro ⟨o, mem, -, same⟩
        exact fresh o mem same
      rw [firstsIn_concat_of_not_mem own absent, List.length_append, records.identities]
      rfl
    case isFalse other =>
      rw [firstsIn_concat_of_mem (fun own => absurd own other), records.identities]

/-- The table is asked for a name. -/
theorem name (records : t.Records os)
    (sorts : SortsApart (os ++ occurrencesIn [.identifier (t.name s).1 s.referent])) :
    (t.name s).2.Records (os ++ occurrencesIn [.identifier (t.name s).1 s.referent]) := by
  have written (name : String) : occurrencesIn [.identifier name s.referent] =
      if s.ownName = none then [⟨s, name⟩] else [] := by
    simp only [occurrencesIn, List.filterMap_cons, occurrence?_symbol, List.filterMap_nil]
    split <;> simp_all
  cases own : s.ownName with
  | some name => simpa [written, own, NameTable.name] using records
  | none =>
      simp only [written, own, if_true] at sorts ⊢
      simp only [NameTable.name, own] at sorts ⊢
      split at sorts
      case h_1 name known => simpa only [known] using records.again known sorts
      case h_2 unknown => simpa only [unknown] using records.new unknown

/-- The table settles marks in which parameters and labels without a name are symbols. -/
theorem settle {marks : List Mark} (records : t.Records os)
    (symbols : ∀ d, .step d ∈ marks → d.occurrence? = none)
    (sorts : SortsApart (os ++ occurrencesIn (t.settle marks).1)) :
    (t.settle marks).2.Records (os ++ occurrencesIn (t.settle marks).1) := by
  induction marks generalizing t os with
  | nil => simpa [NameTable.settle, occurrencesIn] using records
  | cons mark marks ih =>
      have rest (d : Directive) (mem : .step d ∈ marks) := symbols d (.tail _ mem)
      cases mark with
      | step d =>
          have none : d.occurrence? = none := symbols d List.mem_cons_self
          simp only [NameTable.settle, occurrencesIn, List.filterMap_cons, none] at sorts ⊢
          exact ih records rest sorts
      | symbol s =>
          have parts (ds : List Directive) (d : Directive) :
              os ++ occurrencesIn (d :: ds) = os ++ occurrencesIn [d] ++ occurrencesIn ds := by
            rw [List.append_assoc, occurrencesIn, occurrencesIn, occurrencesIn,
              ← List.filterMap_append, List.singleton_append]
          simp only [NameTable.settle] at sorts ⊢
          rw [parts] at sorts ⊢
          exact ih (records.name (sorts.subset (List.subset_append_left _ _))) rest sorts

end NameTable.Records

/-! ### Writing -/

/-- A mark that names a parameter or label without a name is a symbol, one of certain ones. -/
def Mark.Names (N : Symbol → Prop) : Mark → Prop
  | .step d => d.occurrence? = none
  | .symbol s => N s

def NamesSymbols (N : Symbol → Prop) (d : Draft) : Prop := ∀ mark ∈ d.marks, mark.Names N

section

variable {N : Symbol → Prop}

theorem NamesSymbols.append {a b : Draft} (first : NamesSymbols N a) (second : NamesSymbols N b) :
    NamesSymbols N (a ++ b) := by
  intro mark mem
  cases failed : a.error with
  | none =>
      rw [Draft.append_marks_of_ok failed] at mem
      rcases List.mem_append.mp mem with mem | mem
      · exact first mark mem
      · exact second mark mem
  | some error =>
      rw [Draft.append_of_error failed] at mem
      exact first mark mem

theorem NamesSymbols.step {d : Directive} (none : d.occurrence? = none) :
    NamesSymbols N (.ofDirective d) := by
  intro mark mem
  cases List.mem_singleton.mp mem
  exact none

theorem NamesSymbols.symbol {s : Symbol} (named : N s) : NamesSymbols N (.ofMarks [.symbol s]) := by
  intro mark mem
  cases List.mem_singleton.mp mem
  exact named

theorem occurrence?_of_isPlain {d : Directive} (plain : d.isPlain = true) :
    d.occurrence? = none := by
  unfold Directive.occurrence?
  split
  case h_3 => rfl
  all_goals cases plain

theorem NamesSymbols.labelLine {l : Label} (named : N (.label l)) : NamesSymbols N (labelLine l) :=
  .append (.append (.append (.append (.step rfl) (.symbol named)) (.step rfl)) (.step rfl))
    (.step rfl)

theorem NamesSymbols.checkedBlock {b : Draft} (inside : NamesSymbols N b) :
    NamesSymbols N (checkedBlock b) :=
  .append (.append (.append (.append (.append (.append (.step rfl) (.step rfl)) (.step rfl))
    (.step rfl)) inside) (.step rfl)) (.step rfl)

theorem writingRules_namesSymbols :
    WritingRules N (fun d _ => NamesSymbols N d) (fun d _ => NamesSymbols N d) where
  empty := fun _ mem => nomatch mem
  append := .append
  plain := fun plain => .step (occurrence?_of_isPlain plain)
  symbol := fun _ => .symbol
  failure := fun _ _ _ mem => nomatch mem
  bracketed := fun _ inside => .append (.append (.step rfl) inside) (.step rfl)
  braced := fun inside => .append (.append (.append (.append (.append (.step rfl) (.step rfl))
    (.step rfl)) inside) (.step rfl)) (.step rfl)
  inside := fun named => named
  appendInside := .append
  label := fun _ => .labelLine

/-- What occurs where marks are settled is one of the symbols that they name. -/
theorem NameTable.names_of_mem_settle {t : NameTable} {marks : List Mark} {o : Occurrence}
    (named : ∀ mark ∈ marks, mark.Names N) (mem : o ∈ occurrencesIn (t.settle marks).1) :
    N o.symbol := by
  induction marks generalizing t with
  | nil => cases mem
  | cons mark marks ih =>
      obtain ⟨first, rest⟩ := List.forall_mem_cons.mp named
      obtain ⟨d, inside, occurs⟩ := List.mem_filterMap.mp mem
      cases mark with
      | step d' =>
          rcases List.mem_cons.mp inside with rfl | inside
          · exact absurd (occurs.symm.trans first) (Option.some_ne_none o)
          · exact ih rest (List.mem_filterMap.mpr ⟨d, inside, occurs⟩)
      | symbol s =>
          rcases List.mem_cons.mp inside with rfl | inside
          · rw [occurrence?_symbol] at occurs
            split at occurs
            · cases occurs
              exact first
            · cases occurs
          · exact ih rest (List.mem_filterMap.mpr ⟨d, inside, occurs⟩)

end

/-! ### Items -/

/-- A tree or a lambda. -/
inductive Item where
  | tree (e : Expr)
  | lambda (l : Lambda)

namespace Item

def draft : Item → Draft
  | .tree e => e.draft
  | .lambda l => l.draft

/-- The item mentions only certain symbols. -/
def NamesOnly (N : Symbol → Prop) : Item → Prop
  | .tree e => e.NamesOnly N
  | .lambda l => (∀ p ∈ l.parameters, N (.parameter p)) ∧ l.body.NamesOnly N

theorem namesOnly_true (item : Item) : item.NamesOnly fun _ => True := by
  cases item with
  | tree e => exact e.namesOnly_true
  | lambda l => exact ⟨fun _ _ => ⟨⟩, l.body.namesOnly_true⟩

theorem namesSymbols {N : Symbol → Prop} {item : Item} (named : item.NamesOnly N) :
    NamesSymbols N item.draft := by
  have rules : WritingRules N _ _ := writingRules_namesSymbols
  cases item with
  | tree e => exact (rules.stands_self .checkedBlock named (.inl fun _ => .labelLine)).line
  | lambda l => exact rules.lambda_self .checkedBlock (fun _ => .labelLine) named.1 named.2

end Item

/-- The item is one of the trees, or a lambda with one of them as its body. -/
def Item.IsOver (symbols : List Symbol) (trees : List Expr) : Item → Prop
  | .tree e => e ∈ trees
  | .lambda l => (∀ p ∈ l.parameters, .parameter p ∈ symbols) ∧ l.body ∈ trees

theorem Item.IsOver.namesOnly {k : Supply} {symbols : List Symbol} {trees : List Expr}
    {item : Item} (covered : item.IsOver symbols trees) (identified : Identified k symbols trees) :
    item.NamesOnly (· ∈ symbols) := by
  cases item with
  | tree e => exact identified.trees_named e covered
  | lambda l => exact ⟨covered.1, identified.trees_named l.body covered.2⟩

/-- The directives of items that are written one after the other with the same table, each as far as
it goes. -/
def NameTable.settleAll (t : NameTable) : List Item → List Directive
  | [] => []
  | item :: items =>
    let (first, next) := t.settle item.draft.marks
    first ++ next.settleAll items

theorem NameTable.settleAll_eq (t : NameTable) (items : List Item) :
    t.settleAll items = (t.settle (items.flatMap fun item => item.draft.marks)).1 := by
  induction items generalizing t with
  | nil => rfl
  | cons item items ih => simp only [settleAll, ih, List.flatMap_cons, settle_append]

/-- Items over what is drawn from one supply keep parameters apart from labels. -/
theorem sortsApart_of_drawn {k : Supply} {symbols : List Symbol} {trees : List Expr}
    {items : List Item} (drawn : Drawn k symbols trees)
    (covered : ∀ item ∈ items, item.IsOver symbols trees) :
    SortsApart (occurrencesIn (NameTable.settleAll {} items)) := by
  have identified := drawn.identified
  have named (mark : Mark) (mem : mark ∈ items.flatMap fun item => item.draft.marks) :
      mark.Names (· ∈ symbols) := by
    obtain ⟨item, among, inside⟩ := List.mem_flatMap.mp mem
    exact Item.namesSymbols ((covered item among).namesOnly identified) mark inside
  intro a memA b memB same
  rw [NameTable.settleAll_eq] at memA memB
  have first := NameTable.names_of_mem_settle named memA
  have second := NameTable.names_of_mem_settle named memB
  exact congrArg Symbol.sort (identified.eq_of_id first second same)

/-- The fragments of items that are written to the same page. -/
def Page.writeAll (page : Page) : List Item → List Fragment
  | [] => []
  | item :: items =>
    let (first, next) := page.write item.draft
    first ++ next.writeAll items

/-- A page lays out the directives of all items as one list. -/
theorem Page.writeAll_eq (page : Page) (items : List Item) :
    page.writeAll items = (page.layout.run (page.names.settleAll items)).1 := by
  induction items generalizing page with
  | nil => rfl
  | cons item items ih =>
      simp only [writeAll, ih, NameTable.settleAll, Layout.run_append]
      rfl

end Source

open Source

/-- Items that are written to one page are laid out from directives whose made-up names are numbered
in order. -/
theorem made_up_names_in_order (items : List Item)
    (sorts : SortsApart (occurrencesIn (NameTable.settleAll {} items))) :
    Page.writeAll {} items = (Layout.run {} (NameTable.settleAll {} items)).1 ∧
    NumberedInOrder (occurrencesIn (NameTable.settleAll {} items)) := by
  refine ⟨Page.writeAll_eq {} items, ?_⟩
  let marks := items.flatMap fun item => item.draft.marks
  have symbols (d : Directive) (mem : .step d ∈ marks) : d.occurrence? = none := by
    obtain ⟨item, -, inside⟩ := List.mem_flatMap.mp mem
    exact Item.namesSymbols item.namesOnly_true (.step d) inside
  rw [NameTable.settleAll_eq] at sorts ⊢
  exact (NameTable.Records.empty.settle symbols sorts).numberedInOrder

namespace SharedTable

def x : Parameter := ⟨0, none, .int32⟩

def y : Parameter := ⟨1, none, .int32⟩

def done : Label := ⟨2, none, .int32⟩

def readX : Expr := ⟨3, .parameter x⟩

def readY : Expr := ⟨4, .parameter y⟩

def leaving : Lambda :=
  ⟨none, [x], ⟨7, .block [] [⟨5, .jump .goto done (some readX)⟩, ⟨6, .label done (some readX)⟩]
    .int32⟩, .int32⟩

/-- There is no `==` that assigns. -/
def refused : Expr :=
  ⟨9, .newArray .elements (.vector .int32)
    [readY, ⟨8, .binary .equal readX readY true false .int32⟩]⟩

def sum : Expr := ⟨10, .binary .add readX readY false false .int32⟩

def items : List Item := [.lambda leaving, .tree refused, .tree sum]

def symbols : List Symbol := [.label done, .parameter y, .parameter x]

/-- All that the items are made of is drawn from one supply, in the order of the identities. -/
theorem drawn_items :
    ∃ trees, Drawn 11 symbols trees ∧ ∀ item ∈ items, item.IsOver symbols trees := by
  have named : Drawn 3 symbols [] := .label (.parameter (.parameter (.nothing 0) rfl) rfl) rfl
  refine ⟨[sum, refused, ⟨8, .binary .equal readX readY true false .int32⟩, leaving.body,
    ⟨6, .label done (some readX)⟩, ⟨5, .jump .goto done (some readX)⟩, readY, readX],
    .node (.node (.node (.node (.node (.node (.node (.node named rfl ?_ ?_) rfl ?_ ?_) rfl ?_ ?_)
      rfl ?_ ?_) rfl ?_ ?_) rfl ?_ ?_) rfl ?_ ?_) rfl ?_ ?_, ?_⟩
  all_goals simp [Node.symbols, Node.parameters, Node.labels, Node.children, symbols, items,
    Item.IsOver, leaving]

/-- The second item names `y` before it is refused, and the third goes on from there. -/
theorem sum_goes_on_from_refused :
    refused.draft.error = some ⟨.binary .equal true false, .compoundForm⟩ ∧
    SortsApart (occurrencesIn (NameTable.settleAll {} items)) ∧
    (occurrencesIn (NameTable.settleAll {} items)).map (fun o => (o.symbol.id, o.name)) =
      [(x.id, "var_$0"), (done.id, "label_$0"), (done.id, "label_$0"), (x.id, "var_$0"),
        (y.id, "var_$1"), (x.id, "var_$0"), (y.id, "var_$1")] ∧
    Page.writeAll {} items = (Layout.run {} (NameTable.settleAll {} items)).1 ∧
    NumberedInOrder (occurrencesIn (NameTable.settleAll {} items)) := by
  obtain ⟨trees, drawn, covered⟩ := drawn_items
  have sorts : SortsApart (occurrencesIn (NameTable.settleAll {} items)) :=
    sortsApart_of_drawn drawn covered
  exact ⟨rfl, sorts, rfl, made_up_names_in_order items sorts⟩

end SharedTable

end ExprTree
