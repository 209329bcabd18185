import ExprTree.Lowering
import ExprTree.Proofs.Traversal

/-!
What lowering gives.

`Expr.lower_eq` is the equation of lowering. For each of the derived nodes there is a shape: the
tree that takes its place, described by the nodes it is made of, whatever their identities. The
shapes are stated over lowered parts.
-/

namespace ExprTree

/-- An expression and what lowering makes of it, whatever the supply. -/
abbrev Expr.LowersTo : Expr → Expr → Prop := Visited Expr.lower

namespace Lowering

variable {lower : Expr → Build Expr} {k k' : Supply}

/-! ### Labels of lowered loops -/

/-- The labels of a lowered loop: the two that a program may jump to, and the two of the endless
loop inside. -/
structure LoopLabels where
  breakLabel : Label
  continueLabel : Label
  innerBreak : Label
  innerContinue : Label

/-- The inner labels are the next two of the supply. A label that the loop does not name is a later
one and carries nothing. -/
structure LoopLabels.ChosenFor (ls : LoopLabels) (k : Supply) (breakTo continueTo : Option Label) :
    Prop where
  innerBreak : ls.innerBreak.id = k
  innerContinue : ls.innerContinue.id = k + 1
  breakNamed : ∀ l, breakTo = some l → ls.breakLabel = l
  breakNew : breakTo = none → ls.breakLabel.type = .void ∧ k + 1 < ls.breakLabel.id
  continueNamed : ∀ l, continueTo = some l → ls.continueLabel = l
  continueNew : continueTo = none → k + 1 < ls.continueLabel.id
  apart : breakTo = none → continueTo = none → ls.breakLabel.id ≠ ls.continueLabel.id

theorem labelOr_eq_ok {target : Option Label} {name : String} {l : Label} :
    labelOr target name k = .ok (l, k') ↔
      target = some l ∧ k' = k ∨ target = none ∧ l = ⟨k, some name, .void⟩ ∧ k' = k + 1 := by
  cases target with
  | none => simp only [labelOr, Build.label_eq_ok, reduceCtorEq, false_and, true_and, false_or]
  | some t =>
      simp only [labelOr, Build.pure_eq_ok, Option.some.injEq, reduceCtorEq, false_and, or_false]
      exact and_congr_left' eq_comm

theorem innerLabels_eq_ok {ls : Label × Label} :
    innerLabels k = .ok (ls, k') ↔
      ls = (⟨k, some "inner_loop_break", .void⟩, ⟨k + 1, some "inner_loop_continue", .void⟩) ∧
        k' = k + 2 := by
  simp only [innerLabels, Build.bind_eq_ok, Build.label_eq_ok, Build.pure_eq_ok]
  constructor
  · rintro ⟨a, m, ⟨rfl, rfl⟩, b, m', ⟨rfl, rfl⟩, rfl, rfl⟩
    exact ⟨rfl, rfl⟩
  · rintro ⟨rfl, rfl⟩
    exact ⟨_, _, ⟨rfl, rfl⟩, _, _, ⟨rfl, rfl⟩, rfl, rfl⟩

/-- Labels that are drawn one after the other are chosen as they must be. -/
theorem chosenFor_of_drawn {breakTo continueTo : Option Label} {breakName continueName : String}
    {inner : Label × Label} {breakLabel continueLabel : Label} {m₁ m₂ m₃ : Supply}
    (drawn : innerLabels k = .ok (inner, m₁))
    (breakDrawn : labelOr breakTo breakName m₁ = .ok (breakLabel, m₂))
    (continueDrawn : labelOr continueTo continueName m₂ = .ok (continueLabel, m₃)) :
    LoopLabels.ChosenFor ⟨breakLabel, continueLabel, inner.1, inner.2⟩ k breakTo continueTo := by
  obtain ⟨rfl, rfl⟩ := innerLabels_eq_ok.mp drawn
  rcases labelOr_eq_ok.mp breakDrawn with ⟨rfl, rfl⟩ | ⟨rfl, rfl, rfl⟩ <;>
    rcases labelOr_eq_ok.mp continueDrawn with ⟨rfl, rfl⟩ | ⟨rfl, rfl, rfl⟩ <;>
    constructor <;> simp

/-- What is drawn after the labels of a loop is later than its inner labels. -/
theorem later_of_drawn {breakTo continueTo : Option Label} {breakName continueName : String}
    {inner : Label × Label} {breakLabel continueLabel : Label} {m₁ m₂ m₃ : Supply}
    (drawn : innerLabels k = .ok (inner, m₁))
    (breakDrawn : labelOr breakTo breakName m₁ = .ok (breakLabel, m₂))
    (continueDrawn : labelOr continueTo continueName m₂ = .ok (continueLabel, m₃)) :
    k + 1 < m₃ := by
  obtain ⟨-, rfl⟩ := innerLabels_eq_ok.mp drawn
  rcases labelOr_eq_ok.mp breakDrawn with ⟨-, rfl⟩ | ⟨-, -, rfl⟩ <;>
    rcases labelOr_eq_ok.mp continueDrawn with ⟨-, rfl⟩ | ⟨-, -, rfl⟩ <;> simp

/-! ### Shapes -/

/-- Storing a value to a variable. -/
def Stores (p : Parameter) (value e : Expr) : Prop :=
  ∃ target, e.node = .binary .assign target value false false p.type ∧ target.node = .parameter p

/-- The end of a lowered loop: the place of its break label, with the default of the label's type if
it carries a value. -/
def Closes (l : Label) (e : Expr) : Prop :=
  if l.type.isVoid then e.node = .label l none
  else ∃ fallback, e.node = .label l (some fallback) ∧ fallback.node = .default l.type

/-- The endless loop around a body. -/
def LoopLabels.Repeats (ls : LoopLabels) (statements : List Expr) (e : Expr) : Prop :=
  ∃ inner, e.node = .loop inner (some ls.innerBreak) (some ls.innerContinue) ∧
    inner.node = .block [] statements .void

/-- The choice between another round and leaving the endless loop. -/
def LoopLabels.Chooses (ls : LoopLabels) (test round e : Expr) : Prop :=
  ∃ leave, e.node = .conditional test round (some leave) .void ∧
    leave.node = .jump .breaking ls.innerBreak none

/-- The jump to the next round. -/
def LoopLabels.Again (ls : LoopLabels) (e : Expr) : Prop :=
  e.node = .jump .continuing ls.innerContinue none

/-- The place of the continue label. -/
def LoopLabels.Place (ls : LoopLabels) (e : Expr) : Prop := e.node = .label ls.continueLabel none

/-- A lowered `for`. -/
inductive ForShape (counter : Parameter) (start test step body : Expr) (ls : LoopLabels)
    (e : Expr) : Prop
  | intro (store looping closing choice round place again : Expr)
      (block : e.node = .block [counter] [store, looping, closing] ls.breakLabel.type)
      (stores : Stores counter start store)
      (repeats : ls.Repeats [choice] looping)
      (chooses : ls.Chooses test round choice)
      (rounds : round.node = .block [] [body, place, step, again] .void)
      (places : ls.Place place)
      (goesOn : ls.Again again)
      (closes : Closes ls.breakLabel closing)

/-- A lowered `while`. -/
inductive WhileShape (test body : Expr) (ls : LoopLabels) (e : Expr) : Prop
  | intro (looping closing choice round place again : Expr)
      (block : e.node = .block [] [looping, closing] ls.breakLabel.type)
      (repeats : ls.Repeats [place, choice] looping)
      (chooses : ls.Chooses test round choice)
      (rounds : round.node = .block [] [body, again] .void)
      (places : ls.Place place)
      (goesOn : ls.Again again)
      (closes : Closes ls.breakLabel closing)

/-- A lowered `do ... while`. -/
inductive DoShape (body test : Expr) (ls : LoopLabels) (e : Expr) : Prop
  | intro (looping closing choice place again : Expr)
      (block : e.node = .block [] [looping, closing] ls.breakLabel.type)
      (repeats : ls.Repeats [body, place, choice] looping)
      (chooses : ls.Chooses test again choice)
      (places : ls.Place place)
      (goesOn : ls.Again again)
      (closes : Closes ls.breakLabel closing)

/-- The value, converted unless it is of the type already. -/
def Converts (value : Expr) (type : Ty) (e : Expr) : Prop :=
  if value.type = type then e = value else e.node = .unary .convert value type

/-- Calling a method without arguments on what a variable holds. -/
def CallsOn (p : Parameter) (m : Method) (e : Expr) : Prop :=
  ∃ target, e.node = .call (some target) m [] ∧ target.node = .parameter p

/-- Disposing of what a variable holds unless it is null. -/
inductive DisposesUnlessNull (p : Parameter) (e : Expr) : Prop
  | intro (test call left right : Expr)
      (choice : e.node = .conditional test call none .void)
      (compares : test.node = .binary .notEqual left right false false .boolean)
      (reads : left.node = .parameter p)
      (null : right.node = .constant .null .disposable)
      (calls : CallsOn p .dispose call)

/-- A lowered `using`. -/
inductive UsingShape (disposable : Parameter) (resource body e : Expr) : Prop
  | intro (store value guarded cleanup : Expr)
      (block : e.node = .block [disposable] [store, guarded] body.type)
      (stores : Stores disposable value store)
      (converts : value.node = .unary .convert resource .disposable)
      (guards : guarded.node = .attempt body [] none (some cleanup))
      (disposes : DisposesUnlessNull disposable cleanup)

/-- A lowered `foreach` by index. -/
inductive IndexedShape (array index item : Parameter) (source body : Expr) (ls : LoopLabels)
    (e : Expr) : Prop
  | intro (storeArray storeIndex zero looping closing choice test left length operand round
        storeItem value element place next sum again : Expr)
      (block : e.node =
        .block [array, index, item] [storeArray, storeIndex, looping, closing] ls.breakLabel.type)
      (storesArray : Stores array source storeArray)
      (storesIndex : Stores index zero storeIndex)
      (starts : zero.node = .constant (.int32 0) .int32)
      (repeats : ls.Repeats [choice] looping)
      (chooses : ls.Chooses test round choice)
      (tests : test.node = .binary .lessThan left length false false .boolean)
      (readsIndex : left.node = .parameter index)
      (measures : length.node = .unary .arrayLength operand .int32)
      (readsArray : operand.node = .parameter array)
      (rounds : round.node = .block [] [storeItem, body, place, next, again] .void)
      (storesItem : Stores item value storeItem)
      (converts : Converts element item.type value)
      (picks : ∃ array' index', element.node = .binary .arrayIndex array' index' false false
          (array.type.element?.getD .object) ∧
        array'.node = .parameter array ∧ index'.node = .parameter index)
      (places : ls.Place place)
      (steps : Stores index sum next)
      (adds : ∃ index' one, sum.node = .binary .add index' one false false index.type ∧
        index'.node = .parameter index ∧ one.node = .constant (.int32 1) .int32)
      (goesOn : ls.Again again)
      (closes : Closes ls.breakLabel closing)

/-- What runs when a `foreach` is left, if anything. -/
inductive DisposalShape (enumerator : Parameter) : Option Expr → Prop
  | known (e : Expr) (disposable : enumerator.type.isDisposable = true)
      (calls : CallsOn enumerator .dispose e) : DisposalShape enumerator (some e)
  | needless (other : enumerator.type.isDisposable = false)
      (value : enumerator.type.isValueType = true) : DisposalShape enumerator none
  | asked (disposable : Parameter) (e store value operand check : Expr)
      (other : enumerator.type.isDisposable = false)
      (reference : enumerator.type.isValueType = false)
      (block : e.node = .block [disposable] [store, check] .void)
      (stores : Stores disposable value store)
      (casts : value.node = .unary .typeAs operand .disposable)
      (reads : operand.node = .parameter enumerator)
      (disposes : DisposesUnlessNull disposable check) : DisposalShape enumerator (some e)

/-- The endless loop of a `foreach`, guarded if there is something to dispose of. -/
def Guards (cleanup : Option Expr) (looping e : Expr) : Prop :=
  match cleanup with
  | some cleanup => e.node = .attempt looping [] none (some cleanup)
  | none => e = looping

/-- A lowered `foreach` by an enumerator. -/
inductive EnumeratedShape (protocol : Protocol) (enumerator item : Parameter) (source body : Expr)
    (ls : LoopLabels) (e : Expr) : Prop
  | intro (cleanup : Option Expr)
      (storeEnumerator enumeration receiver guarded looping closing choice test round storeItem
        value current target place again : Expr)
      (block : e.node =
        .block [enumerator, item] [storeEnumerator, guarded, closing] ls.breakLabel.type)
      (storesEnumerator : Stores enumerator enumeration storeEnumerator)
      (enumerates : enumeration.node = .call (some receiver)
        (.getEnumerator protocol.receiver protocol.enumerator) [])
      (receives : Converts source protocol.receiver receiver)
      (guards : Guards cleanup looping guarded)
      (disposal : DisposalShape enumerator cleanup)
      (repeats : ls.Repeats [choice] looping)
      (chooses : ls.Chooses test round choice)
      (moves : CallsOn enumerator (.moveNext protocol.enumerator) test)
      (rounds : round.node = .block [] [storeItem, body, place, again] .void)
      (storesItem : Stores item value storeItem)
      (converts : Converts current item.type value)
      (reads : current.node =
        .member (some target) (.current protocol.enumerator protocol.element))
      (ofEnumerator : target.node = .parameter enumerator)
      (places : ls.Place place)
      (goesOn : ls.Again again)
      (closes : Closes ls.breakLabel closing)

/-! ### What building gives -/

theorem type_of_read {p : Parameter} {e : Expr} (ok : Build.read p k = .ok (e, k')) :
    e.type = p.type := by
  have reads := Build.node_of_checked ok
  obtain ⟨id, node⟩ := e
  cases reads
  rfl

theorem stores_of_assign {p : Parameter} {target value e : Expr} {m m' : Supply}
    (read : Build.read p m = .ok (target, m'))
    (assigned : Build.assign target value k = .ok (e, k')) : Stores p value e := by
  have assigns := Build.node_of_checked assigned
  rw [type_of_read read] at assigns
  exact ⟨target, assigns, Build.node_of_checked read⟩

theorem closes_of_closingLabel {l : Label} {e : Expr} (ok : closingLabel l k = .ok (e, k')) :
    Closes l e := by
  unfold closingLabel at ok
  unfold Closes
  split at ok <;> rename_i isVoid
  · rw [if_pos isVoid]
    exact Build.node_of_checked ok
  · obtain ⟨fallback, _, falls, ok⟩ := Build.bind_eq_ok.mp ok
    rw [if_neg isVoid]
    exact ⟨fallback, Build.node_of_checked ok, Build.node_of_checked falls⟩

theorem LoopLabels.ChosenFor.type_eq {ls : LoopLabels} {breakTo continueTo : Option Label}
    (chosen : ls.ChosenFor k breakTo continueTo) :
    Label.typeOrVoid breakTo = ls.breakLabel.type := by
  cases breakTo with
  | none => exact (chosen.breakNew rfl).1.symm
  | some l =>
      rw [chosen.breakNamed l rfl]
      rfl

/-- What takes the place of a `for`. -/
theorem forShape_of_forLoop {counter : Parameter} {start test step body e : Expr}
    {breakTo continueTo : Option Label}
    (ok : forLoop lower counter start test step body breakTo continueTo k = .ok (e, k')) :
    ∃ start' test' step' body' ls, Visited lower start start' ∧ Visited lower test test' ∧
      Visited lower step step' ∧ Visited lower body body' ∧
      ls.ChosenFor k breakTo continueTo ∧ ForShape counter start' test' step' body' ls e := by
  obtain ⟨inner, _, drawn, ok⟩ := Build.bind_eq_ok.mp ok
  obtain ⟨breakLabel, _, breakDrawn, ok⟩ := Build.bind_eq_ok.mp ok
  obtain ⟨continueLabel, _, continueDrawn, ok⟩ := Build.bind_eq_ok.mp ok
  obtain ⟨body', _, bodyOk, ok⟩ := Build.bind_eq_ok.mp ok
  obtain ⟨place, _, places, ok⟩ := Build.bind_eq_ok.mp ok
  obtain ⟨step', _, stepOk, ok⟩ := Build.bind_eq_ok.mp ok
  obtain ⟨again, _, goesOn, ok⟩ := Build.bind_eq_ok.mp ok
  obtain ⟨round, _, rounds, ok⟩ := Build.bind_eq_ok.mp ok
  obtain ⟨test', _, testOk, ok⟩ := Build.bind_eq_ok.mp ok
  obtain ⟨leave, _, leaves, ok⟩ := Build.bind_eq_ok.mp ok
  obtain ⟨choice, _, chooses, ok⟩ := Build.bind_eq_ok.mp ok
  obtain ⟨endless, _, holds, ok⟩ := Build.bind_eq_ok.mp ok
  obtain ⟨looping, _, loops, ok⟩ := Build.bind_eq_ok.mp ok
  obtain ⟨target, _, reads, ok⟩ := Build.bind_eq_ok.mp ok
  obtain ⟨start', _, startOk, ok⟩ := Build.bind_eq_ok.mp ok
  obtain ⟨store, _, assigns, ok⟩ := Build.bind_eq_ok.mp ok
  obtain ⟨closing, _, closed, ok⟩ := Build.bind_eq_ok.mp ok
  have chosen := chosenFor_of_drawn drawn breakDrawn continueDrawn
  have block := Build.node_of_checked ok
  rw [chosen.type_eq] at block
  exact ⟨start', test', step', body', _, ⟨_, _, startOk⟩, ⟨_, _, testOk⟩, ⟨_, _, stepOk⟩,
    ⟨_, _, bodyOk⟩, chosen,
    .intro store looping closing choice round place again block (stores_of_assign reads assigns)
      ⟨endless, Build.node_of_checked loops, Build.node_of_checked holds⟩
      ⟨leave, Build.node_of_checked chooses, Build.node_of_checked leaves⟩
      (Build.node_of_checked rounds) (Build.node_of_checked places) (Build.node_of_checked goesOn)
      (closes_of_closingLabel closed)⟩

/-- What takes the place of a `while`. -/
theorem whileShape_of_whileLoop {test body e : Expr} {breakTo continueTo : Option Label}
    (ok : whileLoop lower test body breakTo continueTo k = .ok (e, k')) :
    ∃ test' body' ls, Visited lower test test' ∧ Visited lower body body' ∧
      ls.ChosenFor k breakTo continueTo ∧ WhileShape test' body' ls e := by
  obtain ⟨inner, _, drawn, ok⟩ := Build.bind_eq_ok.mp ok
  obtain ⟨breakLabel, _, breakDrawn, ok⟩ := Build.bind_eq_ok.mp ok
  obtain ⟨continueLabel, _, continueDrawn, ok⟩ := Build.bind_eq_ok.mp ok
  obtain ⟨body', _, bodyOk, ok⟩ := Build.bind_eq_ok.mp ok
  obtain ⟨again, _, goesOn, ok⟩ := Build.bind_eq_ok.mp ok
  obtain ⟨round, _, rounds, ok⟩ := Build.bind_eq_ok.mp ok
  obtain ⟨test', _, testOk, ok⟩ := Build.bind_eq_ok.mp ok
  obtain ⟨leave, _, leaves, ok⟩ := Build.bind_eq_ok.mp ok
  obtain ⟨choice, _, chooses, ok⟩ := Build.bind_eq_ok.mp ok
  obtain ⟨place, _, places, ok⟩ := Build.bind_eq_ok.mp ok
  obtain ⟨endless, _, holds, ok⟩ := Build.bind_eq_ok.mp ok
  obtain ⟨looping, _, loops, ok⟩ := Build.bind_eq_ok.mp ok
  obtain ⟨closing, _, closed, ok⟩ := Build.bind_eq_ok.mp ok
  have chosen := chosenFor_of_drawn drawn breakDrawn continueDrawn
  have block := Build.node_of_checked ok
  rw [chosen.type_eq] at block
  exact ⟨test', body', _, ⟨_, _, testOk⟩, ⟨_, _, bodyOk⟩, chosen,
    .intro looping closing choice round place again block
      ⟨endless, Build.node_of_checked loops, Build.node_of_checked holds⟩
      ⟨leave, Build.node_of_checked chooses, Build.node_of_checked leaves⟩
      (Build.node_of_checked rounds) (Build.node_of_checked places) (Build.node_of_checked goesOn)
      (closes_of_closingLabel closed)⟩

/-- What takes the place of a `do ... while`. -/
theorem doShape_of_doWhile {test body e : Expr} {breakTo continueTo : Option Label}
    (ok : doWhile lower body test breakTo continueTo k = .ok (e, k')) :
    ∃ body' test' ls, Visited lower body body' ∧ Visited lower test test' ∧
      ls.ChosenFor k breakTo continueTo ∧ DoShape body' test' ls e := by
  obtain ⟨inner, _, drawn, ok⟩ := Build.bind_eq_ok.mp ok
  obtain ⟨breakLabel, _, breakDrawn, ok⟩ := Build.bind_eq_ok.mp ok
  obtain ⟨continueLabel, _, continueDrawn, ok⟩ := Build.bind_eq_ok.mp ok
  obtain ⟨test', _, testOk, ok⟩ := Build.bind_eq_ok.mp ok
  obtain ⟨again, _, goesOn, ok⟩ := Build.bind_eq_ok.mp ok
  obtain ⟨leave, _, leaves, ok⟩ := Build.bind_eq_ok.mp ok
  obtain ⟨choice, _, chooses, ok⟩ := Build.bind_eq_ok.mp ok
  obtain ⟨body', _, bodyOk, ok⟩ := Build.bind_eq_ok.mp ok
  obtain ⟨place, _, places, ok⟩ := Build.bind_eq_ok.mp ok
  obtain ⟨endless, _, holds, ok⟩ := Build.bind_eq_ok.mp ok
  obtain ⟨looping, _, loops, ok⟩ := Build.bind_eq_ok.mp ok
  obtain ⟨closing, _, closed, ok⟩ := Build.bind_eq_ok.mp ok
  have chosen := chosenFor_of_drawn drawn breakDrawn continueDrawn
  have block := Build.node_of_checked ok
  rw [chosen.type_eq] at block
  exact ⟨body', test', _, ⟨_, _, bodyOk⟩, ⟨_, _, testOk⟩, chosen,
    .intro looping closing choice place again block
      ⟨endless, Build.node_of_checked loops, Build.node_of_checked holds⟩
      ⟨leave, Build.node_of_checked chooses, Build.node_of_checked leaves⟩
      (Build.node_of_checked places) (Build.node_of_checked goesOn)
      (closes_of_closingLabel closed)⟩

theorem converts_of_converted {value e : Expr} {type : Ty}
    (ok : converted value type k = .ok (e, k')) : Converts value type e := by
  unfold converted at ok
  unfold Converts
  split at ok <;> rename_i same
  · rw [if_pos same]
    exact (Build.pure_eq_ok.mp ok).1
  · rw [if_neg same]
    exact Build.node_of_unchecked ok

theorem disposes_of_disposeUnlessNull {p : Parameter} {e : Expr}
    (ok : disposeUnlessNull p k = .ok (e, k')) : DisposesUnlessNull p e := by
  obtain ⟨left, _, reads, ok⟩ := Build.bind_eq_ok.mp ok
  obtain ⟨right, _, null, ok⟩ := Build.bind_eq_ok.mp ok
  obtain ⟨test, _, compares, ok⟩ := Build.bind_eq_ok.mp ok
  obtain ⟨target, _, receives, ok⟩ := Build.bind_eq_ok.mp ok
  obtain ⟨call, _, calls, ok⟩ := Build.bind_eq_ok.mp ok
  exact .intro test call left right (Build.node_of_checked ok) (Build.node_of_checked compares)
    (Build.node_of_checked reads) (Build.node_of_checked null)
    ⟨target, Build.node_of_checked calls, Build.node_of_checked receives⟩

/-- What takes the place of a `using`. -/
theorem usingShape_of_usingBlock {resource body e : Expr}
    (ok : usingBlock lower resource body k = .ok (e, k')) :
    ∃ resource' body', Visited lower resource resource' ∧ Visited lower body body' ∧
      UsingShape ⟨k, some "disposable", .disposable⟩ resource' body' e := by
  obtain ⟨disposable, _, drawn, ok⟩ := Build.bind_eq_ok.mp ok
  obtain ⟨rfl, -⟩ := Build.parameter_eq_ok.mp drawn
  obtain ⟨body', _, bodyOk, ok⟩ := Build.bind_eq_ok.mp ok
  obtain ⟨cleanup, _, disposes, ok⟩ := Build.bind_eq_ok.mp ok
  obtain ⟨resource', _, resourceOk, ok⟩ := Build.bind_eq_ok.mp ok
  obtain ⟨value, _, converts, ok⟩ := Build.bind_eq_ok.mp ok
  obtain ⟨target, _, reads, ok⟩ := Build.bind_eq_ok.mp ok
  obtain ⟨store, _, assigns, ok⟩ := Build.bind_eq_ok.mp ok
  obtain ⟨guarded, _, guards, ok⟩ := Build.bind_eq_ok.mp ok
  exact ⟨resource', body', ⟨_, _, resourceOk⟩, ⟨_, _, bodyOk⟩,
    .intro store value guarded cleanup (Build.node_of_checked ok) (stores_of_assign reads assigns)
      (Build.node_of_unchecked converts) (Build.node_of_checked guards)
      (disposes_of_disposeUnlessNull disposes)⟩

theorem advances_converted (value : Expr) (type : Ty) :
    Build.Yields k (fun _ => True) (converted value type) := by
  unfold converted
  split
  · exact .pure ⟨⟩
  · exact (Build.Yields.unchecked _).imp fun _ _ => ⟨⟩

/-- What takes the place of a `foreach` over a vector. Its parts are lowered when its own variables
have been drawn, the body before the source. -/
theorem exists_of_forEachIndexed {item : Parameter} {source body e : Expr}
    {breakTo continueTo : Option Label}
    (ok : forEachIndexed lower item source body breakTo continueTo k = .ok (e, k')) :
    ∃ m source' body' ls, k + 1 < m ∧
      (∃ a a' b b', m + 2 ≤ a ∧ lower body a = .ok (body', a') ∧ a' ≤ b ∧
        lower source b = .ok (source', b')) ∧
      ls.ChosenFor k breakTo continueTo ∧
      IndexedShape ⟨m, some "array", source.type⟩ ⟨m + 1, some "index", .int32⟩ item source' body'
        ls e := by
  obtain ⟨inner, _, drawn, ok⟩ := Build.bind_eq_ok.mp ok
  obtain ⟨breakLabel, _, breakDrawn, ok⟩ := Build.bind_eq_ok.mp ok
  obtain ⟨continueLabel, m, continueDrawn, ok⟩ := Build.bind_eq_ok.mp ok
  obtain ⟨array, _, arrayDrawn, ok⟩ := Build.bind_eq_ok.mp ok
  obtain ⟨index, _, indexDrawn, ok⟩ := Build.bind_eq_ok.mp ok
  obtain ⟨rfl, rfl⟩ := Build.parameter_eq_ok.mp arrayDrawn
  obtain ⟨rfl, rfl⟩ := Build.parameter_eq_ok.mp indexDrawn
  have reached : m + 2 ≤ m + 1 + 1 := Nat.le_refl _
  obtain ⟨array', _, picksArray, reached, ok⟩ := (Build.Yields.checked _).of_bind reached ok
  obtain ⟨index', _, picksIndex, reached, ok⟩ := (Build.Yields.checked _).of_bind reached ok
  obtain ⟨element, _, picks, reached, ok⟩ := (Build.Yields.checked _).of_bind reached ok
  obtain ⟨addend, _, addsIndex, reached, ok⟩ := (Build.Yields.checked _).of_bind reached ok
  obtain ⟨one, _, addsOne, reached, ok⟩ := (Build.Yields.checked _).of_bind reached ok
  obtain ⟨sum, _, adds, reached, ok⟩ := (Build.Yields.checked _).of_bind reached ok
  obtain ⟨stepTarget, _, stepReads, reached, ok⟩ := (Build.Yields.checked _).of_bind reached ok
  obtain ⟨next, _, steps, reached, ok⟩ := (Build.Yields.checked _).of_bind reached ok
  obtain ⟨itemTarget, _, itemReads, reached, ok⟩ := (Build.Yields.checked _).of_bind reached ok
  obtain ⟨value, _, converts, reached, ok⟩ := (advances_converted _ _).of_bind reached ok
  obtain ⟨storeItem, _, itemAssigns, reached, ok⟩ := (Build.Yields.checked _).of_bind reached ok
  obtain ⟨body', a', bodyOk, ok⟩ := Build.bind_eq_ok.mp ok
  have reached' : a' ≤ a' := Nat.le_refl _
  obtain ⟨place, _, places, reached', ok⟩ := (Build.Yields.checked _).of_bind reached' ok
  obtain ⟨again, _, goesOn, reached', ok⟩ := (Build.Yields.checked _).of_bind reached' ok
  obtain ⟨round, _, rounds, reached', ok⟩ := (Build.Yields.checked _).of_bind reached' ok
  obtain ⟨operand, _, readsArray, reached', ok⟩ := (Build.Yields.checked _).of_bind reached' ok
  obtain ⟨length, _, measures, reached', ok⟩ := (Build.Yields.checked _).of_bind reached' ok
  obtain ⟨left, _, readsIndex, reached', ok⟩ := (Build.Yields.checked _).of_bind reached' ok
  obtain ⟨test, _, tests, reached', ok⟩ := (Build.Yields.checked _).of_bind reached' ok
  obtain ⟨leave, _, leaves, reached', ok⟩ := (Build.Yields.checked _).of_bind reached' ok
  obtain ⟨choice, _, chooses, reached', ok⟩ := (Build.Yields.checked _).of_bind reached' ok
  obtain ⟨endless, _, holds, reached', ok⟩ := (Build.Yields.checked _).of_bind reached' ok
  obtain ⟨looping, _, loops, reached', ok⟩ := (Build.Yields.checked _).of_bind reached' ok
  obtain ⟨arrayTarget, _, arrayReads, reached', ok⟩ := (Build.Yields.checked _).of_bind reached' ok
  obtain ⟨source', _, sourceOk, ok⟩ := Build.bind_eq_ok.mp ok
  obtain ⟨storeArray, _, arrayAssigns, ok⟩ := Build.bind_eq_ok.mp ok
  obtain ⟨indexTarget, _, indexReads, ok⟩ := Build.bind_eq_ok.mp ok
  obtain ⟨zero, _, starts, ok⟩ := Build.bind_eq_ok.mp ok
  obtain ⟨storeIndex, _, indexAssigns, ok⟩ := Build.bind_eq_ok.mp ok
  obtain ⟨closing, _, closed, ok⟩ := Build.bind_eq_ok.mp ok
  have chosen := chosenFor_of_drawn drawn breakDrawn continueDrawn
  have block := Build.node_of_checked ok
  rw [chosen.type_eq] at block
  have picksNode := Build.node_of_checked picks
  rw [type_of_read picksArray] at picksNode
  have addsNode := Build.node_of_checked adds
  rw [type_of_read addsIndex] at addsNode
  exact ⟨m, source', body', _, later_of_drawn drawn breakDrawn continueDrawn,
    ⟨_, _, _, _, reached, bodyOk, reached', sourceOk⟩, chosen,
    .intro storeArray storeIndex zero looping closing choice test left length operand round
      storeItem value element place next sum again block (stores_of_assign arrayReads arrayAssigns)
      (stores_of_assign indexReads indexAssigns) (Build.node_of_checked starts)
      ⟨endless, Build.node_of_checked loops, Build.node_of_checked holds⟩
      ⟨leave, Build.node_of_checked chooses, Build.node_of_checked leaves⟩
      (Build.node_of_checked tests) (Build.node_of_checked readsIndex)
      (Build.node_of_checked measures) (Build.node_of_checked readsArray)
      (Build.node_of_checked rounds) (stores_of_assign itemReads itemAssigns)
      (converts_of_converted converts)
      ⟨array', index', picksNode, Build.node_of_checked picksArray,
        Build.node_of_checked picksIndex⟩
      (Build.node_of_checked places) (stores_of_assign stepReads steps)
      ⟨addend, one, addsNode, Build.node_of_checked addsIndex, Build.node_of_checked addsOne⟩
      (Build.node_of_checked goesOn) (closes_of_closingLabel closed)⟩

theorem indexedShape_of_forEachIndexed {item : Parameter} {source body e : Expr}
    {breakTo continueTo : Option Label}
    (ok : forEachIndexed lower item source body breakTo continueTo k = .ok (e, k')) :
    ∃ m source' body' ls, k + 1 < m ∧ Visited lower source source' ∧ Visited lower body body' ∧
      ls.ChosenFor k breakTo continueTo ∧
      IndexedShape ⟨m, some "array", source.type⟩ ⟨m + 1, some "index", .int32⟩ item source' body'
        ls e := by
  obtain ⟨m, source', body', ls, later, ⟨_, _, _, _, -, bodyOk, -, sourceOk⟩, chosen, shape⟩ :=
    exists_of_forEachIndexed ok
  exact ⟨m, source', body', ls, later, ⟨_, _, sourceOk⟩, ⟨_, _, bodyOk⟩, chosen, shape⟩

theorem disposalShape_of_disposal {enumerator : Parameter} {cleanup : Option Expr}
    (ok : disposal enumerator k = .ok (cleanup, k')) : DisposalShape enumerator cleanup := by
  unfold disposal at ok
  split at ok <;> rename_i disposable
  · obtain ⟨target, _, reads, ok⟩ := Build.bind_eq_ok.mp ok
    obtain ⟨call, _, calls, ok⟩ := Build.bind_eq_ok.mp ok
    obtain ⟨rfl, -⟩ := Build.pure_eq_ok.mp ok
    exact .known call disposable ⟨target, Build.node_of_checked calls, Build.node_of_checked reads⟩
  · split at ok <;> rename_i value
    · obtain ⟨rfl, -⟩ := Build.pure_eq_ok.mp ok
      exact .needless (Bool.eq_false_iff.mpr disposable) value
    · obtain ⟨p, _, drawn, ok⟩ := Build.bind_eq_ok.mp ok
      obtain ⟨check, _, disposes, ok⟩ := Build.bind_eq_ok.mp ok
      obtain ⟨operand, _, reads, ok⟩ := Build.bind_eq_ok.mp ok
      obtain ⟨cast, _, casts, ok⟩ := Build.bind_eq_ok.mp ok
      obtain ⟨target, _, targetReads, ok⟩ := Build.bind_eq_ok.mp ok
      obtain ⟨store, _, assigns, ok⟩ := Build.bind_eq_ok.mp ok
      obtain ⟨block, _, holds, ok⟩ := Build.bind_eq_ok.mp ok
      obtain ⟨rfl, -⟩ := Build.pure_eq_ok.mp ok
      exact .asked p block store cast operand check (Bool.eq_false_iff.mpr disposable)
        (Bool.eq_false_iff.mpr value) (Build.node_of_checked holds)
        (stores_of_assign targetReads assigns) (Build.node_of_unchecked casts)
        (Build.node_of_checked reads) (disposes_of_disposeUnlessNull disposes)

/-- What takes the place of a `foreach` over anything else. -/
theorem enumeratedShape_of_forEachEnumerated {item : Parameter} {source body e : Expr}
    {breakTo continueTo : Option Label}
    (ok : forEachEnumerated lower item source body breakTo continueTo k = .ok (e, k')) :
    ∃ m source' body' ls, k + 1 < m ∧ Visited lower source source' ∧ Visited lower body body' ∧
      ls.ChosenFor k breakTo continueTo ∧
      EnumeratedShape (Protocol.resolve source.type item.type)
        ⟨m, some "enumerator", (Protocol.resolve source.type item.type).enumerator⟩ item source'
        body' ls e := by
  obtain ⟨inner, _, drawn, ok⟩ := Build.bind_eq_ok.mp ok
  obtain ⟨breakLabel, _, breakDrawn, ok⟩ := Build.bind_eq_ok.mp ok
  obtain ⟨continueLabel, m, continueDrawn, ok⟩ := Build.bind_eq_ok.mp ok
  obtain ⟨enumerator, _, enumeratorDrawn, ok⟩ := Build.bind_eq_ok.mp ok
  obtain ⟨source', _, sourceOk, ok⟩ := Build.bind_eq_ok.mp ok
  obtain ⟨receiver, _, receives, ok⟩ := Build.bind_eq_ok.mp ok
  obtain ⟨enumeration, _, enumerates, ok⟩ := Build.bind_eq_ok.mp ok
  obtain ⟨target, _, ofEnumerator, ok⟩ := Build.bind_eq_ok.mp ok
  obtain ⟨current, _, reads, ok⟩ := Build.bind_eq_ok.mp ok
  obtain ⟨itemTarget, _, itemReads, ok⟩ := Build.bind_eq_ok.mp ok
  obtain ⟨value, _, converts, ok⟩ := Build.bind_eq_ok.mp ok
  obtain ⟨storeItem, _, itemAssigns, ok⟩ := Build.bind_eq_ok.mp ok
  obtain ⟨body', _, bodyOk, ok⟩ := Build.bind_eq_ok.mp ok
  obtain ⟨place, _, places, ok⟩ := Build.bind_eq_ok.mp ok
  obtain ⟨again, _, goesOn, ok⟩ := Build.bind_eq_ok.mp ok
  obtain ⟨round, _, rounds, ok⟩ := Build.bind_eq_ok.mp ok
  obtain ⟨moved, _, movesOn, ok⟩ := Build.bind_eq_ok.mp ok
  obtain ⟨test, _, moves, ok⟩ := Build.bind_eq_ok.mp ok
  obtain ⟨leave, _, leaves, ok⟩ := Build.bind_eq_ok.mp ok
  obtain ⟨choice, _, chooses, ok⟩ := Build.bind_eq_ok.mp ok
  obtain ⟨endless, _, holds, ok⟩ := Build.bind_eq_ok.mp ok
  obtain ⟨looping, _, loops, ok⟩ := Build.bind_eq_ok.mp ok
  obtain ⟨cleanup, _, disposal, ok⟩ := Build.bind_eq_ok.mp ok
  obtain ⟨guarded, _, guards, ok⟩ := Build.bind_eq_ok.mp ok
  obtain ⟨enumeratorTarget, _, enumeratorReads, ok⟩ := Build.bind_eq_ok.mp ok
  obtain ⟨storeEnumerator, _, enumeratorAssigns, ok⟩ := Build.bind_eq_ok.mp ok
  obtain ⟨closing, _, closed, ok⟩ := Build.bind_eq_ok.mp ok
  obtain ⟨rfl, -⟩ := Build.parameter_eq_ok.mp enumeratorDrawn
  have chosen := chosenFor_of_drawn drawn breakDrawn continueDrawn
  have block := Build.node_of_checked ok
  rw [chosen.type_eq] at block
  have guardsLoop : Guards cleanup looping guarded := by
    cases cleanup with
    | none => exact (Build.pure_eq_ok.mp guards).1
    | some cleanup => exact Build.node_of_checked guards
  exact ⟨m, source', body', _, later_of_drawn drawn breakDrawn continueDrawn, ⟨_, _, sourceOk⟩,
    ⟨_, _, bodyOk⟩, chosen,
    .intro cleanup storeEnumerator enumeration receiver guarded looping closing choice test round
      storeItem value current target place again block
      (stores_of_assign enumeratorReads enumeratorAssigns) (Build.node_of_checked enumerates)
      (converts_of_converted receives) guardsLoop (disposalShape_of_disposal disposal)
      ⟨endless, Build.node_of_checked loops, Build.node_of_checked holds⟩
      ⟨leave, Build.node_of_checked chooses, Build.node_of_checked leaves⟩
      ⟨moved, Build.node_of_checked moves, Build.node_of_checked movesOn⟩
      (Build.node_of_checked rounds) (stores_of_assign itemReads itemAssigns)
      (converts_of_converted converts) (Build.node_of_checked reads)
      (Build.node_of_checked ofEnumerator) (Build.node_of_checked places)
      (Build.node_of_checked goesOn) (closes_of_closingLabel closed)⟩

end Lowering

/-! ### The equation of lowering -/

theorem Expr.reduceWith_congr {lower lower' : Expr → Build Expr} {e : Expr}
    (agree : ∀ c ∈ e.children, lower c = lower' c) : e.reduceWith lower = e.reduceWith lower' := by
  obtain ⟨id, node⟩ := e
  cases node with
  | forLoop | forEach | whileLoop | doWhile | usingBlock =>
      simp only [Expr.children, Node.children, List.mem_cons, List.not_mem_nil, or_false,
        forall_eq_or_imp, forall_eq] at agree
      simp only [Expr.reduceWith, Lowering.forLoop, Lowering.whileLoop, Lowering.doWhile,
        Lowering.usingBlock, Lowering.forEach, Lowering.forEachIndexed,
        Lowering.forEachEnumerated, agree]
  | _ => rfl

/-- Lowering reduces a derived node and goes on below any other. -/
theorem Expr.lower_eq (e : Expr) :
    e.lower = if e.isDerived then e.reduce else e.walk Expr.lower pure := by
  refine Expr.recurse_eq (fun f g e agree => ?_) e
  split
  · exact Expr.reduceWith_congr agree
  · simp only [Expr.walk, Node.traverse_congr agree]

/-- What lowering makes of a tree: what a derived node is reduced to, the tree as it is, or a node
like its root around the lowered children. -/
theorem Expr.reduced_or_alike_of_lowersTo {e e' : Expr} (lowers : e.LowersTo e') :
    (e.isDerived = true ∧ ∃ k k', e.reduce k = .ok (e', k')) ∨ e' = e ∨
      (e.isDerived = false ∧ e.node.Alike Expr.LowersTo (fun p q => p = q) e'.node) := by
  obtain ⟨k, k', ok⟩ := lowers
  rw [Expr.lower_eq] at ok
  cases derived : e.isDerived with
  | true =>
      rw [if_pos derived] at ok
      exact .inl ⟨rfl, k, k', ok⟩
  | false =>
      rw [derived] at ok
      obtain ⟨node, m, traversed, ok⟩ := Build.bind_eq_ok.mp ok
      have alike := Node.alike_of_traverse traversed
      split at ok
      · exact .inr (.inl (Build.pure_eq_ok.mp ok).1)
      · have plain : node.kind.isDerived = false := by
          rw [← alike.kind_eq]
          exact derived
        unfold Node.renewed at ok
        rw [plain] at ok
        have made := Build.node_of_unchecked ok
        exact .inr (.inr ⟨rfl, made ▸ alike⟩)

/-- A derived node becomes a block. -/
theorem Expr.kind_of_reduce {e e' : Expr} {k k' : Supply} (derived : e.isDerived = true)
    (ok : e.reduce k = .ok (e', k')) : e'.kind = .block := by
  obtain ⟨id, node⟩ := e
  cases node with
  | forLoop =>
      obtain ⟨_, _, _, _, _, _, _, _, _, _, shape⟩ := Lowering.forShape_of_forLoop ok
      cases shape with
      | intro _ _ _ _ _ _ _ block => simp only [Expr.kind, block, Node.kind]
  | forEach item source body breakTo continueTo =>
      have ok : Lowering.forEach Expr.lower item source body breakTo continueTo k = .ok (e', k') :=
        ok
      unfold Lowering.forEach at ok
      split at ok
      · obtain ⟨_, _, _, _, _, _, _, _, shape⟩ := Lowering.indexedShape_of_forEachIndexed ok
        cases shape with
        | intro _ _ _ _ _ _ _ _ _ _ _ _ _ _ _ _ _ _ block => simp only [Expr.kind, block, Node.kind]
      · obtain ⟨_, _, _, _, _, _, _, _, shape⟩ := Lowering.enumeratedShape_of_forEachEnumerated ok
        cases shape with
        | intro _ _ _ _ _ _ _ _ _ _ _ _ _ _ _ _ block => simp only [Expr.kind, block, Node.kind]
  | whileLoop =>
      obtain ⟨_, _, _, _, _, _, shape⟩ := Lowering.whileShape_of_whileLoop ok
      cases shape with
      | intro _ _ _ _ _ _ block => simp only [Expr.kind, block, Node.kind]
  | doWhile =>
      obtain ⟨_, _, _, _, _, _, shape⟩ := Lowering.doShape_of_doWhile ok
      cases shape with
      | intro _ _ _ _ _ block => simp only [Expr.kind, block, Node.kind]
  | usingBlock =>
      obtain ⟨_, _, _, _, shape⟩ := Lowering.usingShape_of_usingBlock ok
      cases shape with
      | intro _ _ _ _ block => simp only [Expr.kind, block, Node.kind]
  | _ => cases derived

end ExprTree
