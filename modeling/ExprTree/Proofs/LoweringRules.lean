import ExprTree.Lowering
import ExprTree.Proofs.AlikeNodes
import ExprTree.Proofs.References

/-!
Rules of lowering.

A derived node is reduced by building new nodes around its lowered parts, one after another. What
holds of building one node, and is kept by going on, holds of the whole
(`LoweringRules.reduceWith`).
The property is one of two buildings side by side, so that it can compare the reductions of nodes
that are alike. A property of one building is one of pairs that ignores the second.
-/

namespace ExprTree

/-- Whether a node may be added by lowering: it is not derived, no lambda, and no constant that
refers to anything. -/
def Node.isSynthetic : Node → Bool
  | .lambda _ => false
  | .constant v _ => v.ref?.isNone
  | node => !node.kind.isDerived

/-- What lowering asks of a way to relate buildings, where `R` relates parts, `N` new nodes and `V`
variables. -/
structure LoweringRules (P : (α : Type) → (α → α → Prop) → Build α → Build α → Prop)
    (R N : Expr → Expr → Prop) (V : Parameter → Parameter → Prop) : Prop where
  pure : ∀ {α : Type} {Q : α → α → Prop} {a b : α}, Q a b → P α Q (pure a) (pure b)
  bind : ∀ {α β : Type} {Q : α → α → Prop} {Q' : β → β → Prop} {x y : Build α}
    {f g : α → Build β}, P α Q x y → (∀ a b, Q a b → P β Q' (f a) (g b)) →
    P β Q' (x >>= f) (y >>= g)
  label : ∀ type name, P Label Eq (Build.label type name) (Build.label type name)
  parameter : ∀ type name, P Parameter (fun p q => p = q ∧ V p q) (Build.parameter type name)
    (Build.parameter type name)
  checked : ∀ {n n' : Node}, n.isSynthetic = true → n.Alike R V n' →
    P Expr N (Build.checked n) (Build.checked n')
  unchecked : ∀ {n n' : Node}, n.isSynthetic = true → n.Alike R V n' →
    P Expr N (Build.unchecked n) (Build.unchecked n')
  part : ∀ {e e' : Expr}, N e e' → R e e'
  partType : ∀ {e e' : Expr}, R e e' → e.type = e'.type
  variableType : ∀ {p q : Parameter}, V p q → p.type = q.type

namespace LoweringRules

variable {P : (α : Type) → (α → α → Prop) → Build α → Build α → Prop} {R N : Expr → Expr → Prop}
  {V : Parameter → Parameter → Prop} (rules : LoweringRules P R N V) {a a' b b' c c' d d' : Expr}
  {p q : Parameter}

include rules

theorem imp {α : Type} {Q Q' : α → α → Prop} {x y : Build α} (first : P α Q x y)
    (weaker : ∀ a b, Q a b → Q' a b) : P α Q' x y := by
  rw [← bind_pure x, ← bind_pure y]
  exact rules.bind first fun a b given => rules.pure (weaker a b given)

/-- To go on with the same thing on both sides. -/
theorem same {α β : Type} {Q : β → β → Prop} {x y : Build α} {f g : α → Build β}
    (first : P α Eq x y) (rest : ∀ a, P β Q (f a) (g a)) : P β Q (x >>= f) (y >>= g) :=
  rules.bind first fun a _ same => same ▸ rest a

/-! ### New nodes -/

theorem node {n n' : Node} (synthetic : n.isSynthetic = true) (alike : n.Alike R V n') :
    P Expr R (Build.checked n) (Build.checked n') :=
  rules.imp (rules.checked synthetic alike) fun _ _ => rules.part

theorem read (related : V p q) : P Expr R (Build.read p) (Build.read q) :=
  rules.node rfl (.parameter related)

theorem binary (op : BinaryOp) (left : R a a') (right : R b b') :
    P Expr R (Build.binary op a b) (Build.binary op a' b') := by
  unfold Build.binary Build.binaryWith
  rw [rules.partType left]
  exact rules.node rfl (.binary left right)

theorem unary (op : UnaryOp) (operand : R a a') :
    P Expr R (Build.unary op a) (Build.unary op a') := by
  unfold Build.unary
  rw [rules.partType operand]
  exact rules.node rfl (.unary operand)

/-- A unary operation of a given type, which is not checked. -/
theorem unaryTyped (op : UnaryOp) (type : Ty) (operand : R a a') :
    P Expr R (Build.unaryTyped op a type) (Build.unaryTyped op a' type) :=
  rules.imp (rules.unchecked rfl (.unary operand)) fun _ _ => rules.part

theorem ifThenElse (test : R a a') (ifTrue : R b b') (ifFalse : R c c') :
    P Expr R (Build.ifThenElse a b c) (Build.ifThenElse a' b' c') :=
  rules.node rfl (.conditional test ifTrue (.some ifFalse))

theorem block {ps qs : List Parameter} {es es' : List Expr} (type : Ty)
    (locals : List.Forall₂ V ps qs) (statements : List.Forall₂ R es es') :
    P Expr R (Build.blockTyped type ps es) (Build.blockTyped type qs es') :=
  rules.node rfl (.block locals statements)

theorem call (target : R a a') (method : Method) :
    P Expr R (Build.call a method []) (Build.call a' method []) :=
  rules.node rfl (.call (.some target) .nil)

/-! ### Parts of lowered loops -/

theorem innerLabels : P (Label × Label) Eq Lowering.innerLabels Lowering.innerLabels :=
  rules.same (rules.label _ _) fun _ => rules.same (rules.label _ _) fun _ => rules.pure rfl

theorem labelOr (target : Option Label) (name : String) :
    P Label Eq (Lowering.labelOr target name) (Lowering.labelOr target name) := by
  cases target with
  | none => exact rules.label _ _
  | some l => exact rules.pure rfl

theorem closingLabel (l : Label) :
    P Expr R (Lowering.closingLabel l) (Lowering.closingLabel l) := by
  unfold Lowering.closingLabel
  split
  · exact rules.node rfl (.label .none)
  · refine rules.bind (rules.node rfl .default) fun _ _ default => ?_
    exact rules.node rfl (.label (.some default))

theorem converted (value : R a a') (type : Ty) :
    P Expr R (Lowering.converted a type) (Lowering.converted a' type) := by
  unfold Lowering.converted
  rw [rules.partType value]
  split
  · exact rules.pure value
  · exact rules.unaryTyped _ _ value

theorem disposeUnlessNull (related : V p q) :
    P Expr R (Lowering.disposeUnlessNull p) (Lowering.disposeUnlessNull q) := by
  refine rules.bind (rules.read related) fun _ _ left => ?_
  refine rules.bind (rules.node rfl .constant) fun _ _ right => ?_
  refine rules.bind (rules.binary _ left right) fun _ _ test => ?_
  refine rules.bind (rules.read related) fun _ _ target => ?_
  refine rules.bind (rules.call target _) fun _ _ disposes => ?_
  exact rules.node rfl (.conditional test disposes .none)

theorem disposal (own : V p p) :
    P (Option Expr) (Option.Rel R) (Lowering.disposal p) (Lowering.disposal p) := by
  unfold Lowering.disposal
  split
  · refine rules.bind (rules.read own) fun _ _ target => ?_
    exact rules.bind (rules.call target _) fun _ _ disposes => rules.pure (.some disposes)
  · split
    · exact rules.pure .none
    · refine rules.bind (rules.parameter _ _) fun q _ ⟨same, related⟩ => ?_
      subst same
      refine rules.bind (rules.disposeUnlessNull related) fun _ _ check => ?_
      refine rules.bind (rules.read own) fun _ _ operand => ?_
      refine rules.bind (rules.unaryTyped _ _ operand) fun _ _ value => ?_
      refine rules.bind (rules.read related) fun _ _ target => ?_
      refine rules.bind (rules.binary _ target value) fun _ _ store => ?_
      refine rules.bind (rules.block _ (.cons related .nil) (.cons store (.cons check .nil)))
        fun _ _ made => ?_
      exact rules.pure (.some made)

theorem guardedBy {cleanup cleanup' : Option Expr} (looping : R a a')
    (final : Option.Rel R cleanup cleanup') :
    P Expr R (Lowering.guardedBy a cleanup) (Lowering.guardedBy a' cleanup') := by
  cases final with
  | none => exact rules.pure looping
  | some final => exact rules.node rfl (.attempt looping .nil .none (.some final))

/-- The endless loop inside a lowered loop. -/
theorem loop {l m : Option Label} (body : R a a') :
    P Expr R (Build.loop a l m) (Build.loop a' l m) :=
  rules.node rfl (.loop body)

theorem jump {kind : JumpKind} {l : Label} :
    P Expr R (Build.jump kind l none) (Build.jump kind l none) :=
  rules.node rfl (.jump .none)

theorem labelAt {l : Label} :
    P Expr R (Build.labelAt l none) (Build.labelAt l none) :=
  rules.node rfl (.label .none)

/-! ### Lowered loops -/

section

variable {lower : Expr → Build Expr} {breakTo continueTo : Option Label}

theorem whileLoop
    (test : P Expr R (lower a) (lower a'))
    (body : P Expr R (lower b) (lower b')) :
    P Expr N (Lowering.whileLoop lower a b breakTo continueTo)
      (Lowering.whileLoop lower a' b' breakTo continueTo) := by
  refine rules.same rules.innerLabels fun inner => ?_
  refine rules.same (rules.labelOr _ _) fun breakLabel => ?_
  refine rules.same (rules.labelOr _ _) fun continueLabel => ?_
  refine rules.bind body fun _ _ body => ?_
  refine rules.bind rules.jump fun _ _ again => ?_
  refine rules.bind (rules.block _ .nil (.cons body (.cons again .nil))) fun _ _ round => ?_
  refine rules.bind test fun _ _ test => ?_
  refine rules.bind rules.jump fun _ _ leave => ?_
  refine rules.bind (rules.ifThenElse test round leave) fun _ _ choice => ?_
  refine rules.bind rules.labelAt fun _ _ place => ?_
  refine rules.bind (rules.block _ .nil (.cons place (.cons choice .nil))) fun _ _ inside => ?_
  refine rules.bind (rules.loop inside) fun _ _ looping => ?_
  refine rules.bind (rules.closingLabel _) fun _ _ closing => ?_
  exact rules.checked rfl (.block .nil (.cons looping (.cons closing .nil)))

theorem doWhile
    (body : P Expr R (lower a) (lower a'))
    (test : P Expr R (lower b) (lower b')) :
    P Expr N (Lowering.doWhile lower a b breakTo continueTo)
      (Lowering.doWhile lower a' b' breakTo continueTo) := by
  refine rules.same rules.innerLabels fun inner => ?_
  refine rules.same (rules.labelOr _ _) fun breakLabel => ?_
  refine rules.same (rules.labelOr _ _) fun continueLabel => ?_
  refine rules.bind test fun _ _ test => ?_
  refine rules.bind rules.jump fun _ _ again => ?_
  refine rules.bind rules.jump fun _ _ leave => ?_
  refine rules.bind (rules.ifThenElse test again leave) fun _ _ choice => ?_
  refine rules.bind body fun _ _ body => ?_
  refine rules.bind rules.labelAt fun _ _ place => ?_
  refine rules.bind (rules.block _ .nil (.cons body (.cons place (.cons choice .nil))))
    fun _ _ inside => ?_
  refine rules.bind (rules.loop inside) fun _ _ looping => ?_
  refine rules.bind (rules.closingLabel _) fun _ _ closing => ?_
  exact rules.checked rfl (.block .nil (.cons looping (.cons closing .nil)))

theorem forLoop (counter : V p q)
    (start : P Expr R (lower a) (lower a'))
    (test : P Expr R (lower b) (lower b'))
    (step : P Expr R (lower c) (lower c'))
    (body : P Expr R (lower d) (lower d')) :
    P Expr N (Lowering.forLoop lower p a b c d breakTo continueTo)
      (Lowering.forLoop lower q a' b' c' d' breakTo continueTo) := by
  refine rules.same rules.innerLabels fun inner => ?_
  refine rules.same (rules.labelOr _ _) fun breakLabel => ?_
  refine rules.same (rules.labelOr _ _) fun continueLabel => ?_
  refine rules.bind body fun _ _ body => ?_
  refine rules.bind rules.labelAt fun _ _ place => ?_
  refine rules.bind step fun _ _ step => ?_
  refine rules.bind rules.jump fun _ _ again => ?_
  refine rules.bind (rules.block _ .nil
    (.cons body (.cons place (.cons step (.cons again .nil))))) fun _ _ round => ?_
  refine rules.bind test fun _ _ test => ?_
  refine rules.bind rules.jump fun _ _ leave => ?_
  refine rules.bind (rules.ifThenElse test round leave) fun _ _ choice => ?_
  refine rules.bind (rules.block _ .nil (.cons choice .nil)) fun _ _ inside => ?_
  refine rules.bind (rules.loop inside) fun _ _ looping => ?_
  refine rules.bind (rules.read counter) fun _ _ target => ?_
  refine rules.bind start fun _ _ start => ?_
  refine rules.bind (rules.binary _ target start) fun _ _ store => ?_
  refine rules.bind (rules.closingLabel _) fun _ _ closing => ?_
  exact rules.checked rfl
    (.block (.cons counter .nil) (.cons store (.cons looping (.cons closing .nil))))

theorem usingBlock
    (resource : P Expr R (lower a) (lower a'))
    (body : P Expr R (lower b) (lower b')) :
    P Expr N (Lowering.usingBlock lower a b)
      (Lowering.usingBlock lower a' b') := by
  refine rules.bind (rules.parameter _ _) fun _ _ ⟨same, disposable⟩ => ?_
  subst same
  refine rules.bind body fun _ _ body => ?_
  refine rules.bind (rules.disposeUnlessNull disposable) fun _ _ cleanup => ?_
  refine rules.bind resource fun _ _ resource => ?_
  refine rules.bind (rules.unaryTyped _ _ resource) fun _ _ value => ?_
  refine rules.bind (rules.read disposable) fun _ _ target => ?_
  refine rules.bind (rules.binary _ target value) fun _ _ store => ?_
  refine rules.bind (rules.guardedBy body (.some cleanup)) fun _ _ guarded => ?_
  rw [rules.partType body]
  exact rules.checked rfl (.block (.cons disposable .nil) (.cons store (.cons guarded .nil)))

theorem forEachIndexed (item : V p q) (type : a.type = a'.type)
    (source : P Expr R (lower a) (lower a'))
    (body : P Expr R (lower b) (lower b')) :
    P Expr N (Lowering.forEachIndexed lower p a b breakTo continueTo)
      (Lowering.forEachIndexed lower q a' b' breakTo continueTo) := by
  refine rules.same rules.innerLabels fun inner => ?_
  refine rules.same (rules.labelOr _ _) fun breakLabel => ?_
  refine rules.same (rules.labelOr _ _) fun continueLabel => ?_
  rw [type]
  refine rules.bind (rules.parameter _ _) fun _ _ ⟨same, array⟩ => ?_
  subst same
  refine rules.bind (rules.parameter _ _) fun _ _ ⟨same, index⟩ => ?_
  subst same
  refine rules.bind (rules.read array) fun _ _ indexed => ?_
  refine rules.bind (rules.read index) fun _ _ position => ?_
  refine rules.bind (rules.binary _ indexed position) fun _ _ element => ?_
  refine rules.bind (rules.read index) fun _ _ addend => ?_
  refine rules.bind (rules.node rfl .constant) fun _ _ one => ?_
  refine rules.bind (rules.binary _ addend one) fun _ _ sum => ?_
  refine rules.bind (rules.read index) fun _ _ stepTarget => ?_
  refine rules.bind (rules.binary _ stepTarget sum) fun _ _ step => ?_
  refine rules.bind (rules.read item) fun _ _ itemTarget => ?_
  rw [rules.variableType item]
  refine rules.bind (rules.converted element _) fun _ _ value => ?_
  refine rules.bind (rules.binary _ itemTarget value) fun _ _ storeItem => ?_
  refine rules.bind body fun _ _ body => ?_
  refine rules.bind rules.labelAt fun _ _ place => ?_
  refine rules.bind rules.jump fun _ _ again => ?_
  refine rules.bind (rules.block _ .nil (.cons storeItem (.cons body (.cons place (.cons step
    (.cons again .nil)))))) fun _ _ round => ?_
  refine rules.bind (rules.read array) fun _ _ operand => ?_
  refine rules.bind (rules.unary _ operand) fun _ _ length => ?_
  refine rules.bind (rules.read index) fun _ _ left => ?_
  refine rules.bind (rules.binary _ left length) fun _ _ test => ?_
  refine rules.bind rules.jump fun _ _ leave => ?_
  refine rules.bind (rules.ifThenElse test round leave) fun _ _ choice => ?_
  refine rules.bind (rules.block _ .nil (.cons choice .nil)) fun _ _ inside => ?_
  refine rules.bind (rules.loop inside) fun _ _ looping => ?_
  refine rules.bind (rules.read array) fun _ _ arrayTarget => ?_
  refine rules.bind source fun _ _ source => ?_
  refine rules.bind (rules.binary _ arrayTarget source) fun _ _ storeArray => ?_
  refine rules.bind (rules.read index) fun _ _ indexTarget => ?_
  refine rules.bind (rules.node rfl .constant) fun _ _ zero => ?_
  refine rules.bind (rules.binary _ indexTarget zero) fun _ _ storeIndex => ?_
  refine rules.bind (rules.closingLabel _) fun _ _ closing => ?_
  exact rules.checked rfl (.block (.cons array (.cons index (.cons item .nil)))
    (.cons storeArray (.cons storeIndex (.cons looping (.cons closing .nil)))))

theorem forEachEnumerated (item : V p q) (type : a.type = a'.type)
    (source : P Expr R (lower a) (lower a'))
    (body : P Expr R (lower b) (lower b')) :
    P Expr N (Lowering.forEachEnumerated lower p a b breakTo continueTo)
      (Lowering.forEachEnumerated lower q a' b' breakTo continueTo) := by
  unfold Lowering.forEachEnumerated
  rw [type, rules.variableType item]
  refine rules.same rules.innerLabels fun inner => ?_
  refine rules.same (rules.labelOr _ _) fun breakLabel => ?_
  refine rules.same (rules.labelOr _ _) fun continueLabel => ?_
  refine rules.bind (rules.parameter _ _) fun _ _ ⟨same, enumerator⟩ => ?_
  subst same
  refine rules.bind source fun _ _ source => ?_
  refine rules.bind (rules.converted source _) fun _ _ receiver => ?_
  refine rules.bind (rules.call receiver _) fun _ _ enumeration => ?_
  refine rules.bind (rules.read enumerator) fun _ _ target => ?_
  refine rules.bind (rules.node rfl (.member (.some target))) fun _ _ current => ?_
  refine rules.bind (rules.read item) fun _ _ itemTarget => ?_
  refine rules.bind (rules.converted current _) fun _ _ value => ?_
  refine rules.bind (rules.binary _ itemTarget value) fun _ _ storeItem => ?_
  refine rules.bind body fun _ _ body => ?_
  refine rules.bind rules.labelAt fun _ _ place => ?_
  refine rules.bind rules.jump fun _ _ again => ?_
  refine rules.bind (rules.block _ .nil (.cons storeItem (.cons body (.cons place
    (.cons again .nil))))) fun _ _ round => ?_
  refine rules.bind (rules.read enumerator) fun _ _ moved => ?_
  refine rules.bind (rules.call moved _) fun _ _ test => ?_
  refine rules.bind rules.jump fun _ _ leave => ?_
  refine rules.bind (rules.ifThenElse test round leave) fun _ _ choice => ?_
  refine rules.bind (rules.block _ .nil (.cons choice .nil)) fun _ _ inside => ?_
  refine rules.bind (rules.loop inside) fun _ _ looping => ?_
  refine rules.bind (rules.disposal enumerator) fun _ _ cleanup => ?_
  refine rules.bind (rules.guardedBy looping cleanup) fun _ _ guarded => ?_
  refine rules.bind (rules.read enumerator) fun _ _ enumeratorTarget => ?_
  refine rules.bind (rules.binary _ enumeratorTarget enumeration) fun _ _ store => ?_
  refine rules.bind (rules.closingLabel _) fun _ _ closing => ?_
  exact rules.checked rfl (.block (.cons enumerator (.cons item .nil))
    (.cons store (.cons guarded (.cons closing .nil))))

theorem forEach (item : V p q) (type : a.type = a'.type)
    (source : P Expr R (lower a) (lower a'))
    (body : P Expr R (lower b) (lower b')) :
    P Expr N (Lowering.forEach lower p a b breakTo continueTo)
      (Lowering.forEach lower q a' b' breakTo continueTo) := by
  unfold Lowering.forEach
  rw [type]
  split
  · exact rules.forEachIndexed item type source body
  · exact rules.forEachEnumerated item type source body

/-- Reductions of derived nodes that are alike are related if the lowerings of their parts are. -/
theorem reduceWith {r : Expr → Expr → Prop} (derived : a.isDerived = true)
    (alike : a.node.Alike r V a'.node) (types : ∀ c c', r c c' → c.type = c'.type)
    (parts : ∀ c ∈ a.children, ∀ c', r c c' →
      P Expr R (lower c) (lower c')) :
    P Expr N (a.reduceWith lower) (a'.reduceWith lower) := by
  obtain ⟨i, node⟩ := a
  obtain ⟨i', node'⟩ := a'
  cases alike with
  | forLoop counter start test step body =>
      simp only [Expr.children, Node.children, List.forall_mem_cons] at parts
      exact rules.forLoop counter (parts.1 _ start) (parts.2.1 _ test) (parts.2.2.1 _ step)
        (parts.2.2.2.1 _ body)
  | forEach item source body =>
      simp only [Expr.children, Node.children, List.forall_mem_cons] at parts
      exact rules.forEach item (types _ _ source) (parts.1 _ source) (parts.2.1 _ body)
  | whileLoop test body =>
      simp only [Expr.children, Node.children, List.forall_mem_cons] at parts
      exact rules.whileLoop (parts.1 _ test) (parts.2.1 _ body)
  | doWhile body test =>
      simp only [Expr.children, Node.children, List.forall_mem_cons] at parts
      exact rules.doWhile (parts.1 _ body) (parts.2.1 _ test)
  | usingBlock resource body =>
      simp only [Expr.children, Node.children, List.forall_mem_cons] at parts
      exact rules.usingBlock (parts.1 _ resource) (parts.2.1 _ body)
  | _ => cases derived

end

end LoweringRules

end ExprTree
