import ExprTree.Build.Node
import ExprTree.Proofs.Tree
import Mathlib.Data.List.Forall2

/-!
Nodes that are alike.

Two nodes are alike when they have the same data in the same places. Which children and which
variables correspond is given, so the relation says nothing of what is below the children. Nodes
that are alike have the same kind, and their parts correspond in order. They have the same static
type and pass the same checks, if parts that correspond have the same types and kinds.
-/

namespace ExprTree

section

variable (r : Expr → Expr → Prop) (v : Parameter → Parameter → Prop)

structure Lambda.Alike (l l' : Lambda) : Prop where
  name : l.name = l'.name
  parameters : List.Forall₂ v l.parameters l'.parameters
  body : r l.body l'.body
  returns : l.returns = l'.returns

structure SwitchCase.Alike (c c' : SwitchCase) : Prop where
  tests : List.Forall₂ r c.tests c'.tests
  body : r c.body c'.body

structure Handler.Alike (h h' : Handler) : Prop where
  tested : h.tested = h'.tested
  caught : Option.Rel v h.caught h'.caught
  filter : Option.Rel r h.filter h'.filter
  body : r h.body h'.body

structure ElementInit.Alike (i i' : ElementInit) : Prop where
  method : i.method = i'.method
  arguments : List.Forall₂ r i.arguments i'.arguments

inductive Binding.Alike : Binding → Binding → Prop
  | assignment {m : Member} {value value' : Expr} (given : r value value') :
      Alike (.assignment m value) (.assignment m value')
  | elements {m : Member} {is is' : List ElementInit}
      (each : List.Forall₂ (ElementInit.Alike r) is is') : Alike (.elements m is) (.elements m is')
  | members {m : Member} {bs bs' : List Binding} (each : List.Forall₂ Alike bs bs') :
      Alike (.members m bs) (.members m bs')

/-- Nodes that are alike, given when their children and variables are. -/
inductive Node.Alike : Node → Node → Prop
  | constant {a : Value} {t : Ty} : Alike (.constant a t) (.constant a t)
  | parameter {p p' : Parameter} (reads : v p p') : Alike (.parameter p) (.parameter p')
  | default {t : Ty} : Alike (.default t) (.default t)
  | lambda {l l' : Lambda} (lambda : l.Alike r v l') : Alike (.lambda l) (.lambda l')
  | unary {op : UnaryOp} {a a' : Expr} {t : Ty} (operand : r a a') :
      Alike (.unary op a t) (.unary op a' t)
  | binary {op : BinaryOp} {a a' b b' : Expr} {assign checked : Bool} {t : Ty} (left : r a a')
      (right : r b b') : Alike (.binary op a b assign checked t) (.binary op a' b' assign checked t)
  | typeTest {op : TypeOp} {a a' : Expr} {t : Ty} (operand : r a a') :
      Alike (.typeTest op a t) (.typeTest op a' t)
  | block {ps ps' : List Parameter} {es es' : List Expr} {t : Ty} (locals : List.Forall₂ v ps ps')
      (statements : List.Forall₂ r es es') : Alike (.block ps es t) (.block ps' es' t)
  | conditional {a a' b b' : Expr} {c c' : Option Expr} {t : Ty} (test : r a a')
      (ifTrue : r b b') (ifFalse : Option.Rel r c c') :
      Alike (.conditional a b c t) (.conditional a' b' c' t)
  | loop {a a' : Expr} {l m : Option Label} (body : r a a') : Alike (.loop a l m) (.loop a' l m)
  | jump {kind : JumpKind} {l : Label} {a a' : Option Expr} (value : Option.Rel r a a') :
      Alike (.jump kind l a) (.jump kind l a')
  | label {l : Label} {a a' : Option Expr} (fallback : Option.Rel r a a') :
      Alike (.label l a) (.label l a')
  | switch {a a' : Expr} {cs cs' : List SwitchCase} {b b' : Option Expr} {t : Ty} (value : r a a')
      (cases : List.Forall₂ (SwitchCase.Alike r) cs cs') (fallback : Option.Rel r b b') :
      Alike (.switch a cs b t) (.switch a' cs' b' t)
  | attempt {a a' : Expr} {hs hs' : List Handler} {b b' c c' : Option Expr} (body : r a a')
      (handlers : List.Forall₂ (Handler.Alike r v) hs hs') (fault : Option.Rel r b b')
      (finalizer : Option.Rel r c c') : Alike (.attempt a hs b c) (.attempt a' hs' b' c')
  | create {t : Ty} {es es' : List Expr} (arguments : List.Forall₂ r es es') :
      Alike (.create t es) (.create t es')
  | newArray {form : ArrayForm} {t : Ty} {es es' : List Expr} (items : List.Forall₂ r es es') :
      Alike (.newArray form t es) (.newArray form t es')
  | listInit {a a' : Expr} {is is' : List ElementInit} (created : r a a')
      (initializers : List.Forall₂ (ElementInit.Alike r) is is') :
      Alike (.listInit a is) (.listInit a' is')
  | memberInit {a a' : Expr} {bs bs' : List Binding} (created : r a a')
      (bindings : List.Forall₂ (Binding.Alike r) bs bs') :
      Alike (.memberInit a bs) (.memberInit a' bs')
  | call {a a' : Option Expr} {m : Method} {es es' : List Expr} (target : Option.Rel r a a')
      (arguments : List.Forall₂ r es es') : Alike (.call a m es) (.call a' m es')
  | member {a a' : Option Expr} {m : Member} (target : Option.Rel r a a') :
      Alike (.member a m) (.member a' m)
  | invocation {a a' : Expr} {es es' : List Expr} {t : Ty} (target : r a a')
      (arguments : List.Forall₂ r es es') : Alike (.invocation a es t) (.invocation a' es' t)
  | index {a a' : Expr} {es es' : List Expr} {t : Ty} (target : r a a')
      (arguments : List.Forall₂ r es es') : Alike (.index a es t) (.index a' es' t)
  | forLoop {p p' : Parameter} {a a' b b' c c' d d' : Expr} {l m : Option Label}
      (counter : v p p') (start : r a a') (test : r b b') (step : r c c') (body : r d d') :
      Alike (.forLoop p a b c d l m) (.forLoop p' a' b' c' d' l m)
  | forEach {p p' : Parameter} {a a' b b' : Expr} {l m : Option Label} (item : v p p')
      (source : r a a') (body : r b b') : Alike (.forEach p a b l m) (.forEach p' a' b' l m)
  | whileLoop {a a' b b' : Expr} {l m : Option Label} (test : r a a') (body : r b b') :
      Alike (.whileLoop a b l m) (.whileLoop a' b' l m)
  | doWhile {a a' b b' : Expr} {l m : Option Label} (body : r a a') (test : r b b') :
      Alike (.doWhile a b l m) (.doWhile a' b' l m)
  | usingBlock {a a' b b' : Expr} (resource : r a a') (body : r b b') :
      Alike (.usingBlock a b) (.usingBlock a' b')

end

/-! ### Weaker relations -/

theorem forall₂_imp_of_mem {α β : Type} {r r' : α → β → Prop} {as : List α} {bs : List β}
    (related : List.Forall₂ r as bs) (each : ∀ a ∈ as, ∀ b, r a b → r' a b) :
    List.Forall₂ r' as bs :=
  ((List.forall₂_and_left _ _).mpr ⟨each, related⟩).imp fun _ _ both => both.1 _ both.2

theorem rel_imp_of_mem {α β : Type} {r r' : α → β → Prop} {a : Option α} {b : Option β}
    (related : Option.Rel r a b) (each : ∀ x ∈ a.toList, ∀ y, r x y → r' x y) :
    Option.Rel r' a b := by
  cases related with
  | none => exact .none
  | some h => exact .some (each _ (List.mem_singleton_self _) _ h)

section

variable {r r' : Expr → Expr → Prop} {v v' : Parameter → Parameter → Prop}

theorem ElementInit.Alike.imp {is is' : List ElementInit}
    (alike : List.Forall₂ (ElementInit.Alike r) is is')
    (each : ∀ c ∈ is.flatMap ElementInit.arguments, ∀ c', r c c' → r' c c') :
    List.Forall₂ (ElementInit.Alike r') is is' := by
  refine forall₂_imp_of_mem alike fun i mem i' alike => ⟨alike.method, ?_⟩
  exact forall₂_imp_of_mem alike.arguments fun d part =>
    each d (List.mem_flatMap.mpr ⟨i, mem, part⟩)

mutual

theorem Binding.Alike.imp : {b b' : Binding} → Binding.Alike r b b' →
    (∀ c ∈ b.children, ∀ c', r c c' → r' c c') → Binding.Alike r' b b'
  | _, _, .assignment given, each => .assignment (each _ (List.mem_singleton_self _) _ given)
  | _, _, .elements alike, each => .elements (ElementInit.Alike.imp alike each)
  | _, _, .members alike, each => .members (Binding.Alike.impList alike each)

theorem Binding.Alike.impList : {bs bs' : List Binding} → List.Forall₂ (Binding.Alike r) bs bs' →
    (∀ c ∈ Binding.childrenList bs, ∀ c', r c c' → r' c c') →
    List.Forall₂ (Binding.Alike r') bs bs'
  | _, _, .nil, _ => .nil
  | _, _, .cons first rest, each =>
      .cons (Binding.Alike.imp first fun c mem => each c (List.mem_append_left _ mem))
        (Binding.Alike.impList rest fun c mem => each c (List.mem_append_right _ mem))

end

/-! ### The other way round -/

theorem rel_reversed {α β : Type} {r : α → β → Prop} {a : Option α} {b : Option β}
    (related : Option.Rel r a b) : Option.Rel (flip r) b a := by
  cases related with
  | none => exact .none
  | some h => exact .some h

theorem ElementInit.Alike.reversed {is is' : List ElementInit}
    (alike : List.Forall₂ (ElementInit.Alike r) is is') :
    List.Forall₂ (ElementInit.Alike (flip r)) is' is :=
  List.Forall₂.flip (alike.imp fun _ _ alike => ⟨alike.method.symm, alike.arguments.flip⟩)

mutual

theorem Binding.Alike.reversed : {b b' : Binding} → Binding.Alike r b b' →
    Binding.Alike (flip r) b' b
  | _, _, .assignment given => .assignment given
  | _, _, .elements alike => .elements (ElementInit.Alike.reversed alike)
  | _, _, .members alike => .members (Binding.Alike.reversedList alike)

theorem Binding.Alike.reversedList : {bs bs' : List Binding} →
    List.Forall₂ (Binding.Alike r) bs bs' → List.Forall₂ (Binding.Alike (flip r)) bs' bs
  | _, _, .nil => .nil
  | _, _, .cons first rest => .cons first.reversed (Binding.Alike.reversedList rest)

end

theorem Node.Alike.reversed {n n' : Node} (alike : n.Alike r v n') :
    n'.Alike (flip r) (flip v) n := by
  cases alike with
  | constant => exact .constant
  | parameter reads => exact .parameter reads
  | default => exact .default
  | lambda lambda =>
      exact .lambda ⟨lambda.name.symm, lambda.parameters.flip, lambda.body, lambda.returns.symm⟩
  | unary a => exact .unary a
  | binary a b => exact .binary a b
  | typeTest a => exact .typeTest a
  | block ps es => exact .block ps.flip es.flip
  | conditional a b c => exact .conditional a b (rel_reversed c)
  | loop a => exact .loop a
  | jump a => exact .jump (rel_reversed a)
  | label a => exact .label (rel_reversed a)
  | switch a cs b =>
      refine .switch a (List.Forall₂.flip (cs.imp fun _ _ alike => ?_)) (rel_reversed b)
      exact ⟨alike.tests.flip, alike.body⟩
  | attempt a hs b c =>
      refine .attempt a (List.Forall₂.flip (hs.imp fun _ _ alike => ?_)) (rel_reversed b)
        (rel_reversed c)
      exact ⟨alike.tested.symm, rel_reversed alike.caught, rel_reversed alike.filter, alike.body⟩
  | create es => exact .create es.flip
  | newArray es => exact .newArray es.flip
  | listInit a is => exact .listInit a (ElementInit.Alike.reversed is)
  | memberInit a bs => exact .memberInit a (Binding.Alike.reversedList bs)
  | call a es => exact .call (rel_reversed a) es.flip
  | member a => exact .member (rel_reversed a)
  | invocation a es => exact .invocation a es.flip
  | index a es => exact .index a es.flip
  | forLoop p a b c d => exact .forLoop p a b c d
  | forEach p a b => exact .forEach p a b
  | whileLoop a b => exact .whileLoop a b
  | doWhile a b => exact .doWhile a b
  | usingBlock a b => exact .usingBlock a b

/-! ### Nodes that are like themselves -/

theorem rel_of_mem {α : Type} {r : α → α → Prop} {a : Option α} (each : ∀ x ∈ a.toList, r x x) :
    Option.Rel r a a := by
  cases a with
  | none => exact .none
  | some x => exact .some (each x (List.mem_singleton_self x))

mutual

theorem Binding.Alike.refl : (b : Binding) → Binding.Alike Eq b b
  | .assignment .. => .assignment rfl
  | .elements .. => .elements (List.forall₂_same.mpr fun _ _ => ⟨rfl, List.forall₂_refl _⟩)
  | .members _ nested => .members (Binding.Alike.refl_list nested)

theorem Binding.Alike.refl_list : (bs : List Binding) → List.Forall₂ (Binding.Alike Eq) bs bs
  | [] => .nil
  | b :: bs => .cons (Binding.Alike.refl b) (Binding.Alike.refl_list bs)

end

theorem Node.Alike.refl (n : Node) : n.Alike Eq Eq n := by
  have rel (a : Option Expr) : Option.Rel Eq a a := rel_of_mem fun _ _ => rfl
  cases n with
  | lambda => exact .lambda ⟨rfl, List.forall₂_refl _, rfl, rfl⟩
  | block => exact .block (List.forall₂_refl _) (List.forall₂_refl _)
  | conditional => exact .conditional rfl rfl (rel _)
  | jump => exact .jump (rel _)
  | label => exact .label (rel _)
  | switch =>
      exact .switch rfl (List.forall₂_same.mpr fun _ _ => ⟨List.forall₂_refl _, rfl⟩) (rel _)
  | attempt =>
      refine .attempt rfl (List.forall₂_same.mpr fun h _ => ?_) (rel _) (rel _)
      exact ⟨rfl, rel_of_mem fun _ _ => rfl, rel _, rfl⟩
  | create => exact .create (List.forall₂_refl _)
  | newArray => exact .newArray (List.forall₂_refl _)
  | listInit =>
      exact .listInit rfl (List.forall₂_same.mpr fun _ _ => ⟨rfl, List.forall₂_refl _⟩)
  | memberInit _ bindings => exact .memberInit rfl (Binding.Alike.refl_list bindings)
  | call => exact .call (rel _) (List.forall₂_refl _)
  | member => exact .member (rel _)
  | invocation => exact .invocation rfl (List.forall₂_refl _)
  | index => exact .index rfl (List.forall₂_refl _)
  | _ => constructor <;> rfl

/-! ### Parts of nodes that are alike -/

theorem forall₂_toList {α β : Type} {r : α → β → Prop} {a : Option α} {b : Option β}
    (related : Option.Rel r a b) : List.Forall₂ r a.toList b.toList := by
  cases related with
  | none => exact .nil
  | some h => exact .cons h .nil

theorem isEmpty_eq_of_forall₂ {α β : Type} {r : α → β → Prop} {as : List α} {bs : List β}
    (related : List.Forall₂ r as bs) : as.isEmpty = bs.isEmpty := by
  cases related <;> rfl

theorem isSome_eq_of_rel {α β : Type} {r : α → β → Prop} {a : Option α} {b : Option β}
    (related : Option.Rel r a b) : a.isSome = b.isSome := by
  cases related <;> rfl

theorem ElementInit.Alike.forall₂_arguments {is is' : List ElementInit}
    (alike : List.Forall₂ (ElementInit.Alike r) is is') :
    List.Forall₂ r (is.flatMap ElementInit.arguments) (is'.flatMap ElementInit.arguments) :=
  List.rel_flatMap alike fun _ _ alike => alike.arguments

mutual

theorem Binding.Alike.forall₂_children : {b b' : Binding} → Binding.Alike r b b' →
    List.Forall₂ r b.children b'.children
  | _, _, .assignment given => .cons given .nil
  | _, _, .elements alike => ElementInit.Alike.forall₂_arguments alike
  | _, _, .members alike => Binding.Alike.forall₂_childrenList alike

theorem Binding.Alike.forall₂_childrenList : {bs bs' : List Binding} →
    List.Forall₂ (Binding.Alike r) bs bs' →
    List.Forall₂ r (Binding.childrenList bs) (Binding.childrenList bs')
  | _, _, .nil => .nil
  | _, _, .cons first rest =>
      List.rel_append first.forall₂_children (Binding.Alike.forall₂_childrenList rest)

end

theorem Node.Alike.forall₂_children {n n' : Node} (alike : n.Alike r v n') :
    List.Forall₂ r n.children n'.children := by
  cases alike with
  | constant | parameter | default => exact .nil
  | lambda lambda => exact .cons lambda.body .nil
  | unary a | typeTest a | loop a => exact .cons a .nil
  | binary a b | usingBlock a b | whileLoop a b | doWhile a b => exact .cons a (.cons b .nil)
  | forEach _ a b => exact .cons a (.cons b .nil)
  | forLoop _ a b c d => exact .cons a (.cons b (.cons c (.cons d .nil)))
  | block _ es | create es | newArray es => exact es
  | jump a | label a | member a => exact forall₂_toList a
  | conditional a b c => exact .cons a (.cons b (forall₂_toList c))
  | switch a cs b =>
      refine .cons a (List.rel_append (List.rel_flatMap cs fun c c' alike => ?_) (forall₂_toList b))
      exact List.rel_append alike.tests (.cons alike.body .nil)
  | attempt a hs b c =>
      refine .cons a (List.rel_append (List.rel_append (List.rel_flatMap hs fun h h' alike => ?_)
        (forall₂_toList b)) (forall₂_toList c))
      exact List.rel_append (forall₂_toList alike.filter) (.cons alike.body .nil)
  | listInit a is => exact .cons a (ElementInit.Alike.forall₂_arguments is)
  | memberInit a bs => exact .cons a (Binding.Alike.forall₂_childrenList bs)
  | call a es => exact List.rel_append (forall₂_toList a) es
  | invocation a es | index a es => exact .cons a es

theorem Node.Alike.forall₂_parameters {n n' : Node} (alike : n.Alike r v n') :
    List.Forall₂ v n.parameters n'.parameters := by
  cases alike with
  | parameter reads => exact .cons reads .nil
  | lambda lambda => exact lambda.parameters
  | block locals => exact locals
  | attempt _ hs => exact List.rel_filterMap (fun _ _ alike => alike.caught) hs
  | forLoop counter => exact .cons counter .nil
  | forEach item => exact .cons item .nil
  | _ => exact .nil

theorem Node.Alike.kind_eq {n n' : Node} (alike : n.Alike r v n') : n.kind = n'.kind := by
  cases alike <;> rfl

theorem Lambda.Alike.type_eq {l l' : Lambda} (alike : l.Alike r v l')
    (locals : ∀ p q, v p q → p.type = q.type) : l.type = l'.type := by
  have types : _ = _ := List.forall₂_eq_eq_eq ▸ List.rel_map locals alike.parameters
  simp only [Lambda.type, types, alike.returns]

/-- Nodes that are alike have the same type, if that holds of their parts. -/
theorem Node.Alike.type_eq {n n' : Node} (alike : n.Alike r v n')
    (each : ∀ c ∈ n.children, ∀ c', r c c' → c.type = c'.type)
    (locals : ∀ p q, v p q → p.type = q.type) : n.type = n'.type := by
  cases alike with
  | parameter reads => exact locals _ _ reads
  | lambda lambda => exact lambda.type_eq locals
  | attempt body => exact each _ List.mem_cons_self _ body
  | listInit created => exact each _ List.mem_cons_self _ created
  | memberInit created => exact each _ List.mem_cons_self _ created
  | usingBlock _ body => exact each _ (.tail _ List.mem_cons_self) _ body
  | _ => rfl

/-- Nodes that are alike pass the same checks, if their parts have the same types and kinds. -/
theorem Node.Alike.check_eq {n n' : Node} (alike : n.Alike r v n')
    (each : ∀ c c', r c c' → c.type = c'.type ∧ c.kind = c'.kind)
    (locals : ∀ p q, v p q → p.type = q.type) : n.check = n'.check := by
  have writable {c c' : Expr} (related : r c c') : checkWritable c = checkWritable c' := by
    simp only [checkWritable, Expr.isWritable, (each c c' related).2]
  have array {c c' : Expr} (related : r c c') : checkArray c = checkArray c' := by
    simp only [checkArray, (each c c' related).1]
  have test {c c' : Expr} (role : TestRole) (related : r c c') :
      checkTest role c = checkTest role c' := by
    simp only [checkTest, (each c c' related).1]
  cases alike with
  | @unary op a a' t operand =>
      cases op with
      | arrayLength => exact array operand
      | preIncrementAssign | postIncrementAssign | preDecrementAssign | postDecrementAssign =>
          exact writable operand
      | _ => rfl
  | binary left right =>
      simp only [Node.check, checkBinary, writable left, array left, (each _ _ left).1,
        (each _ _ right).1]
  | block _ statements => simp only [Node.check, isEmpty_eq_of_forall₂ statements]
  | conditional a => exact test _ a
  | attempt _ handlers fault finalizer =>
      simp only [Node.check, isEmpty_eq_of_forall₂ handlers, isSome_eq_of_rel fault,
        isSome_eq_of_rel finalizer]
  | listInit created => simp only [Node.check, Expr.isNew, (each _ _ created).2]
  | memberInit created => simp only [Node.check, Expr.isNew, (each _ _ created).2]
  | forLoop counter start a =>
      simp only [Node.check, locals _ _ counter, (each _ _ start).1, test _ a]
  | forEach _ source => simp only [Node.check, (each _ _ source).1]
  | whileLoop a => simp only [Node.check, test _ a]
  | doWhile _ a => simp only [Node.check, test _ a]
  | usingBlock resource => simp only [Node.check, (each _ _ resource).1]
  | _ => rfl

end

end ExprTree
