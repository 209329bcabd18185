import Mathlib.Data.List.Basic
import ExprTree.Proofs.Tree
import ExprTree.Source.Write

/-!
The equation of the writer.

The writer is given by one step for a node, which asks how other trees are written: children, the
statements of a child that is a block, the default of a label among them, and trees that are built
in place of the node. These are no parts of it, and one that is built for `x **= y` is even higher,
but all of them have a smaller writing depth. So the depth to which the step is repeated is never
reached, and what is written of a tree is what the step says (`Expr.draft_eq`).

What is written for a tree that was built can be said in terms of the children of the node
(`unary_draft`, `draft_madePower`, `draft_madeTypeQuery`), and so later proofs go from the drafts of
children to that of a node.
-/

namespace ExprTree

/-! ### Writing depths -/

theorem Kind.writingSteps_pos (kind : Kind) : 0 < kind.writingSteps := by
  unfold Kind.writingSteps
  split <;> decide

namespace Expr

theorem writingDepth_eq (e : Expr) :
    e.writingDepth = e.kind.writingSteps + (e.children.map Expr.writingDepth).foldr max 0 := by
  refine Expr.recurse_eq (fun f g e agree => ?_) e
  rw [List.map_congr_left agree]

theorem writingDepth_pos (e : Expr) : 0 < e.writingDepth := by
  rw [writingDepth_eq]
  exact Nat.add_pos_left e.kind.writingSteps_pos _

theorem writingDepth_lt_of_mem_children {c e : Expr} (mem : c ∈ e.children) :
    c.writingDepth < e.writingDepth := by
  have below {es : List Expr} (mem : c ∈ es) :
      c.writingDepth ≤ (es.map Expr.writingDepth).foldr max 0 := by
    induction mem with
    | head => exact Nat.le_max_left _ _
    | tail _ _ ih => exact Nat.le_trans ih (Nat.le_max_right _ _)
  have steps := e.kind.writingSteps_pos
  have least := below mem
  rw [writingDepth_eq e]
  omega

theorem writingDepth_of_child {d e : Expr} (only : d.children = [e]) :
    d.writingDepth = d.kind.writingSteps + e.writingDepth := by
  rw [writingDepth_eq, only, List.map_cons, List.map_nil, List.foldr_cons, List.foldr_nil,
    Nat.max_zero]

theorem writingDepth_of_children {d left right : Expr} (both : d.children = [left, right]) :
    d.writingDepth = d.kind.writingSteps + max left.writingDepth right.writingDepth := by
  rw [writingDepth_eq, both, List.map_cons, List.map_cons, List.map_nil, List.foldr_cons,
    List.foldr_cons, List.foldr_nil, Nat.max_zero]

end Expr

namespace Source

theorem writingDepth_madeConstant (v : Value) : (madeConstant v).writingDepth = 1 := by
  rw [Expr.writingDepth_eq]
  rfl

theorem writingDepth_madePower (left right : Expr) :
    (madePower left right).writingDepth = 1 + max left.writingDepth right.writingDepth :=
  Expr.writingDepth_of_children rfl

/-- Two writers write a tree, and every tree that is written no deeper, in the same way. -/
def AgreeTo (f g : Expr → Draft) (e : Expr) : Prop :=
  ∀ d : Expr, d.writingDepth ≤ e.writingDepth → f d = g d

/-- Two writers write every tree that is written less deep in the same way. -/
def AgreeBelow (f g : Expr → Draft) (e : Expr) : Prop :=
  ∀ d : Expr, d.writingDepth < e.writingDepth → f d = g d

variable {f g : Expr → Draft}

theorem AgreeTo.self {e : Expr} (same : AgreeTo f g e) : f e = g e := same e (Nat.le_refl _)

theorem AgreeBelow.child {e c : Expr} (same : AgreeBelow f g e) (mem : c ∈ e.children) :
    AgreeTo f g c := by
  intro d le
  exact same d (Nat.lt_of_le_of_lt le (Expr.writingDepth_lt_of_mem_children mem))

theorem AgreeTo.child {e c : Expr} (same : AgreeTo f g e) (mem : c ∈ e.children) :
    AgreeTo f g c :=
  AgreeBelow.child (fun d lower => same d (Nat.le_of_lt lower)) mem

/-! ### The parts of the step -/

theorem operand_congr {e : Expr} (same : AgreeTo f g e) : operand f e = operand g e := by
  simp only [operand, same.self]

theorem target_congr {e : Expr} (same : AgreeTo f g e) : target f e = target g e := by
  simp only [target, same.self]

theorem map_congr {es : List Expr} (same : ∀ e ∈ es, AgreeTo f g e) : es.map f = es.map g :=
  List.map_congr_left fun e mem => (same e mem).self

theorem statements_congr {type : Ty} {es : List Expr} (same : ∀ e ∈ es, AgreeTo f g e) :
    statements f type es = statements g type es := by
  induction es with
  | nil => rfl
  | cons e es ih =>
      have rest := ih fun d mem => same d (List.mem_cons_of_mem _ mem)
      have first : AgreeTo f g e := same e (List.mem_cons_self ..)
      simp only [statements, rest, statement, first.self]
      cases node : e.node with
      | label l fallback =>
          cases fallback with
          | none => rfl
          | some fallback =>
              have child : fallback ∈ e.children := by
                simp only [Expr.children, node, Node.children, Option.toList_some,
                  List.mem_singleton]
              simp only [(first.child child).self]
      | _ => rfl

theorem block_congr {locals : List Parameter} {type : Ty} {es : List Expr}
    (same : ∀ e ∈ es, AgreeTo f g e) : block f locals es type = block g locals es type := by
  simp only [block, statements_congr same]

theorem body_congr {type : Ty} {e : Expr} (same : AgreeTo f g e) :
    body f type e = body g type e := by
  have single : statements f type [e] = statements g type [e] :=
    statements_congr fun d mem => by rwa [List.mem_singleton.mp mem]
  unfold body
  cases node : e.node with
  | block locals es blockType =>
      refine block_congr fun d mem => same.child ?_
      simpa only [Expr.children, node, Node.children] using mem
  | _ => simp only [single]

theorem bodyLines_congr {type : Ty} {e : Expr} (same : AgreeTo f g e) :
    bodyLines f type e = bodyLines g type e := by
  simp only [bodyLines, body_congr same]

theorem introduced_congr {word : String} {type : Ty} {e : Expr} (same : AgreeTo f g e) :
    introduced f word type e = introduced g word type e := by
  simp only [introduced, bodyLines_congr same]

theorem headed_congr {word : String} {a b : Draft} {e : Expr} (heads : a = b)
    (same : AgreeTo f g e) : headed f word a e = headed g word b e := by
  simp only [headed, heads, bodyLines_congr same]

theorem unary_congr {id : Identity} {op : UnaryOp} {e : Expr} {type : Ty}
    (same : AgreeBelow f g ⟨id, .unary op e type⟩) : unary f op e type = unary g op e type := by
  have inner : AgreeTo f g e := same.child (List.mem_singleton_self e)
  have depth : Expr.writingDepth ⟨id, .unary op e type⟩ =
      (Kind.unary op).writingSteps + e.writingDepth := Expr.writingDepth_of_child rfl
  have positive := e.writingDepth_pos
  -- A comparison or a sum with a constant is built of the operand.
  have built (op' : BinaryOp) (v : Value) (steps : (Kind.unary op).writingSteps = 2)
      (plain : (Kind.binary op' false false).writingSteps = 1) :
      f (madeBinary op' e (madeConstant v)) = g (madeBinary op' e (madeConstant v)) := by
    have sum : (madeBinary op' e (madeConstant v)).writingDepth =
        (Kind.binary op' false false).writingSteps +
          max e.writingDepth (madeConstant v).writingDepth := Expr.writingDepth_of_children rfl
    refine same _ ?_
    rw [depth, sum, writingDepth_madeConstant, steps, plain]
    omega
  cases op with
  | isTrue | isFalse | increment | decrement => exact built _ _ rfl rfl
  | arrayLength =>
      have length : (madeLength e).writingDepth = 1 + e.writingDepth :=
        Expr.writingDepth_of_child rfl
      refine same _ ?_
      rw [depth, length]
      exact Nat.add_lt_add_right (by decide) _
  | _ => simp only [unary, leading, conversion, operand_congr inner, inner.self]

theorem binary_congr {id : Identity} {op : BinaryOp} {left right : Expr} {assign checked : Bool}
    {type : Ty} (same : AgreeBelow f g ⟨id, .binary op left right assign checked type⟩) :
    binary f op left right assign checked = binary g op left right assign checked := by
  have lefts : AgreeTo f g left := same.child List.mem_cons_self
  have rights : AgreeTo f g right := same.child (.tail _ List.mem_cons_self)
  have tokens : binaryToken f op left right assign checked =
      binaryToken g op left right assign checked := by
    simp only [binaryToken, operand_congr lefts, operand_congr rights, lefts.self, rights.self]
  have depth : Expr.writingDepth ⟨id, .binary op left right assign checked type⟩ =
      (Kind.binary op assign checked).writingSteps + max left.writingDepth right.writingDepth :=
    Expr.writingDepth_of_children rfl
  cases op with
  | power =>
      cases assign with
      | true =>
          have built : f (madeBinary .assign left (madePower left right)) =
              g (madeBinary .assign left (madePower left right)) := by
            have stored : (madeBinary .assign left (madePower left right)).writingDepth =
                1 + max left.writingDepth (madePower left right).writingDepth :=
              Expr.writingDepth_of_children rfl
            refine same _ ?_
            rw [depth, stored, writingDepth_madePower]
            simp only [Kind.writingSteps]
            omega
          simp only [binary, tokens, if_true, built]
      | false =>
          have built : f (madePower left right) = g (madePower left right) := by
            refine same _ ?_
            rw [depth, writingDepth_madePower]
            exact Nat.add_lt_add_right (Nat.lt_succ_self 1) _
          simp only [binary, tokens, Bool.false_eq_true, if_false, built]
  | _ => simp only [binary, tokens, lefts.self, rights.self, target_congr lefts]

theorem typeTest_congr {id : Identity} {op : TypeOp} {e : Expr} {tested : Ty}
    (same : AgreeBelow f g ⟨id, .typeTest op e tested⟩) :
    typeTest f op e tested = typeTest g op e tested := by
  have inner : AgreeTo f g e := same.child (List.mem_singleton_self e)
  cases op with
  | typeIs => simp only [typeTest, inner.self]
  | typeEqual =>
      have built : f (madeTypeQuery e) = g (madeTypeQuery e) := by
        have asked : Expr.writingDepth ⟨id, .typeTest .typeEqual e tested⟩ = 2 + e.writingDepth :=
          Expr.writingDepth_of_child rfl
        have query : (madeTypeQuery e).writingDepth = 1 + e.writingDepth :=
          Expr.writingDepth_of_child rfl
        refine same _ ?_
        rw [asked, query]
        exact Nat.add_lt_add_right (Nat.lt_succ_self 1) _
      simp only [typeTest, built]

theorem conditional_congr {test ifTrue : Expr} {ifFalse : Option Expr} {type : Ty}
    (tests : AgreeTo f g test) (trues : AgreeTo f g ifTrue)
    (falses : ∀ e ∈ ifFalse.toList, AgreeTo f g e) :
    conditional f test ifTrue ifFalse type = conditional g test ifTrue ifFalse type := by
  cases ifFalse with
  | none => simp only [conditional, tests.self, trues.self, bodyLines_congr trues]
  | some ifFalse =>
      have falses : AgreeTo f g ifFalse := falses ifFalse (List.mem_singleton_self _)
      simp only [conditional, tests.self, trues.self, falses.self, bodyLines_congr trues,
        introduced_congr falses]

theorem switchCase_congr {type : Ty} {c : SwitchCase}
    (same : ∀ e ∈ c.tests ++ [c.body], AgreeTo f g e) :
    switchCase f type c = switchCase g type c := by
  have bodies : AgreeTo f g c.body := same _ (List.mem_append_right _ (List.mem_singleton_self _))
  simp only [switchCase, bodyLines_congr bodies]
  refine List.foldr_ext _ _ _ fun test mem rest => ?_
  rw [(same test (List.mem_append_left _ mem)).self]

theorem switch_congr {value : Expr} {cases : List SwitchCase} {fallback : Option Expr} {type : Ty}
    (values : AgreeTo f g value)
    (inner : ∀ e ∈ cases.flatMap fun c => c.tests ++ [c.body], AgreeTo f g e)
    (fallbacks : ∀ e ∈ fallback.toList, AgreeTo f g e) :
    switch f value cases fallback type = switch g value cases fallback type := by
  have folded (last : Draft) : cases.foldr (fun c rest => switchCase f type c ++ rest) last =
      cases.foldr (fun c rest => switchCase g type c ++ rest) last := by
    refine List.foldr_ext _ _ _ fun c mem rest => ?_
    rw [switchCase_congr fun e here => inner e (List.mem_flatMap.mpr ⟨c, mem, here⟩)]
  cases fallback with
  | none => simp only [switch, folded, values.self]
  | some fallback =>
      have last : AgreeTo f g fallback := fallbacks fallback (List.mem_singleton_self _)
      simp only [switch, folded, values.self, bodyLines_congr last]

theorem handler_congr {type : Ty} {h : Handler}
    (same : ∀ e ∈ h.filter.toList ++ [h.body], AgreeTo f g e) :
    handler f type h = handler g type h := by
  obtain ⟨tested, caught, filter, body⟩ := h
  have bodies : AgreeTo f g body := same _ (List.mem_append_right _ (List.mem_singleton_self _))
  cases filter with
  | none => simp only [handler, bodyLines_congr bodies]
  | some filter =>
      have filters : AgreeTo f g filter :=
        same _ (List.mem_append_left _ (List.mem_singleton_self _))
      simp only [handler, bodyLines_congr bodies, filters.self]

theorem attempt_congr {e : Expr} {handlers : List Handler} {fault finalizer : Option Expr}
    (tried : AgreeTo f g e)
    (inner : ∀ e ∈ handlers.flatMap fun h => h.filter.toList ++ [h.body], AgreeTo f g e)
    (faults : ∀ e ∈ fault.toList, AgreeTo f g e)
    (finalizers : ∀ e ∈ finalizer.toList, AgreeTo f g e) :
    attempt f e handlers fault finalizer = attempt g e handlers fault finalizer := by
  have folded (last : Draft) : handlers.foldr (fun h rest => handler f e.type h ++ rest) last =
      handlers.foldr (fun h rest => handler g e.type h ++ rest) last := by
    refine List.foldr_ext _ _ _ fun h mem rest => ?_
    rw [handler_congr fun e here => inner e (List.mem_flatMap.mpr ⟨h, mem, here⟩)]
  have each {part : Option Expr} (parts : ∀ e ∈ part.toList, AgreeTo f g e) (word : String)
      (e : Expr) (isPart : part = some e) : introduced f word .void e = introduced g word .void e :=
    introduced_congr (parts e (by simp only [isPart, Option.toList_some, List.mem_singleton]))
  cases fault with
  | none =>
      cases finalizer with
      | none => simp only [attempt, folded, introduced_congr tried]
      | some last => simp only [attempt, folded, introduced_congr tried, each finalizers _ last rfl]
  | some failed =>
      cases finalizer with
      | none => simp only [attempt, folded, introduced_congr tried, each faults _ failed rfl]
      | some last =>
          simp only [attempt, folded, introduced_congr tried, each faults _ failed rfl,
            each finalizers _ last rfl]

theorem initializers_congr {is : List ElementInit}
    (same : ∀ e ∈ is.flatMap ElementInit.arguments, AgreeTo f g e) :
    initializers f is = initializers g is := by
  have each : ∀ i ∈ is, elementInit f i = elementInit g i := by
    intro i mem
    have inside := fun e (here : e ∈ i.arguments) => same e (List.mem_flatMap.mpr ⟨i, mem, here⟩)
    unfold elementInit
    split
    · next single arguments =>
        exact (inside single (by simp only [arguments, List.mem_singleton])).self
    · rw [map_congr inside]
  simp only [initializers, List.map_congr_left each]

mutual

theorem bindingValue_congr :
    (b : Binding) → (∀ e ∈ b.children, AgreeTo f g e) → bindingValue f b = bindingValue g b
  | .assignment _ value, same => by
      have values : AgreeTo f g value := same value (List.mem_singleton_self _)
      simp only [bindingValue, values.self]
  | .elements _ is, same => by simp only [bindingValue, initializers_congr same]
  | .members _ nested, same => by simp only [bindingValue, bindingLines_congr nested same]

theorem bindingLines_congr :
    (bs : List Binding) → (∀ e ∈ Binding.childrenList bs, AgreeTo f g e) →
      bindingLines f bs = bindingLines g bs
  | [], _ => rfl
  | b :: bs, same => by
      have first := bindingValue_congr b fun e mem => same e (List.mem_append_left _ mem)
      have rest := bindingLines_congr bs fun e mem => same e (List.mem_append_right _ mem)
      simp only [bindingLines, first, rest]

end

theorem receiver_congr {e : Option Expr} {declaring : Ty} (same : ∀ c ∈ e.toList, AgreeTo f g c) :
    receiver f e declaring = receiver g e declaring := by
  cases e with
  | none => rfl
  | some e => exact target_congr (same e (List.mem_singleton_self _))

/-- One node is written alike if the trees are that are written less deep. -/
theorem writeNode_congr {e : Expr} (below : AgreeBelow f g e) : writeNode f e = writeNode g e := by
  have same : ∀ c ∈ e.children, AgreeTo f g c := fun c mem => below.child mem
  obtain ⟨id, node⟩ := e
  cases node <;>
    simp only [Expr.children, Node.children, List.forall_mem_cons, List.forall_mem_append,
      List.not_mem_nil, false_implies, implies_true, and_true] at same
  case constant | parameter | default | label => rfl
  case lambda l => simp only [writeNode, lambdaBody, body_congr same]
  case unary => exact unary_congr below
  case binary => exact binary_congr below
  case typeTest => exact typeTest_congr below
  case block => exact block_congr same
  case conditional => exact conditional_congr same.1 same.2.1 same.2.2
  case loop => simp only [writeNode, bodyLines_congr same]
  case jump kind destination value =>
    cases value with
    | none => rfl
    | some value => simp only [writeNode, jump, (same value (List.mem_singleton_self _)).self]
  case switch => exact switch_congr same.1.1 same.1.2 same.2
  case attempt => exact attempt_congr same.1.1.1 same.1.1.2 same.1.2 same.2
  case create => simp only [writeNode, arguments, map_congr same]
  case newArray => simp only [writeNode, newArray, map_congr same]
  case listInit => simp only [writeNode, same.1.self, initializers_congr same.2]
  case memberInit => simp only [writeNode, same.1.self, bindingLines_congr _ same.2]
  case call =>
    simp only [writeNode, called, arguments, receiver_congr same.1, map_congr same.2]
  case member => simp only [writeNode, receiver_congr same]
  case invocation => simp only [writeNode, arguments, target_congr same.1, map_congr same.2]
  case index => simp only [writeNode, target_congr same.1, map_congr same.2]
  case forLoop =>
    obtain ⟨starts, tests, steps, bodies⟩ := same
    exact headed_congr (by rw [starts.self, tests.self, steps.self]) bodies
  case forEach => exact headed_congr (by rw [same.1.self]) same.2
  case whileLoop => exact headed_congr same.1.self same.2
  case doWhile => simp only [writeNode, introduced_congr same.1, same.2.self]
  case usingBlock => exact headed_congr same.1.self same.2

/-- Writing a node asks only about trees that are written less deep. -/
theorem writeNode_asksBelow : Expr.AsksBelow Expr.writingDepth writeNode :=
  fun _ _ _ => writeNode_congr

end Source

/-- What is written of a tree is what the step for its node says. -/
theorem Expr.draft_eq (e : Expr) : e.draft = Source.writeNode Expr.draft e :=
  Expr.recurseBy_eq Expr.writingDepth_pos Source.writeNode_asksBelow e

/-- No other writer goes by this step. -/
theorem Expr.eq_draft {write : Expr → Source.Draft}
    (equation : ∀ d, write d = Source.writeNode write d) (e : Expr) : write e = e.draft :=
  Expr.eq_recurseBy Expr.writingDepth_pos Source.writeNode_asksBelow equation e

/-! ### What is written for a tree that was built -/

namespace Source

section

variable (write : Expr → Draft)

def powerExpanded (left right : Expr) : Draft :=
  called write (writeType Method.pow.declaring) .pow [left, right]

def unaryExpanded (op : UnaryOp) (e : Expr) (type : Ty) : Draft :=
  match op with
  | .isTrue => between (operand write e) "==" (literal "true")
  | .isFalse => between (operand write e) "==" (literal "false")
  | .increment => between (operand write e) "+" (literal "1")
  | .decrement => between (operand write e) "-" (literal "1")
  | .arrayLength => accessed (target write e) "Length" (.member (.length e.type))
  | _ => unary write op e type

end

variable (e left right : Expr)

@[simp] theorem draft_madePower :
    (madePower left right).draft = powerExpanded Expr.draft left right :=
  Expr.draft_eq _

@[simp] theorem draft_madeBinary_madePower :
    (madeBinary .assign left (madePower left right)).draft =
      between left.draft "=" (powerExpanded Expr.draft left right) := by
  rw [← draft_madePower]
  exact Expr.draft_eq _

@[simp] theorem draft_madeTypeQuery :
    (madeTypeQuery e).draft = called Expr.draft (target Expr.draft e) .getType [] :=
  Expr.draft_eq _

/-- An operator with a token is written with it, and a constant takes no parentheses. -/
theorem draft_madeBinary_madeConstant (op : BinaryOp) {symbol : String}
    (found : op.token? = some symbol) (stays : op ≠ .assign) (v : Value) :
    (madeBinary op e (madeConstant v)).draft =
      between (operand Expr.draft e) symbol (literal v.literal) := by
  have constant : operand Expr.draft (madeConstant v) = literal v.literal := Expr.draft_eq _
  have written : binary Expr.draft op e (madeConstant v) false false =
      between (operand Expr.draft e) symbol (operand Expr.draft (madeConstant v)) := by
    cases op with
    | assign => exact absurd rfl stays
    | power | arrayIndex => cases found
    | _ =>
        cases found
        rfl
  rw [← constant, ← written]
  exact Expr.draft_eq _

theorem unary_draft (op : UnaryOp) (type : Ty) :
    unary Expr.draft op e type = unaryExpanded Expr.draft op e type := by
  cases op with
  | isTrue => exact draft_madeBinary_madeConstant e .equal rfl nofun (.boolean true)
  | isFalse => exact draft_madeBinary_madeConstant e .equal rfl nofun (.boolean false)
  | increment => exact draft_madeBinary_madeConstant e .add rfl nofun (.int32 1)
  | decrement => exact draft_madeBinary_madeConstant e .subtract rfl nofun (.int32 1)
  | arrayLength => exact Expr.draft_eq (madeLength e)
  | _ => rfl

end Source

end ExprTree
