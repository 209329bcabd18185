import ExprTree.Proofs.Acceptance
import ExprTree.Proofs.LineKind

/-!
Expressions whose text begins with a part that no parentheses close off.

The test of a ternary, the operand of a type test and the target of a member access may begin the
text as they are. If such a part ends in an operand of its own, then what follows it can be read as
a part of that operand: the text is open (`Expr.isOpenTo`).
-/

namespace ExprTree

open Source

/-! ### Mixed expressions -/

/-- Whether a node is a parameter named by an identifier, an increment or decrement, an `is` or `as`
test, a binary operator that is written between its operands, a ternary, or a member of a target. -/
def Expr.isMixedNode (e : Expr) : Bool :=
  match e.node with
  | .parameter p => p.name.any isIdentifier
  | .unary op _ type =>
    op.stepBefore?.isSome || op.stepAfter?.isSome || op = .typeAs && type.hasPlainNames
  | .binary op _ _ assign checked _ => !assign && !checked && op ≠ .power && op ≠ .arrayIndex
  | .typeTest op _ tested => op = .typeIs && tested.hasPlainNames
  | .conditional _ ifTrue ifFalse type => isTernary ifTrue ifFalse type
  | .member inner accessed => inner.isSome && isIdentifier accessed.name
  | _ => false

/-- Mixed expressions whose targets can be stored to, by the ways in which they are written. -/
inductive Expr.Mixed : Expr → Prop
  | parameter {id : Identity} {p : Parameter} {name : String} (named : p.name = some name)
    (identifier : isIdentifier name = true) : Mixed ⟨id, .parameter p⟩
  | before {id : Identity} {op : UnaryOp} {x : Expr} {type : Ty} {sign : Char}
    (step : op.stepBefore? = some sign) (writable : x.isWritable = true) (inner : Mixed x) :
    Mixed ⟨id, .unary op x type⟩
  | after {id : Identity} {op : UnaryOp} {x : Expr} {type : Ty} {sign : Char}
    (step : op.stepAfter? = some sign) (writable : x.isWritable = true) (inner : Mixed x) :
    Mixed ⟨id, .unary op x type⟩
  | typeAs {id : Identity} {x : Expr} {type : Ty} (plain : type.hasPlainNames = true)
    (inner : Mixed x) : Mixed ⟨id, .unary .typeAs x type⟩
  | typeIs {id : Identity} {x : Expr} {tested : Ty} (plain : tested.hasPlainNames = true)
    (inner : Mixed x) : Mixed ⟨id, .typeTest .typeIs x tested⟩
  | joined {id : Identity} {op : BinaryOp} {l r : Expr} {type : Ty} {symbol : String}
    (token : op.token? = some symbol) (computes : op ≠ .assign) (left : Mixed l) (right : Mixed r) :
    Mixed ⟨id, .binary op l r false false type⟩
  | stored {id : Identity} {l r : Expr} {type : Ty} (writable : l.isWritable = true)
    (left : Mixed l) (right : Mixed r) : Mixed ⟨id, .binary .assign l r false false type⟩
  | ternary {id : Identity} {t a b : Expr} {type : Ty}
    (ternary : isTernary a (some b) type = true) (test : Mixed t) (ifTrue : Mixed a)
    (ifFalse : Mixed b) : Mixed ⟨id, .conditional t a (some b) type⟩
  | member {id : Identity} {x : Expr} {accessed : Member}
    (identifier : isIdentifier accessed.name = true) (inner : Mixed x) :
    Mixed ⟨id, .member (some x) accessed⟩

theorem Expr.mixed_of_all {e : Expr} (mixed : e.All fun d => d.isMixedNode = true)
    (accepted : e.All Expr.IsAccepted) : e.Mixed := by
  induction e using Expr.inductionOnChildren with
  | step e ih =>
      obtain ⟨here, below⟩ := Expr.all_iff.mp mixed
      obtain ⟨passes, belowPasses⟩ := Expr.all_iff.mp accepted
      have ih := fun c mem => ih c mem (below c mem) (belowPasses c mem)
      obtain ⟨id, node⟩ := e
      cases node with
      | parameter p =>
          obtain ⟨key, name, type⟩ := p
          cases name with
          | none => cases here
          | some name => exact .parameter rfl here
      | unary op x type =>
          have inner := ih x (List.mem_singleton_self _)
          cases op with
          | preIncrementAssign | preDecrementAssign =>
              exact .before rfl (require_eq_ok.mp passes) inner
          | postIncrementAssign | postDecrementAssign =>
              exact .after rfl (require_eq_ok.mp passes) inner
          | typeAs => exact .typeAs here inner
          | _ => cases here
      | binary op l r assign checked type =>
          have left := ih l (List.mem_cons_self ..)
          have right := ih r (List.mem_cons_of_mem _ (List.mem_singleton_self _))
          simp only [Expr.isMixedNode, Bool.and_eq_true, Bool.not_eq_true',
            decide_eq_true_eq] at here
          obtain ⟨⟨⟨rfl, rfl⟩, notPower⟩, notIndex⟩ := here
          by_cases stores : op = .assign
          · subst stores
            exact .stored (isWritable_of_check_assign passes) left right
          · have token : ∃ symbol, op.token? = some symbol := by
              cases op <;> simp_all [BinaryOp.token?]
            obtain ⟨symbol, token⟩ := token
            exact .joined token stores left right
      | typeTest op x tested =>
          cases op with
          | typeIs => exact .typeIs here (ih x (List.mem_singleton_self _))
          | typeEqual => cases here
      | conditional test a b type =>
          cases b with
          | none => cases here
          | some b =>
              exact .ternary here (ih test (.head _)) (ih a (.tail _ (.head _)))
                (ih b (.tail _ (.tail _ (.head _))))
      | member x accessed =>
          cases x with
          | none => cases here
          | some x => exact .member here (ih x (List.mem_singleton_self _))
      | _ => cases here

theorem Expr.Mixed.ne_block {e : Expr} (mixed : e.Mixed) : e.kind ≠ .block := by
  cases mixed <;> rintro ⟨⟩

theorem Expr.Mixed.grouped {e : Expr} (mixed : e.Mixed) :
    e.kind.isGroupedAsTarget = e.kind.isGroupedAsOperand := by
  cases mixed with
  | @before _ op _ _ _ step => cases op <;> cases step <;> rfl
  | @after _ op _ _ _ step => cases op <;> cases step <;> rfl
  | _ => rfl

theorem Expr.not_grouped_of_isWritable {e : Expr} (writable : e.isWritable = true) :
    e.kind.isGroupedAsOperand = false := by
  unfold Expr.isWritable at writable
  split at writable
  · next kind => rw [kind]; rfl
  · next kind => rw [kind]; rfl
  · next kind => rw [kind]; rfl
  · next kind => rw [kind]; rfl
  · cases writable

/-- A store is refused for its types only, if its target can be stored to. -/
theorem Expr.Mixed.check_ne {e : Expr} (mixed : e.Mixed) (kind : Kind) :
    e.node.check ≠ .error (.notWritable kind) := by
  have other {condition : Bool} {error : BuildError} (ne : error ≠ .notWritable kind) :
      require condition error ≠ .error (.notWritable kind) := by
    cases condition with
    | true => rintro ⟨⟩
    | false => exact fun same => ne (Except.error.inj same)
  have passing {node : Node} (passes : node.check = .ok ()) :
      node.check ≠ .error (.notWritable kind) := by
    rw [passes]
    rintro ⟨⟩
  cases mixed with
  | @before _ op _ _ _ step writable =>
      refine passing ?_
      cases op <;> cases step <;> exact require_eq_ok.mpr writable
  | @after _ op _ _ _ step writable =>
      refine passing ?_
      cases op <;> cases step <;> exact require_eq_ok.mpr writable
  | @joined _ op _ _ _ _ token computes =>
      refine passing ?_
      cases op <;> cases token <;> first | rfl | exact absurd rfl computes
  | @stored _ l r type writable =>
      have typed : (Node.binary .assign l r false false type).check =
          require (l.type.assignableFrom r.type) (.notAssignable l.type r.type) := by
        simp only [Node.check, checkBinary, checkWritable, checkAssignable, writable]
        rfl
      show (Node.binary .assign l r false false type).check ≠ _
      rw [typed]
      exact other (by rintro ⟨⟩)
  | ternary => exact other (by rintro ⟨⟩)
  | _ => exact passing rfl

theorem Expr.Mixed.isMixedNode {e : Expr} (mixed : e.Mixed) : e.isMixedNode = true := by
  cases mixed with
  | @parameter _ p _ named identifier =>
      show p.name.any isIdentifier = true
      rw [named]
      exact identifier
  | before step => simp [Expr.isMixedNode, step]
  | after step => simp [Expr.isMixedNode, step]
  | typeAs plain => simp [Expr.isMixedNode, plain]
  | typeIs plain => simp [Expr.isMixedNode, plain]
  | @joined _ op _ _ _ _ token => cases op <;> cases token <;> rfl
  | stored => rfl
  | ternary ternary => exact ternary
  | member identifier => exact identifier

theorem Expr.Mixed.of_child {e c : Expr} (mixed : e.Mixed) (child : c ∈ e.children) : c.Mixed := by
  cases mixed with
  | parameter => cases child
  | before _ _ inner | after _ _ inner | typeAs _ inner | typeIs _ inner | member _ inner =>
      cases List.mem_singleton.mp child
      exact inner
  | joined _ _ left right | stored _ left right =>
      rcases List.mem_pair.mp child with rfl | rfl
      · exact left
      · exact right
  | ternary _ test ifTrue ifFalse =>
      rcases List.mem_cons.mp child with rfl | child
      · exact test
      · rcases List.mem_pair.mp child with rfl | rfl
        · exact ifTrue
        · exact ifFalse

theorem Expr.Mixed.all {e : Expr} (mixed : e.Mixed) : e.All Expr.Mixed := by
  induction e using Expr.inductionOnChildren with
  | step e ih =>
      exact Expr.all_iff.mpr ⟨mixed, fun c child => ih c child (mixed.of_child child)⟩

/-! ### Open texts -/

/-- What is written after the part that the text of an expression begins with. -/
inductive Suffix where
  | dot | step | choice | test
deriving DecidableEq

/-- Whether the last part of a node of this kind takes what is written after the node. A value that
is stored takes a choice or a test, the last branch of a ternary takes a test, and the operand of an
increment takes a member. -/
def Kind.takes : Kind → Suffix → Bool
  | .binary .assign false false, .choice | .binary .assign false false, .test => true
  | .conditional, .test => true
  | .unary .preIncrementAssign, .dot | .unary .preDecrementAssign, .dot => true
  | _, _ => false

/-- The part that the text of a mixed expression begins with, if it stands there as it is, and what
follows it. -/
def Expr.opening? (e : Expr) : Option (Expr × Suffix) :=
  match e.node with
  | .unary .postIncrementAssign x _ | .unary .postDecrementAssign x _ => some (x, .step)
  | .unary .typeAs x _ | .typeTest .typeIs x _ => some (x, .test)
  | .conditional test _ _ _ => some (test, .choice)
  | .member (some x) _ => if x.kind.isGroupedAsTarget then none else some (x, .dot)
  | _ => none

/-- Whether the expression, or a part that its text begins with, takes what is written after it. -/
def Expr.isOpenTo (s : Suffix) : Expr → Bool :=
  Expr.recurse (fun _ => false) fun isOpen e =>
    e.kind.takes s || e.opening?.any fun part => isOpen part.1

/-- Whether what follows the part that the text begins with belongs to the whole. -/
def Expr.isClosedOff (e : Expr) : Bool := e.opening?.all fun part => !part.1.isOpenTo part.2

/-- The part that the text begins with is a child, and the node itself does not take what it writes
after it. -/
theorem Expr.of_opening {e x : Expr} {s : Suffix} (opens : e.opening? = some (x, s)) :
    x ∈ e.children ∧ e.kind.takes s = false ∧ (s = .dot → e.isWritable = true) := by
  obtain ⟨id, node⟩ := e
  simp only [Expr.opening?] at opens
  split at opens
  case h_6 =>
      split at opens
      · cases opens
      · cases opens
        exact ⟨.head _, rfl, fun _ => rfl⟩
  case h_7 => cases opens
  all_goals
    cases opens
    exact ⟨.head _, rfl, by rintro ⟨⟩⟩

theorem Expr.isOpenTo_eq (s : Suffix) (e : Expr) :
    e.isOpenTo s = (e.kind.takes s || e.opening?.any fun part => part.1.isOpenTo s) := by
  refine Expr.recurse_eq (fun f g e agree => ?_) e
  cases opens : e.opening? with
  | none => rfl
  | some part =>
      have same := agree part.1 (Expr.of_opening opens).1
      simp only [Option.any_some, same]

theorem Expr.not_isOpenTo_opening {e x : Expr} {s t : Suffix} (opens : e.opening? = some (x, t))
    (closed : e.isOpenTo s = false) : x.isOpenTo s = false := by
  rw [Expr.isOpenTo_eq, opens, Option.any_some] at closed
  exact (Bool.or_eq_false_iff.mp closed).2

theorem Expr.not_takes {e : Expr} {s : Suffix} (closed : e.isOpenTo s = false) :
    e.kind.takes s = false := by
  rw [Expr.isOpenTo_eq] at closed
  exact (Bool.or_eq_false_iff.mp closed).1

theorem Expr.isClosedOff_of_opening {e x : Expr} {s : Suffix} (opens : e.opening? = some (x, s)) :
    e.isClosedOff = !x.isOpenTo s := by
  rw [Expr.isClosedOff, opens, Option.all_some]

/-! ### How mixed nodes are written -/

/-- What is written after the operand of a test. -/
def Source.asked (word : String) (type : Ty) : Draft :=
  space ++ keyword word ++ space ++ writeType type

section Written

variable (id : Identity) (x l r : Expr) (type : Ty)

theorem draft_before {op : UnaryOp} {sign : Char} (step : op.stepBefore? = some sign) :
    (Expr.draft ⟨id, .unary op x type⟩) = token (String.ofList [sign, sign]) ++ x.draft := by
  rw [Expr.draft_eq]
  cases op <;> cases step <;> rfl

theorem draft_after {op : UnaryOp} {sign : Char} (step : op.stepAfter? = some sign) :
    (Expr.draft ⟨id, .unary op x type⟩) = x.draft ++ token (String.ofList [sign, sign]) := by
  rw [Expr.draft_eq]
  cases op <;> cases step <;> rfl

theorem draft_typeAs : Expr.draft ⟨id, .unary .typeAs x type⟩ = x.draft ++ asked "as" type := by
  rw [Expr.draft_eq]
  simp only [asked, ← Draft.append_assoc]
  rfl

theorem draft_typeIs : Expr.draft ⟨id, .typeTest .typeIs x type⟩ = x.draft ++ asked "is" type := by
  rw [Expr.draft_eq]
  simp only [asked, ← Draft.append_assoc]
  rfl

theorem draft_stored :
    Expr.draft ⟨id, .binary .assign l r false false type⟩ = between l.draft "=" r.draft := by
  rw [Expr.draft_eq]
  rfl

theorem draft_joined {op : BinaryOp} {symbol : String} (token : op.token? = some symbol)
    (computes : op ≠ .assign) : Expr.draft ⟨id, .binary op l r false false type⟩ =
      between (operand Expr.draft l) symbol (operand Expr.draft r) := by
  rw [Expr.draft_eq]
  cases op <;> cases token <;> first | rfl | exact absurd rfl computes

theorem draft_ternary (t : Expr) (ternary : isTernary l (some r) type = true) :
    Expr.draft ⟨id, .conditional t l (some r) type⟩ =
      between t.draft "?" (between l.draft ":" r.draft) := by
  rw [Expr.draft_eq]
  simp only [writeNode, conditional, ternary, if_true, between, Draft.append_assoc]

theorem draft_member {accessed : Member} (mixed : x.Mixed) :
    Expr.draft ⟨id, .member (some x) accessed⟩ =
      operand Expr.draft x ++ (token "." ++ reference accessed.name (.member accessed)) := by
  rw [Expr.draft_eq, ← Draft.append_assoc, operand, ← mixed.grouped]
  rfl

end Written

end ExprTree
