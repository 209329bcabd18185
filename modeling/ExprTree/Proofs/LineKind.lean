import ExprTree.Proofs.Pieces

/-!
What kind of expression a line of text is.

A single piece is told by its first and last characters and by whether it is one word
(`pieceKind`). A line of several pieces is told by its operators (`Line.kind`).
-/

namespace ExprTree

/-- The sign that is written twice before the operand. -/
def UnaryOp.stepBefore? : UnaryOp → Option Char
  | .preIncrementAssign => some '+'
  | .preDecrementAssign => some '-'
  | _ => none

/-- The sign that is written twice after the operand. -/
def UnaryOp.stepAfter? : UnaryOp → Option Char
  | .postIncrementAssign => some '+'
  | .postDecrementAssign => some '-'
  | _ => none

namespace Source

/-! ### Kinds of pieces -/

/-- The kind of expression that a single piece is. -/
def pieceKind (piece : List Char) : Kind :=
  if piece.getLast? = some '+' then .unary .postIncrementAssign
  else if piece.getLast? = some '-' then .unary .postDecrementAssign
  else if piece.head? = some '+' then .unary .preIncrementAssign
  else if piece.head? = some '-' then .unary .preDecrementAssign
  else if piece.all isWordChar then .parameter
  else .member

/-- The piece begins with no sign. -/
def BeginsPlainly (piece : List Char) : Prop := piece.head? ≠ some '+' ∧ piece.head? ≠ some '-'

/-- The piece ends in a word. -/
def EndsInWord (piece : List Char) : Prop := ∃ c, piece.getLast? = some c ∧ isWordChar c = true

theorem Word.beginsPlainly (w : Word) : BeginsPlainly w.letters := by
  have first (c : Char) (separates : isWordChar c = false) : w.letters.head? ≠ some c := by
    intro head
    rw [w.plain c (List.mem_of_head? head)] at separates
    cases separates
  exact ⟨first '+' rfl, first '-' rfl⟩

theorem endsInWord_append (before : List Char) (w : Word) : EndsInWord (before ++ w.letters) := by
  have last := List.getLast?_eq_some_getLast w.nonempty
  rw [EndsInWord, List.getLast?_append_of_ne_nil _ w.nonempty]
  exact ⟨_, last, w.plain _ (List.getLast_mem w.nonempty)⟩

theorem endsInWord_dot (before : List Char) (w : Word) :
    EndsInWord (before ++ '.' :: w.letters) := by
  simpa only [List.append_assoc, List.singleton_append] using endsInWord_append (before ++ ['.']) w

theorem EndsInWord.ne_nil {piece : List Char} (ends : EndsInWord piece) : piece ≠ [] := by
  rintro rfl
  obtain ⟨c, last, -⟩ := ends
  cases last

theorem EndsInWord.getLast?_ne {piece : List Char} (ends : EndsInWord piece) {c : Char}
    (separates : isWordChar c = false) : piece.getLast? ≠ some c := by
  obtain ⟨d, last, word⟩ := ends
  rw [last]
  rintro ⟨⟩
  rw [separates] at word
  cases word

theorem pieceKind_after {op : UnaryOp} {sign : Char} (after : op.stepAfter? = some sign)
    (piece : List Char) : pieceKind (piece ++ [sign, sign]) = .unary op := by
  cases op <;> cases after <;> simp [pieceKind]

theorem pieceKind_before {op : UnaryOp} {sign : Char} (before : op.stepBefore? = some sign)
    {piece : List Char} (ends : EndsInWord piece) :
    pieceKind (sign :: sign :: piece) = .unary op := by
  have last : (sign :: sign :: piece).getLast? = piece.getLast? :=
    List.getLast?_append_of_ne_nil [sign, sign] ends.ne_nil
  unfold pieceKind
  rw [last, if_neg (ends.getLast?_ne rfl), if_neg (ends.getLast?_ne rfl)]
  cases op <;> cases before <;> rfl

theorem pieceKind_word (w : Word) : pieceKind w.letters = .parameter := by
  have ends : EndsInWord w.letters := endsInWord_append [] w
  unfold pieceKind
  rw [if_neg (ends.getLast?_ne rfl), if_neg (ends.getLast?_ne rfl), if_neg w.beginsPlainly.1,
    if_neg w.beginsPlainly.2, if_pos (List.all_eq_true.mpr w.plain)]

theorem BeginsPlainly.append {piece rest : List Char} (begins : BeginsPlainly piece)
    (follows : piece = [] → BeginsPlainly rest) : BeginsPlainly (piece ++ rest) := by
  cases piece with
  | nil => exact follows rfl
  | cons c piece => exact begins

theorem beginsPlainly_dot (rest : List Char) : BeginsPlainly ('.' :: rest) := by
  constructor <;> rintro ⟨⟩

theorem pieceKind_member {target : List Char} (begins : BeginsPlainly target) (w : Word) :
    pieceKind (target ++ '.' :: w.letters) = .member := by
  have first : BeginsPlainly (target ++ '.' :: w.letters) :=
    begins.append fun _ => beginsPlainly_dot w.letters
  have ends := endsInWord_dot target w
  have dotted : ¬ (target ++ '.' :: w.letters).all isWordChar = true := by
    intro plain
    have dot := List.all_eq_true.mp plain '.' (by simp)
    cases dot
  unfold pieceKind
  rw [if_neg (ends.getLast?_ne rfl), if_neg (ends.getLast?_ne rfl), if_neg first.1, if_neg first.2,
    if_neg dotted]

/-! ### Kinds of lines -/

namespace Line

/-- The operators of a line. -/
def ops (l : Line) : List (List Char) := l.rest.map Prod.fst

def ofPiece (piece : List Char) : Line := ⟨piece, []⟩

/-- Two lines with an operator between them. -/
def join (l : Line) (symbol : List Char) (m : Line) : Line :=
  ⟨l.first, l.rest ++ (symbol, m.first) :: m.rest⟩

theorem text_ofPiece (piece : List Char) : (ofPiece piece).text = piece := List.append_nil piece

theorem text_join (l m : Line) (symbol : List Char) :
    (l.join symbol m).text = l.text ++ ' ' :: symbol ++ ' ' :: m.text := by
  simp [join, text, textAfter, List.flatMap_append]

theorem ops_join (l m : Line) (symbol : List Char) :
    (l.join symbol m).ops = l.ops ++ symbol :: m.ops := by
  simp [join, ops]

theorem isSolid_ofPiece {piece : List Char} (solid : Solid piece) : (ofPiece piece).IsSolid :=
  ⟨solid, fun _ mem => absurd mem List.not_mem_nil⟩

theorem IsSolid.join {l m : Line} (left : l.IsSolid) {symbol : List Char} (middle : Solid symbol)
    (right : m.IsSolid) : (l.join symbol m).IsSolid := by
  refine ⟨left.first, fun part mem => ?_⟩
  rcases List.mem_append.mp mem with before | after
  · exact left.rest part before
  · rcases List.mem_cons.mp after with rfl | after
    · exact ⟨middle, right.first⟩
    · exact right.rest part after

end Line

/-- The kind of expression whose last operator is the given one. -/
def operatorKind (symbol : List Char) : Kind :=
  if symbol = ['i', 's'] then .typeTest .typeIs
  else if symbol = ['a', 's'] then .unary .typeAs
  else
    match BinaryOp.all.find? fun op => op.token?.map String.toList = some symbol with
    | some op => .binary op false false
    | none => .constant

theorem operatorKind_token {op : BinaryOp} {symbol : String} (token : op.token? = some symbol) :
    operatorKind symbol.toList = .binary op false false := by
  cases op <;> cases token <;> decide

namespace Line

/-- The kind of expression that a line is: a store if that is its first operator, a ternary if it
asks for a choice, and else what its last operator tells. -/
def kind (l : Line) : Kind :=
  match l.ops with
  | [] => pieceKind l.first
  | op :: ops =>
    if op = ['='] then .binary .assign false false
    else if ['?'] ∈ op :: ops then .conditional
    else operatorKind ((op :: ops).getLast (List.cons_ne_nil op ops))

/-- The line begins with no store. -/
def StoresNothing (l : Line) : Prop := l.ops.head? ≠ some ['=']

theorem StoresNothing.join {l : Line} (none : l.StoresNothing) {symbol : List Char}
    (other : symbol ≠ ['=']) (m : Line) : (l.join symbol m).StoresNothing := by
  unfold StoresNothing at none ⊢
  rw [ops_join]
  cases ops : l.ops with
  | nil => exact fun head => other (Option.some.inj head)
  | cons op ops' =>
      rw [ops] at none
      exact none

theorem kind_of_storesNothing {l : Line} (stores : l.StoresNothing) (nonempty : l.ops ≠ []) :
    l.kind = if ['?'] ∈ l.ops then .conditional else operatorKind (l.ops.getLast nonempty) := by
  unfold kind
  split
  · next none => exact absurd none nonempty
  · next op ops all =>
      have first : op ≠ ['='] := by
        rintro rfl
        exact stores (by rw [all]; rfl)
      simp only [if_neg first, all]

theorem kind_store {l : Line} (single : l.rest = []) (m : Line) :
    (l.join ['='] m).kind = .binary .assign false false := by
  have first : (l.join ['='] m).ops = ['='] :: m.ops := by
    rw [ops_join, ops, single]
    rfl
  simp [kind, first]

theorem kind_choice {l : Line} (stores : l.StoresNothing) (m : Line) :
    (l.join ['?'] m).kind = .conditional := by
  have asks : ['?'] ∈ (l.join ['?'] m).ops := by
    rw [ops_join]
    exact List.mem_append_right _ (List.mem_cons_self ..)
  rw [kind_of_storesNothing (stores.join (by decide) m) (List.ne_nil_of_mem asks), if_pos asks]

/-- The last operator of a line tells its kind, unless it is a store or asks for a choice. -/
theorem kind_last {l : Line} (stores : l.StoresNothing) (chooses : ['?'] ∉ l.ops)
    {symbol : List Char} (other : symbol ≠ ['='] ∧ symbol ≠ ['?']) (piece : List Char) :
    (l.join symbol (ofPiece piece)).kind = operatorKind symbol := by
  have ops : (l.join symbol (ofPiece piece)).ops = l.ops ++ [symbol] := ops_join ..
  have none : ['?'] ∉ (l.join symbol (ofPiece piece)).ops := by
    rw [ops, List.mem_append, List.mem_singleton]
    exact fun asks => asks.elim chooses other.2.symm
  rw [kind_of_storesNothing (stores.join other.1 _) (by simp [ops]), if_neg none]
  simp [ops]

end Line

end Source

end ExprTree
