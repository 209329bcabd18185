import ExprTree.Proofs.Acceptance
import ExprTree.Proofs.Spelling

/-!
Operator expressions are read in one way only.

There are no levels of precedence, so nothing but the parentheses tells how an expression is put
together. The text of an operator expression is that of a phrase, which is a word, a sign before an
operand, a cast before an operand, two operands with a token between them, or a word and what is
stored in it. An operand is a word, a cast, or any other phrase in parentheses, and it ends where
its parentheses say. So one text belongs to one phrase (`Phrase.text_inj`), and the phrase tells the
tree up to the types recorded in it.
-/

namespace ExprTree

open Source

namespace Source

/-! ### Phrases -/

/-- The structure of an operator expression, as far as its text goes. -/
inductive Phrase where
  | word (w : Word)
  | signed (sign : Char) (marked : isWordChar sign = false ∧ sign ≠ '(') (operand : Phrase)
  | cast (w : Word) (operand : Phrase)
  | joined (symbol : List Char) (solid : symbol ≠ ['='] ∧ ∀ c ∈ symbol, c ≠ ' ')
    (left right : Phrase)
  | stored (w : Word) (value : Phrase)

namespace Phrase

/-- Whether the phrase is put in parentheses as an operand. -/
def isGrouped : Phrase → Bool
  | .word _ | .cast .. => false
  | _ => true

/-- A text as an operand, in parentheses or not. -/
def grouped (parentheses : Bool) (text : List Char) : List Char :=
  if parentheses then '(' :: text ++ [')'] else text

def text : Phrase → List Char
  | .word w => w.letters
  | .signed sign _ x => sign :: grouped x.isGrouped x.text
  | .cast w x => '(' :: w.letters ++ [')'] ++ grouped x.isGrouped x.text
  | .joined symbol _ x y =>
    grouped x.isGrouped x.text ++ ' ' :: symbol ++ ' ' :: grouped y.isGrouped y.text
  | .stored w x => w.letters ++ ' ' :: ['='] ++ ' ' :: x.text

/-- The text of the phrase as an operand. -/
def operand (x : Phrase) : List Char := grouped x.isGrouped x.text

/-- The text is at its end or goes on with a closing parenthesis. -/
def Ends (rest : List Char) : Prop := rest = [] ∨ ∃ s, rest = ')' :: s

/-- The text is at its end or goes on with a closing parenthesis or a blank. -/
def EndsOperand (rest : List Char) : Prop := Ends rest ∨ ∃ s, rest = ' ' :: s

theorem EndsOperand.endsWord {rest : List Char} (ends : EndsOperand rest) : EndsWord rest := by
  intro c mem
  rcases ends with (rfl | ⟨s, rfl⟩) | ⟨s, rfl⟩
  · cases mem
  · cases mem; rfl
  · cases mem; rfl

/-- An operand ends where it must, so that it is told from what follows. -/
def OperandReadable (x : Phrase) : Prop :=
  ∀ y r s, EndsOperand r → EndsOperand s → x.operand ++ r = y.operand ++ s → x = y ∧ r = s

def TextReadable (x : Phrase) : Prop :=
  ∀ y r s, Ends r → Ends s → x.text ++ r = y.text ++ s → x = y ∧ r = s

/-! Texts with what follows them. -/

theorem operand_append_of_grouped {x : Phrase} (closed : x.isGrouped = true) (r : List Char) :
    x.operand ++ r = '(' :: (x.text ++ ')' :: r) := by
  simp [operand, grouped, closed]

theorem operand_append_of_bare {x : Phrase} (bare : x.isGrouped = false) (r : List Char) :
    x.operand ++ r = x.text ++ r := by
  simp [operand, grouped, bare]

theorem cast_append (w : Word) (x : Phrase) (r : List Char) :
    (cast w x).operand ++ r = '(' :: (w.letters ++ ')' :: (x.operand ++ r)) := by
  simp [operand, grouped, isGrouped, text]

theorem signed_append (sign : Char) (marked) (x : Phrase) (r : List Char) :
    (signed sign marked x).text ++ r = sign :: (x.operand ++ r) := rfl

theorem joined_append (symbol : List Char) (solid) (x y : Phrase) (r : List Char) :
    (joined symbol solid x y).text ++ r =
      x.operand ++ ' ' :: (symbol ++ ' ' :: (y.operand ++ r)) := by
  simp [operand, text]

theorem stored_append (w : Word) (x : Phrase) (r : List Char) :
    (stored w x).text ++ r = (word w).operand ++ ' ' :: (['='] ++ ' ' :: (x.text ++ r)) := by
  simp [operand, grouped, isGrouped, text]

theorem endsOperand_blank (r : List Char) : EndsOperand (' ' :: r) := .inr ⟨r, rfl⟩

theorem ends_closing (r : List Char) : Ends (')' :: r) := .inr ⟨r, rfl⟩

theorem Ends.ne_blank {r : List Char} (ends : Ends r) (s : List Char) : r ≠ ' ' :: s := by
  rintro rfl
  rcases ends with nothing | ⟨_, closes⟩
  · cases nothing
  · cases closes

/-! ### Operands -/

/-- An operand that begins with a word is that word. -/
theorem readable_word (w : Word) : OperandReadable (.word w) := by
  intro y r s endsR endsS same
  cases y with
  | word v =>
      obtain ⟨rfl, rest⟩ := Word.append_inj endsR.endsWord endsS.endsWord same
      exact ⟨rfl, rest⟩
  | cast | signed | joined | stored => exact absurd same.symm (Word.cons_ne_append rfl _ _)

/-- What stands in parentheses around an operand is never one word, as in a cast. -/
theorem word_ne_grouped {w : Word} {y : Phrase} {r s : List Char} (closed : y.isGrouped = true) :
    w.letters ++ ')' :: r ≠ y.text ++ ')' :: s := by
  intro same
  have first := fun x t => readable_word w x _ _ (.inl (ends_closing r)) (endsOperand_blank t)
  cases y with
  | word | cast => cases closed
  | signed sign marked x => exact Word.cons_ne_append marked.1 _ _ same.symm
  | joined symbol solid x y =>
      rw [joined_append] at same
      cases (first _ _ same).2
  | stored v x =>
      rw [stored_append] at same
      cases (first _ _ same).2

theorem readable_cast (w : Word) {x : Phrase} (inner : OperandReadable x) :
    OperandReadable (.cast w x) := by
  intro y r s endsR endsS same
  have closes (t : List Char) : EndsWord (')' :: t) :=
    EndsOperand.endsWord (.inl (ends_closing t))
  rw [cast_append] at same
  cases y with
  | word v => exact absurd same (Word.cons_ne_append rfl _ _)
  | cast v y =>
      rw [cast_append] at same
      obtain ⟨rfl, after⟩ := Word.append_inj (closes _) (closes _) (List.cons.inj same).2
      obtain ⟨rfl, rest⟩ := inner y r s endsR endsS (List.cons.inj after).2
      exact ⟨rfl, rest⟩
  | signed | joined | stored =>
      have opened := same.trans (operand_append_of_grouped (by rfl) s)
      exact absurd (List.cons.inj opened).2 (word_ne_grouped rfl)

/-- In parentheses a phrase ends at its closing parenthesis. -/
theorem readable_grouped {x : Phrase} (closed : x.isGrouped = true) (inner : TextReadable x) :
    OperandReadable x := by
  intro y r s _ _ same
  rw [operand_append_of_grouped closed] at same
  cases y with
  | word v => exact absurd same (Word.cons_ne_append rfl _ _)
  | cast v y =>
      rw [cast_append] at same
      exact absurd (List.cons.inj same).2.symm (word_ne_grouped closed)
  | signed | joined | stored =>
      rw [operand_append_of_grouped rfl] at same
      obtain ⟨rfl, rest⟩ := inner _ _ _ (ends_closing r) (ends_closing s) (List.cons.inj same).2
      exact ⟨rfl, (List.cons.inj rest).2⟩

/-! ### Phrases -/

/-- A phrase that begins with a sign is told by that from one that begins with an operand. -/
theorem signed_ne_operand {sign : Char} {x : Phrase} {r s : List Char}
    (marked : isWordChar sign = false ∧ sign ≠ '(') : sign :: r ≠ x.operand ++ s := by
  intro same
  cases x with
  | word w => exact Word.cons_ne_append marked.1 _ _ same
  | cast w x =>
      rw [cast_append] at same
      exact marked.2 (List.cons.inj same).1
  | signed | joined | stored =>
      rw [operand_append_of_grouped rfl] at same
      exact marked.2 (List.cons.inj same).1

theorem readable_signed (sign : Char) (marked) {x : Phrase} (inner : OperandReadable x) :
    TextReadable (.signed sign marked x) := by
  intro y r s endsR endsS same
  rw [signed_append] at same
  cases y with
  | word | cast =>
      rw [← operand_append_of_bare rfl] at same
      exact absurd same (signed_ne_operand marked)
  | signed sign' marked' y =>
      obtain ⟨rfl, after⟩ := List.cons.inj same
      obtain ⟨rfl, rest⟩ := inner y r s (.inl endsR) (.inl endsS) after
      exact ⟨rfl, rest⟩
  | joined =>
      rw [joined_append] at same
      exact absurd same (signed_ne_operand marked)
  | stored =>
      rw [stored_append] at same
      exact absurd same (signed_ne_operand marked)

/-- A word or a cast by itself. -/
theorem readable_bare {x : Phrase} (bare : x.isGrouped = false) (readable : OperandReadable x) :
    TextReadable x := by
  intro y r s endsR endsS same
  rw [← operand_append_of_bare bare] at same
  cases y with
  | word | cast =>
      rw [← operand_append_of_bare rfl] at same
      exact readable _ r s (.inl endsR) (.inl endsS) same
  | signed sign marked y => exact absurd same.symm (signed_ne_operand marked)
  | joined =>
      rw [joined_append] at same
      obtain ⟨-, rest⟩ := readable _ _ _ (.inl endsR) (endsOperand_blank _) same
      exact absurd rest (endsR.ne_blank _)
  | stored =>
      rw [stored_append] at same
      obtain ⟨-, rest⟩ := readable _ _ _ (.inl endsR) (endsOperand_blank _) same
      exact absurd rest (endsR.ne_blank _)

/-- Two tokens, with a blank after each, are told from what follows. -/
theorem symbol_inj {symbol symbol' r s : List Char} (solid : ∀ c ∈ symbol, c ≠ ' ')
    (solid' : ∀ c ∈ symbol', c ≠ ' ') (same : symbol ++ ' ' :: r = symbol' ++ ' ' :: s) :
    symbol = symbol' ∧ r = s := by
  have stops (t : List Char) : ∀ c ∈ (' ' :: t).head?, (c != ' ') = false := by
    intro c mem
    cases mem
    rfl
  have inside {t : List Char} (solid : ∀ c ∈ t, c ≠ ' ') : ∀ c ∈ t, (c != ' ') = true :=
    fun c mem => bne_iff_ne.mpr (solid c mem)
  obtain ⟨symbols, rest⟩ :=
    append_inj_of_boundary (· != ' ') (inside solid) (inside solid') (stops r) (stops s) same
  exact ⟨symbols, (List.cons.inj rest).2⟩

theorem readable_joined (symbol : List Char) (solid) {x y : Phrase} (left : OperandReadable x)
    (right : OperandReadable y) : TextReadable (.joined symbol solid x y) := by
  intro z r s endsR endsS same
  rw [joined_append] at same
  cases z with
  | word | cast =>
      rw [← operand_append_of_bare rfl] at same
      obtain ⟨-, rest⟩ := left _ _ _ (endsOperand_blank _) (.inl endsS) same
      exact absurd rest.symm (endsS.ne_blank _)
  | signed sign marked z => exact absurd same.symm (signed_ne_operand marked)
  | joined symbol' solid' x' y' =>
      rw [joined_append] at same
      obtain ⟨rfl, after⟩ := left x' _ _ (endsOperand_blank _) (endsOperand_blank _) same
      obtain ⟨rfl, last⟩ := symbol_inj solid.2 solid'.2 (List.cons.inj after).2
      obtain ⟨rfl, rest⟩ := right y' r s (.inl endsR) (.inl endsS) last
      exact ⟨rfl, rest⟩
  | stored w z =>
      rw [stored_append] at same
      obtain ⟨-, after⟩ := left _ _ _ (endsOperand_blank _) (endsOperand_blank _) same
      obtain ⟨assigns, -⟩ := symbol_inj solid.2 (by simp) (List.cons.inj after).2
      exact absurd assigns solid.1

theorem readable_stored (w : Word) {x : Phrase} (inner : TextReadable x) :
    TextReadable (.stored w x) := by
  intro z r s endsR endsS same
  rw [stored_append] at same
  cases z with
  | word | cast =>
      have bare := same.trans (operand_append_of_bare (by rfl) s).symm
      obtain ⟨-, rest⟩ := readable_word w _ _ _ (endsOperand_blank _) (.inl endsS) bare
      exact absurd rest.symm (endsS.ne_blank _)
  | signed sign marked z => exact absurd same.symm (signed_ne_operand marked)
  | joined symbol solid x' y' =>
      rw [joined_append] at same
      obtain ⟨-, after⟩ := readable_word w _ _ _ (endsOperand_blank _) (endsOperand_blank _) same
      obtain ⟨assigns, -⟩ := symbol_inj (by simp) solid.2 (List.cons.inj after).2
      exact absurd assigns.symm solid.1
  | stored v z =>
      rw [stored_append] at same
      obtain ⟨words, after⟩ :=
        readable_word w (.word v) _ _ (endsOperand_blank _) (endsOperand_blank _) same
      obtain ⟨-, last⟩ := symbol_inj (by simp) (by simp) (List.cons.inj after).2
      obtain ⟨rfl, rest⟩ := inner z r s endsR endsS last
      cases words
      exact ⟨rfl, rest⟩

theorem readable (x : Phrase) : OperandReadable x ∧ TextReadable x := by
  induction x with
  | word w => exact ⟨readable_word w, readable_bare rfl (readable_word w)⟩
  | signed sign marked x ih =>
      have text := readable_signed sign marked ih.1
      exact ⟨readable_grouped rfl text, text⟩
  | cast w x ih => exact ⟨readable_cast w ih.1, readable_bare rfl (readable_cast w ih.1)⟩
  | joined symbol solid x y ihx ihy =>
      have text := readable_joined symbol solid ihx.1 ihy.1
      exact ⟨readable_grouped rfl text, text⟩
  | stored w x ih =>
      have text := readable_stored w ih.2
      exact ⟨readable_grouped rfl text, text⟩

/-- One text belongs to one phrase. -/
theorem text_inj {x y : Phrase} (same : x.text = y.text) : x = y :=
  (x.readable.2 y [] [] (.inl rfl) (.inl rfl) (congrArg (· ++ []) same)).1

end Phrase

end Source

/-! ### Operator expressions -/

/-- The sign that a prefix operator is written as. -/
def UnaryOp.sign? : UnaryOp → Option Char
  | .negate => some '-'
  | .unaryPlus => some '+'
  | .not => some '!'
  | .onesComplement => some '~'
  | _ => none

/-- Whether a node belongs to an operator expression: a parameter named by an identifier, a natural
number, a prefix operator, a conversion to a type with a keyword, or a binary operator that is
written between its operands. -/
def Expr.isOperatorNode (e : Expr) : Bool :=
  match e.node with
  | .parameter p => p.name.any isIdentifier
  | .constant (.integral .int32 bits) _ => 0 ≤ Integral.int32.toInt bits
  | .unary op _ type =>
    op = .negate || op = .unaryPlus || op = .not || op = .onesComplement ||
      op = .convert && type.keyword?.isSome
  | .binary op _ _ assign checked _ => !assign && !checked && op ≠ .power && op ≠ .arrayIndex
  | _ => false

/-- The phrase that an expression is written as. -/
inductive Expr.Phrased : Expr → Phrase → Prop
  | parameter {id : Identity} {p : Parameter} {w : Word} {name : String}
    (named : p.name = some name) (identifier : isIdentifier name = true)
    (letters : w.letters = name.toList) : Phrased ⟨id, .parameter p⟩ (.word w)
  | constant {id : Identity} {bits : BitVec Integral.int32.width} {type : Ty} {w : Word}
    (natural : 0 ≤ Integral.int32.toInt bits)
    (letters : w.letters = (toString (Integral.int32.toInt bits)).toList) :
    Phrased ⟨id, .constant (.integral .int32 bits) type⟩ (.word w)
  | signed {id : Identity} {op : UnaryOp} {e : Expr} {type : Ty} {c : Char} {marked} {x : Phrase}
    (sign : op.sign? = some c) (inner : Phrased e x) :
    Phrased ⟨id, .unary op e type⟩ (.signed c marked x)
  | converted {id : Identity} {e : Expr} {type : Ty} {w : Word} {x : Phrase} {word : String}
    (keyword : type.keyword? = some word) (letters : w.letters = word.toList)
    (inner : Phrased e x) : Phrased ⟨id, .unary .convert e type⟩ (.cast w x)
  | joined {id : Identity} {op : BinaryOp} {l r : Expr} {type : Ty} {symbol : String} {solid}
    {x y : Phrase} (token : op.token? = some symbol) (left : Phrased l x) (right : Phrased r y) :
    Phrased ⟨id, .binary op l r false false type⟩ (.joined symbol.toList solid x y)
  | stored {id : Identity} {l r : Expr} {type : Ty} {w : Word} {x : Phrase}
    (reads : l.kind = .parameter) (target : Phrased l (.word w)) (value : Phrased r x) :
    Phrased ⟨id, .binary .assign l r false false type⟩ (.stored w x)

theorem Ty.spells_keyword {t : Ty} {word : String} (keyword : t.keyword? = some word) :
    (writeType t).Spells word.toList := by
  cases t <;> cases keyword <;> exact spells_reference ..

theorem Source.spells_operand {e : Expr} {x : Phrase} (spells : e.draft.Spells x.text)
    (grouping : e.kind.isGroupedAsOperand = x.isGrouped) :
    (operand Expr.draft e).Spells x.operand := by
  unfold operand Phrase.operand Phrase.grouped
  rw [grouping]
  split
  · exact spells.parenthesized
  · exact spells

/-- An expression is written as its phrase, and grouped as its phrase is. -/
theorem Expr.Phrased.spells {e : Expr} {x : Phrase} (phrased : e.Phrased x) :
    e.draft.Spells x.text ∧ e.kind.isGroupedAsOperand = x.isGrouped := by
  induction phrased with
  | parameter named identifier letters =>
      rw [Expr.draft_eq, Phrase.text, letters]
      exact ⟨spells_parameterName named, rfl⟩
  | constant natural letters =>
      rw [Expr.draft_eq, Phrase.text, letters]
      exact ⟨spells_literal _, rfl⟩
  | @signed _ op _ _ _ _ _ sign _ ih =>
      rw [Expr.draft_eq]
      have operand := spells_operand ih.1 ih.2
      cases op <;> cases sign <;> exact ⟨(spells_token _).append operand, rfl⟩
  | converted keyword letters _ ih =>
      have spells := (Ty.spells_keyword keyword).parenthesized.append (spells_operand ih.1 ih.2)
      rw [← letters] at spells
      rw [Expr.draft_eq]
      exact ⟨spells, rfl⟩
  | @joined _ op _ _ _ _ solid _ _ token _ _ ihx ihy =>
      rw [Expr.draft_eq]
      have operands := fun symbol =>
        (spells_operand ihx.1 ihx.2).between symbol (spells_operand ihy.1 ihy.2)
      cases op with
      | assign =>
          cases token
          exact absurd rfl solid.1
      | _ => cases token <;> exact ⟨operands _, rfl⟩
  | stored _ _ _ ihx ihy =>
      rw [Expr.draft_eq]
      exact ⟨ihx.1.between "=" ihy.1, rfl⟩

/-! ### Every operator expression has a phrase -/

theorem exists_word_of_isIdentifier {name : String} (identifier : isIdentifier name = true) :
    ∃ w : Word, w.letters = name.toList := by
  unfold isIdentifier at identifier
  split at identifier
  · cases identifier
  · next c cs letters =>
      obtain ⟨-, plain⟩ := Bool.and_eq_true_iff.mp identifier
      refine ⟨⟨name.toList, ?_, ?_⟩, rfl⟩
      · rw [letters]
        exact List.cons_ne_nil c cs
      · rw [letters]
        exact List.all_eq_true.mp plain

/-- A natural number is written in digits. -/
theorem toList_of_natural {i : Int} (natural : 0 ≤ i) :
    (toString i).toList = Nat.toDigits 10 i.toNat := by
  show i.repr.toList = _
  rw [Int.repr_eq_if, if_pos natural, Nat.repr_eq_ofList_toDigits, String.toList_ofList]

theorem isDigit_of_natural {i : Int} (natural : 0 ≤ i) {c : Char} (mem : c ∈ (toString i).toList) :
    c.isDigit = true := by
  rw [toList_of_natural natural] at mem
  exact Nat.isDigit_of_mem_toDigits (by decide) (by decide) mem

theorem natural_inj {i j : Int} (natural : 0 ≤ i) (natural' : 0 ≤ j)
    (same : (toString i).toList = (toString j).toList) : i = j := by
  rw [toList_of_natural natural, toList_of_natural natural'] at same
  have numbers := congrArg (Nat.ofDigitChars 10 · 0) same
  simp only [Nat.ofDigitChars_ten_toDigits] at numbers
  omega

theorem exists_word_of_natural {i : Int} (natural : 0 ≤ i) :
    ∃ w : Word, w.letters = (toString i).toList := by
  have nonempty : (toString i).toList ≠ [] := by
    rw [toList_of_natural natural]
    exact Nat.toDigits_ne_nil
  exact ⟨⟨_, nonempty, fun c mem => isWordChar_of_isDigit (isDigit_of_natural natural mem)⟩, rfl⟩

theorem Ty.exists_word_of_keyword {t : Ty} {word : String} (keyword : t.keyword? = some word) :
    ∃ w : Word, w.letters = word.toList := by
  have plain : word.toList ≠ [] ∧ word.toList.all isWordChar = true := by
    cases t with
    | integral k => cases k <;> cases keyword <;> decide
    | _ => cases keyword <;> decide
  exact ⟨⟨_, plain.1, List.all_eq_true.mp plain.2⟩, rfl⟩

theorem BinaryOp.token_solid {op : BinaryOp} {symbol : String} (token : op.token? = some symbol) :
    (op ≠ .assign → symbol.toList ≠ ['=']) ∧ ∀ c ∈ symbol.toList, c ≠ ' ' := by
  have known : (op ≠ .assign → symbol.toList ≠ ['=']) ∧
      symbol.toList.all (· != ' ') = true := by
    cases op <;> cases token <;> decide
  exact ⟨known.1, fun c mem => bne_iff_ne.mp (List.all_eq_true.mp known.2 c mem)⟩

/-- Of operator expressions, only a parameter can be stored to. -/
theorem Expr.kind_of_isWritable {e : Expr} (writable : e.isWritable = true)
    (operator : e.isOperatorNode = true) : e.kind = .parameter := by
  obtain ⟨id, node⟩ := e
  cases node with
  | parameter => rfl
  | binary op =>
      cases op with
      | arrayIndex => simp [Expr.isOperatorNode] at operator
      | _ => cases writable
  | _ => cases writable <;> cases operator

theorem Expr.exists_phrased {e : Expr} (operators : e.All fun d => d.isOperatorNode = true)
    (accepted : e.All Expr.IsAccepted) : ∃ x, e.Phrased x := by
  induction e using Expr.inductionOnChildren with
  | step e ih =>
      obtain ⟨here, below⟩ := Expr.all_iff.mp operators
      obtain ⟨passes, belowPasses⟩ := Expr.all_iff.mp accepted
      have ih := fun c mem => ih c mem (below c mem) (belowPasses c mem)
      obtain ⟨id, node⟩ := e
      cases node with
      | parameter p =>
          obtain ⟨key, name, type⟩ := p
          cases name with
          | none => cases here
          | some name =>
              obtain ⟨w, letters⟩ := exists_word_of_isIdentifier here
              exact ⟨.word w, .parameter rfl here letters⟩
      | constant value type =>
          cases value with
          | integral kind bits =>
              cases kind with
              | int32 =>
                  have natural : 0 ≤ Integral.int32.toInt bits := of_decide_eq_true here
                  obtain ⟨w, letters⟩ := exists_word_of_natural natural
                  exact ⟨.word w, .constant natural letters⟩
              | _ => cases here
          | _ => cases here
      | unary op inner type =>
          obtain ⟨x, phrased⟩ := ih inner (List.mem_singleton_self _)
          simp only [Expr.isOperatorNode, Bool.or_eq_true, Bool.and_eq_true,
            decide_eq_true_eq] at here
          rcases here with (((rfl | rfl) | rfl) | rfl) | ⟨rfl, keyword⟩
          · exact ⟨.signed '-' (by decide) x, .signed rfl phrased⟩
          · exact ⟨.signed '+' (by decide) x, .signed rfl phrased⟩
          · exact ⟨.signed '!' (by decide) x, .signed rfl phrased⟩
          · exact ⟨.signed '~' (by decide) x, .signed rfl phrased⟩
          · obtain ⟨word, keyword⟩ := Option.isSome_iff_exists.mp keyword
            obtain ⟨w, letters⟩ := Ty.exists_word_of_keyword keyword
            exact ⟨.cast w x, .converted keyword letters phrased⟩
      | binary op left right assign checked type =>
          obtain ⟨x, leftPhrased⟩ := ih left (List.mem_cons_self ..)
          obtain ⟨y, rightPhrased⟩ := ih right (List.mem_cons_of_mem _ (List.mem_singleton_self _))
          simp only [Expr.isOperatorNode, Bool.and_eq_true, Bool.not_eq_true',
            decide_eq_true_eq] at here
          obtain ⟨⟨⟨rfl, rfl⟩, notPower⟩, notIndex⟩ := here
          by_cases stores : op = .assign
          · subst stores
            have reads := Expr.kind_of_isWritable (isWritable_of_check_assign passes)
              (Expr.all_iff.mp (below left (List.mem_cons_self ..))).1
            cases leftPhrased with
            | parameter named identifier letters =>
                exact ⟨_, .stored rfl (.parameter named identifier letters) rightPhrased⟩
            | _ => cases reads
          · have token : ∃ symbol, op.token? = some symbol := by
              cases op <;> simp_all [BinaryOp.token?]
            obtain ⟨symbol, token⟩ := token
            have solid := BinaryOp.token_solid token
            exact ⟨.joined symbol.toList ⟨solid.1 stores, solid.2⟩ x y,
              .joined token leftPhrased rightPhrased⟩
      | _ => cases here

/-! ### One phrase belongs to one tree -/

/-- The parameters that a tree mentions. -/
def Expr.mentioned (e : Expr) : List Parameter := e.nodes.flatMap fun d => d.node.parameters

/-- Two operator expressions have the same structure: the same parameters, constants, operators and
conversions in the same places. The types that their nodes record are related. -/
inductive Expr.Alike (related : Ty → Ty → Prop) : Expr → Expr → Prop
  | parameter {id id' : Identity} (p : Parameter) :
    Alike related ⟨id, .parameter p⟩ ⟨id', .parameter p⟩
  | constant {id id' : Identity} (value : Value) {t t' : Ty} (types : related t t') :
    Alike related ⟨id, .constant value t⟩ ⟨id', .constant value t'⟩
  | unary {id id' : Identity} (op : UnaryOp) {e e' : Expr} {t t' : Ty}
    (types : related t t') (converts : op = .convert → t = t') (inner : Alike related e e') :
    Alike related ⟨id, .unary op e t⟩ ⟨id', .unary op e' t'⟩
  | binary {id id' : Identity} (op : BinaryOp) (assign checked : Bool) {l l' r r' : Expr}
    {t t' : Ty} (types : related t t') (left : Alike related l l') (right : Alike related r r') :
    Alike related ⟨id, .binary op l r assign checked t⟩ ⟨id', .binary op l' r' assign checked t'⟩

/-- Whether the type that a node records is the one that its parts give it. -/
def Expr.hasOwnType (e : Expr) : Bool :=
  match e.node with
  | .constant value t => t = value.typeOf
  | .unary op inner t => op = .convert || t = op.resultType inner.type
  | .binary op left _ assign _ t => t = op.resultType left.type assign
  | _ => true

theorem Expr.Alike.type_eq {e f : Expr} (alike : e.Alike Eq f) : e.type = f.type := by
  cases alike with
  | parameter => rfl
  | constant _ types => exact types
  | unary _ types => exact types
  | binary _ _ _ types => exact types

/-- Types that come from the parts are the same if the structure is. -/
theorem Expr.Alike.of_hasOwnType {related : Ty → Ty → Prop} {e f : Expr}
    (alike : e.Alike related f) (own : e.All fun d => d.hasOwnType = true)
    (own' : f.All fun d => d.hasOwnType = true) : e.Alike Eq f := by
  induction alike with
  | parameter p => exact .parameter p
  | constant value types =>
      have here := of_decide_eq_true (Expr.all_iff.mp own).1
      have here' := of_decide_eq_true (Expr.all_iff.mp own').1
      exact .constant value (here.trans here'.symm)
  | unary op types converts inner ih =>
      obtain ⟨here, below⟩ := Expr.all_iff.mp own
      obtain ⟨here', below'⟩ := Expr.all_iff.mp own'
      have ih := ih (below _ (.head _)) (below' _ (.head _))
      refine .unary op ?_ converts ih
      simp only [Expr.hasOwnType, Bool.or_eq_true, decide_eq_true_eq] at here here'
      by_cases convert : op = .convert
      · exact converts convert
      · rw [here.resolve_left convert, here'.resolve_left convert, ih.type_eq]
  | binary op assign checked types left right ihl ihr =>
      obtain ⟨here, below⟩ := Expr.all_iff.mp own
      obtain ⟨here', below'⟩ := Expr.all_iff.mp own'
      have ihl := ihl (below _ (.head _)) (below' _ (.head _))
      have ihr := ihr (below _ (.tail _ (.head _))) (below' _ (.tail _ (.head _)))
      refine .binary op assign checked ?_ ihl ihr
      rw [of_decide_eq_true here, of_decide_eq_true here', ihl.type_eq]

theorem Expr.mentioned_subset_of_child {e c : Expr} (child : c ∈ e.children) :
    c.mentioned ⊆ e.mentioned := by
  intro p mem
  obtain ⟨d, inside, mentions⟩ := List.mem_flatMap.mp mem
  exact List.mem_flatMap.mpr ⟨d, Expr.nodes_subset_of_child child inside, mentions⟩

theorem UnaryOp.sign_inj {op op' : UnaryOp} {c : Char} (sign : op.sign? = some c)
    (sign' : op'.sign? = some c) : op = op' := by
  have inj : ∀ op ∈ UnaryOp.all, ∀ op' ∈ UnaryOp.all, op.sign? ≠ none → op.sign? = op'.sign? →
      op = op' := by decide
  refine inj op (UnaryOp.mem_all op) op' (UnaryOp.mem_all op') ?_ (sign.trans sign'.symm)
  rw [sign]
  exact Option.some_ne_none c

theorem BinaryOp.token_inj {op op' : BinaryOp} {symbol : String} (token : op.token? = some symbol)
    (token' : op'.token? = some symbol) : op = op' := by
  have inj : ∀ op ∈ BinaryOp.all, ∀ op' ∈ BinaryOp.all, op.token? ≠ none → op.token? = op'.token? →
      op = op' := by decide
  refine inj op (BinaryOp.mem_all op) op' (BinaryOp.mem_all op') ?_ (token.trans token'.symm)
  rw [token]
  exact Option.some_ne_none symbol

/-- The type that a keyword names. -/
def Ty.ofKeyword (word : String) : Option Ty :=
  [.void, .boolean, .char, .string, .object, .single, .double, .decimal, .integral .sbyte,
    .integral .byte, .integral .int16, .integral .uint16, .integral .int32, .integral .uint32,
    .integral .int64, .integral .uint64].find? fun t => t.keyword? = some word

theorem Ty.ofKeyword_of_keyword {t : Ty} {word : String} (keyword : t.keyword? = some word) :
    Ty.ofKeyword word = some t := by
  cases t with
  | integral k => cases k <;> cases keyword <;> rfl
  | _ => cases keyword <;> rfl

theorem not_isDigit_of_isIdentifier {name : String} (identifier : isIdentifier name = true) :
    ∃ c ∈ name.toList, c.isDigit = false := by
  unfold isIdentifier at identifier
  split at identifier
  · cases identifier
  · next c cs letters =>
      obtain ⟨first, -⟩ := Bool.and_eq_true_iff.mp identifier
      rw [letters]
      exact ⟨c, List.mem_cons_self .., Bool.not_eq_true' _ ▸ first⟩

/-- No identifier is a number. -/
theorem identifier_ne_natural {name : String} {i : Int} (identifier : isIdentifier name = true)
    (natural : 0 ≤ i) : name.toList ≠ (toString i).toList := by
  intro same
  obtain ⟨c, mem, letter⟩ := not_isDigit_of_isIdentifier identifier
  rw [same] at mem
  rw [isDigit_of_natural natural mem] at letter
  cases letter

/-- No two parameters of the trees share a name. -/
def Expr.NamesApart (e f : Expr) : Prop :=
  ∀ p ∈ e.mentioned, ∀ q ∈ f.mentioned, p.name = q.name → p = q

theorem Expr.NamesApart.children {e f c d : Expr} (apart : e.NamesApart f) (child : c ∈ e.children)
    (child' : d ∈ f.children) : c.NamesApart d :=
  fun p mem q mem' => apart p (Expr.mentioned_subset_of_child child mem) q
    (Expr.mentioned_subset_of_child child' mem')

/-- Expressions with one phrase have one structure, if no two parameters share a name. -/
theorem Expr.Phrased.alike {e f : Expr} {x : Phrase} (phrased : e.Phrased x)
    (phrased' : f.Phrased x) (apart : e.NamesApart f) : e.Alike (fun _ _ => True) f := by
  have reads (id : Identity) (p : Parameter) : p ∈ Expr.mentioned ⟨id, .parameter p⟩ :=
    List.mem_flatMap.mpr ⟨_, Expr.mem_nodes_self _, List.mem_singleton_self _⟩
  induction phrased generalizing f with
  | @parameter id p w name named identifier letters =>
      cases phrased' with
      | @parameter id' q _ name' named' identifier' letters' =>
          have names : name = name' := String.toList_inj.mp (letters.symm.trans letters')
          have same : p = q := by
            refine apart p (reads id p) q (reads id' q) ?_
            rw [named, named', names]
          subst same
          exact .parameter p
      | constant natural letters' =>
          exact absurd (letters.symm.trans letters') (identifier_ne_natural identifier natural)
  | constant natural letters =>
      cases phrased' with
      | parameter named identifier letters' =>
          exact absurd (letters'.symm.trans letters) (identifier_ne_natural identifier natural)
      | constant natural' letters' =>
          have numbers := natural_inj natural natural' (letters.symm.trans letters')
          cases BitVec.toInt_inj.mp numbers
          exact .constant _ trivial
  | signed sign inner ih =>
      cases phrased' with
      | signed sign' inner' =>
          cases UnaryOp.sign_inj sign sign'
          have alike := ih inner' (apart.children (.head _) (.head _))
          refine .unary _ trivial ?_ alike
          rintro rfl
          cases sign
  | converted keyword letters inner ih =>
      cases phrased' with
      | converted keyword' letters' inner' =>
          have words := String.toList_inj.mp (letters.symm.trans letters')
          subst words
          have types :=
            (Ty.ofKeyword_of_keyword keyword).symm.trans (Ty.ofKeyword_of_keyword keyword')
          cases types
          exact .unary _ trivial (fun _ => rfl) (ih inner' (apart.children (.head _) (.head _)))
  | @joined _ op _ _ _ symbol solid x y token left right ihl ihr =>
      -- The characters of the token are no constructor, so that they are compared by hand.
      generalize shape : Phrase.joined symbol.toList solid x y = z at phrased'
      cases phrased' with
      | joined token' left' right' =>
          obtain ⟨symbols, rfl, rfl⟩ := Phrase.joined.inj shape
          rw [← String.toList_inj.mp symbols] at token'
          cases BinaryOp.token_inj token token'
          exact .binary op _ _ trivial (ihl left' (apart.children (.head _) (.head _)))
            (ihr right' (apart.children (.tail _ (.head _)) (.tail _ (.head _))))
      | _ => cases shape
  | stored reads target value ihl ihr =>
      cases phrased' with
      | stored reads' target' value' =>
          exact .binary _ _ _ trivial (ihl target' (apart.children (.head _) (.head _)))
            (ihr value' (apart.children (.tail _ (.head _)) (.tail _ (.head _))))

/-- Operator expressions are rendered, and if two of them are rendered as the same text then they
have the same structure, as long as different parameters have different names. If their types come
from their parts, as they do unless given, then the types are the same as well. -/
theorem operator_text_tells_structure {e f : Expr}
    (operators : e.All fun d => d.isOperatorNode = true)
    (operators' : f.All fun d => d.isOperatorNode = true) (accepted : e.All Expr.IsAccepted)
    (accepted' : f.All Expr.IsAccepted)
    (apart : ∀ p ∈ e.mentioned, ∀ q ∈ f.mentioned, p.name = q.name → p = q)
    (same : e.render = f.render) :
    (∃ text, e.render = .ok text) ∧ e.Alike (fun _ _ => True) f ∧
      (e.All (fun d => d.hasOwnType = true) → f.All (fun d => d.hasOwnType = true) →
        e.Alike Eq f) := by
  obtain ⟨x, phrased⟩ := Expr.exists_phrased operators accepted
  obtain ⟨y, phrased'⟩ := Expr.exists_phrased operators' accepted'
  have text : e.render = .ok (String.ofList x.text) := phrased.spells.1.text_eq
  have text' : f.render = .ok (String.ofList y.text) := phrased'.spells.1.text_eq
  have texts : x.text = y.text := by
    rw [text, text'] at same
    exact String.ofList_injective (Except.ok.inj same)
  rw [← Phrase.text_inj texts] at phrased'
  have alike := phrased.alike phrased' apart
  exact ⟨⟨_, text⟩, alike, alike.of_hasOwnType⟩

/-! ### A product

`(-(a + 1)) * (int)b`, with nodes that are numbered in two ways. -/

namespace SignedProduct

def a : Parameter := ⟨0, some "a", .int32⟩

def b : Parameter := ⟨1, some "b", .double⟩

def sum (k : Nat) : Expr :=
  ⟨k, .binary .add ⟨k + 1, .parameter a⟩ ⟨k + 2, .constant (.int32 1) .int32⟩ false false .int32⟩

def product (k : Nat) : Expr :=
  ⟨k, .binary .multiply ⟨k + 1, .unary .negate (sum (k + 3)) .int32⟩
    ⟨k + 2, .unary .convert ⟨k + 6, .parameter b⟩ .int32⟩ false false .int32⟩

theorem products_have_one_structure : (product 2).Alike Eq (product 20) := by
  have same : (product 2).render = (product 20).render := by
    show (product 2).draft.text = (product 20).draft.text
    rfl
  exact (operator_text_tells_structure (by decide) (by decide) (by decide) (by decide) (by decide)
    same).2.2 (by decide) (by decide)

end SignedProduct

end ExprTree
