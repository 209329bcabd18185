import ExprTree.Proofs.Spelling

/-!
Lines of text in pieces.

A piece of text is held together by parentheses and commas: a blank in it stands inside of
parentheses or follows a comma. A line is pieces and operators in turn, with blanks between them.
Where a piece ends can be told from the text alone, so one text belongs to one line
(`Line.text_inj`).
-/

namespace ExprTree

namespace Source

/-! ### Pieces -/

/-- Where a scan of a text stands: how many parentheses are open, and whether the last character was
a comma. -/
structure Scan where
  depth : Nat
  comma : Bool
deriving DecidableEq

/-- Scan one character. The scan fails at a blank that ends a piece, and at a parenthesis that
closes nothing. -/
def Scan.step (s : Scan) (c : Char) : Option Scan :=
  if c = '(' then some ⟨s.depth + 1, false⟩
  else if c = ')' then
    if s.depth = 0 then none else some ⟨s.depth - 1, false⟩
  else if c = ',' then some ⟨s.depth, true⟩
  else if c = ' ' ∧ s.depth = 0 ∧ s.comma = false then none
  else some ⟨s.depth, false⟩

def Scan.run (s : Scan) (text : List Char) : Option Scan := text.foldlM Scan.step s

/-- The text is one piece. -/
def Solid (text : List Char) : Prop := Scan.run ⟨0, false⟩ text = some ⟨0, false⟩

instance (text : List Char) : Decidable (Solid text) :=
  inferInstanceAs (Decidable (Scan.run ⟨0, false⟩ text = some ⟨0, false⟩))

theorem Scan.run_cons (s : Scan) (c : Char) (text : List Char) :
    s.run (c :: text) = (s.step c).bind fun s => s.run text :=
  rfl

theorem Scan.run_append (s : Scan) (a b : List Char) :
    s.run (a ++ b) = (s.run a).bind fun s => s.run b :=
  List.foldlM_append

theorem Solid.append {a b : List Char} (first : Solid a) (second : Solid b) : Solid (a ++ b) := by
  rw [Solid, Scan.run_append, first]
  exact second

theorem solid_nil : Solid [] := rfl

/-- Inside of more parentheses a scan goes on at least as far. -/
theorem Scan.step_lift {s s' : Scan} {c : Char} (k : Nat) (ok : s.step c = some s') :
    Scan.step ⟨s.depth + k, s.comma⟩ c = some ⟨s'.depth + k, s'.comma⟩ := by
  unfold Scan.step at ok ⊢
  grind

theorem Scan.run_lift {s s' : Scan} {text : List Char} (k : Nat) (ok : s.run text = some s') :
    Scan.run ⟨s.depth + k, s.comma⟩ text = some ⟨s'.depth + k, s'.comma⟩ := by
  induction text generalizing s with
  | nil =>
      cases ok
      rfl
  | cons c text ih =>
      rw [Scan.run_cons] at ok ⊢
      obtain ⟨next, first, rest⟩ := Option.bind_eq_some_iff.mp ok
      rw [Scan.step_lift k first]
      exact ih rest

theorem Solid.run {text : List Char} (solid : Solid text) (k : Nat) :
    Scan.run ⟨k, false⟩ text = some ⟨k, false⟩ := by
  simpa only [Nat.zero_add] using Scan.run_lift k solid

/-- In parentheses a text is one piece. -/
theorem solid_parenthesized {text : List Char}
    (inside : Scan.run ⟨1, false⟩ text = some ⟨1, false⟩) : Solid ('(' :: text ++ [')']) := by
  rw [Solid, List.cons_append, Scan.run_cons]
  show Scan.run ⟨1, false⟩ (text ++ [')']) = _
  rw [Scan.run_append, inside]
  rfl

/-- Characters that a scan passes over. -/
def isPlainChar (c : Char) : Bool := !([' ', '(', ')', ','].contains c)

theorem Solid.plain {text : List Char} (plain : ∀ c ∈ text, isPlainChar c = true) :
    Solid text := by
  induction text with
  | nil => rfl
  | cons c text ih =>
      have first : Scan.step ⟨0, false⟩ c = some ⟨0, false⟩ := by
        have here := plain c (List.mem_cons_self ..)
        unfold Scan.step
        grind [isPlainChar]
      rw [Solid, Scan.run_cons, first]
      exact ih fun d mem => plain d (List.mem_cons_of_mem _ mem)

theorem isPlainChar_of_isWordChar {c : Char} (word : isWordChar c = true) :
    isPlainChar c = true := by
  have separated : ∀ d ∈ [' ', '(', ')', ','], d ∈ separators := by simp [separators]
  unfold isWordChar at word
  grind [isPlainChar]

/-- The text is at its end or goes on with a blank. -/
def EndsPiece (rest : List Char) : Prop := rest = [] ∨ ∃ s, rest = ' ' :: s

/-- A piece ends at the first blank that can end it. -/
theorem Solid.append_inj {a b r s : List Char} (solidA : Solid a) (solidB : Solid b)
    (endsR : EndsPiece r) (endsS : EndsPiece s) (same : a ++ r = b ++ s) : a = b ∧ r = s := by
  -- A longer piece would go on over the blank that ends the shorter one.
  have longer {a t r : List Char} (solid : Solid a) (ends : EndsPiece (t ++ r))
      (solid' : Solid (a ++ t)) : t = [] := by
    cases t with
    | nil => rfl
    | cons c t =>
        rcases ends with nothing | ⟨rest, blank⟩
        · cases nothing
        · cases (List.cons.inj blank).1
          rw [Solid, Scan.run_append, solid] at solid'
          cases solid'
  rcases List.append_eq_append_iff.mp same with ⟨t, rfl, rfl⟩ | ⟨t, rfl, rfl⟩
  · cases longer solidA endsR solidB
    exact ⟨(List.append_nil a).symm, rfl⟩
  · cases longer solidB endsS solidA
    exact ⟨List.append_nil b, rfl⟩

/-! ### Lines -/

/-- Pieces with operators between them. -/
@[ext] structure Line where
  first : List Char
  rest : List (List Char × List Char)

namespace Line

/-- The text of operators and the pieces that follow them, with a blank before each. -/
def textAfter (rest : List (List Char × List Char)) : List Char :=
  rest.flatMap fun part => ' ' :: part.1 ++ ' ' :: part.2

def text (l : Line) : List Char := l.first ++ textAfter l.rest

/-- Operators and pieces are pieces of text. -/
def PartsSolid (rest : List (List Char × List Char)) : Prop :=
  ∀ part ∈ rest, Solid part.1 ∧ Solid part.2

structure IsSolid (l : Line) : Prop where
  first : Solid l.first
  rest : PartsSolid l.rest

theorem endsPiece_textAfter (rest : List (List Char × List Char)) : EndsPiece (textAfter rest) := by
  cases rest with
  | nil => exact .inl rfl
  | cons part rest => exact .inr ⟨_, rfl⟩

theorem textAfter_inj {a b : List (List Char × List Char)} (solidA : PartsSolid a)
    (solidB : PartsSolid b) (same : textAfter a = textAfter b) : a = b := by
  induction a generalizing b with
  | nil =>
      cases b with
      | nil => rfl
      | cons => cases same
  | cons part a ih =>
      cases b with
      | nil => cases same
      | cons part' b =>
          obtain ⟨symbol, piece⟩ := part
          obtain ⟨symbol', piece'⟩ := part'
          have here := solidA _ (List.mem_cons_self ..)
          have here' := solidB _ (List.mem_cons_self ..)
          simp only [textAfter, List.flatMap_cons, List.cons_append, List.append_assoc] at same
          obtain ⟨rfl, after⟩ :=
            here.1.append_inj here'.1 (.inr ⟨_, rfl⟩) (.inr ⟨_, rfl⟩) (List.cons.inj same).2
          obtain ⟨rfl, last⟩ := here.2.append_inj here'.2 (endsPiece_textAfter _)
            (endsPiece_textAfter _) (List.cons.inj after).2
          rw [ih (fun p mem => solidA p (.tail _ mem)) (fun p mem => solidB p (.tail _ mem)) last]

/-- One text belongs to one line. -/
theorem text_inj {l m : Line} (solid : l.IsSolid) (solid' : m.IsSolid) (same : l.text = m.text) :
    l = m := by
  obtain ⟨firsts, after⟩ := solid.first.append_inj solid'.first (endsPiece_textAfter _)
    (endsPiece_textAfter _) same
  exact Line.ext firsts (textAfter_inj solid.rest solid'.rest after)

/-- Inside of parentheses the blanks between pieces are passed over. -/
theorem PartsSolid.run {rest : List (List Char × List Char)} (solid : PartsSolid rest) :
    Scan.run ⟨1, false⟩ (textAfter rest) = some ⟨1, false⟩ := by
  induction rest with
  | nil => rfl
  | cons part rest ih =>
      obtain ⟨symbol, piece⟩ := solid part (List.mem_cons_self ..)
      have blank (text : List Char) :
          Scan.run ⟨1, false⟩ (' ' :: text) = Scan.run ⟨1, false⟩ text := rfl
      simp only [textAfter, List.flatMap_cons, List.cons_append, List.append_assoc, blank,
        Scan.run_append, symbol.run, Option.bind_some, piece.run]
      exact ih fun part mem => solid part (.tail _ mem)

/-- A line in parentheses is one piece. -/
theorem IsSolid.parenthesized {l : Line} (solid : l.IsSolid) : Solid ('(' :: l.text ++ [')']) := by
  refine solid_parenthesized ?_
  rw [text, Scan.run_append, solid.first.run 1]
  exact PartsSolid.run solid.rest

end Line

end Source

/-! ### Types -/

open Source

mutual

/-- Whether no name in the type has a blank, a parenthesis or a comma. -/
def Ty.hasPlainNames : Ty → Bool
  | .array element _ => Ty.hasPlainNames element
  | .parameter name => name.toList.all isPlainChar
  | .named d => Named.hasPlainNames d
  | _ => true
termination_by structural t => t

def Named.hasPlainNames : Named → Bool
  | ⟨name, _, arguments, _, _, _, _⟩ =>
    name.toList.all isPlainChar && Ty.listHasPlainNames arguments
termination_by structural d => d

def Ty.listHasPlainNames : List Ty → Bool
  | [] => true
  | t :: ts => Ty.hasPlainNames t && Ty.listHasPlainNames ts
termination_by structural ts => ts

end

theorem solid_of_all {text : List Char} (plain : text.all isPlainChar = true) : Solid text :=
  Solid.plain (List.all_eq_true.mp plain)

/-- Commas are one piece together with what closes them. -/
theorem solid_commas (n : Nat) {closing : Char}
    (closes : ∀ comma, Scan.step ⟨0, comma⟩ closing = some ⟨0, false⟩) :
    Solid ((commas n).toList ++ [closing]) := by
  have run : ∀ comma, Scan.run ⟨0, comma⟩ ((commas n).toList ++ [closing]) = some ⟨0, false⟩ := by
    rw [commas, String.toList_ofList]
    induction n with
    | zero =>
        intro comma
        rw [List.replicate_zero, List.nil_append, Scan.run_cons, closes]
        rfl
    | succ n ih =>
        intro comma
        exact ih true
  exact run false

mutual

theorem Ty.solid_text : (t : Ty) → Ty.hasPlainNames t = true → Solid t.text.toList
  | .array element rank, plain => by
      have brackets : Solid ("[".toList ++ ((commas (rank - 1)).toList ++ "]".toList)) :=
        Solid.append (by decide) (solid_commas _ fun _ => rfl)
      simpa only [Ty.text, String.toList_append, List.append_assoc] using
        (Ty.solid_text element plain).append brackets
  | .named d, plain => Named.solid_text d plain
  | .parameter name, plain => solid_of_all plain
  | .void, _ => by decide
  | .boolean, _ => by decide
  | .char, _ => by decide
  | .string, _ => by decide
  | .object, _ => by decide
  | .integral k, _ => by cases k <;> decide
  | .single, _ => by decide
  | .double, _ => by decide
  | .decimal, _ => by decide
termination_by structural t => t

theorem Named.solid_text : (d : Named) → Named.hasPlainNames d = true → Solid d.text.toList
  | ⟨name, form, arguments, definition, base, interfaces, enumerator⟩, plain => by
      obtain ⟨named, inside⟩ := Bool.and_eq_true_iff.mp plain
      have first := solid_of_all named
      have bracket : Solid "<".toList := by decide
      rw [Named.text]
      split
      · have closed : Solid ((commas (arguments.length - 1)).toList ++ ">".toList) :=
          solid_commas _ fun _ => rfl
        simpa only [String.toList_append, List.append_assoc] using
          first.append (bracket.append closed)
      · split
        · exact first
        · have closed : Solid ((Ty.textList arguments).toList ++ ">".toList) :=
            (Ty.solid_textList arguments inside).append (by decide)
          simpa only [String.toList_append, List.append_assoc] using
            first.append (bracket.append closed)
termination_by structural d => d

theorem Ty.solid_textList : (ts : List Ty) → Ty.listHasPlainNames ts = true →
    Solid (Ty.textList ts).toList
  | [], _ => solid_nil
  | t :: ts, plain => by
      obtain ⟨first, rest⟩ := Bool.and_eq_true_iff.mp plain
      rw [Ty.textList, String.toList_append]
      exact (Ty.solid_text t first).append (Ty.solid_textRest ts rest)
termination_by structural ts => ts

theorem Ty.solid_textRest : (ts : List Ty) → Ty.listHasPlainNames ts = true →
    Solid (Ty.textRest ts).toList
  | [], _ => solid_nil
  | t :: ts, plain => by
      obtain ⟨first, rest⟩ := Bool.and_eq_true_iff.mp plain
      rw [Ty.textRest, String.toList_append, String.toList_append]
      exact (Solid.append (by decide) (Ty.solid_text t first)).append (Ty.solid_textRest ts rest)
termination_by structural ts => ts

end

end ExprTree
