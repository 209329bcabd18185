import Mathlib.Data.List.Basic
import ExprTree.Proofs.Drafting
import ExprTree.Source.Render

/-!
The text of what is written on one line.

A draft without line breaks, whose parameters all have names, has a text that depends on nothing
around it: `Draft.Spells` says which. It is put together from the texts of the parts, and rendering
gives exactly that text (`Draft.Spells.text_eq`).
-/

namespace ExprTree.Source

/-- The draft is written without a failure, on one line, as the given characters, and no name is
made up for it. -/
structure Draft.Spells (d : Draft) (text : List Char) : Prop where
  ok : d.error = none
  names : ∀ t : NameTable, (t.settle d.marks).2 = t
  depth : ∀ (t : NameTable) (l : Layout), l.depth = 0 →
    (l.run (t.settle d.marks).1).2.depth = 0
  text : ∀ (t : NameTable) (l : Layout), l.depth = 0 →
    (plainText (l.run (t.settle d.marks).1).1).toList = text

theorem Draft.Spells.append {a b : Draft} {s t : List Char} (first : a.Spells s)
    (second : b.Spells t) : (a ++ b).Spells (s ++ t) where
  ok := by rw [append_error_of_ok first.ok, second.ok]
  names table := by
    rw [append_marks_of_ok first.ok, NameTable.settle_append, first.names, second.names]
  depth table l flat := by
    rw [append_marks_of_ok first.ok, NameTable.settle_append, Layout.run_append, first.names]
    exact second.depth table _ (first.depth table l flat)
  text table l flat := by
    rw [append_marks_of_ok first.ok, NameTable.settle_append, Layout.run_append,
      plainText_append, String.toList_append, first.names, first.text table l flat]
    rw [second.text table _ (first.depth table l flat)]

theorem Draft.Spells.congr {d : Draft} {s t : List Char} (spells : d.Spells s) (same : s = t) :
    d.Spells t :=
  same ▸ spells

theorem Layout.put_flat {l : Layout} (flat : l.depth = 0) (category : Category) (content : String) :
    (l.put category content).2.depth = 0 ∧
      (plainText (l.put category content).1).toList = content.toList := by
  unfold Layout.put
  by_cases nothing : content.isEmpty = true
  · rw [if_pos nothing]
    have none : content = "" := String.isEmpty_iff.mp nothing
    exact ⟨flat, by rw [none]; rfl⟩
  · rw [if_neg nothing]
    refine ⟨flat, ?_⟩
    simp [flat, plainText]

/-- A directive that puts its content on the line. -/
theorem spells_ofDirective {d : Directive} {category : Category} {content : String}
    (puts : ∀ l : Layout, l.step d = l.put category content) :
    (Draft.ofDirective d).Spells content.toList where
  ok := rfl
  names _ := rfl
  depth t l flat := by
    show (l.run [d]).2.depth = 0
    simpa only [Layout.run, puts] using (Layout.put_flat flat category content).1
  text t l flat := by
    show (plainText (l.run [d]).1).toList = _
    simpa only [Layout.run, puts, List.append_nil] using (Layout.put_flat flat category content).2

theorem spells_empty : Draft.empty.Spells [] where
  ok := rfl
  names _ := rfl
  depth _ _ flat := flat
  text _ _ _ := rfl

theorem spells_space : space.Spells [' '] := by
  have spells : (Draft.ofDirective .space).Spells " ".toList := spells_ofDirective fun _ => rfl
  exact spells

theorem spells_token (text : String) : (token text).Spells text.toList :=
  spells_ofDirective fun _ => rfl

theorem spells_keyword (text : String) : (keyword text).Spells text.toList :=
  spells_ofDirective fun _ => rfl

theorem spells_literal (text : String) : (literal text).Spells text.toList :=
  spells_ofDirective fun _ => rfl

theorem spells_reference (text : String) (referent : Referent) :
    (reference text referent).Spells text.toList :=
  spells_ofDirective fun _ => rfl

/-- A parameter with a name is written as its name. -/
theorem spells_parameterName {p : Parameter} {name : String} (named : p.name = some name) :
    (parameterName p).Spells name.toList := by
  have settled (t : NameTable) :
      t.settle [.symbol (.parameter p)] = ([.identifier name (.parameter p)], t) := by
    simp only [NameTable.settle, NameTable.name, Symbol.ownName, named]
    rfl
  have spells : (Draft.ofDirective (.identifier name (.parameter p))).Spells name.toList :=
    spells_ofDirective fun _ => rfl
  refine ⟨rfl, fun t => ?_, fun t l flat => ?_, fun t l flat => ?_⟩
  · show (t.settle [.symbol (.parameter p)]).2 = t
    rw [settled]
  · show (l.run (t.settle [.symbol (.parameter p)]).1).2.depth = 0
    rw [settled]
    exact spells.depth t l flat
  · show (plainText (l.run (t.settle [.symbol (.parameter p)]).1).1).toList = _
    rw [settled]
    exact spells.text t l flat

/-! ### Common shapes -/

theorem Draft.Spells.parenthesized {d : Draft} {text : List Char} (spells : d.Spells text) :
    (parenthesized d).Spells ('(' :: text ++ [')']) :=
  ((spells_token "(").append spells).append (spells_token ")")

theorem Draft.Spells.between {left right : Draft} {s t : List Char} (symbol : String)
    (first : left.Spells s) (second : right.Spells t) :
    (between left symbol right).Spells (s ++ ' ' :: symbol.toList ++ ' ' :: t) := by
  have spells := (((first.append spells_space).append (spells_token symbol)).append
    spells_space).append second
  simpa only [Source.between, List.append_assoc, List.cons_append, List.nil_append] using spells

/-! ### Types -/

theorem spells_ofMarks_append {a b : List Mark} {s t : List Char}
    (first : (Draft.ofMarks a).Spells s) (second : (Draft.ofMarks b).Spells t) :
    (Draft.ofMarks (a ++ b)).Spells (s ++ t) :=
  first.append second

theorem spells_commas (n : Nat) :
    (Draft.ofMarks (List.replicate n (.step (.token ",")))).Spells (commas n).toList := by
  unfold commas
  rw [String.toList_ofList]
  induction n with
  | zero => exact spells_empty
  | succ n ih =>
      rw [List.replicate_succ, List.replicate_succ]
      exact spells_ofMarks_append (spells_token ",") ih

/-- Marks between an opening and a closing token. -/
theorem spells_bracketed (opening closing : String) {marks : List Mark} {text : List Char}
    (inside : (Draft.ofMarks marks).Spells text) :
    (Draft.ofMarks (.step (.token opening) :: marks ++ [.step (.token closing)])).Spells
      (opening.toList ++ text ++ closing.toList) :=
  spells_ofMarks_append (spells_ofMarks_append (spells_token opening) inside)
    (spells_token closing)

mutual

theorem spells_typeMarks : (t : Ty) → (Draft.ofMarks (typeMarks t)).Spells t.text.toList
  | .array element rank => by
      have spells := spells_ofMarks_append (spells_typeMarks element)
        (spells_bracketed "[" "]" (spells_commas (rank - 1)))
      simpa only [typeMarks, Ty.text, String.toList_append, List.append_assoc] using spells
  | .named d => spells_named d
  | .parameter name => spells_reference name _
  | .void => spells_reference "void" _
  | .boolean => spells_reference "bool" _
  | .char => spells_reference "char" _
  | .string => spells_reference "string" _
  | .object => spells_reference "object" _
  | .integral k => spells_reference k.keyword _
  | .single => spells_reference "float" _
  | .double => spells_reference "double" _
  | .decimal => spells_reference "decimal" _
termination_by structural t => t

theorem spells_named : (d : Named) → (Draft.ofMarks (typeMarks (.named d))).Spells d.text.toList
  | ⟨name, form, arguments, definition, base, interfaces, enumerator⟩ => by
      have named := spells_reference name
        (.type (.named ⟨name, form, arguments, definition, base, interfaces, enumerator⟩))
      have commas := spells_bracketed "<" ">" (spells_commas (arguments.length - 1))
      have inside := spells_bracketed "<" ">" (spells_commaMarks arguments)
      cases definition with
      | true =>
          refine (spells_ofMarks_append named commas).congr ?_
          simp only [Named.text, if_true, String.toList_append, List.append_assoc]
      | false =>
          cases arguments with
          | nil => exact named
          | cons t ts =>
              refine (spells_ofMarks_append named inside).congr ?_
              simp only [Named.text, Bool.false_eq_true, if_false, List.isEmpty_cons,
                String.toList_append, List.append_assoc]
termination_by structural d => d

theorem spells_commaMarks : (ts : List Ty) →
    (Draft.ofMarks (commaMarks (typeMarksList ts))).Spells (Ty.textList ts).toList
  | [] => spells_empty
  | t :: ts => by
      have first := spells_typeMarks t
      have rest := spells_commaMarks ts
      cases ts with
      | nil =>
          refine first.congr ?_
          simp only [Ty.textList, Ty.textRest, String.append_empty]
      | cons t' ts =>
          have comma := spells_ofMarks_append (spells_token ",") spells_space
          refine (spells_ofMarks_append first (spells_ofMarks_append comma rest)).congr ?_
          have blank : ", ".toList = ",".toList ++ [' '] := rfl
          simp only [Ty.textList, Ty.textRest, String.toList_append, List.append_assoc, blank]
termination_by structural ts => ts

end

/-- A type is written as its text. -/
theorem spells_writeType (t : Ty) : (writeType t).Spells t.text.toList := spells_typeMarks t

/-! ### Rendering -/

/-- What a draft spells is what it is rendered as. -/
theorem Draft.Spells.text_eq {d : Draft} {text : List Char} (spells : d.Spells text) :
    d.text = .ok (String.ofList text) := by
  have plain (fragments : List Fragment) : Style.plain.text fragments = plainText fragments := rfl
  have rendered : d.text = .ok (plainText (Layout.run {} (NameTable.settle {} d.marks).1).1) := by
    simp only [Draft.text, Draft.fragments, Draft.directives, spells.ok, Except.map, plain]
  rw [rendered, ← spells.text {} {} rfl, String.ofList_toList]

/-- What a draft spells is what it adds to a page that is not indented. -/
theorem Draft.Spells.write_eq {d : Draft} {text : List Char} (spells : d.Spells text) {page : Page}
    (flat : page.layout.depth = 0) :
    plainText (page.write d).1 = String.ofList text ∧ (page.write d).2.names = page.names := by
  refine ⟨?_, spells.names page.names⟩
  rw [← spells.text page.names page.layout flat, String.ofList_toList]
  rfl

/-- Writing a type and taking its text agree for every type. It is written to a new page without a
failure, as its text and with no name made up, whatever one level of indentation is and whichever
names are taken. On its own it is rendered as its text too. -/
theorem written_type_is_its_text (t : Ty) (unit : String) (names : NameTable) :
    let page : Page := { layout := { unit }, names }
    (writeType t).error = none ∧ plainText (page.write (writeType t)).1 = t.text ∧
      (page.write (writeType t)).2.names = names ∧ (writeType t).text = .ok t.text := by
  intro page
  have spells := spells_writeType t
  obtain ⟨written, kept⟩ := spells.write_eq (show page.layout.depth = 0 from rfl)
  have rendered := spells.text_eq
  rw [String.ofList_toList] at written rendered
  exact ⟨spells.ok, written, kept, rendered⟩

/-! ### Words -/

/-- The characters that stand between words: blanks, brackets, operators, punctuation and quotes. -/
def separators : List Char :=
  ['\t', '\n', ' ', '!', '"', '%', '&', '\'', '(', ')', '*', '+', ',', '-', '.', '/', ':', ';', '<',
    '=', '>', '?', '[', ']', '^', '\x7b', '|', '\x7d', '~']

/-- Whether a character can stand in a word. -/
def isWordChar (c : Char) : Bool := !separators.contains c

theorem isWordChar_of_isDigit {c : Char} (digit : c.isDigit = true) : isWordChar c = true := by
  have others : separators.all (fun d => !d.isDigit) = true := by decide
  unfold isWordChar
  cases separated : separators.contains c with
  | false => rfl
  | true =>
      have other := List.all_eq_true.mp others c (List.contains_iff_mem.mp separated)
      rw [digit] at other
      cases other

/-- Whether a name is a word that does not begin with a digit. -/
def isIdentifier (name : String) : Bool :=
  match name.toList with
  | [] => false
  | c :: cs => !c.isDigit && (c :: cs).all isWordChar

/-- A text that is one word. -/
structure Word where
  letters : List Char
  nonempty : letters ≠ []
  plain : ∀ c ∈ letters, isWordChar c = true

/-- The text is at its end or goes on with a character that no word has. -/
def EndsWord (rest : List Char) : Prop := ∀ c ∈ rest.head?, isWordChar c = false

/-- Characters of one sort are told from what follows if that begins with another sort. -/
theorem append_inj_of_boundary (p : Char → Bool) {a b r s : List Char}
    (inA : ∀ c ∈ a, p c = true) (inB : ∀ c ∈ b, p c = true)
    (afterA : ∀ c ∈ r.head?, p c = false) (afterB : ∀ c ∈ s.head?, p c = false)
    (same : a ++ r = b ++ s) : a = b ∧ r = s := by
  have none {t : List Char} (after : ∀ c ∈ t.head?, p c = false) : t.takeWhile p = [] := by
    cases t with
    | nil => rfl
    | cons c t => rw [List.takeWhile_cons, after c rfl]; rfl
  have taken := congrArg (List.takeWhile p) same
  rw [List.takeWhile_append_of_pos inA, List.takeWhile_append_of_pos inB, none afterA, none afterB,
    List.append_nil, List.append_nil] at taken
  subst taken
  exact ⟨rfl, List.append_cancel_left same⟩

theorem Word.append_inj {v w : Word} {r s : List Char} (afterV : EndsWord r) (afterW : EndsWord s)
    (same : v.letters ++ r = w.letters ++ s) : v = w ∧ r = s := by
  obtain ⟨letters, rest⟩ := append_inj_of_boundary isWordChar v.plain w.plain afterV afterW same
  exact ⟨by cases v; cases w; congr, rest⟩

theorem Word.cons_ne_append {w : Word} {c : Char} (marked : isWordChar c = false)
    (r s : List Char) : c :: r ≠ w.letters ++ s := by
  obtain ⟨letters, nonempty, plain⟩ := w
  cases letters with
  | nil => exact absurd rfl nonempty
  | cons d letters =>
      intro same
      have head : c = d := (List.cons.inj same).1
      have word := plain d (List.mem_cons_self ..)
      rw [← head, marked] at word
      cases word

end ExprTree.Source
