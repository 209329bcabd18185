import ExprTree.Proofs.Indentation

/-!
Styled text carries the plain text.

In Typst markup every fragment is an item of its own, with its content in a string, or a line break.
The content is escaped by two replacements, one after the other, which come to escaping each of its
characters once (`toList_typstEscape`). So the string ends where the item does, and reading the
items back gives the contents. On a terminal a content stands between sequences that begin with an
escape character, if it is painted as documented (`Paint.IsAnsi`); where no content has this
character, deleting the sequences leaves the contents.
-/

namespace ExprTree.Source

/-! ### Marks in a text -/

/-- What follows a mark at the beginning of a text. -/
def after? (mark text : List Char) : Option (List Char) := mark.isPrefixOf? text

/-- What comes before the first place where a mark stands, and what follows it there. -/
def split? (mark : List Char) : List Char → Option (List Char × List Char)
  | [] => none
  | c :: cs =>
    match after? mark (c :: cs) with
    | some rest => some ([], rest)
    | none => (split? mark cs).map fun (before, rest) => (c :: before, rest)

theorem after?_eq_some_iff {mark text rest : List Char} :
    after? mark text = some rest ↔ text = mark ++ rest := by
  induction mark generalizing text with
  | nil => simp [after?, List.isPrefixOf?]
  | cons m mark ih =>
      cases text with
      | nil => simp [after?, List.isPrefixOf?]
      | cons c text =>
          by_cases same : m = c
          · simpa [after?, List.isPrefixOf?, same] using ih
          · simp [after?, List.isPrefixOf?, same, Ne.symm same]

theorem after?_append (mark rest : List Char) : after? mark (mark ++ rest) = some rest :=
  after?_eq_some_iff.mpr rfl

theorem eq_of_split? {mark text before rest : List Char}
    (split : split? mark text = some (before, rest)) : text = before ++ mark ++ rest := by
  induction text generalizing before with
  | nil => cases split
  | cons c text ih =>
      unfold split? at split
      split at split
      case h_1 found =>
        cases split
        exact after?_eq_some_iff.mp found
      case h_2 =>
        obtain ⟨⟨before, rest⟩, split, same⟩ := Option.map_eq_some_iff.mp split
        cases same
        rw [ih split]
        rfl

/-! ### Reading Typst -/

/-- A part of Typst markup. -/
inductive TypstItem where
  | text (arguments content : String)
  | lineBreak
deriving DecidableEq, Repr

def TypstItem.content : TypstItem → String
  | .text _ content => content
  | .lineBreak => "\n"

/-- The content of a string, up to the quote that ends it, and what follows the quote. -/
def readString : List Char → Option (List Char × List Char)
  | [] => none
  | '"' :: rest => some ([], rest)
  | '\\' :: c :: rest =>
    if c = '\\' ∨ c = '"' then (readString rest).map fun (content, rest) => (c :: content, rest)
    else none
  | c :: rest => (readString rest).map fun (content, rest) => (c :: content, rest)

theorem length_of_readString {text content rest : List Char}
    (read : readString text = some (content, rest)) : rest.length < text.length := by
  fun_induction readString text generalizing content with
  | case1 => cases read
  | case2 => cases read; exact Nat.lt_add_one _
  | case3 c text _ ih =>
      obtain ⟨⟨inner, rest⟩, read, same⟩ := Option.map_eq_some_iff.mp read
      cases same
      exact Nat.lt_add_right 2 (ih read)
  | case4 => cases read
  | case5 c text _ _ ih =>
      obtain ⟨⟨inner, rest⟩, read, same⟩ := Option.map_eq_some_iff.mp read
      cases same
      exact Nat.lt_add_right 1 (ih read)

/-- The item at the beginning of markup, and what follows it. -/
def readTypstItem (markup : List Char) : Option (TypstItem × List Char) :=
  match after? "\\\n".toList markup with
  | some rest => some (.lineBreak, rest)
  | none => do
    let opened ← after? "#text(".toList markup
    let (arguments, quoted) ← split? "raw(\"".toList opened
    let (content, closing) ← readString quoted
    let rest ← after? "))".toList closing
    return (.text (.ofList arguments) (.ofList content), rest)

theorem length_of_readTypstItem {markup rest : List Char} {item : TypstItem}
    (read : readTypstItem markup = some (item, rest)) : rest.length < markup.length := by
  unfold readTypstItem at read
  split at read
  case h_1 found =>
    cases read
    rw [after?_eq_some_iff.mp found, List.length_append]
    exact Nat.lt_add_of_pos_left (by decide)
  case h_2 =>
    simp only [bind, Option.bind_eq_some_iff] at read
    obtain ⟨opened, opens, ⟨arguments, quoted⟩, splits, ⟨content, closing⟩, reads, last, closes,
      same⟩ := read
    cases same
    have whole : markup = _ ++ opened := after?_eq_some_iff.mp opens
    have parts : opened = arguments ++ _ ++ quoted := eq_of_split? splits
    have shorter : closing.length < quoted.length := length_of_readString reads
    have ending : closing = _ ++ rest := after?_eq_some_iff.mp closes
    rw [ending, List.length_append] at shorter
    rw [whole, parts]
    simp only [List.length_append]
    omega

/-- The items of markup, if it consists of items. -/
def readTypst (markup : List Char) : Option (List TypstItem) :=
  if markup.isEmpty then some []
  else
    match _ : readTypstItem markup with
    | none => none
    | some (item, rest) => (readTypst rest).map (item :: ·)
termination_by markup.length
decreasing_by exact length_of_readTypstItem ‹_›

/-! ### Deleting sequences -/

def isNumber (digits : List Char) : Bool := !digits.isEmpty && digits.all Char.isDigit

/-- Whether a sequence with these parameters begins or ends a colour or bold text. -/
def isStyling (parameters : List Char) : Bool :=
  match parameters.splitOn ';' with
  | [['3', '8'], ['2'], red, green, blue] => isNumber red && isNumber green && isNumber blue
  | [['3', '9']] | [['1']] | [['0']] => true
  | _ => false

/-- What follows a sequence that begins with an escape character. -/
def afterSequence? (text : List Char) : Option (List Char) := do
  let opened ← after? "\x1b[".toList text
  let (parameters, rest) ← split? "m".toList opened
  if isStyling parameters then return rest else none

theorem length_of_afterSequence? {text rest : List Char} (found : afterSequence? text = some rest) :
    rest.length < text.length := by
  simp only [afterSequence?, bind, Option.bind_eq_some_iff] at found
  obtain ⟨opened, opens, ⟨parameters, last⟩, splits, styles⟩ := found
  obtain ⟨-, same⟩ := Option.ite_none_right_eq_some.mp styles
  cases same
  rw [after?_eq_some_iff.mp opens, eq_of_split? splits]
  have sequence : 0 < "\x1b[".toList.length := by decide
  simp only [List.length_append]
  omega

/-- The text without the sequences for colours and bold text. -/
def stripAnsi : List Char → List Char
  | [] => []
  | c :: text =>
    match _ : afterSequence? (c :: text) with
    | some rest => stripAnsi rest
    | none => c :: stripAnsi text
termination_by text => text.length
decreasing_by
  · exact length_of_afterSequence? ‹_›
  · exact Nat.lt_add_one _

/-! ### Escaped contents -/

/-- What a character becomes inside a Typst string. -/
def typstChar (c : Char) : List Char :=
  if c = '\\' ∨ c = '"' then ['\\', c] else [c]

theorem toList_replaced (old : Char) (new text : String) :
    (replaced old new text).toList =
      text.toList.flatMap fun c => if c = old then new.toList else [c] :=
  String.toList_ofList

/-- The quotes are replaced last, so the backslashes that are put before them are not doubled. -/
theorem toList_replaced_replaced (content : String) :
    (replaced '"' "\\\"" (replaced '\\' "\\\\" content)).toList =
      content.toList.flatMap typstChar := by
  rw [toList_replaced, toList_replaced, List.flatMap_assoc]
  congr 1
  funext c
  by_cases backslash : c = '\\'
  · subst backslash
    rfl
  · rw [if_neg backslash, List.flatMap_singleton]
    by_cases quote : c = '"'
    · subst quote
      rfl
    · rw [if_neg quote, typstChar, if_neg (not_or.mpr ⟨backslash, quote⟩)]

/-- Whether anything has to be replaced or not, every character is escaped by itself. -/
theorem toList_typstEscape (content : String) :
    (typstEscape content).toList = content.toList.flatMap typstChar := by
  unfold typstEscape
  split
  case isTrue => exact toList_replaced_replaced content
  case isFalse clean =>
    have plain : ∀ c ∈ content.toList, typstChar c = [c] := by
      intro c mem
      refine if_neg ?_
      rintro (rfl | rfl)
      · exact clean (.inr mem)
      · exact clean (.inl mem)
    rw [List.flatMap_congr plain, List.flatMap_singleton']

/-! ### Items of fragments -/

/-- What a fragment is in Typst. -/
def Fragment.typstItem (f : Fragment) : TypstItem :=
  if f.category = .newline then .lineBreak else .text f.category.typstArguments f.content

theorem readString_of_plain {c : Char} (plain : ¬ (c = '\\' ∨ c = '"')) (text : List Char) :
    readString (c :: text) = (readString text).map fun (content, rest) => (c :: content, rest) := by
  rw [readString.eq_def]
  split
  case h_1 same => cases same
  case h_2 same =>
    cases same
    exact absurd (.inr rfl) plain
  case h_3 same =>
    cases same
    exact absurd (.inl rfl) plain
  case h_4 same =>
    cases same
    rfl

/-- Escaped content is read up to the quote that follows it. -/
theorem readString_escaped (content rest : List Char) :
    readString (content.flatMap typstChar ++ '"' :: rest) = some (content, rest) := by
  induction content with
  | nil => rfl
  | cons c content ih =>
      rw [List.flatMap_cons, List.append_assoc, typstChar]
      split
      case isTrue escaped =>
        simp only [List.cons_append, List.nil_append]
        rw [readString, if_pos escaped, ih]
        rfl
      case isFalse plain =>
        simp only [List.cons_append, List.nil_append]
        rw [readString_of_plain plain, ih]
        rfl

/-- No arguments look like the beginning of the content. -/
theorem split?_typstArguments (category : Category) (rest : List Char) :
    split? "raw(\"".toList (category.typstArguments.toList ++ ("raw(\"".toList ++ rest)) =
      some (category.typstArguments.toList, rest) := by
  -- With the characters of the words written out, the search is the same for every rest.
  have raw : "raw(\"".toList = ['r', 'a', 'w', '(', '"'] := rfl
  have rgb : "fill: rgb(".toList = ['f', 'i', 'l', 'l', ':', ' ', 'r', 'g', 'b', '('] := rfl
  have red : "fill: red, ".toList = ['f', 'i', 'l', 'l', ':', ' ', 'r', 'e', 'd', ',', ' '] := rfl
  have comma : ", ".toList = [',', ' '] := rfl
  cases category <;>
    simp only [Category.typstArguments, Category.look?, hexByte, String.toList_append,
      String.toList_ofList, raw, rgb, red, comma] <;>
    rfl

theorem toList_typstMarkup (f : Fragment) (rest : List Char) :
    (typstMarkup f).toList ++ rest =
      "#text(".toList ++ (f.category.typstArguments.toList ++ ("raw(\"".toList ++
        (f.content.toList.flatMap typstChar ++ '"' :: ("))".toList ++ rest)))) := by
  simp [typstMarkup, toList_typstEscape]

theorem apply_typst (f : Fragment) :
    Style.typst.apply f = if f.category = .newline then "\\\n" else typstMarkup f := by
  obtain ⟨category, content⟩ := f
  cases category <;> rfl

/-- The markup of a fragment is read as one item. -/
theorem readTypstItem_apply (f : Fragment) (rest : List Char) :
    readTypstItem ((Style.typst.apply f).toList ++ rest) = some (f.typstItem, rest) := by
  rw [apply_typst, Fragment.typstItem]
  split
  case isTrue => rfl
  case isFalse =>
    have noBreak {text : List Char} : after? "\\\n".toList ("#text(".toList ++ text) = none := rfl
    rw [readTypstItem, toList_typstMarkup, noBreak]
    simp only [after?_append, split?_typstArguments, readString_escaped, Option.bind_eq_bind,
      Option.bind_some, String.ofList_toList]
    rfl

/-- What begins with an item is read as the item and the items of the rest. -/
theorem readTypst_of_item {markup rest : List Char} {item : TypstItem}
    (read : readTypstItem markup = some (item, rest)) :
    readTypst markup = (readTypst rest).map (item :: ·) := by
  have nonempty : ¬ markup.isEmpty = true := by
    intro empty
    have shorter := length_of_readTypstItem read
    rw [List.isEmpty_iff.mp empty] at shorter
    exact Nat.not_lt_zero _ shorter
  rw [readTypst, if_neg nonempty]
  split
  case h_1 unread => cases read.symm.trans unread
  case h_2 again =>
    cases read.symm.trans again
    rfl

/-- The markup of fragments is read as their items. -/
theorem readTypst_text (fs : List Fragment) :
    readTypst (Style.typst.text fs).toList = some (fs.map Fragment.typstItem) := by
  rw [Style.text, String.toList_join, List.flatMap_map]
  induction fs with
  | nil =>
      rw [readTypst]
      rfl
  | cons f fs ih =>
      rw [List.flatMap_cons, readTypst_of_item (readTypstItem_apply f _), ih]
      rfl

/-! ### Sequences around fragments -/

/-- Text is painted by the sequences that are documented for a colour and for bold text. -/
structure Paint.IsAnsi (paint : Paint) : Prop where
  coloured : ∀ (red green blue : UInt8) (content : String),
    paint.coloured red green blue content =
      controlSequence ("38;2;" ++ toString red.toNat ++ ";" ++ toString green.toNat ++ ";" ++
        toString blue.toNat) ++ content ++ controlSequence "39"
  emboldened : ∀ content : String,
    paint.emboldened content = controlSequence "1" ++ content ++ controlSequence "0"

theorem Paint.isAnsi_ansi : Paint.ansi.IsAnsi := ⟨fun _ _ _ _ => rfl, fun _ => rfl⟩

theorem stripAnsi_of_sequence {text rest : List Char} (found : afterSequence? text = some rest) :
    stripAnsi text = stripAnsi rest := by
  cases text with
  | nil => cases found
  | cons c text =>
      rw [stripAnsi]
      split
      case h_1 again =>
        cases found.symm.trans again
        rfl
      case h_2 missing => cases found.symm.trans missing

theorem stripAnsi_cons {c : Char} (plain : c ≠ '\x1b') (text : List Char) :
    stripAnsi (c :: text) = c :: stripAnsi text := by
  have missing : afterSequence? (c :: text) = none := by
    have begins : after? "\x1b[".toList (c :: text) = none := by
      rw [Option.eq_none_iff_forall_ne_some]
      intro rest found
      cases after?_eq_some_iff.mp found
      exact plain rfl
    rw [afterSequence?, begins]
    rfl
  rw [stripAnsi]
  split
  case h_1 found => cases missing.symm.trans found
  case h_2 => rfl

theorem stripAnsi_append {content : List Char} (plain : '\x1b' ∉ content) (rest : List Char) :
    stripAnsi (content ++ rest) = content ++ stripAnsi rest := by
  induction content with
  | nil => rfl
  | cons c content ih =>
      obtain ⟨first, others⟩ := not_or.mp (mt List.mem_cons.mpr plain)
      rw [List.cons_append, stripAnsi_cons (Ne.symm first), ih others]
      rfl

theorem split?_singleton {m : Char} {before : List Char} (absent : m ∉ before) (rest : List Char) :
    split? [m] (before ++ m :: rest) = some (before, rest) := by
  induction before with
  | nil => simp [split?, after?, List.isPrefixOf?]
  | cons c before ih =>
      obtain ⟨first, others⟩ := not_or.mp (mt List.mem_cons.mpr absent)
      simp [split?, after?, List.isPrefixOf?, first, ih others]

theorem afterSequence?_of_isStyling {parameters : List Char} (absent : 'm' ∉ parameters)
    (styling : isStyling parameters = true) (rest : List Char) :
    afterSequence? ("\x1b[".toList ++ (parameters ++ 'm' :: rest)) = some rest := by
  have ends : split? "m".toList (parameters ++ 'm' :: rest) = some (parameters, rest) :=
    split?_singleton absent rest
  simp only [afterSequence?, after?_append, ends, styling, Option.bind_eq_bind, Option.bind_some,
    if_true]
  rfl

theorem isNumber_toDigits (n : Nat) : isNumber (Nat.toDigits 10 n) = true := by
  rw [isNumber, Bool.and_eq_true, Bool.not_eq_true', List.isEmpty_eq_false_iff, List.all_eq_true]
  exact ⟨Nat.toDigits_ne_nil, fun c mem => Nat.isDigit_of_mem_toDigits (by decide) (by decide) mem⟩

theorem not_mem_toDigits {c : Char} (other : c.isDigit = false) (n : Nat) :
    c ∉ Nat.toDigits 10 n := by
  intro mem
  have digit := Nat.isDigit_of_mem_toDigits (by decide) (by decide) mem
  exact Bool.noConfusion (other.symm.trans digit)

/-- A sequence that begins or ends a colour or bold text is deleted. -/
theorem stripAnsi_controlSequence {parameters : String} (absent : 'm' ∉ parameters.toList)
    (styling : isStyling parameters.toList = true) (rest : List Char) :
    stripAnsi ((controlSequence parameters).toList ++ rest) = stripAnsi rest := by
  have sequence : (controlSequence parameters).toList ++ rest =
      "\x1b[".toList ++ (parameters.toList ++ 'm' :: rest) := by
    simp [controlSequence]
  rw [sequence, stripAnsi_of_sequence (afterSequence?_of_isStyling absent styling rest)]

/-- The parameters of the sequence that begins a colour. -/
def colourParameters (red green blue : Nat) : List Char :=
  [';'].intercalate [['3', '8'], ['2'], Nat.toDigits 10 red, Nat.toDigits 10 green,
    Nat.toDigits 10 blue]

section

variable (red green blue : Nat)

theorem isStyling_colourParameters : isStyling (colourParameters red green blue) = true := by
  have parts : (colourParameters red green blue).splitOn ';' = [['3', '8'], ['2'],
      Nat.toDigits 10 red, Nat.toDigits 10 green, Nat.toDigits 10 blue] :=
    List.splitOn_intercalate ';' (by simp [not_mem_toDigits]) (List.cons_ne_nil _ _)
  simp only [isStyling, parts, isNumber_toDigits, Bool.and_self]

theorem not_mem_colourParameters : 'm' ∉ colourParameters red green blue := by
  simp [colourParameters, List.intercalate, not_mem_toDigits]

theorem toList_colourParameters :
    ("38;2;" ++ toString red ++ ";" ++ toString green ++ ";" ++ toString blue).toList =
      colourParameters red green blue := by
  simp [colourParameters, List.intercalate]

end

namespace Paint.IsAnsi

variable {paint : Paint} (ansi : paint.IsAnsi)

include ansi

/-- Coloured text is left without its colour. -/
theorem stripAnsi_coloured (red green blue : UInt8) {content : String}
    (plain : '\x1b' ∉ content.toList) (rest : List Char) :
    stripAnsi ((paint.coloured red green blue content).toList ++ rest) =
      content.toList ++ stripAnsi rest := by
  have digits := toList_colourParameters red.toNat green.toNat blue.toNat
  have absent := not_mem_colourParameters red.toNat green.toNat blue.toNat
  have styling := isStyling_colourParameters red.toNat green.toNat blue.toNat
  rw [← digits] at absent styling
  rw [ansi.coloured, String.toList_append, String.toList_append, List.append_assoc,
    List.append_assoc, stripAnsi_controlSequence absent styling, stripAnsi_append plain,
    stripAnsi_controlSequence (by decide) (by decide)]

/-- Text that is coloured, and bold if its look says so, is left as it was. -/
theorem stripAnsi_painted (look : Look) {content : String} (plain : '\x1b' ∉ content.toList)
    (rest : List Char) :
    stripAnsi ((look.painted paint content).toList ++ rest) = content.toList ++ stripAnsi rest := by
  unfold Look.painted
  split
  case isTrue =>
    rw [ansi.emboldened, String.toList_append, String.toList_append, List.append_assoc,
      List.append_assoc, stripAnsi_controlSequence (by decide) (by decide),
      ansi.stripAnsi_coloured _ _ _ plain, stripAnsi_controlSequence (by decide) (by decide)]
  case isFalse => exact ansi.stripAnsi_coloured _ _ _ plain rest

end Paint.IsAnsi

theorem apply_painted (paint : Paint) (f : Fragment) :
    (Style.painted paint).apply f =
      if f.category = .newline then "\n"
      else f.category.look?.elim f.content (·.painted paint f.content) := by
  obtain ⟨category, content⟩ := f
  cases category <;> rfl

/-! ### Contents -/

theorem Layout.mem_put {l : Layout} {category : Category} {content : String} {f : Fragment}
    (mem : f ∈ (l.put category content).1) : f.category = .indent ∨ f = ⟨category, content⟩ := by
  unfold put at mem
  split at mem
  case isTrue => cases mem
  case isFalse =>
    rcases List.mem_append.mp mem with first | last
    · split at first
      · cases List.mem_singleton.mp first
        exact .inl rfl
      · cases first
    · exact .inr (List.mem_singleton.mp last)

theorem Layout.content_of_newline_step {l : Layout} {d : Directive} {f : Fragment}
    (mem : f ∈ (l.step d).1) (ending : f.category = .newline) : f.content = "\n" := by
  rcases l.step_cases d with ⟨category, content, text, same⟩ | rfl | rfl | rfl
  · rw [same] at mem
    rcases Layout.mem_put mem with indent | rfl
    · cases indent.symm.trans ending
    · -- What is put is text and does not end a line.
      cases ending
      cases text
  · cases List.mem_singleton.mp mem
    rfl
  · cases mem
  · cases mem

/-- A fragment that ends a line has nothing else in it. -/
theorem Layout.content_of_newline {l : Layout} {ds : List Directive} {f : Fragment}
    (mem : f ∈ (l.run ds).1) (ending : f.category = .newline) : f.content = "\n" := by
  induction ds generalizing l with
  | nil => cases mem
  | cons d ds ih =>
      rw [Layout.run_cons, List.mem_append] at mem
      rcases mem with first | later
      · exact Layout.content_of_newline_step first ending
      · exact ih later

theorem Fragment.content_typstItem {f : Fragment}
    (ending : f.category = .newline → f.content = "\n") : f.typstItem.content = f.content := by
  unfold typstItem
  split
  case isTrue newline => exact (ending newline).symm
  case isFalse => rfl

section

variable {paint : Paint} (ansi : paint.IsAnsi)

include ansi

theorem stripAnsi_apply {f : Fragment} (ending : f.category = .newline → f.content = "\n")
    (plain : '\x1b' ∉ f.content.toList) (rest : List Char) :
    stripAnsi (((Style.painted paint).apply f).toList ++ rest) =
      f.content.toList ++ stripAnsi rest := by
  rw [apply_painted]
  split
  case isTrue newline => rw [← ending newline, stripAnsi_append plain]
  case isFalse =>
    cases f.category.look? with
    | none => exact stripAnsi_append plain rest
    | some look => exact ansi.stripAnsi_painted look plain rest

/-- Without sequences, the text of fragments on a terminal is their plain text. -/
theorem stripAnsi_text {fs : List Fragment}
    (endings : ∀ f ∈ fs, f.category = .newline → f.content = "\n")
    (plain : ∀ f ∈ fs, '\x1b' ∉ f.content.toList) :
    stripAnsi ((Style.painted paint).text fs).toList = (plainText fs).toList := by
  simp only [Style.text, plainText, String.toList_join, List.flatMap_map]
  induction fs with
  | nil => exact stripAnsi.eq_1
  | cons f fs ih =>
      rw [List.forall_mem_cons] at endings plain
      rw [List.flatMap_cons, stripAnsi_apply ansi endings.1 plain.1, ih endings.2 plain.2,
        List.flatMap_cons]

end

/-- Whatever was laid out, the items of its Typst markup have the contents of the fragments, one for
one. Deleting the sequences in its text for a terminal leaves the plain text, if it is painted as
documented and there is no escape character in a content. -/
theorem styles_carry_contents (l : Layout) (ds : List Directive) :
    Style.plain.text (l.run ds).1 = plainText (l.run ds).1 ∧
    (∃ items, readTypst (Style.typst.text (l.run ds).1).toList = some items ∧
      items.map TypstItem.content = (l.run ds).1.map Fragment.content ∧
      String.join (items.map TypstItem.content) = plainText (l.run ds).1) ∧
    ∀ paint : Paint, paint.IsAnsi → (∀ f ∈ (l.run ds).1, '\x1b' ∉ f.content.toList) →
      String.ofList (stripAnsi ((Style.painted paint).text (l.run ds).1).toList) =
        plainText (l.run ds).1 := by
  have endings : ∀ f ∈ (l.run ds).1, f.category = .newline → f.content = "\n" :=
    fun f mem => Layout.content_of_newline mem
  have contents : ((l.run ds).1.map Fragment.typstItem).map TypstItem.content =
      (l.run ds).1.map Fragment.content := by
    rw [List.map_map]
    exact List.map_congr_left fun f mem => Fragment.content_typstItem (endings f mem)
  refine ⟨rfl, ⟨_, readTypst_text _, contents, ?_⟩, fun paint ansi plain => ?_⟩
  · rw [contents, plainText]
  · rw [stripAnsi_text ansi endings plain, String.ofList_toList]

namespace MarkupInContents

/-- Contents that would end their item or look like a line break or a sequence if they were not
escaped. -/
def directives : List Directive :=
  [.keyword "return", .space, .token "\x7b", .newline, .indent,
    .literal "\"\\\"))\\\n#text(raw(\"", .write "\\\n", .dedent, .newline, .token "\x7d[39m"]

theorem contents_are_carried :
    (∀ f ∈ (Layout.run {} directives).1, '\x1b' ∉ f.content.toList) ∧
    (∃ items, readTypst (Style.typst.text (Layout.run {} directives).1).toList = some items ∧
      items.map TypstItem.content =
        ["return", " ", "\x7b", "\n", "\t", "\"\\\"))\\\n#text(raw(\"", "\\\n", "\n",
          "\x7d[39m"]) ∧
    String.ofList (stripAnsi (Style.terminal.text (Layout.run {} directives).1).toList) =
      "return \x7b\n\t\"\\\"))\\\n#text(raw(\"\\\n\n\x7d[39m" := by
  obtain ⟨-, ⟨items, read, contents, -⟩, stripped⟩ := styles_carry_contents {} directives
  have plain : ∀ f ∈ (Layout.run {} directives).1, '\x1b' ∉ f.content.toList := by decide +kernel
  exact ⟨plain, ⟨items, read, contents⟩, stripped .ansi Paint.isAnsi_ansi plain⟩

end MarkupInContents

end ExprTree.Source
