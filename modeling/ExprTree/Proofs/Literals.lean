import Mathlib.Data.List.Basic
import ExprTree.Value.Literal

/-!
Literals of texts and characters.

A character in a literal stands for itself, or it is escaped by a backslash with a letter or with
the four digits of its code (`EscapedAs`). No escape has a quote that is not behind a backslash, so
the literal ends at its own closing quote, and reading the escapes back gives the text
(`literals_decode`).
-/

namespace ExprTree

namespace Text

/-! ### Hexadecimal digits -/

/-- The number that a hexadecimal digit stands for. -/
def hexValue? (d : Char) : Option Nat :=
  if '0' ≤ d ∧ d ≤ '9' then some (d.toNat - '0'.toNat)
  else if 'a' ≤ d ∧ d ≤ 'f' then some (d.toNat - 'a'.toNat + 10)
  else if 'A' ≤ d ∧ d ≤ 'F' then some (d.toNat - 'A'.toNat + 10)
  else none

/-- A number and the digits that follow it. -/
def readHexAfter (n : Nat) (ds : List Char) : Option Nat :=
  ds.foldlM (fun n d => (hexValue? d).map (16 * n + ·)) n

/-- The number that is written in hexadecimal digits. -/
def readHex (ds : List Char) : Option Nat := readHexAfter 0 ds

theorem hexValue?_digitChar : ∀ n < 16, hexValue? n.digitChar = some n := by decide

theorem readHexAfter_append (n : Nat) (a b : List Char) :
    readHexAfter n (a ++ b) = readHexAfter n a >>= (readHexAfter · b) :=
  List.foldlM_append

theorem readHex_hexDigits (n : Nat) : readHex (hexDigits n) = some n := by
  induction n using Nat.strongRecOn with
  | ind n ih =>
      rw [hexDigits, Nat.toDigits_eq_if (by decide)]
      split
      case isTrue small => simp [readHex, readHexAfter, hexValue?_digitChar n small]
      case isFalse large =>
        have high : readHex (Nat.toDigits 16 (n / 16)) = some (n / 16) := ih _ (by omega)
        have low := hexValue?_digitChar (n % 16) (Nat.mod_lt n (by decide))
        rw [readHex] at high ⊢
        rw [readHexAfter_append, high]
        simp [readHexAfter, low, Nat.div_add_mod]

/-- Zeros in front of a number do not change it. -/
theorem readHex_zeros (k : Nat) (ds : List Char) :
    readHex (List.replicate k '0' ++ ds) = readHex ds := by
  induction k with
  | zero => rfl
  | succ k ih => exact ih

theorem readHex_hexDigits4 (n : Nat) : readHex (hexDigits4 n) = some n := by
  rw [hexDigits4, readHex_zeros, readHex_hexDigits]

theorem length_hexDigits4 {n : Nat} (fits : n < 0x10000) : (hexDigits4 n).length = 4 := by
  have short : (hexDigits n).length ≤ 4 :=
    (Nat.length_toDigits_le_iff (by decide) (by decide)).mpr fits
  simp only [hexDigits4, List.length_append, List.length_replicate]
  omega

theorem isSome_of_readHexAfter {n m : Nat} {ds : List Char} (read : readHexAfter n ds = some m)
    {d : Char} (mem : d ∈ ds) : (hexValue? d).isSome = true := by
  induction ds generalizing n with
  | nil => cases mem
  | cons e ds ih =>
      obtain ⟨k, first, rest⟩ := Option.bind_eq_some_iff.mp read
      rcases List.mem_cons.mp mem with rfl | mem
      · obtain ⟨value, known, -⟩ := Option.map_eq_some_iff.mp first
        rw [known]
        rfl
      · exact ih rest mem

/-- A hexadecimal digit is a digit or a letter. -/
theorem bounds_of_hexValue? {d : Char} (digit : (hexValue? d).isSome = true) :
    0x30 ≤ d.toNat ∧ d.toNat ≤ 0x39 ∨ 0x41 ≤ d.toNat ∧ d.toNat ≤ 0x46 ∨
      0x61 ≤ d.toNat ∧ d.toNat ≤ 0x66 := by
  unfold hexValue? at digit
  split at digit
  case isTrue bounds => exact .inl bounds
  case isFalse =>
    split at digit
    case isTrue bounds => exact .inr (.inr bounds)
    case isFalse =>
      split at digit
      case isTrue bounds => exact .inr (.inl bounds)
      case isFalse => cases digit

/-! ### Reading -/

/-- The character that a letter behind a backslash stands for. -/
def escaped? (quote e : Char) : Option Char :=
  if e = '\\' then some '\\'
  else if e = 'n' then some '\n'
  else if e = 'r' then some '\r'
  else if e = 't' then some '\t'
  else if e = '0' then some '\x00'
  else if e = quote then some quote
  else none

/-- The text of a body between two marks `quote`. -/
def unescape (quote : Char) : List Char → Option (List Char)
  | [] => some []
  | '\\' :: 'u' :: d₁ :: d₂ :: d₃ :: d₄ :: rest =>
    (readHex [d₁, d₂, d₃, d₄]).bind fun code => (unescape quote rest).map (Char.ofNat code :: ·)
  | '\\' :: e :: rest =>
    (escaped? quote e).bind fun c => (unescape quote rest).map (c :: ·)
  | c :: rest =>
    if c = '\\' ∨ c = quote then none else (unescape quote rest).map (c :: ·)

/-- How many characters come before the first mark `quote` that no backslash escapes. -/
def beforeQuote? (quote : Char) : List Char → Option Nat
  | [] => none
  | '\\' :: _ :: rest => (beforeQuote? quote rest).map (· + 2)
  | c :: rest => if c = quote then some 0 else (beforeQuote? quote rest).map (· + 1)

/-- Ways to write a character between two marks `quote`. -/
inductive EscapedAs (quote c : Char) : List Char → Prop
  | itself (plain : c ≠ '\\' ∧ c ≠ quote) (visible : isControl c = false) : EscapedAs quote c [c]
  | letter {e : Char} (stands : escaped? quote e = some c) (visible : isControl e = false) :
      EscapedAs quote c ['\\', e]
  | code {d₁ d₂ d₃ d₄ : Char} (read : readHex [d₁, d₂, d₃, d₄] = some c.toNat) :
      EscapedAs quote c ['\\', 'u', d₁, d₂, d₃, d₄]

section

variable {quote : Char}

/-- The marks around texts and around characters. -/
def IsQuote (quote : Char) : Prop := quote = '"' ∨ quote = '\''

theorem escapedAs_escapeChar (isQuote : IsQuote quote) (c : Char) :
    EscapedAs quote c (escapeChar quote c) := by
  unfold escapeChar
  split_ifs with backslash feed carriage tab null quoted control
  case pos => subst backslash; exact .letter rfl rfl
  case pos => subst feed; exact .letter rfl rfl
  case pos => subst carriage; exact .letter rfl rfl
  case pos => subst tab; exact .letter rfl rfl
  case pos => subst null; exact .letter rfl rfl
  case pos =>
    subst quoted
    rcases isQuote with rfl | rfl <;> exact .letter rfl rfl
  case pos =>
    have fits : c.toNat < 0x10000 := by
      simp only [isControl, Bool.or_eq_true, Bool.and_eq_true, decide_eq_true_eq] at control
      omega
    have read := readHex_hexDigits4 c.toNat
    obtain ⟨d₁, d₂, d₃, d₄, digits⟩ := List.length_eq_four.mp (length_hexDigits4 fits)
    rw [digits] at read ⊢
    exact .code read
  case neg => exact .itself ⟨backslash, quoted⟩ (Bool.eq_false_iff.mpr control)

/-! ### One character -/

theorem hexDigit_is_visible (isQuote : IsQuote quote) {d : Char}
    (digit : (hexValue? d).isSome = true) : d ≠ '\\' ∧ d ≠ quote ∧ isControl d = false := by
  have bounds := bounds_of_hexValue? digit
  refine ⟨?_, ?_, ?_⟩
  · rintro rfl
    revert bounds
    decide
  · rintro rfl
    revert bounds
    rcases isQuote with rfl | rfl <;> decide
  · simp only [isControl, Bool.or_eq_false_iff, Bool.and_eq_false_iff, decide_eq_false_iff_not]
    omega

theorem EscapedAs.visible {c : Char} {written : List Char} (isQuote : IsQuote quote)
    (escaped : EscapedAs quote c written) : ∀ d ∈ written, isControl d = false := by
  cases escaped with
  | itself _ visible => simpa using visible
  | letter _ visible => simpa using ⟨rfl, visible⟩
  | @code d₁ d₂ d₃ d₄ read =>
      intro d mem
      have digits (mem : d ∈ [d₁, d₂, d₃, d₄]) : isControl d = false :=
        (hexDigit_is_visible isQuote (isSome_of_readHexAfter read mem)).2.2
      rcases List.mem_cons.mp mem with rfl | mem
      · rfl
      · rcases List.mem_cons.mp mem with rfl | mem
        · rfl
        · exact digits mem

theorem beforeQuote?_of_plain {c : Char} (plain : c ≠ '\\' ∧ c ≠ quote) (rest : List Char) :
    beforeQuote? quote (c :: rest) = (beforeQuote? quote rest).map (· + 1) := by
  rw [beforeQuote?.eq_def]
  split
  case h_1 same => cases same
  case h_2 same =>
    cases same
    exact absurd rfl plain.1
  case h_3 same =>
    cases same
    exact if_neg plain.2

theorem EscapedAs.beforeQuote? {c : Char} {written : List Char} (isQuote : IsQuote quote)
    (escaped : EscapedAs quote c written) (rest : List Char) :
    beforeQuote? quote (written ++ rest) = (beforeQuote? quote rest).map (· + written.length) := by
  cases escaped with
  | itself plain => exact beforeQuote?_of_plain plain rest
  | letter => rfl
  | @code d₁ d₂ d₃ d₄ read =>
      have plain {d : Char} (mem : d ∈ [d₁, d₂, d₃, d₄]) : d ≠ '\\' ∧ d ≠ quote :=
        have visible := hexDigit_is_visible isQuote (isSome_of_readHexAfter read mem)
        ⟨visible.1, visible.2.1⟩
      calc Text.beforeQuote? quote ('\\' :: 'u' :: d₁ :: d₂ :: d₃ :: d₄ :: rest)
          = (Text.beforeQuote? quote (d₁ :: d₂ :: d₃ :: d₄ :: rest)).map (· + 2) := rfl
        _ = (Text.beforeQuote? quote rest).map (· + 6) := by
            rw [beforeQuote?_of_plain (plain (by simp)), beforeQuote?_of_plain (plain (by simp)),
              beforeQuote?_of_plain (plain (by simp)), beforeQuote?_of_plain (plain (by simp))]
            simp [Function.comp_def, Nat.add_assoc]

theorem EscapedAs.unescape {c : Char} {written : List Char} (isQuote : IsQuote quote)
    (escaped : EscapedAs quote c written) (rest : List Char) :
    unescape quote (written ++ rest) = (unescape quote rest).map (c :: ·) := by
  cases escaped with
  | itself plain =>
      show Text.unescape quote (c :: rest) = _
      rw [Text.unescape.eq_def]
      split
      case h_1 same => cases same
      case h_2 same =>
        cases same
        exact absurd rfl plain.1
      case h_3 same =>
        cases same
        exact absurd rfl plain.1
      case h_4 same =>
        cases same
        exact if_neg (not_or.mpr plain)
  | @letter e stands visible =>
      show Text.unescape quote ('\\' :: e :: rest) = _
      rw [Text.unescape.eq_def]
      split
      case h_1 same => cases same
      case h_2 same =>
        cases same
        rcases isQuote with rfl | rfl <;> cases stands
      case h_3 same =>
        cases same
        rw [stands]
        rfl
      case h_4 other same =>
        cases same
        exact absurd rfl (other e rest rfl)
  | code read =>
      show Text.unescape quote ('\\' :: 'u' :: _ :: _ :: _ :: _ :: rest) = _
      rw [Text.unescape, read]
      simp only [Option.bind_some, Char.ofNat_toNat]

/-! ### Texts -/

theorem escape_cons (c : Char) (text : List Char) :
    escape quote (c :: text) = escapeChar quote c ++ escape quote text :=
  List.flatMap_cons

theorem visible_of_mem_escape (isQuote : IsQuote quote) {text : List Char} {d : Char}
    (mem : d ∈ escape quote text) : isControl d = false := by
  obtain ⟨c, -, mem⟩ := List.mem_flatMap.mp mem
  exact (escapedAs_escapeChar isQuote c).visible isQuote d mem

/-- The body of a literal ends at the quote that closes the literal. -/
theorem beforeQuote?_escape (isQuote : IsQuote quote) (text rest : List Char) :
    beforeQuote? quote (escape quote text ++ quote :: rest) = some (escape quote text).length := by
  induction text with
  | nil => rcases isQuote with rfl | rfl <;> rfl
  | cons c text ih =>
      rw [escape_cons, List.append_assoc, (escapedAs_escapeChar isQuote c).beforeQuote? isQuote, ih,
        Option.map_some, List.length_append, Nat.add_comm]

theorem unescape_escape (isQuote : IsQuote quote) (text : List Char) :
    unescape quote (escape quote text) = some text := by
  induction text with
  | nil => rfl
  | cons c text ih =>
      rw [escape_cons, (escapedAs_escapeChar isQuote c).unescape isQuote, ih]
      rfl

/-- A text without backslashes, quotes and control characters stands for itself. -/
theorem escape_eq_self {text : List Char}
    (plain : ∀ c ∈ text, c ≠ '\\' ∧ c ≠ quote ∧ isControl c = false) :
    escape quote text = text := by
  induction text with
  | nil => rfl
  | cons c text ih =>
      obtain ⟨⟨backslash, quoted, visible⟩, rest⟩ := List.forall_mem_cons.mp plain
      have other {d : Char} (control : isControl d = true) : c ≠ d := by
        rintro rfl
        simp [visible] at control
      have itself : escapeChar quote c = [c] := by
        simp [escapeChar, backslash, quoted, visible, other (d := '\n') rfl, other (d := '\r') rfl,
          other (d := '\t') rfl, other (d := '\x00') rfl]
      rw [escape_cons, itself, ih rest]
      rfl

/-- The body stands for the text between two marks `quote`: it has no control characters, the first
quote that no backslash escapes is the one that follows it, and reading its escapes gives the text.
A text with nothing to escape is its own body. -/
structure IsBody (quote : Char) (text body : List Char) : Prop where
  visible : ∀ d ∈ body, isControl d = false
  closed : ∀ rest, beforeQuote? quote (body ++ quote :: rest) = some body.length
  decoded : unescape quote body = some text
  plain : (∀ c ∈ text, c ≠ '\\' ∧ c ≠ quote ∧ isControl c = false) → body = text

theorem isBody_escape (isQuote : IsQuote quote) (text : List Char) :
    IsBody quote text (escape quote text) where
  visible := fun _ mem => visible_of_mem_escape isQuote mem
  closed := beforeQuote?_escape isQuote text
  decoded := unescape_escape isQuote text
  plain := escape_eq_self

theorem quoted_inj (isQuote : IsQuote quote) {text text' : List Char} :
    quoted quote text = quoted quote text' ↔ text = text' := by
  refine ⟨fun same => ?_, fun same => same ▸ rfl⟩
  have bodies : escape quote text = escape quote text' := by
    simpa [quoted, String.ofList_inj] using same
  have texts := unescape_escape isQuote text
  rw [bodies, unescape_escape isQuote] at texts
  exact (Option.some.inj texts).symm

end

end Text

open Text

/-- Literals of strings and of characters are a quote, a body that stands for the text, and the same
quote. No two strings have the same literal, and no two characters. -/
theorem literals_decode :
    (∀ s : String, ∃ body, (Value.string s).literal = String.ofList ('"' :: body ++ ['"']) ∧
      IsBody '"' s.toList body) ∧
    (∀ c : Char, ∃ body, (Value.char c).literal = String.ofList ('\'' :: body ++ ['\'']) ∧
      IsBody '\'' [c] body) ∧
    (∀ s s' : String, (Value.string s).literal = (Value.string s').literal ↔ s = s') ∧
    ∀ c c' : Char, (Value.char c).literal = (Value.char c').literal ↔ c = c' := by
  have double : IsQuote '"' := .inl rfl
  have single : IsQuote '\'' := .inr rfl
  refine ⟨?_, ?_, ?_, ?_⟩
  · intro s
    exact ⟨_, rfl, isBody_escape double _⟩
  · intro c
    exact ⟨_, rfl, isBody_escape single _⟩
  · intro s s'
    exact (quoted_inj double).trans String.toList_inj
  · intro c c'
    exact (quoted_inj single).trans (by simp)

/-- Escapes of each sort, among them the code of a character above the ASCII range. -/
example : (Value.string "a\\\"\n\x85'").literal = "\"a\\\\\\\"\\n\\u0085'\"" := by decide +kernel

end ExprTree
