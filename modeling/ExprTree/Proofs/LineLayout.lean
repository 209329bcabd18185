import ExprTree.Proofs.Indentation

/-!
Layout, line by line.

Directives form lines, with the newlines among them in between. What a line comes to is said of the
line alone and the depth at which it is begun: nothing if it has no text, else its indentation, to
the depth at its first text, and the text. Layout goes from directive to directive and knows nothing
of lines but whether one is begun. It puts these lines all the same, whatever the directives are
(`Layout.fragmentLines_run`).
-/

namespace ExprTree.Source

/-! ### Directives -/

namespace Directive

def isNewline : Directive → Bool
  | .newline => true
  | _ => false

/-- What a directive writes on its line. -/
def content : Directive → String
  | .write text | .token text | .keyword text | .literal text => text
  | .reference text _ | .identifier text _ => text
  | .space => " "
  | .newline | .indent | .dedent => ""

/-- The category of what a directive writes. -/
def category : Directive → Category
  | .token text => .ofToken text
  | .keyword _ => .keyword
  | .literal text => .ofLiteral text
  | .reference _ referent | .identifier _ referent => .ofReferent referent
  | .write _ | .space | .newline | .indent | .dedent => .neutral

def fragment (d : Directive) : Fragment := ⟨d.category, d.content⟩

/-- Whether a directive writes nothing. -/
def isBlank (d : Directive) : Bool := d.content.isEmpty

/-- The depth after a directive. It stays at zero if it cannot be less. -/
def depthAfter (n : Nat) : Directive → Nat
  | .indent => n + 1
  | .dedent => n - 1
  | _ => n

theorem isText_category (d : Directive) : d.category.isText = true := by
  cases d with
  | token text => exact Category.isText_ofToken text
  | literal text => exact Category.isText_ofLiteral text
  | reference _ referent | identifier _ referent => exact Category.isText_ofReferent referent
  | _ => rfl

theorem depthAfter_of_text {d : Directive} (text : d.isBlank = false) (n : Nat) :
    d.depthAfter n = n := by
  cases d with
  | indent | dedent => cases text
  | _ => rfl

end Directive

/-- The depth after directives. -/
def depthAfter (n : Nat) (ds : List Directive) : Nat := ds.foldl Directive.depthAfter n

/-- The fragments of the text that directives write. -/
def written (ds : List Directive) : List Fragment :=
  (ds.filter fun d => !d.isBlank).map Directive.fragment

/-- The indentation to a depth. There is none to depth zero. -/
def indentTo (unit : String) (n : Nat) : List Fragment :=
  if n = 0 then [] else [⟨.indent, String.join (List.replicate n unit)⟩]

/-! ### Lines -/

/-- The directives of a line, and the depth at which it is begun. -/
structure DirectiveLine where
  depth : Nat
  directives : List Directive

namespace DirectiveLine

/-- The depth at the first text of the line. -/
def textDepth (line : DirectiveLine) : Nat :=
  depthAfter line.depth (line.directives.takeWhile Directive.isBlank)

/-- A line without text is empty. Any other is indented to the depth at its first text. -/
def text (unit : String) (line : DirectiveLine) : String :=
  if line.directives.all Directive.isBlank then ""
  else
    String.join (List.replicate line.textDepth unit) ++
      String.join (line.directives.map Directive.content)

/-- The fragments of a line. -/
def fragments (unit : String) (line : DirectiveLine) : List Fragment :=
  if line.directives.all Directive.isBlank then []
  else indentTo unit line.textDepth ++ written line.directives

/-- Each line is begun at the depth at which the one before it ends. -/
def begun (n : Nat) : List (List Directive) → List DirectiveLine
  | [] => []
  | ds :: rest => ⟨n, ds⟩ :: begun (depthAfter n ds) rest

end DirectiveLine

/-- The lines of directives that are begun at a depth. -/
def linesFrom (n : Nat) (ds : List Directive) : List DirectiveLine :=
  DirectiveLine.begun n (ds.splitOnP Directive.isNewline)

/-- The lines of fragments. -/
def fragmentLines (fs : List Fragment) : List (List Fragment) :=
  fs.splitOnP fun f => f.category = .newline

section

variable {line : List Directive} (within : ∀ d ∈ line, d.isNewline = false)

include within

theorem linesFrom_of_line (n : Nat) : linesFrom n line = [⟨n, line⟩] := by
  rw [linesFrom, List.splitOnP_eq_singleton within]
  rfl

theorem linesFrom_append_newline (n : Nat) (ds : List Directive) :
    linesFrom n (line ++ .newline :: ds) = ⟨n, line⟩ :: linesFrom (depthAfter n line) ds := by
  rw [linesFrom, List.splitOnP_append_cons_of_forall_mem within .newline rfl]
  rfl

end

theorem linesFrom_ne_nil (n : Nat) (ds : List Directive) : linesFrom n ds ≠ [] := by
  unfold linesFrom
  cases split : ds.splitOnP Directive.isNewline with
  | nil => exact absurd split (List.splitOnP_ne_nil _ ds)
  | cons line rest => exact List.cons_ne_nil _ _

/-- What holds of a single line, and of a line before others of which it holds, holds of all
directives. -/
theorem line_induction {motive : List Directive → Prop}
    (single : ∀ line, (∀ d ∈ line, d.isNewline = false) → motive line)
    (more : ∀ line ds, (∀ d ∈ line, d.isNewline = false) → motive ds →
      motive (line ++ .newline :: ds)) (ds : List Directive) : motive ds := by
  -- By induction on what follows the part of the first line that is already found.
  suffices found : ∀ line, (∀ d ∈ line, d.isNewline = false) → motive (line ++ ds) from
    found [] nofun
  induction ds with
  | nil =>
      intro line within
      rw [List.append_nil]
      exact single line within
  | cons d ds ih =>
      intro line within
      cases isNewline : d.isNewline with
      | true =>
          obtain rfl : d = .newline := by
            cases d with
            | newline => rfl
            | _ => cases isNewline
          exact more line ds within (ih [] nofun)
      | false =>
          have longer := ih (line ++ [d]) (by simpa [or_imp, forall_and] using ⟨within, isNewline⟩)
          rwa [List.append_assoc] at longer

/-! ### The text of a line -/

theorem plainText_indentTo (unit : String) (n : Nat) :
    plainText (indentTo unit n) = String.join (List.replicate n unit) := by
  unfold indentTo
  split
  case isTrue outermost =>
    rw [outermost]
    rfl
  case isFalse =>
    rw [plainText, List.map_singleton, String.join_cons, String.join_nil, String.append_empty]

theorem plainText_written (ds : List Directive) :
    plainText (written ds) = String.join (ds.map Directive.content) := by
  induction ds with
  | nil => rfl
  | cons d ds ih =>
      rw [List.map_cons, String.join_cons, ← ih]
      cases blank : d.isBlank with
      | true =>
          have nothing : d.content = "" := String.isEmpty_iff.mp blank
          simp [written, blank, nothing]
      | false => simp [written, blank, plainText, Directive.fragment]

theorem DirectiveLine.plainText_fragments (unit : String) (line : DirectiveLine) :
    plainText (line.fragments unit) = line.text unit := by
  unfold DirectiveLine.fragments DirectiveLine.text
  split
  case isTrue => rfl
  case isFalse => rw [plainText_append, plainText_indentTo, plainText_written]

/-! ### What layout puts on a line -/

namespace Layout

theorem step_of_isBlank {d : Directive} (blank : d.isBlank = true) (within : d.isNewline = false)
    (l : Layout) : l.step d = ([], { l with depth := d.depthAfter l.depth }) := by
  cases d with
  | newline => cases within
  | indent | dedent => rfl
  | space => cases blank
  | _ => exact if_pos blank

theorem step_of_text {d : Directive} (text : d.isBlank = false) (l : Layout) :
    l.step d = ((if l.atLineStart then indentTo l.unit l.depth else []) ++ [d.fragment],
      { l with atLineStart := false }) := by
  have puts : l.step d = l.put d.category d.content := by
    cases d with
    | newline | indent | dedent => cases text
    | _ => rfl
  have visible : ¬ d.content.isEmpty = true := Bool.eq_false_iff.mp text
  rw [puts, put, if_neg visible]
  cases l.atLineStart with
  | false => rfl
  | true =>
      -- At depth zero neither side has an indentation.
      cases depth : l.depth <;> simp [indentTo, indentation, depth, Directive.fragment]

section

variable {line : List Directive} (within : ∀ d ∈ line, d.isNewline = false)

include within

/-- Once there is text on a line, the rest of its text follows. -/
theorem run_rest {l : Layout} (started : l.atLineStart = false) :
    l.run line = (written line, { l with depth := depthAfter l.depth line }) := by
  induction line generalizing l with
  | nil => rfl
  | cons d ds ih =>
      obtain ⟨first, within⟩ := List.forall_mem_cons.mp within
      rw [Layout.run_cons]
      cases blank : d.isBlank with
      | true =>
          have rest := ih within (l := { l with depth := d.depthAfter l.depth }) started
          rw [step_of_isBlank blank first, rest]
          simp [written, blank, depthAfter]
      | false =>
          rw [step_of_text blank, ih within rfl]
          simp [written, blank, started, depthAfter, Directive.depthAfter_of_text blank]

/-- From the beginning of a line on, its fragments are put. -/
theorem run_line (unit : String) (n : Nat) :
    Layout.run { unit, depth := n } line = (DirectiveLine.fragments unit ⟨n, line⟩,
      ⟨unit, depthAfter n line, line.all Directive.isBlank⟩) := by
  -- Up to the first text only the depth changes, so the induction is over all depths. From the
  -- first text on the depth no longer matters, and `run_rest` takes over.
  induction line generalizing n with
  | nil => rfl
  | cons d ds ih =>
      obtain ⟨first, within⟩ := List.forall_mem_cons.mp within
      rw [Layout.run_cons]
      cases blank : d.isBlank with
      | true =>
          rw [step_of_isBlank blank first, ih within]
          simp [DirectiveLine.fragments, DirectiveLine.textDepth, written, blank, depthAfter]
      | false =>
          rw [step_of_text blank, run_rest within rfl]
          simp [DirectiveLine.fragments, DirectiveLine.textDepth, written, blank, depthAfter,
            Directive.depthAfter_of_text blank]

/-- After a newline, layout goes on at the beginning of a line, at the depth it came to. -/
theorem run_append_newline (unit : String) (n : Nat) (ds : List Directive) :
    (Layout.run { unit, depth := n } (line ++ .newline :: ds)).1 =
      DirectiveLine.fragments unit ⟨n, line⟩ ++ ⟨.newline, "\n"⟩ ::
        (Layout.run { unit, depth := depthAfter n line } ds).1 := by
  rw [Layout.run_append, run_line within]
  rfl

end

end Layout

/-! ### Indentations -/

/-- An indentation stands at the beginning of the line, is the only one on it and has text right
after it. -/
def IndentedOnce (line : List Fragment) : Prop :=
  ∀ before f after, line = before ++ f :: after → f.category = .indent →
    before = [] ∧ (∀ g ∈ after, g.category ≠ .indent) ∧
      ∃ text rest, after = text :: rest ∧ text.category.isText = true ∧ text.content ≠ ""

theorem written_eq_nil_iff {ds : List Directive} :
    written ds = [] ↔ ds.all Directive.isBlank = true := by
  simp [written, List.filter_eq_nil_iff]

theorem isText_of_mem_written {ds : List Directive} {f : Fragment} (mem : f ∈ written ds) :
    f.category.isText = true ∧ f.content ≠ "" := by
  obtain ⟨d, kept, rfl⟩ := List.mem_map.mp mem
  have visible : d.isBlank = false := by simpa using List.of_mem_filter kept
  refine ⟨d.isText_category, fun nothing => ?_⟩
  have blank : d.isBlank = true := String.isEmpty_iff.mpr nothing
  cases visible.symm.trans blank

namespace DirectiveLine

theorem indentedOnce (unit : String) (line : DirectiveLine) :
    IndentedOnce (line.fragments unit) := by
  have noIndent : ∀ f ∈ written line.directives, f.category ≠ .indent :=
    fun f mem => (Category.isText_iff.mp (isText_of_mem_written mem).1).2
  intro before f after parts isIndent
  unfold fragments indentTo at parts
  split at parts
  case isTrue => cases before <;> cases parts
  case isFalse visible =>
    split at parts
    case isTrue =>
      have all : written line.directives = before ++ f :: after := parts
      exact absurd isIndent (noIndent f (by simp [all]))
    case isFalse =>
      cases before with
      | cons _ before =>
          have later : written line.directives = before ++ f :: after := (List.cons.inj parts).2
          exact absurd isIndent (noIndent f (by simp [later]))
      | nil =>
          obtain rfl : written line.directives = after := (List.cons.inj parts).2
          refine ⟨rfl, noIndent, ?_⟩
          cases texts : written line.directives with
          | nil => exact absurd (written_eq_nil_iff.mp texts) visible
          | cons text rest =>
              exact ⟨text, rest, rfl, isText_of_mem_written (texts ▸ List.mem_cons_self)⟩

theorem category_ne_newline {unit : String} {line : DirectiveLine} {f : Fragment}
    (mem : f ∈ line.fragments unit) : f.category ≠ .newline := by
  unfold fragments at mem
  split at mem
  case isTrue => cases mem
  case isFalse =>
    rcases List.mem_append.mp mem with indent | text
    · unfold indentTo at indent
      split at indent
      · cases indent
      · cases List.mem_singleton.mp indent
        exact nofun
    · exact (Category.isText_iff.mp (isText_of_mem_written text).1).1

end DirectiveLine

/-! ### Whole layouts -/

/-- Layout puts the fragments of each line on a line. -/
theorem Layout.fragmentLines_run (unit : String) (n : Nat) (ds : List Directive) :
    fragmentLines (Layout.run { unit, depth := n } ds).1 =
      (linesFrom n ds).map (DirectiveLine.fragments unit) := by
  have inside (line : DirectiveLine) :
      ∀ f ∈ line.fragments unit, decide (f.category = .newline) = false :=
    fun f mem => decide_eq_false (DirectiveLine.category_ne_newline mem)
  induction ds using line_induction generalizing n with
  | single line within =>
      rw [run_line within, linesFrom_of_line within]
      exact List.splitOnP_eq_singleton (inside _)
  | more line ds within ih =>
      rw [run_append_newline within, linesFrom_append_newline within, List.map_cons, ← ih]
      exact List.splitOnP_append_cons_of_forall_mem (inside _) _ rfl _

/-- The text of a layout is the text of its lines. -/
theorem Layout.plainText_run (unit : String) (n : Nat) (ds : List Directive) :
    plainText (Layout.run { unit, depth := n } ds).1 =
      "\n".intercalate ((linesFrom n ds).map (DirectiveLine.text unit)) := by
  induction ds using line_induction generalizing n with
  | single line within =>
      rw [run_line within, linesFrom_of_line within, DirectiveLine.plainText_fragments,
        List.map_singleton, String.intercalate_singleton]
  | more line ds within ih =>
      have others : (linesFrom (depthAfter n line) ds).map (DirectiveLine.text unit) ≠ [] := by
        simpa using linesFrom_ne_nil _ ds
      have newline (fs : List Fragment) :
          plainText (⟨.newline, "\n"⟩ :: fs) = "\n" ++ plainText fs := String.join_cons
      rw [run_append_newline within, linesFrom_append_newline within, List.map_cons,
        String.intercalate_cons_of_ne_nil others, ← ih, plainText_append,
        DirectiveLine.plainText_fragments, newline, String.append_assoc]

/-- The text is the text of the lines, with newlines between them, and each line of fragments has
the text of its line of directives. On every line of fragments an indentation comes first and once,
and text comes after it. -/
theorem layout_is_line_by_line (unit : String) (ds : List Directive) :
    plainText (Layout.run { unit } ds).1 =
      "\n".intercalate ((linesFrom 0 ds).map (DirectiveLine.text unit)) ∧
    (fragmentLines (Layout.run { unit } ds).1).map plainText =
      (linesFrom 0 ds).map (DirectiveLine.text unit) ∧
    ∀ line ∈ fragmentLines (Layout.run { unit } ds).1, IndentedOnce line := by
  have lines := Layout.fragmentLines_run unit 0 ds
  refine ⟨Layout.plainText_run unit 0 ds, ?_, ?_⟩
  · rw [lines, List.map_map]
    exact List.map_congr_left fun line _ => line.plainText_fragments unit
  · intro line mem
    rw [lines] at mem
    obtain ⟨line, -, rfl⟩ := List.mem_map.mp mem
    exact line.indentedOnce unit

namespace LateText

/-- Text comes late on its line, after a change of the depth and empty text, or not at all. The
depth changes once more within the line, and at the end it would go below zero. -/
def directives : List Directive :=
  [.dedent, .token "\x7b", .newline, .indent, .write "", .newline, .indent, .keyword "", .dedent,
    .keyword "return", .indent, .space, .literal "42", .token ";", .newline, .newline, .dedent,
    .dedent, .dedent, .write "", .token "\x7d"]

def returnLine : List Fragment :=
  [⟨.indent, "  "⟩, ⟨.keyword, "return"⟩, ⟨.neutral, " "⟩, ⟨.numeric, "42"⟩, ⟨.structural, ";"⟩]

theorem indented_at_first_text :
    (linesFrom 0 directives).map (DirectiveLine.text "  ") =
      ["\x7b", "", "  return 42;", "", "\x7d"] ∧
    plainText (Layout.run { unit := "  " } directives).1 = "\x7b\n\n  return 42;\n\n\x7d" ∧
    returnLine ∈ fragmentLines (Layout.run { unit := "  " } directives).1 ∧
    IndentedOnce returnLine := by
  obtain ⟨text, -, indented⟩ := layout_is_line_by_line "  " directives
  have lines : (linesFrom 0 directives).map (DirectiveLine.text "  ") =
      ["\x7b", "", "  return 42;", "", "\x7d"] := by decide +kernel
  have mem : returnLine ∈ fragmentLines (Layout.run { unit := "  " } directives).1 := by
    decide +kernel
  refine ⟨lines, ?_, mem, indented _ mem⟩
  rw [text, lines]
  rfl

end LateText

end ExprTree.Source
