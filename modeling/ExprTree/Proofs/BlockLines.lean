import ExprTree.Proofs.Indentation
import ExprTree.Proofs.WrittenParts

/-!
The lines of blocks.

A block is an opening brace, its locals, its labels and statements, and a closing brace. Wherever a
block is written, every label and every statement of it starts and ends at the beginning of a line,
statements one level deeper than the opening brace and labels at its level, as the closing brace is.

What one entry of a block does carries over to all of them (`Block.layout_pageAfter`), and so to
every block that a lambda writes, on any page.
-/

namespace ExprTree

/-! ### Labels in a tree -/

theorem Expr.All.of_mem {p : Expr → Prop} {e d : Expr} (all : e.All p) (mem : d ∈ e.nodes) :
    d.All p := by
  induction e using Expr.inductionOnChildren with
  | step e ih =>
      rw [Expr.nodes_eq] at mem
      rcases List.mem_cons.mp mem with rfl | below
      · exact all
      · obtain ⟨c, child, inside⟩ := List.mem_flatMap.mp below
        exact ih c child ((Expr.all_iff.mp all).2 c child) inside

theorem Expr.labelsStand_of_mem_ownBlocks {e s : Expr} {b : Block} (labels : e.LabelsStand)
    (own : b ∈ e.ownBlocks) (mem : s ∈ b.statements) : s.LabelsStand := by
  suffices child : s ∈ e.children from (Expr.all_iff.mp labels).2 s child
  unfold Expr.ownBlocks at own
  split at own
  case h_1 locals es type node =>
    obtain rfl := List.mem_singleton.mp own
    rw [Expr.children, node]
    exact mem
  case h_2 =>
    obtain ⟨⟨place, c⟩, inside, own⟩ := List.mem_filterMap.mp own
    obtain ⟨-, same⟩ := Option.ite_none_right_eq_some.mp own
    cases same
    obtain rfl := List.mem_singleton.mp mem
    exact Node.mem_children_of_mem_places inside

/-- Where labels stand only as statements in a lambda, they do so in its blocks. -/
theorem Lambda.labelsStand_of_mem_blocks {l : Lambda} {b : Block} {s : Expr}
    (labels : l.body.LabelsStand) (block : b ∈ l.blocks) (mem : s ∈ b.statements) :
    s.LabelsStand := by
  rcases List.mem_append.mp block with outer | inner
  · split at outer
    case isTrue => cases outer
    case isFalse =>
      obtain rfl := List.mem_singleton.mp outer
      obtain rfl := List.mem_singleton.mp mem
      exact labels
  · obtain ⟨n, written, own⟩ := List.mem_flatMap.mp inner
    have within : n.LabelsStand := labels.of_mem (Expr.nodes_of_mem_writtenAt written)
    exact Expr.labelsStand_of_mem_ownBlocks within own mem

namespace Source

/-! ### Pages -/

theorem Page.write_append {a b : Draft} (page : Page) (ok : a.error = none) :
    page.write (a ++ b) =
      ((page.write a).1 ++ ((page.write a).2.write b).1, ((page.write a).2.write b).2) := by
  simp only [Page.write, Draft.append_marks_of_ok ok, NameTable.settle_append, Layout.run_append]

theorem Layout.unit_run (l : Layout) (ds : List Directive) : (l.run ds).2.unit = l.unit := by
  induction ds generalizing l with
  | nil => rfl
  | cons d ds ih =>
      have step : (l.step d).2.unit = l.unit := by
        cases d with
        | newline | indent | dedent => rfl
        | _ => simp only [Layout.step, Layout.put_snd]
      rw [Layout.run_cons]
      exact (ih _).trans step

/-- What is balanced and keeps to whole lines leaves the layout as it is. -/
theorem Page.layout_write {d : Draft} (balanced : BalancedFrom 1 d) (keeps : KeepsLine d)
    (ok : d.error = none) {page : Page} (deep : 1 ≤ page.layout.depth)
    (start : page.layout.atLineStart = true) : (page.write d).2.layout = page.layout := by
  have unit := page.layout.unit_run (page.names.settle d.marks).1
  have depth := Layout.depth_run (balanced ok page.names page.layout.depth deep)
  have line := keeps ok page.names page.layout start
  rw [← start] at line
  show (page.layout.run (page.names.settle d.marks).1).2 = page.layout
  generalize (page.layout.run (page.names.settle d.marks).1).2 = last at unit depth line
  obtain ⟨unit', depth', atLineStart'⟩ := last
  cases unit
  cases depth
  cases line
  rfl

/-- The text of so many levels of indentation. -/
def Layout.indentationTo (l : Layout) (n : Nat) : String := String.join (List.replicate n l.unit)

/-- What the first text of the fragments is indented by. There is none if they have no text. -/
def leadingIndentation? : List Fragment → Option String
  | [] => none
  | ⟨.newline, _⟩ :: rest => leadingIndentation? rest
  | ⟨.indent, indentation⟩ :: _ => some indentation
  | _ :: _ => some ""

theorem leadingIndentation?_cons {category : Category} (isText : category.isText = true)
    (content : String) (rest : List Fragment) :
    leadingIndentation? (⟨category, content⟩ :: rest) = some "" := by
  cases category with
  | newline | indent => cases isText
  | _ => rfl

theorem Layout.leadingIndentation?_put {l : Layout} {category : Category} {content : String}
    (start : l.atLineStart = true) (text : (l.put category content).2.atLineStart = false)
    (isText : category.isText = true) (rest : List Fragment) :
    leadingIndentation? ((l.put category content).1 ++ rest) = some (l.indentationTo l.depth) := by
  unfold Layout.put at text ⊢
  split at text
  case isTrue =>
    rw [start] at text
    cases text
  case isFalse visible =>
    rw [if_neg visible]
    -- At depth zero no indentation is put, and the text itself comes first.
    by_cases deep : 0 < l.depth
    · simp only [start, deep, decide_true, Bool.and_true, if_true]
      rfl
    · have outermost : l.depth = 0 := by omega
      rw [outermost]
      simp only [start, Nat.lt_irrefl, decide_false, Bool.and_false]
      exact leadingIndentation?_cons isText content rest

/-- Text that is put on a line without text is indented to the depth at which it is put. -/
theorem Layout.leadingIndentation?_run {l : Layout} {ds : List Directive} {n : Nat}
    (start : l.atLineStart = true) (text : l.textDepth? ds = some n) :
    leadingIndentation? (l.run ds).1 = some (l.indentationTo n) := by
  induction ds generalizing l with
  | nil => cases text
  | cons d ds ih =>
      rw [Layout.run_cons]
      simp only [Layout.textDepth?] at text
      rcases l.step_cases d with ⟨category, content, isText, step⟩ | rfl | rfl | rfl
      · rw [step] at text ⊢
        split at text
        -- Empty content is passed over, so the line still has no text.
        case isTrue blank =>
          rw [Layout.put_of_atLineStart blank] at text ⊢
          exact ih start text
        case isFalse put =>
          cases text
          exact Layout.leadingIndentation?_put start (Bool.eq_false_iff.mpr put) isText _
      · exact ih rfl text
      · have begun : (l.step .indent).2.atLineStart = true := start
        rw [if_pos begun] at text
        exact ih begun text
      · have begun : (l.step .dedent).2.atLineStart = true := start
        rw [if_pos begun] at text
        exact ih begun text

/-! ### Entries -/

end Source

/-- The label of a node that is one. -/
def Expr.label? (e : Expr) : Option Label :=
  match e.node with
  | .label l _ => some l
  | _ => none

theorem Expr.label?_eq_none_iff {e : Expr} : e.label? = none ↔ e.kind ≠ .label := by
  obtain ⟨id, node⟩ := e
  cases node with
  | label => exact iff_of_false nofun fun kind => kind rfl
  | _ => exact iff_of_true rfl nofun

theorem Expr.label?_eq_some_iff {e : Expr} {l : Label} :
    e.label? = some l ↔ ∃ fallback, e.node = .label l fallback := by
  obtain ⟨id, node⟩ := e
  cases node <;> simp [Expr.label?]

namespace Source

/-- What takes lines of its own in a block: a label, or a statement that is not one. The value of
the block is returned. -/
inductive Entry where
  | label (l : Label)
  | statement (valued : Bool) (e : Expr) (plain : e.label? = none)

namespace Entry

def draft : Entry → Draft
  | .label l => labelLine l
  | .statement valued e _ => Source.statement Expr.draft valued e

/-- The depth of an entry in a block whose opening brace is at the given depth. -/
def depthIn (outer : Nat) : Entry → Nat
  | .label _ => outer
  | .statement .. => outer + 1

def ofStatement (valued : Bool) (e : Expr) : Entry :=
  match found : e.label? with
  | some l => .label l
  | none => .statement valued e found

/-- The entries of one statement: a label is followed by its default. -/
def ofSingle (valued : Bool) (e : Expr) : List Entry :=
  match e.node with
  | .label l (some fallback) => [.label l, .ofStatement valued fallback]
  | _ => [.ofStatement valued e]

/-- The entries of the statements of a block of the given type. -/
def ofStatements (type : Ty) : List Expr → List Entry
  | [] => []
  | e :: es => ofSingle (es.isEmpty && !type.isVoid) e ++ ofStatements type es

/-- What is written of entries, one after the other. -/
def drafts (entries : List Entry) : Draft :=
  entries.foldr (fun entry rest => entry.draft ++ rest) .empty

theorem drafts_append (a b : List Entry) : drafts (a ++ b) = drafts a ++ drafts b := by
  induction a with
  | nil => exact (Draft.empty_append _).symm
  | cons entry rest ih =>
      show entry.draft ++ drafts (rest ++ b) = entry.draft ++ drafts rest ++ drafts b
      rw [ih, Draft.append_assoc]

theorem draft_ofStatement (valued : Bool) (e : Expr) :
    (ofStatement valued e).draft = Source.statement Expr.draft valued e := by
  unfold ofStatement
  split
  case h_1 l found =>
    obtain ⟨fallback, node⟩ := Expr.label?_eq_some_iff.mp found
    have kind : e.kind = .label := by rw [Expr.kind, node, Node.kind]
    rw [statement_of_label kind, draft_of_label node]
    rfl
  case h_2 => rfl

theorem drafts_ofSingle (valued : Bool) (e : Expr) :
    drafts (ofSingle valued e) = single valued e := by
  have one : drafts [ofStatement valued e] = Source.statement Expr.draft valued e := by
    rw [← draft_ofStatement]
    exact Draft.append_empty _
  by_cases kind : e.kind = .label
  · obtain ⟨l, fallback, node⟩ := exists_of_label kind
    cases fallback with
    | none =>
        simp only [ofSingle, single, node]
        rw [one, statement_of_label kind]
    | some fallback =>
        simp only [ofSingle, single, node]
        rw [draft_of_label node, ← draft_ofStatement]
        show labelLine l ++ (_ ++ Draft.empty) = _
        rw [Draft.append_empty]
  · rw [single_of_not_label kind, ← one]
    unfold ofSingle
    split
    case h_1 l fallback node => exact absurd (by rw [Expr.kind, node, Node.kind]) kind
    case h_2 => rfl

theorem drafts_ofStatements (type : Ty) (es : List Expr) :
    drafts (ofStatements type es) = statements Expr.draft type es := by
  induction es with
  | nil => rfl
  | cons e es ih => rw [ofStatements, drafts_append, drafts_ofSingle, ih, statements_cons]

theorem error_drafts_eq_none_iff {entries : List Entry} :
    (drafts entries).error = none ↔ ∀ entry ∈ entries, entry.draft.error = none := by
  induction entries with
  | nil => simp [drafts]
  | cons entry rest ih =>
      have split : (drafts (entry :: rest)).error = none ↔
          entry.draft.error = none ∧ (drafts rest).error = none :=
        Draft.error_append_eq_none_iff
      rw [split, ih, List.forall_mem_cons]

/-! ### What one entry does -/

theorem balanced (entry : Entry) : BalancedFrom 1 entry.draft := by
  cases entry with
  | label l => exact .labelLine l
  | statement valued e plain =>
      have single := (stands_balanced e).single valued
      rw [single_of_not_label (Expr.label?_eq_none_iff.mp plain)] at single
      exact single

theorem endsLine (entry : Entry) : EndsLine entry.draft := by
  cases entry with
  | label l => exact endsLine_labelLine l
  | statement valued e plain => exact endsLine_statement (Expr.label?_eq_none_iff.mp plain) valued

/-- Labels stand only as statements within the entry. -/
def LabelsStand : Entry → Prop
  | .label _ => True
  | .statement _ e _ => e.LabelsStand

theorem labelsStand_ofStatement {e : Expr} (labels : e.LabelsStand) (valued : Bool) :
    (ofStatement valued e).LabelsStand := by
  unfold ofStatement
  split
  case h_1 => trivial
  case h_2 => exact labels

theorem labelsStand_of_mem_ofSingle {e : Expr} (labels : e.LabelsStand) {valued : Bool}
    {entry : Entry} (mem : entry ∈ ofSingle valued e) : entry.LabelsStand := by
  unfold ofSingle at mem
  split at mem
  case h_1 l fallback node =>
    have child : fallback ∈ e.children := by simp [Expr.children, node, Node.children]
    rcases List.mem_cons.mp mem with rfl | mem
    · trivial
    · obtain rfl := List.mem_singleton.mp mem
      exact labelsStand_ofStatement ((Expr.all_iff.mp labels).2 fallback child) valued
  case h_2 =>
    obtain rfl := List.mem_singleton.mp mem
    exact labelsStand_ofStatement labels valued

theorem labelsStand_of_mem_ofStatements {es : List Expr} (labels : ∀ e ∈ es, e.LabelsStand)
    {type : Ty} {entry : Entry} (mem : entry ∈ ofStatements type es) : entry.LabelsStand := by
  induction es with
  | nil => cases mem
  | cons e es ih =>
      obtain ⟨first, rest⟩ := List.forall_mem_cons.mp labels
      rcases List.mem_append.mp mem with mem | mem
      · exact labelsStand_of_mem_ofSingle first mem
      · exact ih rest mem

/-- Begun where statements are, an entry puts its first text at its depth. -/
theorem textDepth? {entry : Entry} (labels : entry.LabelsStand) (ok : entry.draft.error = none)
    {l : Layout} {outer : Nat} (deep : l.depth = outer + 1) (start : l.atLineStart = true)
    (t : NameTable) : l.textDepth? (t.settle entry.draft.marks).1 = some (entry.depthIn outer) := by
  cases entry with
  | label label =>
      rw [draft, begins_labelLine label t l start, deep]
      rfl
  | statement valued e plain =>
      have complete : e.draft.error = none := (isPart_statement valued e).ok ok
      have begins := begins_statement labels (Expr.label?_eq_none_iff.mp plain) complete valued
      rw [draft, begins t l start, deep]
      rfl

/-! ### What entries do -/

theorem balanced_drafts (entries : List Entry) : BalancedFrom 1 (drafts entries) := by
  induction entries with
  | nil => exact fun _ _ _ _ => rfl
  | cons entry rest ih => exact .append entry.balanced ih

theorem keepsLine_drafts (entries : List Entry) : KeepsLine (drafts entries) := by
  induction entries with
  | nil => exact .empty
  | cons entry rest ih => exact .append entry.endsLine.keepsLine ih

end Entry

/-- Written to the page, the draft starts at the beginning of a line, indented to the depth. -/
structure StartsLine (page : Page) (depth : Nat) (d : Draft) : Prop where
  atLineStart : page.layout.atLineStart = true
  indented : leadingIndentation? (page.write d).1 = some (page.layout.indentationTo depth)

theorem StartsLine.of_textDepth? {page : Page} {depth : Nat} {d : Draft}
    (start : page.layout.atLineStart = true)
    (text : page.layout.textDepth? (page.names.settle d.marks).1 = some depth) :
    StartsLine page depth d where
  atLineStart := start
  indented := Layout.leadingIndentation?_run start text

end Source

open Source

/-! ### Blocks -/

namespace Block

def opening (b : Block) : Draft := token "\x7b" ++ newline ++ indent ++ declarations b.locals

def entries (type : Ty) (b : Block) : List Entry := Entry.ofStatements type b.statements

def closing : Draft := dedent ++ token "\x7d"

theorem draft_eq (type : Ty) (b : Block) :
    b.draft type = b.opening ++ Entry.drafts (b.entries type) ++ closing := by
  rw [entries, Entry.drafts_ofStatements]
  simp only [draft, block, braced, opening, closing, Draft.append_assoc]

/-- The page on which the block is begun, after the opening and the first entries. -/
def pageAfter (b : Block) (page : Page) (written : List Entry) : Page :=
  (page.write (b.opening ++ Entry.drafts written)).2

/-- Begun on the page, the block has every entry and the closing brace on lines of their own:
statements one level deeper than the opening brace, labels and the closing brace at its level. -/
structure LaidOut (type : Ty) (page : Page) (b : Block) : Prop where
  parts : b.draft type = b.opening ++ Entry.drafts (b.entries type) ++ closing
  entryStarts : ∀ before entry after, b.entries type = before ++ entry :: after →
    StartsLine (b.pageAfter page before) (entry.depthIn page.layout.depth) entry.draft
  entryEnds : ∀ before entry after, b.entries type = before ++ entry :: after →
    ((b.pageAfter page before).write entry.draft).2.layout.atLineStart = true
  closingStarts :
    StartsLine (b.pageAfter page (b.entries type)) page.layout.depth closing

/-- Between the entries of a block, the layout is at the beginning of a line one level deeper than
the opening brace. -/
theorem layout_pageAfter {b : Block} {written : List Entry}
    (ok : (b.opening ++ Entry.drafts written).error = none) (page : Page) :
    (b.pageAfter page written).layout =
      { page.layout with depth := page.layout.depth + 1, atLineStart := true } := by
  have inside : b.opening ++ Entry.drafts written =
      token "\x7b" ++ newline ++ indent ++ (declarations b.locals ++ Entry.drafts written) := by
    rw [opening, Draft.append_assoc]
  rw [inside] at ok
  obtain ⟨-, ok⟩ := Draft.error_append_eq_none_iff.mp ok
  have rules := writingRules_balancedFrom (Nat.le_refl 1)
  rw [pageAfter, inside, Page.write_append page rfl]
  exact Page.layout_write
    (.append (rules.declarations fun _ _ => ⟨⟩) (Entry.balanced_drafts written))
    (.append (keepsLine_declarations b.locals) (Entry.keepsLine_drafts written)) ok
    (Nat.le_add_left 1 page.layout.depth) rfl

/-- A block is laid out wherever it is written. -/
theorem laidOut {b : Block} (labels : ∀ s ∈ b.statements, s.LabelsStand) {type : Ty}
    (ok : (b.draft type).error = none) (page : Page) : b.LaidOut type page := by
  have parts := b.draft_eq type
  rw [parts, Draft.error_append_eq_none_iff, Draft.error_append_eq_none_iff,
    Entry.error_drafts_eq_none_iff] at ok
  obtain ⟨⟨opened, complete⟩, -⟩ := ok
  -- All entries before one leave the layout alike, so each is begun where the first one is.
  have layout (written : List Entry) (within : written ⊆ b.entries type) :
      (b.pageAfter page written).layout =
        { page.layout with depth := page.layout.depth + 1, atLineStart := true } := by
    apply layout_pageAfter
    rw [Draft.error_append_eq_none_iff, Entry.error_drafts_eq_none_iff]
    exact ⟨opened, fun entry mem => complete entry (within mem)⟩
  constructor
  case parts => exact parts
  case entryStarts =>
    intro before entry after split
    have mem : entry ∈ b.entries type := by simp [split]
    have layout := layout before (by simp [split])
    refine .of_textDepth? (by rw [layout]) ?_
    exact Entry.textDepth? (Entry.labelsStand_of_mem_ofStatements labels mem) (complete entry mem)
      (by rw [layout]) (by rw [layout]) _
  case entryEnds =>
    intro before entry after split
    exact entry.endsLine (complete entry (by simp [split])) _ _
  case closingStarts =>
    have layout := layout (b.entries type) fun _ mem => mem
    refine .of_textDepth? (by rw [layout]) ?_
    rw [layout]
    rfl

end Block

/-! ### Lambdas -/

/-- A lambda leaves the depth as it is and never goes below zero. If labels stand only as statements
in it, all its blocks are laid out. -/
theorem lambda_is_balanced_and_laid_out {l : Lambda} (renders : ∃ text, l.render = .ok text)
    (page : Page) :
    depthAfter? page.layout.depth (page.names.settle l.draft.marks).1 = some page.layout.depth ∧
    (page.write l.draft).2.layout.depth = page.layout.depth ∧
    (l.body.LabelsStand → ∀ b ∈ l.blocks,
      (∃ type before after, l.draft = before ++ b.draft type ++ after) ∧
      ∀ type before after, l.draft = before ++ b.draft type ++ after →
        b.LaidOut type (page.write before).2) := by
  have ok : l.draft.error = none := (Draft.exists_text_eq_ok_iff _).mp renders
  have balanced := balancedFrom_lambda l ok page.names page.layout.depth (Nat.zero_le _)
  refine ⟨balanced, Layout.depth_run balanced, fun labels b mem => ⟨?_, ?_⟩⟩
  · exact Lambda.isPart_of_mem_blocks ok mem
  · intro type before after parts
    have part : (b.draft type).IsPart l.draft := ⟨before, after, parts⟩
    exact Block.laidOut (fun s => Lambda.labelsStand_of_mem_blocks labels mem) (part.ok ok) _

namespace LabeledReturn

def more : Parameter := ⟨0, some "more", .boolean⟩

def result : Parameter := ⟨1, some "result", .int32⟩

def done : Label := ⟨2, some "done", .int32⟩

def read : Expr := ⟨3, .parameter result⟩

def leave : Expr := ⟨4, .jump .goto done none⟩

def statements : List Expr :=
  [⟨6, .whileLoop ⟨5, .parameter more⟩ leave none none⟩, ⟨7, .block [] [read] .int32⟩,
    ⟨8, .label done (some read)⟩]

def lambda : Lambda := ⟨some "F", [more], ⟨9, .block [result] statements .int32⟩, .int32⟩

def text : String :=
  "int F(bool more)\n\x7b\n\tint result;\n\n\twhile (more)\n\t\x7b\n\t\tgoto done;\n\t\x7d\n" ++
    "\t\x7b\n\t\treturn result;\n\t\x7d\ndone:\n\treturn result;\n\x7d"

/-- The body of the loop is a block of its own. The label stands further out than its default. -/
theorem blocks_are_laid_out :
    lambda.render = .ok text ∧
    lambda.body.LabelsStand ∧
    lambda.blocks = [⟨[result], statements⟩, ⟨[], [leave]⟩, ⟨[], [read]⟩] ∧
    ∀ page : Page,
      depthAfter? page.layout.depth (page.names.settle lambda.draft.marks).1 =
        some page.layout.depth ∧
      (page.write lambda.draft).2.layout.depth = page.layout.depth ∧
      ∀ b ∈ lambda.blocks,
        (∃ type before after, lambda.draft = before ++ b.draft type ++ after) ∧
        ∀ type before after, lambda.draft = before ++ b.draft type ++ after →
          b.LaidOut type (page.write before).2 := by
  have labels : lambda.body.LabelsStand := by decide
  refine ⟨rfl, labels, rfl, fun page => ?_⟩
  have renders : ∃ text, lambda.render = .ok text := ⟨text, rfl⟩
  have laidOut := lambda_is_balanced_and_laid_out renders page
  exact ⟨laidOut.1, laidOut.2.1, laidOut.2.2 labels⟩

end LabeledReturn

end ExprTree
