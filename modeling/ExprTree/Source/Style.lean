import ExprTree.Source.Layout

/-!
Styles: fragments as plain text, as text coloured for a terminal and as Typst markup.
-/

namespace ExprTree.Source

/-- How a category of text looks. -/
structure Look where
  red : UInt8
  green : UInt8
  blue : UInt8
  bold : Bool := true

/-- The look of a category. Layout has none. -/
def Category.look? : Category → Option Look
  | .neutral | .indent | .newline => none
  | .keyword => some ⟨0x75, 0x50, 0x7b, true⟩
  | .declaration => some ⟨0x34, 0x65, 0xa4, true⟩
  | .type => some ⟨0x8f, 0x59, 0x02, true⟩
  | .variable => some ⟨0x72, 0x9f, 0xcf, true⟩
  | .member => some ⟨0x3b, 0x5d, 0x7d, false⟩
  | .function => some ⟨0x34, 0x65, 0xa4, false⟩
  | .label => some ⟨0x60, 0x98, 0x9a, true⟩
  | .string => some ⟨0x4e, 0x9a, 0x06, true⟩
  | .numeric => some ⟨0xad, 0x7f, 0xa8, true⟩
  | .operator => some ⟨0xcc, 0x00, 0x00, true⟩
  | .structural => some ⟨0x99, 0x99, 0x99, true⟩

/-! ### Terminal -/

/-- What makes text coloured and bold on a terminal. It is brought along by whoever shows
fragments. -/
structure Paint where
  coloured : (red green blue : UInt8) → String → String
  emboldened : String → String

/-- Text in the look of a category: coloured first, and then bold. -/
def Look.painted (look : Look) (paint : Paint) (content : String) : String :=
  let coloured := paint.coloured look.red look.green look.blue content
  if look.bold then paint.emboldened coloured else coloured

/-- A control sequence with parameters. -/
def controlSequence (parameters : String) : String := "\x1b[" ++ parameters ++ "m"

/-- Control sequences before and after a text. -/
def Paint.ansi : Paint where
  coloured red green blue content :=
    controlSequence ("38;2;" ++ toString red.toNat ++ ";" ++ toString green.toNat ++ ";" ++
      toString blue.toNat) ++ content ++ controlSequence "39"
  emboldened content := controlSequence "1" ++ content ++ controlSequence "0"

/-! ### Typst -/

/-- The text with every occurrence of a character replaced. -/
def replaced (old : Char) (new text : String) : String :=
  .ofList (text.toList.flatMap fun c => if c = old then new.toList else [c])

/-- Text inside a Typst string. Backslashes are doubled before others are put before quotes. -/
def typstEscape (content : String) : String :=
  if '"' ∈ content.toList ∨ '\\' ∈ content.toList then
    replaced '"' "\\\"" (replaced '\\' "\\\\" content)
  else content

/-- A byte as `0x` and two digits. -/
def hexByte (n : UInt8) : String :=
  .ofList ('0' :: 'x' :: [Nat.digitChar (n.toNat / 16), Nat.digitChar (n.toNat % 16)])

/-- What Typst is told about a category. Operators are set in its own red. -/
def Category.typstArguments (category : Category) : String :=
  match category, category.look? with
  | .operator, _ => "fill: red, "
  | _, none => ""
  | _, some look =>
    "fill: rgb(" ++ hexByte look.red ++ ", " ++ hexByte look.green ++ ", " ++ hexByte look.blue ++
      ")" ++ (if look.bold then ", weight: \"bold\"" else "") ++ ", "

def typstMarkup (fragment : Fragment) : String :=
  "#text(" ++ fragment.category.typstArguments ++ "raw(\"" ++ typstEscape fragment.content ++ "\"))"

/-! ### Fragments -/

/-- A way to show fragments. -/
inductive Style where
  | plain
  | painted (paint : Paint)
  | typst

/-- For a terminal that knows control sequences. -/
def Style.terminal : Style := .painted .ansi

/-- One fragment in a style. -/
def Style.apply (style : Style) (fragment : Fragment) : String :=
  match style, fragment.category with
  | .plain, _ => fragment.content
  | .painted _, .newline => "\n"
  | .painted paint, category =>
    match category.look? with
    | some look => look.painted paint fragment.content
    | none => fragment.content
  | .typst, .newline => "\\\n"
  | .typst, _ => typstMarkup fragment

/-- Fragments in a style, one after the other. -/
def Style.text (style : Style) (fragments : List Fragment) : String :=
  String.join (fragments.map style.apply)

/-- Typst markup as a document of its own, under a title. -/
def typstDocument (title markup : String) : String :=
  "#set page(width: auto, height: auto, margin: 1cm)\n#show raw: set text(font: \"Inconsolata\")\n\n= "
    ++ title ++ "\n\n" ++ markup ++ "\n"

end ExprTree.Source
