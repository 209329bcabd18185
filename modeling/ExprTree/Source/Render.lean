import ExprTree.Source.Layout
import ExprTree.Source.Name
import ExprTree.Source.Style
import ExprTree.Source.Write

/-!
Expressions and lambdas as text.

A draft is rendered on an output of its own or as one of several items written to the same output,
which then share layout and made-up names.
-/

namespace ExprTree

namespace Source

/-- The fragments of a draft, with a unit of indentation, or why it cannot be written. -/
def Draft.fragments (d : Draft) (unit : String := "\t") : Except RenderError (List Fragment) :=
  d.directives.map fun directives => (Layout.run { unit } directives).1

/-- A draft in a style, or why it cannot be written. -/
def Draft.text (d : Draft) (style : Style := .plain) : Except RenderError String :=
  d.fragments.map style.text

/-- Something that is written to several times. -/
structure Page where
  layout : Layout := {}
  names : NameTable := {}

/-- Write a draft to a page, as far as it goes. -/
def Page.write (page : Page) (d : Draft) : List Fragment × Page :=
  let (directives, names) := page.names.settle d.marks
  let (fragments, layout) := page.layout.run directives
  (fragments, { layout, names })

end Source

/-- A lambda as source text in a style. -/
def Lambda.render (l : Lambda) (style : Source.Style := .plain) :
    Except Source.RenderError String :=
  l.draft.text style

/-- An expression as source text in a style. -/
def Expr.render (e : Expr) (style : Source.Style := .plain) : Except Source.RenderError String :=
  e.draft.text style

/-- A lambda as a Typst document of its own, under a title. -/
def Lambda.document (l : Lambda) (title : String) : Except Source.RenderError String :=
  (l.render .typst).map (Source.typstDocument title)

end ExprTree
