import DocPage.Admonition
import DocPage.Body.Region
import DocPage.Code.Processor
import DocPage.Markdown.Event
import DocPage.Outline.Heading
import DocPage.Outline.Slug

/-!
# The state of the page renderer

The renderer walks over Markdown events and writes a page. Between two events it keeps the page so
far, the elements that are open and swallow text (a heading, an image, a code block), the table
around the current cell, the open quotes, and what must stay unique or in order over the whole page.
-/

namespace DocPage.Render

/-! ## Open elements -/

structure OpenCode where
  language : Option Text
  source : Text
  deriving Repr, DecidableEq

/-- An open image; the text inside it is its alternative text. -/
structure OpenImage where
  source : Text
  title : Text
  alt : Text
  deriving Repr, DecidableEq

/-- An open heading; of what is inside it only the text counts. -/
structure OpenHeading where
  level : Nat
  text : Text
  deriving Repr, DecidableEq

/-- Where the renderer is in the last table. -/
structure Table where
  inHead : Bool := false
  alignments : List Markdown.Alignment := []
  cellIndex : Nat := 0
  deriving Repr, DecidableEq

def alignAttribute : Markdown.Alignment → Text
  | .none => []
  | .left => " align=\"left\""
  | .center => " align=\"center\""
  | .right => " align=\"right\""

/-- The attribute of the current cell; a cell beyond the alignments has none. -/
def Table.cellAttribute (t : Table) : Text :=
  alignAttribute (t.alignments.getD t.cellIndex .none)

def Table.cellTag (t : Table) : Text :=
  if t.inHead then "th" else "td"

/-! ## Headings -/

/-- A heading of the page, with the byte offset at which its component starts. -/
structure Entry where
  offset : Nat
  heading : Outline.Heading
  deriving Repr, DecidableEq

/-- The anchor for a title whose slug is `base`, when the slugs in `earlier` gave anchors before:
the first one is the slug itself, later ones are numbered. -/
def numberedAnchor (earlier : List Text) (base : Text) : Text :=
  match earlier.count base with
  | 0 => base
  | n + 1 => base ++ '-' :: Text.ofNat (n + 1)

/-! ## The state -/

/-- The state of the renderer between two events. -/
structure State where
  /-- The page written since the last finished call. -/
  output : Text := []
  code : Option OpenCode := none
  image : Option OpenImage := none
  heading : Option OpenHeading := none
  table : Table := {}
  /-- The open quotes, innermost first; an alert has a look, a plain quote has none. -/
  quotes : List (Option Admonition) := []
  region : Body.Region := .before
  /-- The slugs of the headings whose anchors were derived. -/
  derivedSlugs : List Text := []
  /-- The number of code blocks so far. -/
  codeBlocks : Nat := 0
  desks : List Code.Desk := []
  /-- The headings written since the last finished call. -/
  headings : List Entry := []

namespace State

/-- The state with text written to the page. -/
def write (s : State) (t : Text) : State :=
  { s with output := s.output ++ t }

/-- The state with inline markup written to the page; inside a heading there is none. -/
def writeInline (s : State) (t : Text) : State :=
  if s.heading.isSome then s else s.write t

def addToHeading (s : State) (t : Text) : State :=
  { s with heading := s.heading.map fun h => { h with text := h.text ++ t } }

end State

end DocPage.Render
