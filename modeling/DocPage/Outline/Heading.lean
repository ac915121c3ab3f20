import DocPage.Json.Basic

/-!
# The heading outline

Headings in document order form a forest: a heading belongs under the nearest earlier heading of
smaller depth. The forest is built while the headings come in. The builder keeps the depths of the
headings that are still open, and puts each new one at the end of the last sections, as deep as
headings stay open in front of it.

The metadata of a page is its forest; a page whose forest is a single heading of depth one takes
that heading as its title.
-/

namespace DocPage.Outline

/-- A heading: its title, the anchor to link to, and its depth. -/
structure Heading where
  title : Text
  anchor : Text
  depth : Nat
  deriving Repr, DecidableEq, Inhabited

/-- A heading with the headings under it. -/
structure Section where
  heading : Heading
  sections : List Section
  deriving Repr

/-- A heading without headings under it. -/
def Heading.leaf (heading : Heading) : Section := ⟨heading, []⟩

/-! ## The builder -/

/-- The sections with one more, which becomes the last one `levels` deep along the last sections. -/
def insertAt (node : Section) : (levels : Nat) → List Section → List Section
  | 0, sections => sections.concat node
  | levels + 1, sections =>
    match sections.getLast? with
    -- The builder never asks for more levels than there are last sections.
    | none => [node]
    | some last =>
      sections.dropLast.concat ⟨last.heading, insertAt node levels last.sections⟩

/-- A forest under construction. -/
structure Builder where
  roots : List Section := []
  /-- The depths of the open headings, innermost first. -/
  openDepths : List Nat := []

namespace Builder

/-- The builder after one more section. Headings that are no less deep are closed by it. -/
def push (b : Builder) (node : Section) : Builder :=
  let ancestors := b.openDepths.dropWhile (node.heading.depth ≤ ·)
  { roots := insertAt node ancestors.length b.roots
    openDepths := node.heading.depth :: ancestors }

/-- The forest of sections that come in in document order. -/
def build (nodes : List Section) : List Section :=
  (nodes.foldl push {}).roots

end Builder

/-- The forest of a list of headings. -/
def Heading.forest (headings : List Heading) : List Section :=
  Builder.build (headings.map leaf)

/-! ## Metadata -/

def Heading.fields (heading : Heading) : List (Text × Json) :=
  [("title", .string heading.title), ("local", .string heading.anchor),
    ("depth", .int heading.depth)]

mutual

/-- The JSON form of a heading with its sections, which are left out when there are none. -/
def Section.toJson : Section → Json
  | ⟨heading, []⟩ => .object heading.fields
  | ⟨heading, first :: rest⟩ =>
    .object (heading.fields.concat ("sections", .array (sectionsToJson (first :: rest))))

def sectionsToJson : List Section → List Json
  | [] => []
  | first :: rest => first.toJson :: sectionsToJson rest

end

/-- What a page says about itself. -/
structure Metadata where
  /-- The heading that is the title of the page. -/
  title : Option Heading
  sections : List Section
  deriving Repr

namespace Metadata

def ofForest : List Section → Metadata
  | [⟨heading, sections⟩] =>
    if heading.depth = 1 then ⟨some heading, sections⟩ else ⟨none, [⟨heading, sections⟩]⟩
  | roots => ⟨none, roots⟩

/-- The JSON form, where a missing title is left out. -/
def toJson (m : Metadata) : Json :=
  let sections : List (Text × Json) := [("sections", .array (sectionsToJson m.sections))]
  match m.title with
  | some heading =>
    .object (("title", .string heading.title) :: ("local", .string heading.anchor) :: sections)
  | none => .object sections

end Metadata

end DocPage.Outline
