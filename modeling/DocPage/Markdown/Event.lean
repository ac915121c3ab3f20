import DocPage.Text.Basic

/-!
# Markdown events

A Markdown document as the sequence of events that a walk over its tree gives: starts and ends of
elements, and the leaves between them. Whoever consumes events cannot assume that starts and ends
balance.
-/

namespace DocPage.Markdown

inductive Alignment where
  | none
  | left
  | center
  | right
  deriving Repr, DecidableEq, Inhabited

/-- The kinds of alert that a blockquote can be. -/
inductive AlertKind where
  | note
  | tip
  | important
  | warning
  | caution
  deriving Repr, DecidableEq

/-- The two kinds of code block. A fenced block has an info string. -/
inductive CodeBlockKind where
  | indented
  | fenced (info : Text)
  deriving Repr, DecidableEq

inductive Start where
  | paragraph
  | heading (level : Nat)
  | blockQuote (alert : Option AlertKind)
  | codeBlock (kind : CodeBlockKind)
  | htmlBlock
  /-- A list; an ordered list has a first number. -/
  | list (first : Option Nat)
  | item
  | footnoteDefinition
  | definitionList
  | definitionTitle
  | definitionBody
  | table (alignments : List Alignment)
  | tableHead
  | tableRow
  | tableCell
  | emphasis
  | strong
  | strikethrough
  | superscript
  | subscript
  | link (destination title : Text)
  | image (destination title : Text)
  | metadataBlock
  deriving Repr, DecidableEq

inductive End where
  | paragraph
  | heading
  | blockQuote
  | codeBlock
  | htmlBlock
  | list (ordered : Bool)
  | item
  | footnoteDefinition
  | definitionList
  | definitionTitle
  | definitionBody
  | table
  | tableHead
  | tableRow
  | tableCell
  | emphasis
  | strong
  | strikethrough
  | superscript
  | subscript
  | link
  | image
  | metadataBlock
  deriving Repr, DecidableEq

/-- An event of a Markdown document. -/
inductive Event where
  | start (element : Start)
  | stop (element : End)
  | text (t : Text)
  | code (t : Text)
  /-- A line of an HTML block, or a piece of HTML inside a line. -/
  | html (t : Text)
  | math (tex : Text) (display : Bool)
  | footnoteReference
  | taskMarker (checked : Bool)
  | softBreak
  | hardBreak
  | rule
  deriving Repr, DecidableEq

/-- The events with neighbouring texts joined into one. -/
def mergeTexts : List Event → List Event
  | [] => []
  | .text a :: rest =>
    match mergeTexts rest with
    | .text b :: merged => .text (a ++ b) :: merged
    | merged => .text a :: merged
  | event :: rest => event :: mergeTexts rest

end DocPage.Markdown
