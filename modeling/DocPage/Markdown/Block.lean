import DocPage.Markdown.Event
import DocPage.Text.Basic

/-!
# Blocks

The block structure of a Markdown document. Text whose inline structure is read later is kept as it
stands in the document, with the container markers at the start of its lines.
-/

namespace DocPage.Markdown

/-- A line that continues a text: offsets into the text. -/
structure LineMark where
  /-- Where the line starts. -/
  start : Nat
  /-- Where the container markers end. -/
  content : Nat
  /-- Where the indentation ends. -/
  first : Nat
  deriving Repr

/-- A text with inline structure, as it stands in the document. -/
structure Source where
  text : Text
  /-- The character in front of the text; `none` at the start of the document. -/
  before : Option Char
  /-- The lines after the first one. -/
  lines : List LineMark := []
  /-- Whether the text stands in a table, where pipes are escaped. -/
  inTable : Bool := false
  deriving Repr

/-- A row of a table as it stands in the document, and the offsets at which its cells start
and end. -/
structure Row where
  source : Source
  cells : List (Nat × Nat)
  deriving Repr

inductive Block where
  /-- A paragraph, which may start with the checkbox of a task. -/
  | paragraph (task : Option Bool) (source : Source)
  /-- A heading of one line; its text ends at the offset `stop`. -/
  | heading (level : Nat) (stop : Nat) (source : Source)
  /-- A heading made of a paragraph by a line under it. -/
  | underlinedHeading (level : Nat) (task : Option Bool) (source : Source)
  | quote (alert : Option AlertKind) (children : List Block)
  /-- A list; a tight one shows the paragraphs of its items without markup. -/
  | list (tight : Bool) (first : Option Nat) (items : List Block)
  | item (children : List Block)
  /-- The checkbox of a task that has no text. -/
  | task (checked : Bool)
  | code (kind : CodeBlockKind) (text : Text)
  /-- An HTML block: indentation that is text, and pieces of HTML. -/
  | html (pieces : List Event)
  | rule
  | table (alignments : List Alignment) (head : Row) (rows : List Row)
  deriving Repr

structure Definition where
  /-- The case folded label. -/
  label : Text
  destination : Text
  title : Text
  deriving Repr

end DocPage.Markdown
