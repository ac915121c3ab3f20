import DocPage.Markdown.Event

/-!
# Well-nested events

The walk over a document gives its elements one inside another. Lines hold text, code, formulas and
spans; blocks hold lines or blocks; a code block holds its source; and a table holds one head and
then rows of cells, which are lines. `WellNested` leaves raw HTML out. `Inline` is about single lines
and leaves open what they hold besides spans, which may be raw HTML.
-/

namespace DocPage.Markdown

def Start.closing : Start → End
  | .paragraph => .paragraph
  | .heading _ => .heading
  | .blockQuote _ => .blockQuote
  | .codeBlock _ => .codeBlock
  | .htmlBlock => .htmlBlock
  | .list first => .list first.isSome
  | .item => .item
  | .footnoteDefinition => .footnoteDefinition
  | .definitionList => .definitionList
  | .definitionTitle => .definitionTitle
  | .definitionBody => .definitionBody
  | .table _ => .table
  | .tableHead => .tableHead
  | .tableRow => .tableRow
  | .tableCell => .tableCell
  | .emphasis => .emphasis
  | .strong => .strong
  | .strikethrough => .strikethrough
  | .superscript => .superscript
  | .subscript => .subscript
  | .link _ _ => .link
  | .image _ _ => .image
  | .metadataBlock => .metadataBlock

/-- Whether an element stands in a line and holds a part of it. -/
def Start.isSpan : Start → Bool
  | .emphasis | .strong | .strikethrough | .superscript | .subscript | .link _ _ | .image _ _ => true
  | _ => false

/-- Whether an element holds blocks. -/
def Start.isContainer : Start → Bool
  | .blockQuote _ | .htmlBlock | .list _ | .item | .footnoteDefinition | .definitionList
  | .definitionTitle | .definitionBody | .metadataBlock => true
  | _ => false

/-- Whether an event is a part of a line by itself. -/
def Event.isLeaf : Event → Bool
  | .text _ | .code _ | .math _ _ | .footnoteReference | .taskMarker _ | .softBreak | .hardBreak => true
  | _ => false

/-- An element around its content. -/
def enclose (element : Start) (content : List Event) : List Event :=
  .start element :: content ++ [.stop element.closing]

/-- Where events stand: in a line, among blocks, or among the rows or the cells of a table. -/
inductive Site where
  | line
  | blocks
  | rows
  | cells
  deriving Repr, DecidableEq

/-- Events in which every element that starts also ends, around content of its kind. -/
inductive WellNested : Site → List Event → Prop where
  | nil {site : Site} : WellNested site []
  | append {site : Site} {a b : List Event} : WellNested site a → WellNested site b →
      WellNested site (a ++ b)
  | leaf {event : Event} : event.isLeaf = true → WellNested .line [event]
  | span {element : Start} {content : List Event} : element.isSpan = true →
      WellNested .line content → WellNested .line (enclose element content)
  /-- A tight item and the like: a line among blocks. -/
  | line {content : List Event} : WellNested .line content → WellNested .blocks content
  | rule : WellNested .blocks [.rule]
  | paragraph {content : List Event} : WellNested .line content →
      WellNested .blocks (enclose .paragraph content)
  | heading {level : Nat} {content : List Event} : WellNested .line content →
      WellNested .blocks (enclose (.heading level) content)
  | code {kind : CodeBlockKind} {source : List Text} :
      WellNested .blocks (enclose (.codeBlock kind) (source.map .text))
  | container {element : Start} {content : List Event} : element.isContainer = true →
      WellNested .blocks content → WellNested .blocks (enclose element content)
  | table {alignments : List Alignment} {head rows : List Event} : WellNested .cells head →
      WellNested .rows rows →
      WellNested .blocks (enclose (.table alignments) (enclose .tableHead head ++ rows))
  | row {content : List Event} : WellNested .cells content →
      WellNested .rows (enclose .tableRow content)
  | cell {content : List Event} : WellNested .line content →
      WellNested .cells (enclose .tableCell content)

/-! ## Single lines -/

/-- Whether an event is a part of a line by itself, raw HTML included. -/
def Event.isInline : Event → Bool
  | .html _ => true
  | event => event.isLeaf

/-- Whether an event is text, code or a break. -/
def Event.isProse : Event → Bool
  | .text _ | .code _ | .softBreak | .hardBreak => true
  | _ => false

/-- The events of a line: parts of the given kind, and spans around such events. -/
inductive Inline (isPart : Event → Bool) : List Event → Prop where
  | nil : Inline isPart []
  | append {a b : List Event} : Inline isPart a → Inline isPart b → Inline isPart (a ++ b)
  | part {event : Event} : isPart event = true → Inline isPart [event]
  | span {element : Start} {content : List Event} : element.isSpan = true →
      Inline isPart content → Inline isPart (enclose element content)

/-- An event of a line is a part of it, or the start or the end of a span. -/
theorem Inline.cases_of_mem {isPart : Event → Bool} {events : List Event}
    (h : Inline isPart events) : ∀ event ∈ events, isPart event = true ∨
      ∃ element : Start, element.isSpan = true ∧
        (event = .start element ∨ event = .stop element.closing) := by
  -- What an enclosed line has besides its content are the two events around it.
  induction h with
  | nil => exact List.forall_mem_nil _
  | append _ _ iha ihb => exact List.forall_mem_append.mpr ⟨iha, ihb⟩
  | part hpart => exact List.forall_mem_singleton.mpr (.inl hpart)
  | @span element content hspan _ ih =>
    refine List.forall_mem_append.mpr ⟨List.forall_mem_cons.mpr ⟨?_, ih⟩, ?_⟩
    · exact .inr ⟨element, hspan, .inl rfl⟩
    · exact List.forall_mem_singleton.mpr (.inr ⟨element, hspan, .inr rfl⟩)

end DocPage.Markdown
