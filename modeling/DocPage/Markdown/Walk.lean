import DocPage.Markdown.Inline
import DocPage.Markdown.Structure

/-!
# Walking over a document

The events of a document: its blocks in order, with the inline content of their texts.
-/

namespace DocPage.Markdown

/-- What the walk over the blocks of a document needs to know. -/
structure WalkScope where
  /-- Whether strikethrough is read. -/
  extended : Bool
  definitions : List Definition

namespace WalkScope

/-- The inline content of tokens of a source. -/
def inline (scope : WalkScope) (source : Source) (tokens : List Token) : List Event :=
  inlineEvents ⟨source, scope.definitions⟩ tokens

/-- The inline content of a paragraph, after the checkbox of a task. -/
def paragraph (scope : WalkScope) (task : Option Bool) (source : Source) : List Event :=
  (task.map Event.taskMarker).toList ++ scope.inline source (source.tokens scope.extended)

def cells (scope : WalkScope) (row : Row) : List Event :=
  row.cells.flatMap fun (start, stop) =>
    .start .tableCell :: scope.inline row.source (row.cellTokens scope.extended start stop) ++
      [.stop .tableCell]

def table (scope : WalkScope) (alignments : List Alignment) (head : Row) (rows : List Row) :
    List Event :=
  .start (.table alignments) :: .start .tableHead :: scope.cells head ++ .stop .tableHead ::
    rows.flatMap (fun row => .start .tableRow :: scope.cells row ++ [.stop .tableRow]) ++
    [.stop .table]

/-- The inline content of a heading whose text ends at the offset `stop`. -/
def heading (scope : WalkScope) (stop : Nat) (source : Source) : List Event :=
  if stop = 0 then [] else scope.inline source (source.headingTokens scope.extended stop)

mutual

/-- The events of a block; `tight` tells that it stands in an item of a tight list. -/
def block (scope : WalkScope) (tight : Bool) : Block → List Event
  | .paragraph task source =>
    let events := scope.paragraph task source
    if tight then events else .start .paragraph :: events ++ [.stop .paragraph]
  | .heading level stop source =>
    .start (.heading level) :: scope.heading stop source ++ [.stop .heading]
  | .underlinedHeading level task source =>
    .start (.heading level) :: scope.paragraph task source ++ [.stop .heading]
  | .quote alert children =>
    .start (.blockQuote alert) :: scope.blocks false children ++ [.stop .blockQuote]
  | .list tight first items =>
    .start (.list first) :: scope.blocks tight items ++ [.stop (.list first.isSome)]
  | .item children => .start .item :: scope.blocks tight children ++ [.stop .item]
  | .task checked => [.taskMarker checked]
  | .code kind text => [.start (.codeBlock kind), .text text, .stop .codeBlock]
  | .html pieces => .start .htmlBlock :: pieces ++ [.stop .htmlBlock]
  | .rule => [.rule]
  | .table alignments head rows => scope.table alignments head rows

def blocks (scope : WalkScope) (tight : Bool) : List Block → List Event
  | [] => []
  | b :: rest => scope.block tight b ++ scope.blocks tight rest

end

end WalkScope

/-- The events of a document. With `extended`, tables, strikethrough, tasks and alerts are read. -/
def eventsOf (extended : Bool) (t : Text) : List Event :=
  let document := Document.read extended t
  mergeTexts (WalkScope.blocks ⟨extended, document.definitions⟩ false document.blocks)

end DocPage.Markdown
