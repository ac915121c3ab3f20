import DocPage.Markdown.Block
import DocPage.Markdown.Cursor
import DocPage.Markdown.HtmlTag
import DocPage.Markdown.Reference
import DocPage.Markdown.Table

/-!
# The block structure of a document

A document is read block by block. Between two blocks the reader keeps the open containers, which
are quotes, lists and list items, with the blocks that each holds so far.

## Architecture

- **Containers**: `BlockReader.close`, `matchFrames`, and the rules for tight and empty items
- **Interruption**: which lines end a paragraph
- **Leaf blocks**: one function for each kind, from the text at the block to the text after it
- **The loop**: `BlockReader.block` reads the containers that a line opens and then one leaf block

Every block takes at least one character, so a fuel of the length of the text is enough for the
loop.
-/

namespace DocPage.Markdown

/-! ## Containers -/

inductive Container where
  | quote (alert : Option AlertKind)
  | list (tight : Bool) (symbol : Char) (number : Nat)
  /-- An item, whose content is indented by `indent` blanks. -/
  | item (indent : Nat)
  deriving Repr

/-- An open container with the blocks in it, latest first. -/
structure Frame where
  container : Container
  blocks : List Block
  deriving Repr

/-- The state of the reader between two blocks. -/
structure BlockReader where
  /-- Whether tables, tasks and alerts are read. -/
  extended : Bool
  /-- The open containers, innermost first. -/
  frames : List Frame := []
  /-- The blocks outside all containers, latest first. -/
  blocks : List Block := []
  /-- Whether the last line opened an item and was blank otherwise. -/
  emptyItem : Bool := false
  lastLineBlank : Bool := false
  /-- The checkbox that waits for its paragraph. -/
  task : Option Bool := none
  /-- The link reference definitions, latest first. -/
  definitions : List Definition := []

/-- Whether a list marker with this symbol numbers its items. -/
def isOrdered (symbol : Char) : Bool :=
  symbol == '.' || symbol == ')'

/-- The block of a container that is closed. -/
def Frame.toBlock (f : Frame) : Block :=
  let blocks := f.blocks.reverse
  match f.container with
  | .quote alert => .quote alert blocks
  | .list tight symbol number => .list tight (if isOrdered symbol then some number else none) blocks
  | .item _ => .item blocks

namespace BlockReader

/-- Adds a block to the innermost container. -/
def add (r : BlockReader) (b : Block) : BlockReader :=
  match r.frames with
  | f :: frames => { r with frames := { f with blocks := b :: f.blocks } :: frames }
  | [] => { r with blocks := b :: r.blocks }

/-- Opens a container. -/
def push (r : BlockReader) (c : Container) : BlockReader :=
  { r with frames := ⟨c, []⟩ :: r.frames }

def close (r : BlockReader) : BlockReader :=
  match r.frames with
  | f :: frames =>
    let emptyItem := match f.container with
      | .list true _ _ => false
      | _ => r.emptyItem
    { r with frames, emptyItem }.add f.toBlock
  | [] => r

/-- Closes containers until `n` are left. -/
def closeTo (n : Nat) (r : BlockReader) : BlockReader :=
  Nat.repeat close (r.frames.length - n) r

def innermost? (r : BlockReader) : Option Container :=
  r.frames.head?.map (·.container)

def setInnermost (r : BlockReader) (c : Container) : BlockReader :=
  match r.frames with
  | f :: frames => { r with frames := { f with container := c } :: frames }
  | [] => r

/-- Marks the list around the innermost container as loose. -/
def loosenOuterList (r : BlockReader) : BlockReader :=
  match r.frames with
  | inner :: outer :: frames =>
    match outer.container with
    | .list _ symbol number =>
      { r with frames := inner :: { outer with container := .list false symbol number } :: frames }
    | _ => r
  | _ => r

/-- An item starts with at most one blank line: an item that is still empty after one is closed. -/
def finishEmptyItem (r : BlockReader) : BlockReader :=
  let r' := match r.emptyItem && r.lastLineBlank, r.innermost? with
    | true, some (.item _) => r.close
    | _, _ => r
  { r' with emptyItem := false }

/-- Closes the list that the next block does not continue. A blank line in front of a block makes
the list around it loose. -/
def finishList (r : BlockReader) : BlockReader :=
  let r := r.finishEmptyItem
  let r := match r.innermost? with
    | some (.list ..) => r.close
    | _ => r
  if r.lastLineBlank then { r.loosenOuterList with lastLineBlank := false } else r

def openList (r : BlockReader) (marker : ListMarker) : BlockReader :=
  { r.push (.list true marker.symbol marker.number) with lastLineBlank := false }

/-- Continues the open list when the marker has its symbol, and opens a list otherwise. -/
def continueList (r : BlockReader) (marker : ListMarker) : BlockReader :=
  let r := r.finishEmptyItem
  match r.innermost? with
  | some (.list tight symbol number) =>
    if symbol == marker.symbol then
      if r.lastLineBlank then
        { r.setInnermost (.list false symbol number) with lastLineBlank := false }
      else r.setInnermost (.list tight symbol number)
    else r.finishList.openList marker
  | some _ => r.finishList.openList marker
  | none => r.openList marker

/-- The effect of a blank line. An item that only has its marker keeps nothing that follows. -/
def blankLine (r : BlockReader) : BlockReader :=
  match r.innermost? with
  | some (.quote _) => r
  | some (.item _) =>
    let r := if r.emptyItem then r.setInnermost (.item 0) else r
    { r with lastLineBlank := true }
  | _ => { r with lastLineBlank := true }

end BlockReader

/-- Reads the markers of containers, outermost first, at the start of a line. The result tells how
many containers the line continues. A line without text continues every list item. -/
def matchFrames : List Frame → Cursor → Nat × Cursor
  | [], c => (0, c)
  | f :: frames, c =>
    let next? := match f.container with
      | .quote _ => (c.readSpaces 3).2.quoteMarker?
      | .list .. => some c
      | .item indent =>
        match c.readSpaces indent with
        | (0, after) => some after
        | (_, after) => if after.atEnd then some after else none
    match next? with
    | none => (0, c)
    | some c =>
      let (n, c) := matchFrames frames c
      (n + 1, c)

/-- A line of the document after its container markers. -/
structure Line where
  cursor : Cursor
  /-- Whether the line continues every open container. -/
  continues : Bool

namespace BlockReader

/-- Reads the container markers of the line at the start of a text. -/
def line (r : BlockReader) (t : Text) : Line :=
  let (n, cursor) := matchFrames r.frames.reverse { rest := t }
  ⟨cursor, n == r.frames.length⟩

end BlockReader

/-! ## Headings and code fences -/

/-- The level of a heading marked by number signs. -/
def headingLevel? (t : Text) : Option Nat :=
  let level := runLength '#' t
  if 1 ≤ level && level ≤ 6 && (t.drop level).head?.all isSpaceOrLineEnd then some level else none

/-- The line under a heading: its level, and the text after the line. -/
def underline? (t : Text) : Option (Nat × Text) :=
  match t with
  | c :: _ =>
    if c == '=' || c == '-' then
      (dropBlankLine? (t.drop (runLength c t))).map fun rest => (if c == '=' then 1 else 2, rest)
    else none
  | [] => none

/-- The opening fence of a code block: its length and its character. -/
def codeFence? (t : Text) : Option (Nat × Char) :=
  match t with
  | c :: _ =>
    let length := runLength c t
    if (c == '\x60' || c == '~') && 3 ≤ length &&
        !(c == '\x60' && (lineBody (t.drop length)).elem c) then
      some (length, c)
    else none
  | [] => none

/-- Whether a closing fence of at least the given length stands at the start of a text; blanks may
follow it on its line. The result is the text after the line. -/
def closingFence? (fence : Char) (length : Nat) (t : Text) : Option Text :=
  if t.isEmpty then some []
  else
    let found := runLength fence t
    if found < length then none
    else
      let rest := (t.drop found).dropWhile (· == ' ')
      if atLineEnd rest then dropBlankLine? rest else none

/-! ## Interruption of paragraphs -/

/-- Whether a list marker at the start of a text ends the paragraph above it. In a paragraph that
the line could continue, an item must not be empty and an ordered list must start with one. -/
def listInterrupts (continues inTable : Bool) (t : Text) : Bool :=
  let marker? : Option (Bool × Text) :=
    match t with
    | c :: rest =>
      if c == '-' || c == '+' || c == '*' then some (true, rest)
      else
        let digits := (t.takeWhile Char.isDigit).take 9
        match digits, t.drop digits.length with
        | _ :: _, d :: rest =>
          if isOrdered d then some (Text.digitsValue digits == 1, rest) else none
        | _, _ => none
    | [] => none
  match marker? with
  | none => false
  | some (starts, rest) =>
    let isMarker := atLineEnd rest || rest.head?.any (fun c => c == ' ' || c == '\t')
    let isEmpty := ((dropBlankLine? rest).bind dropBlankLine?).isSome
    isMarker && (!continues || inTable || (starts && !isEmpty))

/-- Whether the text starts a block, other than a table, that ends the paragraph above it. -/
def blockInterrupts (continues inTable : Bool) (t : Text) : Bool :=
  atLineEnd t || (thematicBreak? t).isSome || (headingLevel? t).isSome || (codeFence? t).isSome ||
    t.head? == some '>' || listInterrupts continues inTable t ||
    match t with
    | '<' :: rest => (htmlBlockEnd? rest).isSome || startsBlockElement rest
    | _ => false

namespace BlockReader

/-- The delimiter row on the line after a header row with the given number of columns. -/
def delimiterAfter? (r : BlockReader) (columns : Nat) (next : Text) :
    Option (List Alignment × Text) :=
  let line := r.line next
  if line.continues then
    match delimiterRow? line.cursor.rest with
    | some (alignments, rest) =>
      if alignments.length = columns then some (alignments, rest) else none
    | none => none
  else none

/-- The table that starts at the start of a text: its alignments and the text after its delimiter
row. -/
def tableStart? (r : BlockReader) (t : Text) : Option (List Alignment × Text) :=
  let body := lineBody t
  let (pipes, afterLast) := countPipes false 0 [] body
  let next := (splitLine t).2
  if r.extended && 0 < pipes && body.length < t.length then
    r.delimiterAfter? (columnCount body pipes afterLast) next
  else none

/-- Whether a table on this line ends the paragraph above it. -/
def tableInterrupts (r : BlockReader) (continues : Bool) (t : Text) : Bool :=
  let body := lineBody t
  let (pipes, afterLast) := countBarePipes false 0 (body.drop 1) body
  r.extended && continues && body.length < t.length &&
    (r.delimiterAfter? (columnCount body pipes afterLast) (splitLine t).2).isSome

/-- Whether the text starts a block that ends the paragraph above it. -/
def interrupts (r : BlockReader) (continues : Bool) (t : Text) : Bool :=
  blockInterrupts continues false t || r.tableInterrupts continues t

/-! ## Code and HTML blocks -/

def blanks (n : Nat) : Text := List.replicate n ' '

/-- The lines of an indented code block from a line with `spare` blanks in front on. The lines come
with a mark on the blank ones. The result is also the text after the block. -/
def indentedLines (r : BlockReader) : (fuel : Nat) → (spare : Nat) → Text →
    List (Bool × Text) × Text
  | 0, _, t => ([], t)
  | fuel + 1, spare, t =>
    let (code, next) := splitLine t
    let entry := ((dropBlankLine? t).isSome, blanks spare ++ normalizeLineEnd code)
    let line := r.line next
    let indent := line.cursor.readSpaces 4
    if line.continues && (indent.1 == 0 || indent.2.atEnd) && !indent.2.rest.isEmpty then
      let (entries, rest) := r.indentedLines fuel indent.2.spare indent.2.rest
      (entry :: entries, rest)
    else ([entry], next)

/-- Reads an indented code block. Blank lines at its end do not belong to it. -/
def indentedCode (r : BlockReader) (spare : Nat) (t : Text) : BlockReader × Text :=
  let (entries, rest) := r.indentedLines (t.length + 1) spare t
  let kept := (entries.reverse.dropWhile (·.1)).reverse
  let r := { r with lastLineBlank := kept.length < entries.length }
  (r.add (.code .indented (kept.flatMap (·.2))), rest)

/-- The lines of a fenced code block, and the text after the block. The block ends at its closing
fence or where a container ends. -/
def fencedLines (r : BlockReader) (indent : Nat) (fence : Char) (length : Nat) :
    (fuel : Nat) → Text → Text × Text
  | 0, t => ([], t)
  | fuel + 1, t =>
    let line := r.line t
    if !line.continues then ([], t)
    else
      let start := (line.cursor.readSpaces indent).2
      let closing := match start.readSpaces (4 - indent) with
        | (0, _) => none
        | (_, after) => closingFence? fence length after.rest
      match closing with
      | some rest => ([], rest)
      | none =>
        let (code, next) := splitLine start.rest
        let (text, rest) := r.fencedLines indent fence length fuel next
        (blanks start.spare ++ normalizeLineEnd code ++ text, rest)

/-- Reads a fenced code block that is indented by `indent` blanks. -/
def fencedCode (r : BlockReader) (indent : Nat) (fence : Char) (length : Nat) (t : Text) :
    BlockReader × Text :=
  let (info, next) := splitLine (t.drop length)
  let info := Text.trimWhile isSpaceOrLineEnd info
  let (text, rest) := r.fencedLines indent fence length (t.length + 1) next
  (r.add (.code (.fenced (unescape false info)) text), rest)

/-- The pieces of a line of an HTML block: its indentation is text, and a carriage return at its end
is dropped. -/
def htmlLine (indent : Nat) (line : Text) : List Event :=
  let text := if indent = 0 then [] else [Event.text (blanks indent)]
  match line.reverse with
  | '\n' :: '\r' :: body => text ++ [.html body.reverse, .html ['\n']]
  | _ => text ++ [.html line]

/-- The pieces of an HTML block and the text after it. A block with a `stop` text ends with the line
that holds it, another block ends in front of a blank line; both end where a container ends. -/
def htmlLines (r : BlockReader) (stop : Option Text) : (fuel : Nat) → (indent : Nat) → Text →
    List Event × Text
  | 0, _, t => ([], t)
  | fuel + 1, indent, t =>
    let (markup, next) := splitLine t
    let line := r.line next
    let content := line.cursor.rest
    let ended := !line.continues || content.isEmpty ||
      match stop with
      | some s => Text.contains s markup
      | none => line.cursor.atEnd || (dropBlankLine? content).isSome
    if ended then (htmlLine indent markup, next)
    else
      let (pieces, rest) := r.htmlLines stop fuel line.cursor.spare content
      (htmlLine indent markup ++ pieces, rest)

def htmlBlock (r : BlockReader) (stop : Option Text) (indent : Nat) (t : Text) :
    BlockReader × Text :=
  let (pieces, rest) := r.htmlLines stop (t.length + 1) indent t
  (r.add (.html pieces), rest)

/-! ## Headings -/

/-- The length of the text of a heading line: blanks and closing number signs at its end do not
count. -/
def headingTextLength (line : Text) : Nat :=
  let limit := (Text.dropRightWhile (fun c => isLineEnd c || c == ' ') line).length
  let closer := (Text.dropRightWhile (· == '#') (line.take limit)).length
  let front := (Text.dropRightWhile (· == ' ') (line.take closer)).length
  if closer = 0 then 0 else if front < closer then front else limit

/-- Reads a heading marked by number signs. -/
def markedHeading (r : BlockReader) (level : Nat) (t : Text) : BlockReader × Text :=
  let (line, rest) := splitLine t
  let afterMarks := line.drop level
  let text := afterMarks.dropWhile isSpace
  let before := if text.length < afterMarks.length then ' ' else '#'
  (r.add (.heading level (headingTextLength text) { text, before := some before }), rest)

/-! ## Link reference definitions -/

/-- The content of the next line, when it continues the paragraph that a label is part of. -/
def labelLine? (r : BlockReader) (next : Text) : Option (Nat × Text) :=
  let line := r.line next
  let t := line.cursor.rest
  if r.interrupts line.continues t || (line.continues && (underline? t).isSome) then none
  else some (line.cursor.column, t)

/-- The content of the next line, when it continues the paragraph that a definition is part of. -/
def definitionLine? (r : BlockReader) (next : Text) : Option Text :=
  let line := r.line next
  match line.cursor.readSpaces 4 with
  | (0, after) => some after.rest
  | (_, after) =>
    if r.interrupts line.continues after.rest || (underline? after.rest).isSome then none
    else some after.rest

/-- Skips blanks with at most one line end among them. The result tells how many line ends there
were, where the end of the document counts as one. -/
def definitionBlanks? (r : BlockReader) (t : Text) : Option (Nat × Text) :=
  let t := t.dropWhile isSpace
  match lineEnd? t with
  | none => some (0, t)
  | some (0, _) => some (1, [])
  | some (_, next) =>
    match r.definitionLine? next with
    | none => none
    | some content =>
      let content := content.dropWhile isSpace
      if atLineEnd content && !content.isEmpty then none else some (1, content)

/-- Reads the rest of a title up to its closing delimiter, over the lines of the paragraph. -/
def titleRest? (r : BlockReader) (closing : Char) : (fuel : Nat) → Text → Option (Text × Text)
  | 0, _ => none
  | fuel + 1, t =>
    match t with
    | [] => none
    | '\\' :: c :: rest =>
      if isLineEnd c then (r.titleRest? closing fuel (c :: rest)).map fun (x, y) => ('\\' :: x, y)
      else (r.titleRest? closing fuel rest).map fun (x, y) => ('\\' :: c :: x, y)
    | c :: rest =>
      if c == closing then some ([], rest)
      else if c == '(' && closing == ')' then none
      else if isLineEnd c then
        let next := (splitLine (c :: rest)).2
        match r.definitionLine? next with
        | none => none
        | some content =>
          let content := content.dropWhile isSpace
          if atLineEnd content then none
          else (r.titleRest? closing fuel content).map fun (x, y) => ('\n' :: x, y)
      else (r.titleRest? closing fuel rest).map fun (x, y) => (c :: x, y)

def title? (r : BlockReader) (t : Text) : Option (Text × Text) :=
  match t with
  | '"' :: rest => r.titleRest? '"' rest.length.succ rest
  | '\'' :: rest => r.titleRest? '\'' rest.length.succ rest
  | '(' :: rest => r.titleRest? ')' rest.length.succ rest
  | _ => none

/-- Reads a link reference definition: a label, a colon, a destination and maybe a title. What
follows the definition on its line must be blank; a title on a line of its own that is no title is
left to the next block. -/
def definition? (r : BlockReader) (t : Text) : Option (Definition × Text) := do
  let afterOpen ← Text.dropPrefix? "[" t
  let (length, label) ← labelRest? r.labelLine? false (maxLabel + 2) 0 false [] afterOpen
  let afterColon ← Text.dropPrefix? ":" (afterOpen.drop length)
  let (_, atDestination) ← r.definitionBlanks? afterColon
  let (length, destination) ← destination? 1 atDestination
  if length = 0 then none
  else
    let label := foldLabel (Text.trimWhile (· == ' ') label)
    let destination := unescape false destination
    let afterDestination := atDestination.drop length
    let untitled := (dropBlankLine? afterDestination).map fun rest =>
      ((⟨label, destination, []⟩ : Definition), rest)
    match r.definitionBlanks? afterDestination with
    | none => untitled
    | some (newlines, atTitle) =>
      if newlines = 0 && atTitle.length = afterDestination.length then none
      else
        let titled := (r.title? atTitle).bind fun (title, rest) =>
          (dropBlankLine? rest).map fun rest =>
            ((⟨label, destination, unescape false title⟩ : Definition), rest)
        titled <|> untitled

/-! ## Paragraphs and tables -/

/-- The rows of a table's body, and the text after the table. The body ends at the first line that
starts another block, leaves a container, or has no cell. -/
def tableRows (r : BlockReader) (columns : Nat) : (fuel : Nat) → Text → List Row × Text
  | 0, t => ([], t)
  | fuel + 1, t =>
    let line := r.line t
    let start := line.cursor.skipSpaces
    if !line.continues || blockInterrupts true true start.rest then ([], t)
    else
      let (text, next) := splitLine start.rest
      if (cellsFrom 1 0 text).isEmpty then ([], t)
      else
        let (rows, rest) := r.tableRows columns fuel next
        (Row.ofLine (some ' ') columns text :: rows, rest)

/-- How a paragraph goes on after one of its lines. -/
inductive Continuation where
  /-- It ends in front of the text. -/
  | ended (rest : Text)
  /-- It is a heading; the text after its underline. -/
  | underlined (level : Nat) (rest : Text)
  /-- The next line belongs to it; where its containers and its indentation end. -/
  | goesOn (content first : Nat)

/-- How a paragraph goes on at the line at the start of a text. A line indented by four blanks
cannot end it. -/
def continuation (r : BlockReader) (t : Text) : Continuation :=
  let line := r.line t
  let start := line.cursor.skipSpaces
  let onward :=
    if start.atEnd then .ended t else .goesOn line.cursor.column start.column
  match line.cursor.readSpaces 4 with
  | (0, _) => onward
  | (_, after) =>
    match (if line.continues then underline? after.rest else none) with
    | some (level, rest) => .underlined level rest
    | none => if r.interrupts line.continues after.rest then .ended t else onward

/-- The lines of a paragraph after its first one: their marks, their text, and how it ended.
`offset` is the length of the text so far. -/
def paragraphLines (r : BlockReader) : (fuel : Nat) → (offset : Nat) → Text →
    List LineMark × Text × Option Nat × Text
  | 0, _, t => ([], [], none, t)
  | fuel + 1, offset, t =>
    match r.continuation t with
    | .ended rest => ([], [], none, rest)
    | .underlined level rest => ([], [], some level, rest)
    | .goesOn content first =>
      let (text, next) := splitLine t
      let (marks, more, level, rest) := r.paragraphLines fuel (offset + text.length) next
      (⟨offset, offset + content, offset + first⟩ :: marks, text ++ more, level, rest)

/-- Reads a paragraph, a table, or a heading that a line underlines. `before` is the character in
front of the text. -/
def paragraph (r : BlockReader) (before : Option Char) (t : Text) : BlockReader × Text :=
  match r.tableStart? t with
  | some (alignments, next) =>
    let head := Row.ofLine before alignments.length (splitLine t).1
    let (rows, rest) := r.tableRows alignments.length (t.length + 1) next
    ({ r with task := none }.add (.table alignments head rows), rest)
  | none =>
    let (text, next) := splitLine t
    let (lines, more, level, rest) := r.paragraphLines (t.length + 1) text.length next
    let source : Source := { text := text ++ more, before, lines }
    let block := match level with
      | none => .paragraph r.task source
      | some level => .underlinedHeading level r.task source
    ({ r with task := none }.add block, rest)

/-! ## The loop -/

/-- What the containers that a line opens leave to read. -/
inductive Opened where
  /-- The line is used up; the text after it. -/
  | line (rest : Text)
  /-- A leaf block, or a blank line, starts at the cursor. -/
  | leaf (cursor : Cursor)

/-- Opens the quotes, lists and items whose markers stand at the cursor. `fuel` bounds their
number. -/
def openContainers : (fuel : Nat) → BlockReader → Cursor → BlockReader × Opened
  | 0, r, c => (r, .leaf c)
  | fuel + 1, r, c =>
    match c.countSpaces 4 with
    | (4, _) => (r, .leaf c)
    | (outer, start) =>
      match start.listMarker? outer with
      | some (marker, after) =>
        let r := (r.continueList marker).push (.item marker.indent)
        match dropBlankLine? after.rest with
        | some rest => ({ r with emptyItem := true }, .line rest)
        | none =>
          match if r.extended then after.taskMarker? else none with
          | none => openContainers fuel r after
          | some (checked, afterTask) =>
            match dropBlankLine? afterTask.rest with
            | some rest => ({ r.add (.task checked) with emptyItem := true }, .line rest)
            | none => openContainers fuel { r with task := some checked } afterTask
      | none =>
        match start.quoteMarker? with
        | none => (r, .leaf c)
        | some after =>
          match if r.extended then after.alertTag? else none with
          | none => openContainers fuel (r.finishList.push (.quote none)) after
          | some (alert, rest) =>
            let r := r.finishList.push (.quote (some alert))
            let line := r.line rest
            match line.cursor.readSpaces 4 with
            | (0, _) => (r, .leaf line.cursor.skipSpaces)
            | (_, after) =>
              if r.interrupts line.continues after.rest then (r, .line rest)
              else (r, .leaf line.cursor.skipSpaces)

/-- Reads a leaf block at a cursor on a line that is not blank. -/
def leafBlock (r : BlockReader) (before : Option Char) (c : Cursor) : BlockReader × Text :=
  match c.countSpaces 4 with
  | (4, code) => r.indentedCode code.spare code.rest
  | (indent, start) =>
    let t := start.rest
    let html : Option (Option Text) := match t with
      | '<' :: rest =>
        match htmlBlockEnd? rest with
        | some stop => some (some stop)
        | none => if startsBlockElement rest || startsLoneTag rest then some none else none
      | _ => none
    match html with
    | some stop => r.htmlBlock stop (max c.spare indent) t
    | none =>
      match thematicBreak? t with
      | some rest => (r.add .rule, rest)
      | none =>
        match headingLevel? t with
        | some level => r.markedHeading level t
        | none =>
          match codeFence? t with
          | some (length, fence) => r.fencedCode indent fence length t
          | none =>
            match r.definition? t with
            | some (definition, rest) =>
              ({ r with definitions := definition :: r.definitions }, rest)
            | none => r.paragraph before t

/-- The last character in front of `rest`, which ends `whole`; `before` is the one in front of
both. -/
def charBefore (before : Option Char) (whole rest : Text) : Option Char :=
  match whole.length - rest.length with
  | 0 => before
  | n + 1 => whole[n]?

/-- Reads one block, or a blank line. `before` is the character in front of the line. -/
def block (r : BlockReader) (before : Option Char) (t : Text) : BlockReader × Text :=
  let (n, cursor) := matchFrames r.frames.reverse { rest := t }
  match openContainers (t.length + 1) (r.closeTo n) cursor with
  | (r, .line rest) => (r, rest)
  | (r, .leaf c) =>
    match dropBlankLine? c.rest with
    | some rest => (r.blankLine, rest)
    | none => r.finishList.leafBlock (charBefore before t (c.countSpaces 4).2.rest) c

/-- Reads blocks until the end of the document. Every block takes a character, so a `fuel` of the
length of the text is enough. -/
def blocksFrom : (fuel : Nat) → (before : Option Char) → BlockReader → Text → BlockReader
  | 0, _, r, _ => r
  | _, _, r, [] => r
  | fuel + 1, before, r, t =>
    let (r, rest) := r.block before t
    blocksFrom fuel (charBefore before t rest) r rest

end BlockReader

/-- A document as blocks, with its link reference definitions. -/
structure Document where
  blocks : List Block
  /-- The definitions, first one first. -/
  definitions : List Definition
  deriving Repr

/-- The block structure of a text. -/
def Document.read (extended : Bool) (t : Text) : Document :=
  let r := (BlockReader.blocksFrom (t.length + 1) none { extended } t).closeTo 0
  ⟨r.blocks.reverse, r.definitions.reverse⟩

end DocPage.Markdown
