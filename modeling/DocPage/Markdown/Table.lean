import DocPage.Markdown.Block
import DocPage.Markdown.Lexical
import DocPage.Unicode.Punctuation

/-!
# Tables

A table starts with a header row and a delimiter row of the same number of columns. Pipes separate
the cells of a row; a backslash takes that meaning from a pipe.
-/

namespace DocPage.Markdown

/-! ## The delimiter row -/

/-- The state of reading a delimiter row. -/
structure DelimiterRow where
  /-- The columns that are complete, latest first. -/
  columns : List Alignment := []
  /-- The alignment of the current column so far. -/
  active : Alignment := .none
  /-- Whether the current column is still empty. -/
  fresh : Bool := true
  pipe : Bool := false
  hyphen : Bool := false
  /-- Whether the current column has a hyphen. -/
  columnHyphen : Bool := false

/-- The effect of a colon on the alignment of a column. -/
def alignColon (fresh : Bool) : Alignment → Alignment
  | .none => if fresh then .left else .right
  | .left => if fresh then .left else .center
  | alignment => alignment

/-- Reads one character of a delimiter row. -/
def DelimiterRow.read? (row : DelimiterRow) (c : Char) : Option DelimiterRow :=
  if c == ' ' then some row
  else if c == ':' then
    some { row with active := alignColon row.fresh row.active, fresh := false }
  else if c == '-' then some { row with fresh := false, hyphen := true, columnHyphen := true }
  else if c == '|' then
    if row.columnHyphen then
      some { row with
        columns := row.active :: row.columns, active := .none, fresh := true, pipe := true,
        columnHyphen := false }
    else none
  else none

/-- The alignments of a delimiter row, and the text after its line. -/
def delimiterRow? (t : Text) : Option (List Alignment × Text) :=
  let body := lineBody t
  let indent := runLength ' ' body
  if 3 < indent || t.isEmpty then none
  else
    let (piped, cells) := match body.drop indent with
      | '|' :: cells => (true, cells)
      | cells => (false, cells)
    match cells.foldlM DelimiterRow.read? { pipe := piped } with
    | none => none
    | some row =>
      if row.pipe && row.hyphen then
        let columns := if row.fresh then row.columns else row.active :: row.columns
        some (columns.reverse, (splitLine t).2)
      else none

/-! ## Columns of a header row -/

/-- The number of pipes in a line that are not escaped, and what follows the last one. -/
def countPipes : (skip : Bool) → (pipes : Nat) → (afterLast : Text) → Text → Nat × Text
  | _, pipes, afterLast, [] => (pipes, afterLast)
  | true, pipes, afterLast, _ :: t => countPipes false pipes afterLast t
  | false, pipes, afterLast, c :: t =>
    if c == '|' then countPipes false (pipes + 1) t t
    else if c == '\\' && t.head?.any Unicode.isAsciiPunctuation then
      countPipes true pipes afterLast t
    else countPipes false pipes afterLast t

/-- Like `countPipes`, where any backslash escapes the pipe behind it. -/
def countBarePipes : (escaped : Bool) → (pipes : Nat) → (afterLast : Text) → Text → Nat × Text
  | _, pipes, afterLast, [] => (pipes, afterLast)
  | escaped, pipes, afterLast, c :: t =>
    if c == '|' && !escaped then countBarePipes false (pipes + 1) t t
    else countBarePipes (c == '\\') pipes afterLast t

/-- The number of columns of a header row with the given pipes: pipes at its ends separate
nothing. -/
def columnCount (body : Text) (pipes : Nat) (afterLast : Text) : Nat :=
  let inner := if (body.dropWhile isSpace).head? == some '|' then pipes - 1 else pipes
  if afterLast.all isSpace then inner else inner + 1

/-! ## Cells -/

/-- The length of a cell: the text up to a pipe that is not escaped, or up to the end of the
line. -/
def cellLength : (skip : Nat) → Text → Nat
  | _, [] => 0
  | skip + 1, _ :: t => cellLength skip t + 1
  | 0, c :: t =>
    if c == '|' || isLineEnd c then 0
    else if c == '\\' then
      match t with
      | '|' :: _ => cellLength 1 t + 1
      | '\\' :: '|' :: _ => cellLength 2 t + 1
      | d :: _ => cellLength (if Unicode.isAsciiPunctuation d then 1 else 0) t + 1
      | [] => 1
    else cellLength 0 t + 1

/-- The cells of a row that starts at `offset`, as pairs of start and end. `fuel` bounds their
number. -/
def cellsFrom : (fuel : Nat) → (offset : Nat) → Text → List (Nat × Nat)
  | 0, _, _ => []
  | fuel + 1, offset, t =>
    let (offset, t) := match t with
      | '|' :: rest => (offset + 1, rest)
      | _ => (offset, t)
    let blanks := (t.takeWhile isSpace).length
    let cell := t.drop blanks
    if atLineEnd cell then []
    else
      let length := cellLength 0 cell
      (offset + blanks, offset + blanks + length) ::
        cellsFrom fuel (offset + blanks + length) (cell.drop length)

/-- The row of a line, cut or filled up with empty cells to the given number of columns. -/
def Row.ofLine (before : Option Char) (columns : Nat) (line : Text) : Row :=
  let cells := cellsFrom (line.length + 1) 0 line
  let stop := line.length
  { source := { text := line, before, inTable := true },
    cells := cells.take columns ++ List.replicate (columns - cells.length) (stop, stop) }

end DocPage.Markdown
