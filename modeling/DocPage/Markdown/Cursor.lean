import DocPage.Markdown.Event
import DocPage.Markdown.Lexical

/-!
# Reading the start of a line

A cursor reads the indentation and the container markers at the start of a line. A tab stands for
the blanks up to the next multiple of four; when only some of them are read, the rest stay spare.
-/

namespace DocPage.Markdown

/-- A position near the start of a line. -/
structure Cursor where
  /-- What follows, up to the end of the document. -/
  rest : Text
  /-- The characters read since the start of the line. -/
  column : Nat := 0
  /-- The column after the last tab. -/
  tabStart : Nat := 0
  /-- The blanks of the last tab that were not read. -/
  spare : Nat := 0
  deriving Repr

/-- A list marker: its character, the first number of an ordered list, and the indentation that the
content of the item has. -/
structure ListMarker where
  symbol : Char
  number : Nat
  indent : Nat
  deriving Repr

namespace Cursor

/-! ## Indentation -/

/-- Reads up to `n` blanks from the characters of the line. The result tells how many are
missing. -/
def readSpacesFrom : Text → (n column tabStart : Nat) → Nat × Cursor
  | t, 0, column, tabStart => (0, ⟨t, column, tabStart, 0⟩)
  | ' ' :: t, n + 1, column, tabStart => readSpacesFrom t n (column + 1) tabStart
  | '\t' :: t, n + 1, column, tabStart =>
    let width := 4 - (column - tabStart) % 4
    if width ≤ n + 1 then readSpacesFrom t (n + 1 - width) (column + 1) (column + 1)
    else (0, ⟨t, column + 1, column + 1, width - (n + 1)⟩)
  | t, n, column, tabStart => (n, ⟨t, column, tabStart, 0⟩)

/-- Reads up to `n` blanks, spare ones first. The result tells how many are missing. -/
def readSpaces (c : Cursor) (n : Nat) : Nat × Cursor :=
  if n ≤ c.spare then (0, { c with spare := c.spare - n })
  else readSpacesFrom c.rest (n - c.spare) c.column c.tabStart

/-- Reads up to `n` blanks; the result tells how many there were. -/
def countSpaces (c : Cursor) (n : Nat) : Nat × Cursor :=
  let (missing, c) := c.readSpaces n
  (n - missing, c)

def skipSpaces (c : Cursor) : Cursor :=
  let spaces := c.rest.takeWhile fun d => d == ' ' || d == '\t'
  { c with rest := c.rest.drop spaces.length, column := c.column + spaces.length, spare := 0 }

/-- Whether the line ends here. -/
def atEnd (c : Cursor) : Bool :=
  atLineEnd c.rest

def advance (c : Cursor) (n : Nat) : Cursor :=
  { c with rest := c.rest.drop n, column := c.column + n }

/-! ## Container markers -/

/-- Reads the marker of a blockquote and one blank after it. -/
def quoteMarker? (c : Cursor) : Option Cursor :=
  match c.rest with
  | '>' :: _ => some ((c.advance 1).readSpaces 1).2
  | _ => none

def alertTags : List (Text × AlertKind) :=
  [("[!note]", .note), ("[!tip]", .tip), ("[!important]", .important),
    ("[!warning]", .warning), ("[!caution]", .caution)]

/-- Reads the tag of an alert, which stands alone on its line. The result is at the start of the
next line. -/
def alertTag? (c : Cursor) : Option (AlertKind × Text) :=
  alertTags.findSome? fun (tag, kind) =>
    if Text.eqIgnoreAsciiCase (c.rest.take tag.length) tag then
      (dropBlankLine? (c.rest.drop tag.length)).map fun rest => (kind, rest)
    else none

end Cursor

/-- Whether a text starts with a thematic break: three or more of one of `*`, `-`, `_`, with blanks
between them. The result is the text after its line. -/
def thematicBreak? (t : Text) : Option Text :=
  match t with
  | c :: _ =>
    if c == '*' || c == '-' || c == '_' then
      let body := lineBody t
      if body.all (fun d => d == c || d == ' ' || d == '\t') && 3 ≤ body.count c then
        some (splitLine t).2
      else none
    else none
  | [] => none

namespace Cursor

/-- Completes a list marker that was just read: the content of the item is indented by the blanks
after the marker, unless the line is blank or the content is indented code. -/
def finishMarker (c : Cursor) (symbol : Char) (number indent : Nat) : ListMarker × Cursor :=
  if (dropBlankLine? c.rest).isSome then (⟨symbol, number, indent⟩, c)
  else
    match c.countSpaces 4 with
    | (4, _) => (⟨symbol, number, indent⟩, c)
    | (n, after) => (⟨symbol, number, indent + n⟩, after)

/-- Reads the blank after a list marker. A line may also end there. -/
def blankAfterMarker? (c : Cursor) : Option Cursor :=
  match c.readSpaces 1 with
  | (0, after) => some after
  | (_, after) => if after.atEnd then some after else none

/-- Reads a list marker that is itself indented by `outer` blanks. A thematic break is no marker. -/
def listMarker? (c : Cursor) (outer : Nat) : Option (ListMarker × Cursor) :=
  match c.rest with
  | symbol :: _ =>
    if symbol == '-' || symbol == '+' || symbol == '*' then
      if (thematicBreak? c.rest).isSome then none
      else
        (c.advance 1).blankAfterMarker?.map fun after => after.finishMarker symbol 0 (outer + 2)
    else
      let digits := c.rest.takeWhile Char.isDigit
      match c.rest.drop digits.length with
      | delimiter :: _ =>
        if digits.isEmpty || 9 < digits.length || !(delimiter == '.' || delimiter == ')') then none
        else
          (c.advance (digits.length + 1)).blankAfterMarker?.map fun after =>
            after.finishMarker delimiter (Text.digitsValue digits) (outer + digits.length + 2)
      | [] => none
  | [] => none

/-- Reads the checkbox of a task, which is followed by a blank. -/
def taskMarker? (c : Cursor) : Option (Bool × Cursor) :=
  let start := (c.readSpaces 3).2
  match start.rest with
  | '[' :: mark :: ']' :: after :: _ =>
    if !isSpace after then none
    else if isSpace mark then some (false, start.advance 3)
    else if mark == 'x' || mark == 'X' then some (true, start.advance 3)
    else none
  | _ => none

end Cursor

end DocPage.Markdown
