import DocPage.Text.Basic
import DocPage.Unicode.Punctuation

/-!
# Lines and blanks of Markdown

The grammar of Markdown looks at ASCII blanks only. A line ends with a line feed, a carriage return,
or both; the end of the text also ends a line.
-/

namespace DocPage.Markdown

/-- An ASCII blank that does not end a line. -/
def isSpace (c : Char) : Bool :=
  c == ' ' || c == '\t' || c == '\x0b' || c == '\x0c'

def isLineEnd (c : Char) : Bool :=
  c == '\n' || c == '\r'

/-- An ASCII blank. -/
def isSpaceOrLineEnd (c : Char) : Bool :=
  isSpace c || isLineEnd c

/-- The end of a line at the start of a text: its length and what follows. The end of the text is a
line end of length zero. -/
def lineEnd? : Text → Option (Nat × Text)
  | [] => some (0, [])
  | '\r' :: '\n' :: t => some (2, t)
  | '\r' :: t => some (1, t)
  | '\n' :: t => some (1, t)
  | _ => none

def atLineEnd (t : Text) : Bool :=
  (lineEnd? t).isSome

/-- The first line, without the characters that end it. -/
def lineBody (t : Text) : Text :=
  t.takeWhile (!isLineEnd ·)

/-- The first line with its end, and the lines after it. -/
def splitLine (t : Text) : Text × Text :=
  let body := lineBody t
  match lineEnd? (t.drop body.length) with
  | some (length, rest) => (t.take (body.length + length), rest)
  | none => (t, [])

/-- The lines after a blank line at the start of a text. -/
def dropBlankLine? (t : Text) : Option Text :=
  (lineEnd? (t.dropWhile isSpace)).map (·.2)

/-- The length of the run of `c` at the start of a text. -/
def runLength (c : Char) (t : Text) : Nat :=
  (t.takeWhile (· == c)).length

/-- A line ending with a lone line feed in place of a carriage return and a line feed. -/
def normalizeLineEnd (line : Text) : Text :=
  match line.reverse with
  | '\n' :: '\r' :: body => body.reverse ++ ['\n']
  | _ => line

end DocPage.Markdown
