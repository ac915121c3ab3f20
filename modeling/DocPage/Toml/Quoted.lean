import DocPage.Html.CodePoint
import DocPage.Text.Scan

/-!
# Quoted texts

Strings stand in double quotes, with escapes, or in single quotes, without any. Three quotes of a
kind delimit a string of several lines, which drops a line break at its start and may end in two
quotes of its own.

## Architecture

- **Spans**: `line?` and `lines?` find the end of a string
- **Escapes**: `unescape?` reads what stands between double quotes
- **Strings**: `quoted?`, and `key?` for those that may be keys
-/

namespace DocPage.Toml

/-- Whether a character may stand in a comment or a line of a string: all but control characters
other than the tabulator. -/
def isLineChar (c : Char) : Bool :=
  c == '\t' || (' ' ≤ c && c != '\x7f')

/-! ## Spans -/

/-- Takes a string of one line after its quote, and the quote that ends it. Double quotes can be
escaped. -/
def line? (quote : Char) : Reader Text
  | [] => none
  | '\\' :: c :: t =>
    if quote == '"' then
      if isLineChar c then (line? quote t).map fun (s, rest) => ('\\' :: c :: s, rest) else none
    else if c = quote then some (['\\'], t)
    else (line? quote (c :: t)).map fun (s, rest) => ('\\' :: s, rest)
  | c :: t =>
    if c = quote then some ([], t)
    else if isLineChar c then (line? quote t).map fun (s, rest) => (c :: s, rest)
    else none

/-- Takes a string of several lines after its quotes, and the quotes that end it. -/
def lines? (quote : Char) : Reader Text
  | [] => none
  | '\\' :: c :: t =>
    if quote == '"' then (lines? quote t).map fun (s, rest) => ('\\' :: c :: s, rest)
    else (lines? quote (c :: t)).map fun (s, rest) => ('\\' :: s, rest)
  | c :: t =>
    match if c = quote then Text.dropPrefix? [quote, quote] t else none with
    | some rest =>
      let own := (rest.takeWhile (· == quote)).take 2
      some (own, rest.drop own.length)
    | none =>
      if isLineChar c || c == '\n' then (lines? quote t).map fun (s, rest) => (c :: s, rest)
      else none

/-! ## Escapes -/

/-- The character that a letter after a backslash stands for. -/
def letterEscape? : Char → Option Char
  | 'b' => some '\x08'
  | 't' => some '\t'
  | 'n' => some '\n'
  | 'f' => some '\x0c'
  | 'r' => some '\r'
  | 'e' => some '\x1b'
  | '"' => some '"'
  | '\\' => some '\\'
  | _ => none

/-- How many hexadecimal digits follow a letter after a backslash. -/
def hexLength? : Char → Option Nat
  | 'x' => some 2
  | 'u' => some 4
  | 'U' => some 8
  | _ => none

/-- Whether a character is a blank inside a line. -/
def isLineBlank (c : Char) : Bool :=
  c == ' ' || c == '\t'

/-- An escape at the start of a text, with what it stands for. A backslash at the end of a line
stands for nothing, and takes the blanks and line breaks after it along. -/
def escape : Matcher Text
  | '\\' :: t =>
    if (t.dropWhile isLineBlank).head? == some '\n' then
      some (1 + (t.takeWhile fun c => isLineBlank c || c == '\n').length, [])
    else
      match t with
      | [] => none
      | letter :: t =>
        match hexLength? letter with
        | some n =>
          let digits := t.take n
          if digits.length = n && digits.all Html.isHexDigit then
            (Html.charOfCode? (Html.hexValue digits)).map fun c => (2 + n, [c])
          else none
        | none => (letterEscape? letter).map fun c => (2, [c])
  | _ => none

/-- What a part of a span stands for. A backslash that starts no escape is refused. -/
def unescapePiece? : Piece Text → Option Text
  | .plain c => if c == '\\' || !(isLineChar c || c == '\n') then none else some [c]
  | .hit _ value => some value

/-- The text that a span in double quotes stands for. -/
def unescape? (span : Text) : Option Text :=
  ((Text.pieces escape span).mapM unescapePiece?).map List.flatten

/-! ## Strings -/

/-- The text without a line break at its start. -/
def dropFirstBreak (t : Text) : Text :=
  (Text.dropPrefix? ['\n'] t).getD t

/-- Takes a string of one line. -/
def key? : Reader Text
  | '"' :: t => do
    let (span, rest) ← line? '"' t
    some (← unescape? span, rest)
  | '\'' :: t => line? '\'' t
  | _ => none

/-- Takes a string. -/
def quoted? : Reader Text
  | '"' :: '"' :: '"' :: t => do
    let (span, rest) ← lines? '"' (dropFirstBreak t)
    some (← unescape? span, rest)
  | '\'' :: '\'' :: '\'' :: t => lines? '\'' (dropFirstBreak t)
  | t => key? t

end DocPage.Toml
