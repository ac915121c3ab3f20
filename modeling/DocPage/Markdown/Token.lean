import DocPage.Markdown.Block
import DocPage.Markdown.Reference

/-!
# Tokens of inline text

A text with inline structure is first cut into tokens, which say what a piece of it may become:
emphasis, code, math, a link, markup. Whether it does depends on the tokens after it.

## Architecture

- **Flanking**: `opensRun` and `closesRun` tell where a run of `*`, `_` or `~` can start and end
  emphasis
- **Braces**: `Braces` gives every dollar sign the level of braces in which it stands
- **Scanning**: `scan` cuts one line, `Source.tokens` all lines of a text, `Row.cellTokens` a cell
-/

namespace DocPage.Markdown

/-! ## Tokens -/

/-- What a token may become. -/
inductive TokenKind where
  | text
  /-- A character reference, with what it stands for. -/
  | literal (value : Text)
  /-- A run of `count` delimiters of emphasis. -/
  | run (symbol : Char) (count : Nat) (opens closes : Bool)
  /-- A dollar sign at a level of braces. -/
  | dollar (opens closes : Bool) (braces : Nat)
  /-- A run of backticks; a backslash in front takes the first one out of an opening run. -/
  | backticks (count : Nat) (escaped : Bool)
  | less
  | openLink
  | openImage
  /-- A closing bracket, and whether the text in front of it may still be a reference. -/
  | closeBracket (referable : Bool)
  | softBreak
  /-- A line break that is shown; a backslash or blanks make it. -/
  | hardBreak (backslash : Bool)
  deriving Repr, DecidableEq

/-- A token and where it stands in its source. -/
structure Token where
  kind : TokenKind
  start : Nat
  stop : Nat
  /-- The source from `start` on. -/
  rest : Text
  deriving Repr

namespace Token

def written (t : Token) : Text :=
  t.rest.take (t.stop - t.start)

/-- The source from the end of the token on. -/
def after (t : Token) : Text :=
  t.rest.drop (t.stop - t.start)

/-- The part of a token from an offset on. -/
def trimTo (offset : Nat) (t : Token) : Token :=
  if t.start < offset then { t with start := offset, rest := t.rest.drop (offset - t.start) } else t

def isDollar (t : Token) : Bool :=
  match t.kind with
  | .dollar .. => true
  | _ => false

end Token

/-! ## Flanking -/

/-- The characters around a run of delimiters. -/
structure Surroundings where
  /-- The two characters in front, nearest first. -/
  before : Option Char × Option Char
  after : Option Char
  inTable : Bool

namespace Surroundings

/-- Whether the run follows the pipe in front of its cell. -/
def afterPipe (s : Surroundings) : Bool :=
  s.inTable && s.before.1 == some '|' && s.before.2 != some '\\'

/-- Whether the run is followed by the pipe after its cell. -/
def beforePipe (s : Surroundings) : Bool :=
  s.inTable && s.after == some '|'

end Surroundings

def isBlankOrPunctuation (c : Char) : Bool :=
  Unicode.isBlank c || Unicode.isPunctuation c

/-- Whether a run of delimiters can stand inside a word. -/
def joinsWords (symbol : Char) (count : Nat) : Bool :=
  symbol == '*' || (symbol == '~' && 1 < count)

/-- Whether a run of delimiters can start emphasis: text follows, and in front of it is no text that
it would tear apart. -/
def opensRun (symbol : Char) (count : Nat) (s : Surroundings) : Bool :=
  match s.after, s.before.1 with
  | none, _ => false
  | some next, before =>
    if Unicode.isBlank next then false
    else
      match before with
      | none => true
      | some prev =>
        if s.afterPipe then true
        else if s.beforePipe then false
        else
          (joinsWords symbol count && !Unicode.isPunctuation next) ||
            (symbol == '~' && prev == '~' && !Unicode.isPunctuation next) ||
            isBlankOrPunctuation prev

/-- Whether a run of delimiters can end emphasis: text is in front, and after it is no text that it
would tear apart. -/
def closesRun (symbol : Char) (count : Nat) (s : Surroundings) : Bool :=
  match s.before.1 with
  | none => false
  | some prev =>
    if Unicode.isBlank prev then false
    else
      match s.after with
      | none => true
      | some next =>
        if s.afterPipe then false
        else if s.beforePipe then true
        else
          (joinsWords symbol count && !Unicode.isPunctuation prev) ||
            (symbol == '~' && prev == '~') || isBlankOrPunctuation next

/-! ## Braces -/

/-- The levels of braces around a position, counted from the first dollar sign of a text on. Levels
are numbered as they open; the outermost one counts down with each closing brace that has no
partner. -/
structure Braces where
  /-- The open levels, innermost first. -/
  levels : List Nat := []
  /-- The number of the next level. -/
  next : Nat := 0

namespace Braces

/-- How many levels are told apart; deeper ones are only counted. -/
def maxLevels : Nat := 25

def outermost : Nat := 255

def «open» (b : Braces) : Braces :=
  if b.levels.length = maxLevels then ⟨b.next % 256 :: b.levels, maxLevels⟩
  else if maxLevels < b.levels.length then { b with next := b.next + 1 }
  else if b.levels.isEmpty then b
  else ⟨b.next % 256 :: b.levels, b.next + 1⟩

/-- The effect of a closing brace. -/
def close (b : Braces) : Braces :=
  match b.levels with
  | [level] => { b with levels := [(level + 255) % 256] }
  | levels =>
    if maxLevels < levels.length && maxLevels < b.next then { b with next := b.next - 1 }
    else { b with levels := levels.tail }

/-- The level of a dollar sign. -/
def dollar (b : Braces) : Nat × Braces :=
  if maxLevels < b.levels.length then (b.next % 256, b)
  else
    match b.levels with
    | level :: _ => (level, b)
    | [] => (outermost, { b with levels := [outermost] })

end Braces

/-! ## Scanning a line -/

/-- What the scanner is told about a line. -/
structure LineScope where
  /-- Whether `~` is a delimiter. -/
  extended : Bool
  inTable : Bool
  /-- Where the line starts. -/
  start : Nat

/-- A position in a line: its offset, the two characters in front, nearest first, and the text from
there on. -/
structure Position where
  offset : Nat
  before : Option Char × Option Char
  rest : Text

def Position.next (p : Position) : Position :=
  match p.rest with
  | c :: t => ⟨p.offset + 1, (some c, p.before.1), t⟩
  | [] => p

/-- A token that starts at a position. -/
def Position.token (p : Position) (kind : TokenKind) (length : Nat) : Token :=
  ⟨kind, p.offset, p.offset + length, p.rest⟩

/-- What the scanner finds at a position. -/
inductive Found where
  /-- An ordinary character. -/
  | plain
  /-- Characters that belong to the text around them. -/
  | joined (length : Nat)
  /-- A brace, with the levels after it. -/
  | brace (braces : Braces)
  /-- A backslash escape: so many characters are dropped, and one stands for itself. -/
  | escape (dropped : Nat)
  /-- Characters that are dropped, and a token after them. -/
  | token (dropped : Nat) (kind : TokenKind) (length : Nat) (braces : Braces)

def findEscape (scope : LineScope) (braces : Braces) (t : Text) : Found :=
  match t with
  | c :: rest =>
    if !Unicode.isAsciiPunctuation c then .plain
    else if c == '\x60' then
      let count := runLength '\x60' t
      .token 1 (.backticks count true) count braces
    else if scope.inTable && c == '\\' && rest.head? == some '|' then .escape 2
    else .escape 1
  | [] => .plain

def findRun (scope : LineScope) (braces : Braces) (p : Position) (symbol : Char) : Found :=
  let count := runLength symbol p.rest
  let around : Surroundings := ⟨p.before, (p.rest.drop count).head?, scope.inTable⟩
  let opens := opensRun symbol count around
  let closes := closesRun symbol count around
  if (opens || closes) && (symbol != '~' || count ≤ 2) then
    .token 0 (.run symbol count opens closes) count braces
  else .joined count

def findDollar (scope : LineScope) (braces : Braces) (p : Position) : Found :=
  let (level, braces) := braces.dollar
  let opens := p.rest.tail.head?.any (!isSpaceOrLineEnd ·)
  let closes := scope.start < p.offset && p.before.1.any (!isSpaceOrLineEnd ·)
  .token 0 (.dollar opens closes level) 1 braces

/-- What stands at a position. -/
def find (scope : LineScope) (braces : Braces) (p : Position) : Found :=
  match p.rest with
  | [] => .plain
  | c :: t =>
    match c with
    | '\\' => findEscape scope braces t
    | '*' | '_' => findRun scope braces p c
    | '~' => if scope.extended then findRun scope braces p c else .plain
    | '$' => findDollar scope braces p
    | '{' => .brace braces.open
    | '}' => .brace braces.close
    | '\x60' =>
      let count := runLength '\x60' p.rest
      .token 0 (.backticks count false) count braces
    | '<' => if t.head? == some '\\' then .plain else .token 0 .less 1 braces
    | '!' => if t.head? == some '[' then .token 0 .openImage 2 braces else .plain
    | '[' => .token 0 .openLink 1 braces
    | ']' => .token 0 (.closeBracket true) 1 braces
    | '&' =>
      match reference? p.rest with
      | some (length, value) => .token 0 (.literal value) length braces
      | none => .plain
    | _ => .plain

/-- The text between two offsets as a token, unless it is empty. -/
def textToken (start stop : Nat) (rest : Text) : List Token :=
  if start < stop then [⟨.text, start, stop, rest⟩] else []

/-- Cuts the next `fuel` characters into tokens. The first `skip` of them belong to what was found
last; `text` is where the pending text starts. -/
def scan (scope : LineScope) :
    (fuel skip : Nat) → Braces → (text : Position) → Position → List Token × Braces
  | 0, _, braces, text, p => (textToken text.offset p.offset text.rest, braces)
  | fuel + 1, skip + 1, braces, text, p =>
    scan scope fuel skip braces text p.next
  | fuel + 1, 0, braces, text, p =>
    match find scope braces p with
    | .plain => scan scope fuel 0 braces text p.next
    | .joined length => scan scope fuel (length - 1) braces text p.next
    | .brace braces => scan scope fuel 0 braces text p.next
    | .escape dropped =>
      let after := Nat.repeat Position.next dropped p
      let (tokens, braces) := scan scope fuel dropped braces after p.next
      (textToken text.offset p.offset text.rest ++ tokens, braces)
    | .token dropped kind length braces =>
      let start := Nat.repeat Position.next dropped p
      let after := Nat.repeat Position.next length start
      let (tokens, braces) := scan scope fuel (dropped + length - 1) braces after p.next
      (textToken text.offset p.offset text.rest ++ start.token kind length :: tokens, braces)

/-! ## Lines of a text -/

/-- The number of characters in front of the blanks at the end of a line. -/
def trimmedLength (line : Text) : Nat :=
  (Text.dropRightWhile isSpace line).length

/-- How a line that is not the last one ends: the number of characters in front of its break, and
the break. -/
def breakOf (body : Text) : Nat × TokenKind :=
  let trimmed := trimmedLength body
  if (body.reverse.takeWhile (· == '\\')).length % 2 = 1 then (body.length - 1, .hardBreak true)
  else if trimmed + 2 ≤ body.length then (trimmed, .hardBreak false)
  else (body.length, .softBreak)

/-- The tokens of the lines of a text from a position on, which is the start of a line's text.
`lines` are the marks of the later lines. -/
def tokensFrom (extended : Bool) (braces : Braces) (p : Position) : List LineMark → List Token
  | [] =>
    (scan ⟨extended, false, p.offset⟩ (trimmedLength (lineBody p.rest)) 0 braces p p).1
  | line :: lines =>
    let body := lineBody p.rest
    let (breakStart, breakKind) := breakOf body
    let (tokens, braces) :=
      scan ⟨extended, false, p.offset⟩ (min breakStart (trimmedLength body)) 0 braces p p
    let breakToken : Token :=
      ⟨breakKind, p.offset + breakStart, line.start, p.rest.drop breakStart⟩
    let ahead := line.first - p.offset
    let next : Position :=
      ⟨line.first, (p.rest[ahead - 1]?, none), p.rest.drop ahead⟩
    tokens ++ breakToken :: tokensFrom extended braces next lines

/-- The tokens of a paragraph. -/
def Source.tokens (extended : Bool) (s : Source) : List Token :=
  tokensFrom extended {} ⟨0, (s.before, none), s.text⟩ s.lines

/-- The tokens of a heading whose text ends at the offset `stop`. -/
def Source.headingTokens (extended : Bool) (stop : Nat) (s : Source) : List Token :=
  match (s.tokens extended).reverse with
  | [] => []
  | last :: front => ({ last with stop } :: front).reverse

/-- The tokens of the cell between two offsets of a row. -/
def Row.cellTokens (extended : Bool) (row : Row) (start stop : Nat) : List Token :=
  let p := Nat.repeat Position.next start ⟨0, (row.source.before, none), row.source.text⟩
  (scan ⟨extended, true, start⟩ (trimmedLength (p.rest.take (stop - start))) 0 {} p p).1

end DocPage.Markdown
