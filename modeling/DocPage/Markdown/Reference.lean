import DocPage.Html.CodePoint
import DocPage.Html.NamedReference
import DocPage.Markdown.Lexical
import DocPage.Unicode.CaseMap

/-!
# Escapes, character references and the parts of links

What a destination, a title, a label and an info string are made of. Inside a table a pipe is
escaped before anything else is read, so there two backslashes in front of a pipe stand for nothing.
-/

namespace DocPage.Markdown

/-! ## Character references -/

/-- The character with a given code point; zero stands for the replacement character. -/
def referencedChar? (n : Nat) : Option Char :=
  if n = 0 then some '\ufffd' else Html.charOfCode? n

/-- A numeric character reference after `&#`: its length and the character. It has at most seven
decimal or six hexadecimal digits. -/
def numericReference? (t : Text) : Option (Nat × Text) :=
  let (lead, digits, value) : Nat × Text × Nat :=
    match t with
    | 'x' :: rest | 'X' :: rest =>
      let digits := (rest.takeWhile Html.isHexDigit).take 6
      (1, digits, Html.hexValue digits)
    | _ =>
      let digits := (t.takeWhile Char.isDigit).take 7
      (0, digits, Text.digitsValue digits)
  match digits, t.drop (lead + digits.length) with
  | _ :: _, ';' :: _ => (referencedChar? value).map fun c => (lead + digits.length + 1, [c])
  | _, _ => none

/-- A character reference at the start of a text: its length and what it stands for. -/
def reference? : Text → Option (Nat × Text)
  | '&' :: '#' :: t => (numericReference? t).map fun (length, value) => (length + 2, value)
  | '&' :: t =>
    let name := t.takeWhile Char.isAlphanum
    match t.drop name.length with
    | ';' :: _ => (Html.namedReference? name).map fun value => (name.length + 2, value)
    | _ => none
  | _ => none

/-- Whether a text starts with a backslash escape. -/
def isEscape : Text → Bool
  | '\\' :: c :: _ => Unicode.isAsciiPunctuation c
  | _ => false

/-- Whether a text starts with two backslashes and a pipe. -/
def isEscapedPipeEscape : Text → Bool
  | '\\' :: '\\' :: '|' :: _ => true
  | _ => false

/-- `unescape` in the middle of its work: `skip` characters belong to a reference that was resolved,
and `kept` characters are escaped. -/
def unescapeFrom (inTable : Bool) : (skip kept : Nat) → Text → Text
  | _, _, [] => []
  | skip + 1, kept, _ :: t => unescapeFrom inTable skip kept t
  | 0, kept + 1, c :: t => c :: unescapeFrom inTable 0 kept t
  | 0, 0, c :: t =>
    if inTable && isEscapedPipeEscape (c :: t) then unescapeFrom inTable 1 1 t
    else if isEscape (c :: t) then unescapeFrom inTable 0 1 t
    else if c == '\r' then unescapeFrom inTable 0 0 t
    else
      match reference? (c :: t) with
      | some (length, value) => value ++ unescapeFrom inTable (length - 1) 0 t
      | none => c :: unescapeFrom inTable 0 0 t

/-- The text with backslash escapes and character references resolved. -/
def unescape (inTable : Bool) (t : Text) : Text :=
  unescapeFrom inTable 0 0 t

/-! ## Destinations -/

/-- How deep parentheses may nest in the destination of an inline link. -/
def maxParentheses : Nat := 5

/-- The length of the text up to the `>` that ends a destination in angle brackets. -/
def pointyLength? : (skip : Nat) → Text → Option Nat
  | _, [] => none
  | skip + 1, _ :: t => (pointyLength? skip t).map (· + 1)
  | 0, c :: t =>
    if isLineEnd c || c == '<' then none
    else if c == '>' then some 0
    else (pointyLength? (if isEscape (c :: t) then 1 else 0) t).map (· + 1)

/-- The length of a destination without angle brackets. It ends at a blank, at a control character,
or at a closing parenthesis that it did not open. -/
def plainLength? (maxNested : Nat) : (skip nest : Nat) → Text → Option Nat
  | _, nest, [] => if nest = 0 then some 0 else none
  | skip + 1, nest, _ :: t => (plainLength? maxNested skip nest t).map (· + 1)
  | 0, nest, c :: t =>
    if c.toNat ≤ 0x20 then if nest = 0 then some 0 else none
    else if c == '(' then
      if maxNested < nest then none else (plainLength? maxNested 0 (nest + 1) t).map (· + 1)
    else if c == ')' then
      match nest with
      | 0 => some 0
      | n + 1 => (plainLength? maxNested 0 n t).map (· + 1)
    else (plainLength? maxNested (if isEscape (c :: t) then 1 else 0) nest t).map (· + 1)

/-- A link destination at the start of a text: its length and the destination as written, without
angle brackets. -/
def destination? (maxNested : Nat) : Text → Option (Nat × Text)
  | '<' :: t => (pointyLength? 0 t).map fun length => (length + 2, t.take length)
  | t => (plainLength? maxNested 0 0 t).map fun length => (length, t.take length)

/-! ## Labels -/

/-- The longest label, in characters. -/
def maxLabel : Nat := 999

/-- The case folded form of a label, by which labels are compared. -/
def foldLabel (label : Text) : Text :=
  label.flatMap Unicode.fold

/-- Reads the blanks at the start of a text, with at most one line end among them. `nextLine?` gives
the content of a line after the end of the line before it. The result is how many characters were
read and what follows. -/
def labelBlanks? (nextLine? : Text → Option (Nat × Text)) (t : Text) : Option (Nat × Text) :=
  let before := t.takeWhile isSpace
  match lineEnd? (t.drop before.length) with
  | some (0, _) | none => some (before.length, t.drop before.length)
  | some (n, next) =>
    match nextLine? next with
    | none => none
    | some (m, content) =>
      let after := content.takeWhile isSpace
      let rest := content.drop after.length
      if rest.head?.any isLineEnd then none
      else some (before.length + n + m + after.length, rest)

/-- The rest of a link label after its opening bracket: its length with the closing bracket, and the
label with each run of blanks made one blank. A label holds a character that is neither blank nor
part of an escape. `fuel` bounds the parts that are read. -/
def labelRest? (nextLine? : Text → Option (Nat × Text)) (inTable : Bool) :
    (fuel : Nat) → (length : Nat) → (visible : Bool) → (label : Text) → Text → Option (Nat × Text)
  | 0, _, _, _, _ => none
  | fuel + 1, length, visible, label, t =>
    if maxLabel < length then none
    else
      match t with
      | [] | '[' :: _ => none
      | ']' :: _ => if visible then some (length + 1, label.reverse) else none
      | '\\' :: c :: rest =>
        if inTable && c == '|' then
          labelRest? nextLine? inTable fuel (length + 2) visible ('|' :: label) rest
        else labelRest? nextLine? inTable fuel (length + 2) visible (c :: '\\' :: label) rest
      | c :: rest =>
        if isSpaceOrLineEnd c then
          match labelBlanks? nextLine? (c :: rest) with
          | none => none
          | some (n, rest) =>
            labelRest? nextLine? inTable fuel (length + n) visible (' ' :: label) rest
        else labelRest? nextLine? inTable fuel (length + 1) true (c :: label) rest

end DocPage.Markdown
