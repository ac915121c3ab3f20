import DocPage.Markdown.Emphasis
import DocPage.Markdown.HtmlTag
import DocPage.Markdown.Token

/-!
# Inline structure

The tokens of a text become its inline content. From left to right, math, code, markup and links
take the tokens that belong to them; what is left of each level is resolved into emphasis.

## Architecture

- **Source text**: a span that reaches over lines is read without the container markers in front of
  its lines
- **Math and code**: `mathSpan?`, `codeSpan?`
- **Markup**: `autolink?` and `inlineHtml?`, after a `<`
- **Links**: `inlineTarget?` reads a destination in parentheses, `labelAt?` a label
- **The pass**: `Pass.step` handles one token with what follows it; an opening bracket waits with
  the pieces in front of it until its closing bracket comes
-/

namespace DocPage.Markdown

/-! ## Text over several lines -/

namespace Source

/-- How many characters of container markers stand at an offset, which is not zero only where a line
starts. -/
def markerLength (s : Source) (offset : Nat) : Nat :=
  match s.lines.find? (·.start == offset) with
  | some line => line.content - line.start
  | none => 0

/-- The text at an offset without the container markers of its lines. The first `skip` characters
belong to a marker. -/
def withoutMarkersFrom (s : Source) : (skip offset : Nat) → Text → Text
  | _, _, [] => []
  | skip + 1, offset, _ :: t => s.withoutMarkersFrom skip (offset + 1) t
  | 0, offset, c :: t =>
    c :: s.withoutMarkersFrom (if isLineEnd c then s.markerLength (offset + 1) else 0)
      (offset + 1) t

/-- The text at an offset without the container markers of its lines. -/
def withoutMarkers (s : Source) (offset : Nat) (t : Text) : Text :=
  s.withoutMarkersFrom 0 offset t

/-- The offset behind the first `count` characters of `withoutMarkers`. -/
def offsetAfterFrom (s : Source) : (skip count offset : Nat) → Text → Nat
  | _, 0, offset, _ | _, _, offset, [] => offset
  | skip + 1, count, offset, _ :: t => s.offsetAfterFrom skip count (offset + 1) t
  | 0, count + 1, offset, c :: t =>
    s.offsetAfterFrom (if isLineEnd c then s.markerLength (offset + 1) else 0) count (offset + 1) t

/-- The characters between the end of one token and an offset, without the markers of lines. -/
def between (s : Source) (t : Token) (stop : Nat) : Text :=
  s.withoutMarkers t.stop (t.after.take (stop - t.stop))

end Source

/-- The text with each escaped pipe as a pipe. -/
def unescapePipes : Text → Text
  | '\\' :: '|' :: t => '|' :: unescapePipes t
  | c :: t => c :: unescapePipes t
  | [] => []

/-- The content of math or code as it stands in a source. -/
def Source.content (s : Source) (t : Token) (stop : Nat) : Text :=
  let content := s.between t stop
  if s.inTable then unescapePipes content else content

/-! ## Math and code -/

/-- The tokens that are left behind an offset. -/
def tokensAfter (offset : Nat) (tokens : List Token) : List Token :=
  match tokens.dropWhile (·.stop ≤ offset) with
  | t :: rest => t.trimTo offset :: rest
  | [] => []

/-- The first later dollar sign at the same level of braces, and the tokens after it. -/
def closingDollar? (braces : Nat) : List Token → Option (Token × List Token)
  | [] => none
  | t :: rest =>
    match t.kind with
    | .dollar _ _ level => if level = braces then some (t, rest) else closingDollar? braces rest
    | _ => closingDollar? braces rest

/-- Whether a dollar sign stands directly behind a token. -/
def doubled (t : Token) : List Token → Bool
  | next :: _ => next.isDollar && next.start == t.stop
  | [] => false

/-- The math that an opening dollar sign starts, and the tokens after it. Two dollar signs make
display math, which ends at two dollar signs. Only the next dollar sign at the level of braces can
end math. -/
def mathSpan? (s : Source) (opener : Token) (braces : Nat) (rest : List Token) :
    Option (Event × List Token) :=
  let (isDisplay, first, rest) := match rest with
    | second :: after => if second.isDollar then (true, second, after) else (false, opener, rest)
    | [] => (false, opener, rest)
  match closingDollar? braces rest with
  | none => none
  | some (closer, after) =>
    if isDisplay then
      if doubled closer after then
        some (.math (s.content first closer.start) true, after.tail)
      else none
    else
      match closer.kind with
      | .dollar _ true _ => some (.math (s.content first closer.start) false, after)
      | _ => none

/-- The first later run of `count` backticks, and the tokens after it. -/
def closingBackticks? (count : Nat) : List Token → Option (Token × List Token)
  | [] => none
  | t :: rest =>
    match t.kind with
    | .backticks n _ => if n = count then some (t, rest) else closingBackticks? count rest
    | _ => closingBackticks? count rest

/-- The text of a code span: each character that ends a line is a blank, and one blank at either end
is dropped unless there is nothing but blanks. -/
def codeText (content : Text) : Text :=
  let flat := content.map fun c => if isLineEnd c then ' ' else c
  if flat.head? == some ' ' && flat.getLast? == some ' ' && !flat.all (· == ' ') then
    flat.tail.dropLast
  else flat

/-- The code span that a run of backticks starts, and the tokens after it. -/
def codeSpan? (s : Source) (opener : Token) (count : Nat) (rest : List Token) :
    Option (Event × List Token) :=
  if count = 0 then none
  else
    (closingBackticks? count rest).map fun (closer, after) =>
      (.code (codeText (s.content opener closer.start)), after)

/-! ## Markup -/

def isSchemeChar (c : Char) : Bool :=
  c.isAlphanum || c == '.' || c == '-' || c == '+'

/-- The length of an absolute address that a `>` ends: a scheme of 2 to 32 characters, a colon, and
no blank, control character or `<`. -/
def addressLength? (t : Text) : Option Nat :=
  let scheme := t.takeWhile isSchemeChar
  match t.drop scheme.length with
  | ':' :: rest =>
    let path := rest.takeWhile fun c => ' ' < c && c != '<' && c != '>'
    if t.head?.any Char.isAlpha && 2 ≤ scheme.length && scheme.length ≤ 32 &&
        (rest.drop path.length).head? == some '>' then
      some (scheme.length + 1 + path.length)
    else none
  | _ => none

/-- The characters other than letters and digits in the local part of a mail address. -/
def mailSymbols : Text := ".!#$%&'*+/=?^_\x60\x7b|\x7d~-"

def isDomainLabel (label : Text) : Bool :=
  !label.isEmpty && label.length ≤ 63 && label.head? != some '-' && label.getLast? != some '-'

/-- The length of a mail address that a `>` ends. -/
def mailLength? (t : Text) : Option Nat :=
  let user := t.takeWhile fun c => c.isAlphanum || mailSymbols.elem c
  match t.drop user.length with
  | '@' :: rest =>
    let domain := rest.takeWhile fun c => c.isAlphanum || c == '-' || c == '.'
    if !user.isEmpty && (Text.splitAll '.' domain).all isDomainLabel &&
        (rest.drop domain.length).head? == some '>' then
      some (user.length + 1 + domain.length)
    else none
  | _ => none

/-- The address between `<` and `>`, and the offset after it. `t` is the text after the `<`. -/
def autolink? (start : Nat) (t : Text) : Option (Text × Nat) :=
  (addressLength? t <|> mailLength? t).map fun length => (t.take length, start + length + 1)

/-- The piece of HTML that starts with a `<`, and the offset after it. `t` is the text after the
`<`. -/
def inlineHtml? (s : Source) (start : Nat) (t : Text) : Option (Text × Nat) :=
  match t with
  | '!' :: _ | '?' :: _ =>
    (htmlMarkup? t).map fun rest =>
      let length := t.length - rest.length
      ('<' :: t.take length, start + length)
  | c :: _ =>
    if c.isAlpha || c == '/' then
      let text := s.withoutMarkers start t
      (htmlTag? true text).map fun rest =>
        let length := text.length - rest.length
        ('<' :: text.take length, s.offsetAfterFrom 0 length start t)
    else none
  | [] => none

/-! ## Links -/

/-- A place in the source: an offset and the text from there on. -/
structure Place where
  offset : Nat
  rest : Text

namespace Place

/-- The place `n` characters on. -/
def advance (n : Nat) (p : Place) : Place :=
  ⟨p.offset + n, p.rest.drop n⟩

def skipSpaces (p : Place) : Place :=
  p.advance (p.rest.takeWhile isSpace).length

/-- Skips blanks with at most one line end among them. -/
def skipSeparator (s : Source) (p : Place) : Place :=
  let p := p.skipSpaces
  match lineEnd? p.rest with
  | some (length, _) =>
    let p := p.advance length
    (p.advance (s.markerLength p.offset)).skipSpaces
  | none => p

end Place

/-- Where the text of the line after an offset starts: at the first token that reaches beyond it. -/
def lineTextStart? (offset : Nat) (tokens : List Token) : Option Place :=
  match tokens.find? (offset + 1 < ·.stop) with
  | some t => if offset < t.start then some ⟨t.start, t.rest⟩ else none
  | none => none

/-- Reads the rest of a link title up to its closing delimiter. `fuel` bounds its length, and
`tokens` tell where the text of each line starts. -/
def linkTitleRest? (inTable : Bool) (opening closing : Char) (tokens : List Token) :
    (fuel : Nat) → (title : Text) → Place → Option (Text × Place)
  | 0, _, _ => none
  | fuel + 1, title, p =>
    match p.rest with
    | [] => none
    | c :: t =>
      let go := linkTitleRest? inTable opening closing tokens fuel
      if c == closing then some (title.reverse, p.advance 1)
      else if c == opening then none
      else
        match if isLineEnd c then lineTextStart? p.offset tokens else none with
        | some next => go ('\n' :: title) next
        | none =>
          match reference? p.rest with
          | some (length, value) => go (value.reverse ++ title) (p.advance length)
          | none =>
            if inTable && isEscapedPipeEscape p.rest then go ('|' :: title) (p.advance 3)
            else if isEscape p.rest then
              go (t.head?.toList ++ title) (p.advance 2)
            else go (c :: title) (p.advance 1)

def linkTitle? (s : Source) (tokens : List Token) (p : Place) : Option (Text × Place) :=
  let read (opening closing : Char) :=
    linkTitleRest? s.inTable opening closing tokens (p.rest.length + 1) [] (p.advance 1)
  match p.rest with
  | '"' :: _ => read '"' '"'
  | '\'' :: _ => read '\'' '\''
  | '(' :: _ => read '(' ')'
  | _ => none

/-- Where a link leads. -/
structure Target where
  destination : Text
  title : Text

/-- Reads a destination, and maybe a title, in parentheses. The result also tells the offset after
them. -/
def inlineTarget? (s : Source) (tokens : List Token) (p : Place) : Option (Target × Nat) :=
  match p.rest with
  | '(' :: _ =>
    let atDestination := (p.advance 1).skipSeparator s
    match destination? maxParentheses atDestination.rest with
    | none => none
    | some (length, destination) =>
      let afterDestination := (atDestination.advance length).skipSeparator s
      let (title, finish) := match linkTitle? s tokens afterDestination with
        | some (title, p) => (title, p.skipSeparator s)
        | none => ([], afterDestination)
      match finish.rest with
      | ')' :: _ => some (⟨unescape s.inTable destination, title⟩, finish.offset + 1)
      | _ => none
  | _ => none

/-- Reads a label in brackets. The result is its form for comparison, and the offset after it. -/
def labelAt? (s : Source) (p : Place) : Option (Text × Nat) :=
  match p.rest with
  | '[' :: t =>
    let lineContent (next : Text) : Option (Nat × Text) :=
      let markers := s.markerLength (p.offset + (p.rest.length - next.length))
      some (markers, next.drop markers)
    (labelRest? lineContent s.inTable (maxLabel + 2) 0 false [] t).map fun (length, label) =>
      (foldLabel (Text.trimWhile (· == ' ') label), p.offset + 1 + length)
  | _ => none

/-! ## The pass -/

/-- What inline content is read with. -/
structure InlineScope where
  source : Source
  definitions : List Definition

def InlineScope.lookup? (scope : InlineScope) (label : Text) : Option Target :=
  (scope.definitions.find? (·.label == label)).map fun d => ⟨d.destination, d.title⟩

/-- An opening bracket that waits for its closing bracket. -/
structure Bracket where
  token : Token
  isImage : Bool
  /-- Whether a link may start here; a link has no link inside. -/
  enabled : Bool := true
  /-- The pieces in front of the bracket, back to the bracket before it, latest first. -/
  front : List Span

/-- The state of the pass over the tokens. -/
structure Pass where
  /-- The waiting brackets, latest first. -/
  brackets : List Bracket := []
  /-- The pieces after the last waiting bracket, latest first. -/
  spans : List Span := []

namespace Pass

def add (p : Pass) (span : Span) : Pass :=
  { p with spans := span :: p.spans }

def addText (p : Pass) (t : Text) : Pass :=
  p.add (.done [.text t])

def addEvent (p : Pass) (e : Event) : Pass :=
  p.add (.done [e])

/-- Starts to wait for a closing bracket. -/
def openBracket (p : Pass) (token : Token) (isImage : Bool) : Pass :=
  { brackets := { token, isImage, front := p.spans } :: p.brackets, spans := [] }

/-- Turns the last waiting bracket into text. -/
def dropBracket (p : Pass) : Pass :=
  match p.brackets with
  | b :: rest => ⟨rest, p.spans ++ .done [.text b.token.written] :: b.front⟩
  | [] => p

/-- Makes a link or an image of the pieces since the last waiting bracket. Around a link, no other
link can close any more. -/
def closeLink (p : Pass) (target : Target) : Pass :=
  match p.brackets with
  | b :: rest =>
    let inside := resolve p.spans.reverse
    if b.isImage then
      let events := .start (.image target.destination target.title) :: inside ++ [.stop .image]
      ⟨rest, .done events :: b.front⟩
    else
      let events := .start (.link target.destination target.title) :: inside ++ [.stop .link]
      let rest := rest.map fun b => if b.isImage then b else { b with enabled := false }
      ⟨rest, .done events :: b.front⟩
  | [] => p

/-- The reference that a closing bracket may end. -/
inductive ReferenceForm where
  /-- A label follows in brackets of its own, up to an offset. -/
  | full (label : Text) (stop : Nat)
  /-- Empty brackets follow. -/
  | collapsed
  /-- Nothing follows. -/
  | shortcut

/-- The form of the reference behind a closing bracket. -/
def referenceForm (scope : InlineScope) : List Token → ReferenceForm
  | [] => .shortcut
  | next :: _ =>
    if Text.startsWith "[]" next.rest then .collapsed
    else
      match labelAt? scope.source ⟨next.start, next.rest⟩ with
      | some (label, stop) => .full label stop
      | none => .shortcut

/-- The tokens with the bracket that ends at an offset made unable to end a reference. -/
def spendBracket (stop : Nat) : List Token → List Token
  | [] => []
  | t :: rest =>
    if t.stop < stop then t :: spendBracket stop rest
    else { t with kind := .closeBracket false } :: rest

/-- The label between a waiting bracket and a closing bracket. -/
def enclosedLabel? (scope : InlineScope) (b : Bracket) (closer : Token) : Option Text :=
  let t := b.token.after
  let start := b.token.stop
  let bracketed : Place := ⟨start - 1, '[' :: t.take (closer.stop - start)⟩
  match labelAt? scope.source bracketed with
  | some (label, stop) => if stop = closer.stop then some label else none
  | none => none

/-- Tries to end a link or an image at a closing bracket. -/
def closeBracket (scope : InlineScope) (p : Pass) (closer : Token) (referable : Bool)
    (rest : List Token) : Pass × List Token :=
  match p.brackets with
  | [] => (p.addText closer.written, rest)
  | b :: _ =>
    let fail (rest : List Token) := (p.dropBracket.addText closer.written, rest)
    if !b.enabled then fail rest
    else
      match inlineTarget? scope.source rest ⟨closer.stop, closer.after⟩ with
      | some (target, stop) => (p.closeLink target, tokensAfter stop rest)
      | none =>
        let enclosed := if referable then
            (enclosedLabel? scope b closer).bind scope.lookup?
          else none
        match referenceForm scope rest with
        | .full label stop =>
          match scope.lookup? label with
          | some target => (p.closeLink target, (rest.dropWhile (·.stop < stop)).tail)
          | none => fail (spendBracket stop rest)
        | .collapsed =>
          match enclosed with
          | some target => (p.closeLink target, rest.drop 2)
          | none => fail rest
        | .shortcut =>
          match enclosed with
          | some target => (p.closeLink target, rest)
          | none => fail rest

/-- Reads what a `<` starts. -/
def openAngle (scope : InlineScope) (p : Pass) (token : Token) (rest : List Token) :
    Pass × List Token :=
  match rest with
  | [] => (p.addText token.written, rest)
  | next :: _ =>
    match autolink? next.start next.rest with
    | some (address, stop) =>
      (p.add (.done [.start (.link address []), .text address, .stop .link]),
        tokensAfter stop rest)
    | none =>
      match inlineHtml? scope.source next.start next.rest with
      | some (html, stop) => (p.addEvent (.html html), tokensAfter stop rest)
      | none => (p.addText token.written, rest)

/-- Handles one token. The result also tells the tokens that are left. -/
def step (scope : InlineScope) (p : Pass) (token : Token) (rest : List Token) :
    Pass × List Token :=
  match token.kind with
  | .text => (p.addText token.written, rest)
  | .literal value => (p.addText value, rest)
  | .run symbol count opens closes => (p.add (.run ⟨symbol, count, opens, closes⟩), rest)
  | .softBreak => (p.addEvent .softBreak, rest)
  | .hardBreak backslash => (p.add (.lineBreak backslash), rest)
  | .dollar opens _ braces =>
    match if opens then mathSpan? scope.source token braces rest else none with
    | some (math, rest) => (p.addEvent math, rest)
    | none => (p.addText token.written, rest)
  | .backticks count escaped =>
    match codeSpan? scope.source token (if escaped then count - 1 else count) rest with
    | some (code, rest) => ((if escaped then p.addText ['\x60'] else p).addEvent code, rest)
    | none => (p.addText token.written, rest)
  | .less => p.openAngle scope token rest
  | .openLink => (p.openBracket token false, rest)
  | .openImage => (p.openBracket token true, rest)
  | .closeBracket referable => p.closeBracket scope token referable rest

/-- Handles all tokens. Every step takes a token, so their number is enough fuel. -/
def run (scope : InlineScope) : (fuel : Nat) → Pass → List Token → Pass
  | 0, p, _ => p
  | _, p, [] => p
  | fuel + 1, p, token :: rest =>
    let (p, rest) := p.step scope token rest
    run scope fuel p rest

end Pass

/-- The inline content of tokens. -/
def inlineEvents (scope : InlineScope) (tokens : List Token) : List Event :=
  let p := Pass.run scope tokens.length {} tokens
  resolve (Nat.repeat Pass.dropBracket p.brackets.length p).spans.reverse

end DocPage.Markdown
