import DocPage.Markdown.Lexical

/-!
# HTML inside Markdown

What counts as a tag, where HTML blocks start and how they end, and the pieces of HTML that may
stand inside a line.

The readers take the text after the opening `<` and give the text after what they read.
-/

namespace DocPage.Markdown

/-! ## Tags -/

/-- Skips blanks. Line ends count as blanks when a tag may span lines, and are errors otherwise. -/
def tagBlanks? (multiline : Bool) : Text → Option Text
  | [] => some []
  | c :: t =>
    if isSpace c then tagBlanks? multiline t
    else if isLineEnd c then if multiline then tagBlanks? multiline t else none
    else some (c :: t)

def isAttributeNameChar (c : Char) : Bool :=
  c.isAlphanum || c == '_' || c == '.' || c == ':' || c == '-'

def isBareValueChar (c : Char) : Bool :=
  !(isLineEnd c || c == '\'' || c == '"' || c == ' ' || c == '=' || c == '>' || c == '<' ||
    c == '\x60')

def attributeValue? (multiline : Bool) : Text → Option Text
  | [] => none
  | c :: t =>
    if c == '"' || c == '\'' then
      let body := t.takeWhile (· != c)
      if !multiline && body.any isLineEnd then none
      else
        match t.drop body.length with
        | _ :: rest => some rest
        | [] => none
    else if isBareValueChar c then some (t.dropWhile isBareValueChar)
    else none

/-- Reads an attribute: a name, and a value after an equals sign. -/
def attribute? (multiline : Bool) : Text → Option Text
  | [] => none
  | c :: t =>
    if c.isAlpha || c == '_' || c == ':' then
      let afterName := t.dropWhile isAttributeNameChar
      match tagBlanks? multiline afterName with
      | none => none
      | some ('=' :: rest) => (tagBlanks? multiline rest).bind (attributeValue? multiline)
      | some _ => some afterName
    else none

/-- Reads the attributes of an opening tag up to its `>` or `/`. Blanks separate attributes; `fuel`
bounds their number. -/
def attributes? (multiline : Bool) : (fuel : Nat) → Text → Option Text
  | 0, _ => none
  | fuel + 1, t =>
    match tagBlanks? multiline t with
    | none | some [] => none
    | some (c :: rest) =>
      if c == '/' || c == '>' then some (c :: rest)
      else if (c :: rest).length = t.length then none
      else (attribute? multiline (c :: rest)).bind (attributes? multiline fuel)

def isHtmlNameChar (c : Char) : Bool :=
  c.isAlphanum || c == '-'

/-- Reads an opening or closing tag. -/
def htmlTag? (multiline : Bool) (t : Text) : Option Text :=
  match t with
  | '/' :: c :: t =>
    if c.isAlpha then
      match (t.dropWhile isHtmlNameChar).dropWhile isSpace with
      | '>' :: rest => some rest
      | _ => none
    else none
  | c :: t =>
    if c.isAlpha then
      match attributes? multiline (t.length + 1) (t.dropWhile isHtmlNameChar) with
      | some ('/' :: '>' :: rest) | some ('>' :: rest) => some rest
      | _ => none
    else none
  | [] => none

/-! ## Other markup inside a line -/

/-- The text after the first occurrence of `needle`. -/
def after? (needle t : Text) : Option Text :=
  (Text.splitOnce? needle t).map (·.2)

/-- Reads the content of a CDATA section, in which the first run of closing brackets is its end. -/
def cdataRest? (t : Text) : Option Text :=
  let closing := t.dropWhile (· != ']')
  match closing.dropWhile (· == ']') with
  | '>' :: rest => if closing.isEmpty then none else some rest
  | _ => none

/-- Reads a comment, a processing instruction, a declaration or a CDATA section. -/
def htmlMarkup? : Text → Option Text
  | '!' :: '-' :: '-' :: t => after? "-->" ('-' :: '-' :: t)
  | '!' :: '[' :: 'C' :: 'D' :: 'A' :: 'T' :: 'A' :: '[' :: t => cdataRest? t
  | '!' :: c :: t => if c.isAlpha then after? ">" t else none
  | '?' :: t => after? "?>" t
  | _ => none

/-! ## Blocks -/

/-- The tags whose blocks end at their closing tag, and those closing tags. -/
def rawTextTags : List (Text × Text) :=
  [("pre", "</pre>"), ("style", "</style>"), ("script", "</script>"),
    ("textarea", "</textarea>")]

/-- The markup that starts a block, and the text that ends it. -/
def markupBlocks : List (Text × Text) :=
  [("!--", "-->"), ("?", "?>"), ("![CDATA[", "]]>")]

/-- The text that ends an HTML block, for the blocks that end at a given text. -/
def htmlBlockEnd? (t : Text) : Option Text :=
  let rawText := rawTextTags.findSome? fun (tag, closing) =>
    if Text.eqIgnoreAsciiCase (t.take tag.length) tag then
      match t.drop tag.length with
      | [] => some closing
      | c :: _ => if isSpaceOrLineEnd c || c == '>' then some closing else none
    else none
  let markup := markupBlocks.findSome? fun (opening, closing) =>
    if Text.startsWith opening t then some closing else none
  let declaration : Option Text := match t with
    | '!' :: c :: _ => if c.isAlpha then some ">" else none
    | _ => none
  rawText <|> markup <|> declaration

/-- The elements that start a block wherever their tags start a line. -/
def blockElements : List Text :=
  List.map String.toList ["address", "article", "aside", "base", "basefont", "blockquote", "body",
    "caption", "center", "col", "colgroup", "dd", "details", "dialog", "dir", "div", "dl", "dt",
    "fieldset", "figcaption", "figure", "footer", "form", "frame", "frameset", "h1", "h2", "h3",
    "h4", "h5", "h6", "head", "header", "hr", "html", "iframe", "legend", "li", "link", "main",
    "menu", "menuitem", "nav", "noframes", "ol", "optgroup", "option", "p", "param", "search",
    "section", "summary", "table", "tbody", "td", "tfoot", "th", "thead", "title", "tr", "track",
    "ul"]

/-- Whether the tag of a block element follows. -/
def startsBlockElement (t : Text) : Bool :=
  let body := (Text.dropPrefix? "/" t).getD t
  let name := body.takeWhile Char.isAlphanum
  blockElements.elem (Text.toAsciiLower name) &&
    match body.drop name.length with
    | [] | ' ' :: _ | '\t' :: _ | '\r' :: _ | '\n' :: _ | '>' :: _ | '/' :: '>' :: _ => true
    | _ => false

/-- Whether a complete tag follows that stands alone on its line. -/
def startsLoneTag (t : Text) : Bool :=
  match htmlTag? false t with
  | some rest => (dropBlankLine? rest).isSome
  | none => false

end DocPage.Markdown
