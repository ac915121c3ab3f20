import DocPage.Text.Basic

/-!
# Marks of a fragment

The markup of a fragment as a sequence of marks: opening and closing tags, tags that close
themselves, and the texts between them. The rules are those of XML, but closing tags may have any
name. Comments, processing instructions and document types are read over.

A mark that does not end, a stray ampersand, and a `<!` that starts nothing known are errors.
-/

namespace DocPage.Dom

/-- A mark of a fragment. -/
inductive Mark where
  | text (raw : Text)
  /-- An opening tag: what stands between its angle brackets. -/
  | start (content : Text)
  /-- A tag that closes itself: what stands between `<` and `/>`. -/
  | whole (content : Text)
  | stop
  /-- A comment, a processing instruction or a document type. -/
  | passed
  deriving Repr, DecidableEq

namespace Mark

/-! ## Tags -/

/-- The text up to the first `>` that is not quoted, and the text after it. -/
def tagContent? : (quote : Option Char) → Text → Option (Text × Text)
  | _, [] => none
  | some q, c :: t =>
    (tagContent? (if c = q then none else some q) t).map fun (content, rest) => (c :: content, rest)
  | none, c :: t =>
    if c = '>' then some ([], t)
    else
      (tagContent? (if c = '"' ∨ c = '\'' then some c else none) t).map
        fun (content, rest) => (c :: content, rest)

/-- Reads an opening tag after its `<`. -/
def opening? (t : Text) : Option (Mark × Text) :=
  (tagContent? none t).map fun (content, rest) =>
    match Text.dropSuffix? ['/'] content with
    | some content => (whole content, rest)
    | none => (start content, rest)

/-! ## Text that is no markup -/

def cdata? (t : Text) : Option (Mark × Text) :=
  (Text.splitOnce? "]]>" t).map fun (content, rest) => (text content, rest)

/-- Reads a reference, with its semicolon, after its `&`. -/
def reference? (t : Text) : Option (Mark × Text) :=
  let body := t.takeWhile fun c => c != ';' && c != '&' && c != '<'
  match t.drop body.length with
  | ';' :: rest => some (text ('&' :: body ++ [';']), rest)
  | _ => none

/-! ## Marks that are read over -/

/-- What ends a text, after which `passed` is the mark. -/
def passTo? (needle t : Text) : Option (Mark × Text) :=
  (Text.splitOnce? needle t).map fun (_, rest) => (passed, rest)

/-- Where a reader is in a document type. -/
inductive DoctypeState where
  | outside
  /-- In a quoted text outside the brackets. -/
  | quoted (quote : Char)
  | brackets
  /-- In a declaration in the brackets, and maybe in a quoted text there. -/
  | declaration (quote : Option Char)
  /-- In a comment or processing instruction in the brackets, up to its ending. -/
  | skipping (ending : Text)

/-- The state after a character. `t` is the text from that character on. -/
def DoctypeState.next (t : Text) (c : Char) : DoctypeState → DoctypeState
  | outside =>
    if c = '"' ∨ c = '\'' then quoted c else if c = '[' then brackets else outside
  | quoted q => if c = q then outside else quoted q
  | brackets =>
    if c = ']' then outside
    else if Text.startsWith "<!--" t then skipping "-->"
    else if Text.startsWith "<?" t then skipping "?>"
    else if c = '<' then declaration none
    else brackets
  | declaration none =>
    if c = '>' then brackets
    else declaration (if c = '"' ∨ c = '\'' then some c else none)
  | declaration (some q) => declaration (if c = q then none else some q)
  | skipping ending => if Text.startsWith ending t then declaration none else skipping ending

/-- Reads the rest of a document type. -/
def doctypeRest? (state : DoctypeState) : Text → Option Text
  | [] => none
  | c :: t =>
    match state, c with
    | .outside, '>' => some t
    | state, c => doctypeRest? (state.next (c :: t) c) t

/-- Reads a document type after `<!`. It has a name. -/
def doctype? (t : Text) : Option (Mark × Text) :=
  let keyword : Text := "DOCTYPE"
  if Text.eqIgnoreAsciiCase (t.take keyword.length) keyword then
    let rest := t.drop keyword.length
    if (rest.dropWhile Char.isWhitespace).head? == some '>' then none
    else (doctypeRest? .outside rest).map fun rest => (passed, rest)
  else none

def instruction? (t : Text) : Option (Mark × Text) :=
  match t with
  | '>' :: _ => none
  | _ => passTo? "?>" t

/-! ## Reading -/

/-- Reads the mark at the start of a text. -/
def read? : Text → Option (Mark × Text)
  | [] => none
  | '<' :: '!' :: '-' :: '-' :: t => passTo? "-->" t
  | '<' :: '!' :: '[' :: 'C' :: 'D' :: 'A' :: 'T' :: 'A' :: '[' :: t => cdata? t
  | '<' :: '!' :: t => doctype? t
  | '<' :: '?' :: t => instruction? t
  | '<' :: '/' :: t => (tagContent? none t).map fun (_, rest) => (stop, rest)
  | '<' :: t => opening? t
  | '&' :: t => reference? t
  | c :: t =>
    let raw := (c :: t).takeWhile fun c => c != '<' && c != '&'
    some (text raw, (c :: t).drop raw.length)

/-- Reads the marks of a text. Every mark takes a character, so a `fuel` of the length of the text
is enough. -/
def readAllFrom? : (fuel : Nat) → Text → Option (List Mark)
  | _, [] => some []
  | 0, _ => none
  | fuel + 1, t =>
    match read? t with
    | none => none
    | some (mark, rest) => (readAllFrom? fuel rest).map (mark :: ·)

def readAll? (t : Text) : Option (List Mark) :=
  readAllFrom? t.length t

end Mark

end DocPage.Dom
