import DocPage.Html.CodePoint
import DocPage.Text.Scan

/-!
# Element trees

A fragment of HTML as a tree of texts and elements. Texts and opening tags are kept as written, so
that `html` gives the markup back; `textOf` resolves the character references.
-/

namespace DocPage.Dom

/-- A node of a fragment. -/
inductive Node where
  /-- Text as written, with its references. -/
  | text (raw : Text)
  /-- An element: its name, its opening tag as written between the angle brackets, whether that tag
  closes itself, and what stands inside. -/
  | element (name start : Text) (selfClosing : Bool) (children : List Node)
  deriving Repr, Inhabited

namespace Node

def isText : Node → Bool
  | text _ => true
  | element .. => false

/-- Whether the node is an element with the given name, up to case. -/
def isNamed (name : Text) : Node → Bool
  | text _ => false
  | element n .. => Text.eqIgnoreAsciiCase n name

def children : Node → List Node
  | text _ => []
  | element _ _ _ children => children

/-! ## Markup and text -/

mutual

def html : Node → Text
  | text raw => raw
  | element name start selfClosing children =>
    if selfClosing then '<' :: start ++ " />"
    else '<' :: start ++ '>' :: htmlOf children ++ "</" ++ name ++ ">"

def htmlOf : List Node → Text
  | [] => []
  | n :: rest => n.html ++ htmlOf rest

end

mutual

/-- The text in a node, as written. -/
def rawText : Node → Text
  | text raw => raw
  | element _ _ _ children => rawTextOf children

/-- The text in nodes, as written. -/
def rawTextOf : List Node → Text
  | [] => []
  | n :: rest => n.rawText ++ rawTextOf rest

end

/-! ## Search -/

mutual

/-- The elements with the given name in a node, in document order. The node itself counts. -/
def named (name : Text) : Node → List Node
  | text _ => []
  | element n start selfClosing children =>
    (if Text.eqIgnoreAsciiCase n name then [element n start selfClosing children] else []) ++
      namedIn name children

/-- The elements with the given name in nodes, in document order. -/
def namedIn (name : Text) : List Node → List Node
  | [] => []
  | n :: rest => n.named name ++ namedIn name rest

end

end Node

/-! ## Character references -/

/-- The named references that are resolved. -/
def referenceNames : List (Text × Char) :=
  [("amp", '&'), ("lt", '<'), ("gt", '>'), ("quot", '"'), ("apos", '\''), ("nbsp", '\u00a0'),
    ("lcub", '\x7b'), ("rcub", '\x7d'), ("zwnj", '\u200c')]

/-- The character that the text between `&` and `;` stands for. -/
def referenceValue? (body : Text) : Option Char :=
  match body with
  | '#' :: 'x' :: digits | '#' :: 'X' :: digits =>
    if !digits.isEmpty && digits.all Html.isHexDigit then Html.charOfCode? (Html.hexValue digits)
    else none
  | '#' :: digits =>
    if !digits.isEmpty && digits.all Char.isDigit then
      Html.charOfCode? (Text.digitsValue digits)
    else none
  | _ => referenceNames.lookup body

def isReferenceChar (c : Char) : Bool :=
  c.isAlphanum || c == '#'

/-- A character reference at the start of a text: its length and what it stands for. -/
def referenceMatcher : Matcher Char := fun t => do
  let rest ← Text.dropPrefix? ['&'] t
  let body := rest.takeWhile isReferenceChar
  let _ ← Text.dropPrefix? [';'] (rest.drop body.length)
  let c ← referenceValue? body
  some (body.length + 2, c)

/-- The text with its character references resolved; unknown ones stay as written. -/
def decode (raw : Text) : Text :=
  Text.mapMatches referenceMatcher (fun _ c => [c]) raw

def textOf (nodes : List Node) : Text :=
  decode (Node.rawTextOf nodes)

end DocPage.Dom
