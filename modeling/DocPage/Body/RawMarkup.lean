import DocPage.Body.Vocabulary
import DocPage.Html.Escape
import DocPage.Text.Scan

/-!
# Raw markup inside the body

A chunk of raw HTML keeps its markup inside the body when every tag in it is known; loose text
between the tags is escaped. A chunk with an unknown tag is escaped as a whole.
-/

namespace DocPage.Body

def isTagNameChar (c : Char) : Bool :=
  c.isAlphanum || c == ':' || c == '.' || c == '_' || c == '-'

/-- A comment at the start of a text, which ends at the first `-->`: its length. -/
def commentLength? (t : Text) : Option Nat := do
  let rest ← Text.dropPrefix? "<!--" t
  let (content, _) ← Text.splitOnce? "-->" rest
  some (4 + content.length + 3)

/-- What follows the name of a tag, up to the closing `>`: nothing, a slash, or a blank and any text
without angle brackets. The result is its length. -/
def tagEndLength? : Text → Option Nat
  | '>' :: _ => some 1
  | '/' :: '>' :: _ => some 2
  | c :: t =>
    if Unicode.isBlank c then
      let attributes := t.takeWhile fun d => d != '<' && d != '>'
      match t.drop attributes.length with
      | '>' :: _ => some (1 + attributes.length + 1)
      | _ => none
    else none
  | [] => none

/-- An opening or closing tag at the start of a text: its length and its name. -/
def tagMatcher : Matcher Text := fun t => do
  let rest ← Text.dropPrefix? ['<'] t
  let body := (Text.dropPrefix? ['/'] rest).getD rest
  let first ← body.head?
  if !first.isAlpha then none
  else
    let name := body.takeWhile isTagNameChar
    let finish ← tagEndLength? (body.drop name.length)
    some (t.length - body.length + name.length + finish, name)

/-- A piece of markup at the start of a text: a comment, or a tag with its name. -/
def markupMatcher : Matcher (Option Text) := fun t =>
  match commentLength? t with
  | some length => some (length, none)
  | none => (tagMatcher t).map fun (length, name) => (length, some name)

def allTagsKnown (known : Vocabulary) (chunk : Text) : Bool :=
  (Text.values markupMatcher chunk).all fun
    | some name => known.contains name
    | none => true

/-- The chunk of raw HTML as it stands inside the body. -/
def escapeChunk (known : Vocabulary) (chunk : Text) : Text :=
  if allTagsKnown known chunk then
    (Text.pieces markupMatcher chunk).flatMap fun
      | .plain c => Html.escapeLooseChar c
      | .hit span _ => span
  else Html.escapeLoose chunk

end DocPage.Body
