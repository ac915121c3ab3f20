import DocPage.Text.Scan

/-!
# Void elements

HTML writes the tags of elements without content like opening tags. Before a fragment is read as a
tree, these tags are closed: `<br>` becomes `<br />`.
-/

namespace DocPage.Dom

def voidNames : List Text :=
  List.map String.toList ["area", "base", "br", "col", "embed", "hr", "img", "input", "link",
    "meta", "source", "track", "wbr"]

/-- The attributes in the text between the name and the `>` of a void tag. A slash at its end, and
the blanks in front of that, do not belong to them. Text that does not start with a blank belongs to
a longer name. -/
def voidAttributes? : Text → Option Text
  | [] => some []
  | c :: t =>
    if Unicode.isBlank c then
      some (c :: Text.dropRightWhile Unicode.isBlank ((Text.dropSuffix? ['/'] t).getD t))
    else if c = '/' ∧ t = [] then some []
    else none

/-- Whether a character may stand inside a void tag. -/
def isInsideTag (c : Char) : Bool :=
  c != '<' && c != '>'

/-- A void tag at the start of a text: its length and its closed form. -/
def voidTagMatcher : Matcher Text := fun t => do
  let rest ← Text.dropPrefix? ['<'] t
  voidNames.findSome? fun name => do
    let afterName ← Text.dropPrefix? name rest
    let inside := afterName.takeWhile isInsideTag
    let _ ← Text.dropPrefix? ['>'] (afterName.drop inside.length)
    let attributes ← voidAttributes? inside
    some (1 + name.length + inside.length + 1, '<' :: name ++ attributes ++ " />".toList)

def closeVoidTags (html : Text) : Text :=
  Text.mapMatches voidTagMatcher (fun _ closed => closed) html

end DocPage.Dom
