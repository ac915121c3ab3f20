import DocPage.Tag.Pattern

/-!
# The fields of a docstring

The body of a docstring tag holds one tag for each field. The extractor hides two characters of the
body as doubly escaped references; they are put back before the fields are read.
-/

namespace DocPage.Docstring

/-- The body with its hidden opening braces and angle brackets put back. -/
def revealHidden (body : Text) : Text :=
  Text.replace "&amp;lt;" ['<'] (Text.replace "&amp;lcub;" ['\x7b'] body)

/-- The content of a field, without the blanks around it. -/
def field? (kind : Tag.Kind) (body : Text) : Option Text :=
  ((Tag.Pattern.plain kind).find? body).map fun (_, span) => Text.trim span.body

/-- Whether a field without content is set: its bare tag stands in the body. -/
def hasFlag (kind : Tag.Kind) (body : Text) : Bool :=
  Text.contains ('<' :: kind.tagName ++ ['>']) body

def groupCount (body : Text) : Nat :=
  ((field? .paramGroups body).bind Text.toWord?).getD 0

/-- The text with neighbouring closing braces kept apart, which would end an expression of a
component template. -/
def guardBraces (t : Text) : Text :=
  Text.replace "\x7d\x7d" "\x7d&zwnj;\x7d" t

end DocPage.Docstring
