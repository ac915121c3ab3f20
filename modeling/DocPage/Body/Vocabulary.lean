import DocPage.Text.Basic

/-!
# The vocabulary of the body

The names of tags that may stay markup inside the body region: the elements of HTML and the
components of the documentation build. A name is also known when its lower case form is.
-/

namespace DocPage.Body

/-- The names of tags that count as safe markup. -/
structure Vocabulary where
  names : List Text
  deriving Repr

namespace Vocabulary

def htmlElements : List Text :=
  List.map String.toList ["a", "abbr", "address", "article", "aside", "audio", "b", "blockquote",
    "br", "button", "caption", "center", "cite", "code", "col", "colgroup", "dd", "del", "details",
    "dfn", "div", "dl", "dt", "em", "figcaption", "figure", "footer", "h1", "h2", "h3", "h4", "h5",
    "h6", "header", "hr", "i", "iframe", "img", "input", "ins", "kbd", "label", "li", "main",
    "mark", "nav", "ol", "p", "picture", "pre", "q", "s", "samp", "section", "small", "source",
    "span", "strong", "sub", "summary", "sup", "table", "tbody", "td", "tfoot", "th", "thead", "tr",
    "u", "ul", "var", "video", "wbr", "svg", "path", "g"]

/-- The components that every documentation build has. -/
def commonComponents : List Text :=
  ["Tip", "Added", "Changed", "Deprecated"]

/-- The elements of HTML and the built-in components. -/
def standard : Vocabulary :=
  ⟨htmlElements ++ commonComponents⟩

/-- The set with more component names. -/
def extend (known : Vocabulary) (components : List Text) : Vocabulary :=
  ⟨known.names ++ components⟩

/-- Whether the name, or its lower case form, is in the set. -/
def contains (known : Vocabulary) (name : Text) : Bool :=
  known.names.elem name || known.names.elem (Text.toAsciiLower name)

end Vocabulary

end DocPage.Body
