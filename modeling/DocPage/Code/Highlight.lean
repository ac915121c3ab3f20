import DocPage.Html.Escape
import DocPage.Unicode.CaseMap

/-!
# Highlighting

A highlighter turns code in a language into HTML. `escaping` leaves the code as plain text.
`byGrammar` goes by the grammar that the language names, after aliases are resolved; code in a
language without a grammar stays plain text.
-/

namespace DocPage.Code

/-- Turns code in a language, which may be empty, into HTML. -/
abbrev Highlighter := (code language : Text) → Text

def escaping : Highlighter := fun code _ => Html.escape code

/-- The alias names of languages and the grammars they mean. -/
def grammarAliases : List (Text × Text) :=
  [("py", "python"), ("python3", "python"), ("pycon", "python"), ("js", "javascript"),
    ("ts", "typescript"), ("rs", "rust"), ("sh", "bash"), ("shell", "bash"), ("zsh", "bash"),
    ("console", "bash"), ("yml", "yaml"), ("md", "markdown"), ("c++", "cpp"), ("cc", "cpp"),
    ("cxx", "cpp"), ("", "text"), ("text", "text"), ("plain", "text"), ("plaintext", "text")]

/-- The grammar name that a language means: lower case, then aliases. -/
def canonicalLanguage (language : Text) : Text :=
  let lower := language.flatMap Unicode.toLower
  (grammarAliases.lookup lower).getD lower

def grammarNames : List Text :=
  List.map String.toList ["bash", "c", "cpp", "css", "html", "javascript", "json", "markdown",
    "python", "rust", "sql", "toml", "typescript", "yaml"]

def grammar? (language : Text) : Option Text :=
  let name := canonicalLanguage language
  if grammarNames.elem name then some name else none

/-- How a character of code is written where no grammar applies. -/
def escapeCodeChar : Char → Text
  | '\'' => "&#39;"
  | c => Html.escapeChar c

/-- The highlighter that goes by grammars: code that has one is wrapped in a span naming it, other
code is escaped. -/
def byGrammar : Highlighter := fun code language =>
  let escaped := code.flatMap escapeCodeChar
  match grammar? language with
  | some name => "<span class=\"language-" ++ name ++ "\">" ++ escaped ++ "</span>"
  | none => escaped

end DocPage.Code
