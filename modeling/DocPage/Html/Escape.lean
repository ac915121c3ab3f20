import DocPage.Text.Basic

/-!
# Escaping text for HTML

`escape` makes a text safe inside elements and quoted attribute values. `escapeBraced` also hides
the opening brace, which would start an expression in a component template. `escapeLoose` hides only
what could start markup or an expression, and leaves references such as `&amp;` alone.
-/

namespace DocPage.Html

def braceReference : Text := "&lcub;"

/-- How one character is written inside HTML. -/
def escapeChar : Char → Text
  | '&' => "&amp;"
  | '<' => "&lt;"
  | '>' => "&gt;"
  | '"' => "&quot;"
  | '\'' => "&#x27;"
  | c => [c]

/-- The text with the five special characters of HTML written as references. -/
def escape (t : Text) : Text :=
  t.flatMap escapeChar

/-- `escapeChar`, with the opening brace special too. -/
def escapeBracedChar (c : Char) : Text :=
  if c = '{' then braceReference else escapeChar c

/-- The escaped text, with opening braces written as references too. -/
def escapeBraced (t : Text) : Text :=
  t.flatMap escapeBracedChar

/-- How a character outside markup is written in a raw chunk of HTML. -/
def escapeLooseChar : Char → Text
  | '<' => "&lt;"
  | '{' => braceReference
  | c => [c]

/-- The text with only `<` and `{` written as references. -/
def escapeLoose (t : Text) : Text :=
  t.flatMap escapeLooseChar

end DocPage.Html
