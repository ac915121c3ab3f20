import DocPage.Html.Escape
import DocPage.Json.Basic

/-!
# Component invocations

A component is a name and its props, each of which is written as the builder adds it. The markup is
`<Name … />`, or `<Name …>` around slots and `</Name>`.
-/

namespace DocPage

/-- A component invocation under construction. -/
structure Component where
  name : Text
  /-- The props as written so far, each with a blank in front. -/
  props : Text := []

namespace Component

/-- Adds `key={expression}`, with the expression as given. -/
def expr (c : Component) (key expression : Text) : Component :=
  { c with props := c.props ++ ' ' :: key ++ "=\x7b" ++ expression ++ "\x7d" }

def prop (c : Component) (key : Text) (value : Json) : Component :=
  c.expr key value.toAttr

/-- Adds a prop when there is a value for it. -/
def prop? (c : Component) (key : Text) (value : Option Json) : Component :=
  match value with
  | some v => c.prop key v
  | none => c

/-- Adds `key="value"`. -/
def attr (c : Component) (key value : Text) : Component :=
  { c with props := c.props ++ ' ' :: key ++ "=\"" ++ Html.escape value ++ "\"" }

/-- Adds a boolean prop that is only written when it is set. -/
def flag (c : Component) (key : Text) (set : Bool) : Component :=
  if set then c.expr key "true" else c

/-- The invocation `<Name … />`. -/
def selfClosing (c : Component) : Text :=
  '<' :: c.name ++ c.props ++ " />"

/-- The invocation `<Name …>` around `children`. -/
def wrap (c : Component) (children : Text) : Text :=
  '<' :: c.name ++ c.props ++ ">\n" ++ children ++ "</" ++ c.name ++ ">"

end Component

/-- A named slot with its content. -/
def slot (name content : Text) : Text :=
  "<svelte:fragment slot=\"" ++ name ++ "\">\n" ++ Text.trimEnd content ++ "\n</svelte:fragment>\n"

end DocPage
