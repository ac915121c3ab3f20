import DocPage.Admonition
import DocPage.Docstring.Fields
import DocPage.Docstring.Harvest
import DocPage.Document.Assembly

/-!
# Docstring tags

A docstring tag becomes one component. Its descriptions and types are rendered like any nested
content, but the headings in them stay out of the outline; its parameter lists are rendered and then
harvested.
-/

namespace DocPage.Document

open Docstring (field? hasFlag revealHidden groupCount guardBraces)

/-- What the fields of one docstring are rendered with. -/
structure DocstringScope where
  nested : Nested
  region : Body.Region
  anchor : Text

namespace DocstringScope

def render (scope : DocstringScope) (t : Text) : Assemble Text := do
  pure (Text.trim (← scope.nested t scope.region).html)

/-- Renders a field that may be absent. -/
def optional (scope : DocstringScope) (kind : Tag.Kind) (body : Text) : Assemble (Option Text) :=
  match field? kind body with
  | some t => some <$> scope.render t
  | none => pure none

/-- Renders a parameter list and harvests it. A list that cannot be harvested gives a warning. -/
def parameters (scope : DocstringScope) (t : Text) : Assemble (List Parameter) := do
  let html ← scope.render (guardBraces t)
  match harvest scope.anchor (Admonition.expandAll html) with
  | .parameters ps => pure ps
  | .noList =>
    warn [scope.anchor ++ ": parameter list has no <ul>".toList]
    pure []
  | .unreadable =>
    warn [scope.anchor ++ ": failed to parse parameter list: HTML parse error".toList]
    pure []

/-- Renders the parameter list in a field that may be absent. -/
def parametersOf (scope : DocstringScope) (kind : Tag.Kind) (body : Text) :
    Assemble (List Parameter) :=
  match field? kind body with
  | some t => scope.parameters t
  | none => pure []

def group (scope : DocstringScope) (body : Text) (n : Nat) : Assemble ParameterGroup := do
  let parameters ← scope.parametersOf (.paramGroupDesc n) body
  pure ⟨(field? (.paramGroupTitle n) body).getD [], parameters⟩

end DocstringScope

/-- Whether the docstring documents what is yielded. -/
def isYield (body : Text) : Bool :=
  (Tag.Pattern.plain .yieldDesc).isPresent body || (Tag.Pattern.plain .yieldType).isPresent body

/-- The fields that a docstring must have. -/
structure MandatoryFields where
  name : Text
  anchor : Text
  signature : Text
  deriving Repr, DecidableEq

/-- Reads the mandatory fields; the first one that is absent is reported. -/
def MandatoryFields.read (body : Text) : Except RenderError MandatoryFields := do
  let name := field? .name body
  let anchor := field? .anchor body
  let context := (anchor <|> name).getD "an unnamed object".toList
  let missing (kind : Tag.Kind) : RenderError := .missingField kind.tagName context
  let name ← (name.map Except.ok).getD (.error (missing .name))
  let anchor ← (anchor.map Except.ok).getD (.error (missing .anchor))
  let signature ← ((field? .parameters body).map Except.ok).getD (.error (missing .parameters))
  pure ⟨Text.replace "\\_" "_" name, anchor, signature⟩

/-- The docstring with the given body, which starts in the given region. -/
def readDocstring (nested : Nested) (region : Body.Region) (body : Text) : Assemble Docstring := do
  let body := revealHidden body
  let fields ← MonadExcept.ofExcept (MandatoryFields.read body)
  let scope : DocstringScope := ⟨nested, region, fields.anchor⟩
  let parameters ← scope.parametersOf .paramsDesc body
  let groups ← (List.range (groupCount body)).mapM fun i => scope.group body (i + 1)
  let isYield := isYield body
  let returnDescription ← scope.optional (if isYield then .yieldDesc else .retDesc) body
  let returnType ← scope.optional (if isYield then .yieldType else .retType) body
  let raiseDescription ← scope.optional .raises body
  let raiseType ← scope.optional .raisedErrors body
  pure {
    name := fields.name, anchor := fields.anchor, signature := fields.signature
    parameters, groups, returnType, returnDescription, isYield, raiseType, raiseDescription
    source := field? .source body
    isGetSetDescriptor := hasFlag .isGetSetDescriptor body }

/-- The component of a docstring tag. -/
def docstringFragment (nested : Nested) (region : Body.Region) (span : Tag.Span) :
    Assemble Fragment := do
  pure { html := (← readDocstring nested region span.body).render }

end DocPage.Document
