import DocPage.Component
import DocPage.Document.Assembly
import DocPage.Tag.Pattern

/-!
# Variants

A container tag holds the same content in several variants: for frameworks, for languages, or for
options that the source names. It becomes a component with a slot for each variant that is there.
The headings in the variants belong to the outline, in source order.
-/

namespace DocPage.Document

/-! ## Families -/

/-- A container with a fixed set of variants, in the order in which they are shown. -/
structure Family where
  container : Tag.Kind
  component : Text
  /-- The tag of each variant, and its name in the component. -/
  variants : List (Tag.Kind × Text)
  deriving Repr

namespace Family

def frameworks : Family where
  container := .frameworkContent
  component := "FrameworkContent"
  variants := [(.pt, "pytorch"), (.tf, "tensorflow"), (.jax, "jax")]

def snippets : Family where
  container := .inferenceSnippet
  component := "InferenceSnippet"
  variants := [(.python, "python"), (.js, "js"), (.curl, "curl")]

def tokenizers : Family where
  container := .tokenizersLangContent
  component := "TokenizersLanguageContent"
  variants := [(.python, "python"), (.rust, "rust"), (.node, "node")]

end Family

/-! ## Rendering variants -/

/-- A variant that is there. -/
structure Variant where
  name : Text
  /-- The number of bytes in front of it in its container. -/
  offset : Nat
  content : Fragment
  deriving Repr, DecidableEq

/-- Renders a match in a container that starts in the given region. -/
def renderVariant (nested : Nested) (region : Body.Region) (name : Text) (found : Text × Tag.Span) :
    Assemble Variant := do
  let content ← nested found.2.body (region.advance found.1)
  pure ⟨name, Text.byteSize found.1, content⟩

/-- Renders the first match of each variant of a family, in the order of the family. -/
def renderFamily (nested : Nested) (region : Body.Region) (body : Text) (family : Family) :
    Assemble (List (Text × Option Variant)) :=
  family.variants.mapM fun (kind, name) =>
    match (Tag.Pattern.plain kind).find? body with
    | some found => do pure (name, some (← renderVariant nested region name found))
    | none => pure (name, none)

def slots (variants : List Variant) : Text :=
  variants.flatMap fun v => slot v.name v.content.html

/-- The component of a container of a family. -/
def familyFragment (nested : Nested) (family : Family) (region : Body.Region)
    (span : Tag.Span) : Assemble Fragment := do
  let rendered ← renderFamily nested region span.body family
  let flags := rendered.foldl (fun (c : Component) (name, variant) =>
    c.expr name (if variant.isSome then "true" else "false")) (Component.mk family.component [])
  let present := rendered.filterMap (·.2)
  let inSource := present.mergeSort fun a b => a.offset ≤ b.offset
  pure ⟨flags.wrap (slots present), inSource.flatMap (·.content.headings)⟩

/-! ## Options -/

/-- The matches without those whose id was there before. -/
def firstOfEachId (matched : List (Text × Tag.Span)) : List (Text × Tag.Span) :=
  matched.foldl (fun kept found =>
    if kept.any (·.2.id == found.2.id) then kept else kept.concat found) []

/-- The component of a container of options. A repeated option keeps its first content. -/
def optionsFragment (nested : Nested) (region : Body.Region) (span : Tag.Span) :
    Assemble Fragment := do
  let options := firstOfEachId ((Tag.Pattern.identified .hfOption).spans span.body)
  let rendered ← options.mapM fun found =>
    renderVariant nested region (found.2.id.getD []) found
  let component := (Component.mk "HfOptions" []).attr "id" (span.id.getD [])
    |>.prop "options" (.array (rendered.map fun v => .string v.name))
  pure ⟨component.wrap (slots rendered), rendered.flatMap (·.content.headings)⟩

end DocPage.Document
