import DocPage.Code.Split
import DocPage.Document.Cleanup
import DocPage.Document.DocstringTag
import DocPage.Document.Include
import DocPage.Document.VariantTag
import DocPage.Markdown.Walk
import DocPage.Render.Step

/-!
# Converting documents

A document is converted in steps: includes are resolved, the source is cleaned, the tags of each
kind are replaced by placeholders of finished components, the rest is rendered as Markdown, and the
components are put in place of their placeholders.

The content of a tag goes through the same passes. Every nested text has a smaller `tagWeight` than
the text that it comes from, so the weight of a text is enough fuel for the passes over it; a text
of weight zero has no tags.

## Architecture

- **Settings**: what a conversion is given
- **Fragments**: `tagPasses` and `fragment`, over the way to render nested content
- **Documents**: `Page.convert`, for any monad with access to files
-/

namespace DocPage.Document

/-! ## Settings -/

/-- What a conversion is given. -/
structure Settings where
  vocabulary : Body.Vocabulary := .standard
  highlighter : Code.Highlighter := Code.byGrammar
  math : MathRenderer := delimitedMath
  /-- Where the page is published; links to images only change when it is. -/
  page : Option Publication := none
  /-- The directory from which the paths of includes are seen. -/
  baseDirectory : Text := []
  /-- Whether tables, strikethrough, tasks and alerts are read. -/
  extended : Bool := true

/-- What all fragments of a document are rendered with. -/
structure Scope where
  settings : Settings
  /-- Whether code blocks wrap long lines. -/
  wrapCode : Bool

/-- The comment by which a document asks for wrapped code blocks. -/
def wrapRequest : Text := "<!-- WRAP CODE BLOCKS -->"

/-! ## Fragments -/

/-- Replaces the matches of a pattern by placeholders of what a transform makes of them. `region` is
the region at the start of the text. -/
def tagPass (p : Tag.Pattern) (transform : Body.Region → Tag.Span → Assemble Fragment)
    (region : Body.Region) (t : Text) : Assemble Text :=
  Tag.substitute p (fun before span => do
    stash (← transform (region.advance before) span)) t

/-- Replaces the containers of a family. -/
def familyPass (nested : Nested) (family : Family) : Body.Region → Text → Assemble Text :=
  tagPass (.plain family.container) (familyFragment nested family)

/-- Replaces all tags, one kind after another. -/
def tagPasses (nested : Nested) (t : Text) (region : Body.Region) : Assemble Text := do
  let t ← tagPass (.plain .docstring) (docstringFragment nested) region t
  let t ← familyPass nested .frameworks region t
  let t ← tagPass (.identified .hfOptions) (optionsFragment nested) region t
  let t ← familyPass nested .snippets region t
  familyPass nested .tokenizers region t

/-- Renders Markdown without tags. -/
def renderText (scope : Scope) (t : Text) (region : Body.Region) : Except RenderError Render.Page :=
  let processor := Code.componentProcessor scope.settings.highlighter scope.wrapCode
  (Render.render ⟨scope.settings.vocabulary, scope.settings.math⟩
    { region, desks := [{ processor }] } (Markdown.eventsOf scope.settings.extended t)).1

/-- Renders text whose tags were replaced, as nested content. -/
def finishFragment (scope : Scope) (t : Text) (region : Body.Region) : Assemble Fragment := do
  let page ← MonadExcept.ofExcept (renderText scope t region)
  warn page.warnings
  let s ← get
  pure ⟨s.stash.restore page.html, s.stash.headings page.html page.headings⟩

/-- The number of angle brackets that a text opens, where hidden ones count too. It bounds how deep
tags nest. -/
def tagWeight (t : Text) : Nat :=
  t.count '<' + (Text.values (fun t =>
    if Text.startsWith "&amp;lt;" t then some ("&amp;lt;".length, ()) else none) t).length

/-- Renders nested content. `fuel` bounds how deep tags nest in it. -/
def fragmentWithin (scope : Scope) : (fuel : Nat) → Nested
  | 0, t, region => finishFragment scope t region
  | fuel + 1, t, region => do
    finishFragment scope (← tagPasses (fragmentWithin scope fuel) t region) region

/-- Renders nested content. -/
def fragment (scope : Scope) : Nested := fun t region =>
  fragmentWithin scope (tagWeight t) t region

/-! ## Documents -/

structure Page where
  /-- The markup, which starts with the metadata. -/
  html : Text
  metadata : Outline.Metadata
  warnings : List Text
  deriving Repr

/-- The script that exports the metadata of a page. -/
def metadataScript (metadata : Outline.Metadata) : Text :=
  "<script context=\"module\">export const metadata = ".toList ++ metadata.toJson.toAttr ++
    ";</script>".toList

/-- Puts a document together from its rendered text. -/
def Page.assemble (s : Assembly) (page : Render.Page) : Page :=
  let metadata := Outline.Metadata.ofForest
    (Outline.Heading.forest (s.stash.headings page.html page.headings))
  ⟨metadataScript metadata ++ '\n' :: s.stash.restore page.html, metadata,
    s.warnings ++ page.warnings⟩

/-- Converts a source whose includes are resolved and which is clean. -/
def Page.ofSource (settings : Settings) (source : Text) : Except RenderError Page := do
  let scope : Scope := ⟨settings, Text.contains wrapRequest source⟩
  let nested := fragmentWithin scope (tagWeight source)
  let (t, s) ← (tagPasses nested source .before).run {}
  pure (Page.assemble s (← renderText scope t .before))

variable {m : Type → Type} [Monad m] [Files.Access m]

/-- Converts a document. -/
def Page.convert (settings : Settings) (source : Text) : ExceptT RenderError m Page := do
  let source ← resolveIncludes settings.baseDirectory source
  MonadExcept.ofExcept (Page.ofSource settings (clean settings.page source))

end DocPage.Document
