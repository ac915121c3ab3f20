import DocPage.Body.Region
import DocPage.Document.Stash
import DocPage.Render.Error

/-!
# Assembling a document

The state while a document is put together from fragments: the stash of finished components, and the
warnings so far. Fragments are rendered one after another, in source order, and the first failure is
the failure of the document.
-/

namespace DocPage.Document

/-- The state while a document is put together. -/
structure Assembly where
  stash : Stash := {}
  warnings : List Text := []
  deriving Repr, DecidableEq

/-- Work on a document. -/
abbrev Assemble := StateT Assembly (Except RenderError)

/-- Rendered nested content, and the headings in it. -/
structure Fragment where
  html : Text
  headings : List Outline.Heading := []
  deriving Repr, DecidableEq

/-- The way to render nested content, given the body region in which it starts. -/
abbrev Nested := (text : Text) → Body.Region → Assemble Fragment

/-- Stashes a component; the result is its placeholder. -/
def stash (component : Fragment) : Assemble Text := do
  let s ← get
  let (written, stash) := s.stash.put ⟨component.html, component.headings⟩
  set { s with stash }
  pure written

def warn (warnings : List Text) : Assemble Unit :=
  modify fun s => { s with warnings := s.warnings ++ warnings }

end DocPage.Document
