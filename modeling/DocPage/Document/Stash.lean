import DocPage.Outline.Heading
import DocPage.Render.State
import DocPage.Text.Scan

/-!
# The stash of components

While a document is put together, finished components wait in a stash, and a placeholder comment
stands for each of them, so that neither the Markdown reader nor the escaping of the body sees their
markup. A stashed component keeps the headings inside it, which belong to the outline of the page at
the place of the placeholder.

## Architecture

- **Placeholders**: `placeholder` and `placeholderMatcher`
- **The stash**: `Stash.put`, and `Stash.restore` as its inverse
- **Headings**: `Stash.headings` merges the headings of a page with those behind its placeholders
-/

namespace DocPage.Document

/-! ## Placeholders -/

/-- The start of every placeholder. -/
def placeholderStart : Text := "<!--docmark-component-"

/-- The placeholder for the component at a position of the stash. -/
def placeholder (index : Nat) : Text :=
  placeholderStart ++ Text.ofNat index ++ "-->"

/-- A placeholder at the start of a text: its length and its position. -/
def placeholderMatcher : Matcher Nat := fun t => do
  let rest ← Text.dropPrefix? placeholderStart t
  let digits := rest.takeWhile Char.isDigit
  if digits.isEmpty then none
  else
    let after ← Text.dropPrefix? "-->" (rest.drop digits.length)
    some (t.length - after.length, Text.digitsValue digits)

/-! ## The stash -/

/-- A stashed component. -/
structure StashItem where
  markup : Text
  /-- The headings inside, in source order. -/
  headings : List Outline.Heading
  deriving Repr, DecidableEq

/-- The components stashed so far, in order. -/
structure Stash where
  components : List StashItem := []
  deriving Repr, DecidableEq

namespace Stash

/-- Stashes a component; the result is its placeholder. -/
def put (s : Stash) (component : StashItem) : Text × Stash :=
  (placeholder s.components.length, ⟨s.components.concat component⟩)

/-- The text with every placeholder of a stashed component replaced by its markup. -/
def restore (s : Stash) (t : Text) : Text :=
  Text.mapMatches placeholderMatcher (fun written index =>
    match s.components[index]? with
    | some component => component.markup
    | none => written) t

/-! ## Headings -/

/-- The headings behind the placeholders of a text that starts at the byte `offset`, each at the
offset of its placeholder. -/
def entriesOf (s : Stash) : (offset : Nat) → List (Piece Nat) → List Render.Entry
  | _, [] => []
  | offset, .plain c :: rest => s.entriesOf (offset + c.utf8Size) rest
  | offset, .hit written index :: rest =>
    let here := match s.components[index]? with
      | some component => component.headings.map fun h => ⟨offset, h⟩
      | none => []
    here ++ s.entriesOf (offset + Text.byteSize written) rest

/-- The headings of a page, its own and those behind its placeholders, in the order of their
offsets. -/
def headings (s : Stash) (html : Text) (own : List Render.Entry) : List Outline.Heading :=
  let entries := own ++ s.entriesOf 0 (Text.pieces placeholderMatcher html)
  -- The sort is stable, so the headings behind one placeholder stay in order.
  (entries.mergeSort fun a b => a.offset ≤ b.offset).map (·.heading)

end Stash

end DocPage.Document
