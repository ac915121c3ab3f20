import DocPage.Document.Convert
import DocPage.Files.Tree
import DocPage.Proofs.Document.Placeholder
import DocPage.Proofs.Outline.Forest
import DocPage.Proofs.Render.Headings
import DocPage.Proofs.StableSort

/-!
# The outline of a document

The headings of a document come from two places: from the page, where each has an offset, and from
the components behind the placeholders of the page. The metadata lists them by position, and the
headings of a component stay together.

## Architecture

- **Blocks**: headings that belong at one byte of the page; `BlockOf` says which ones there are
- **Order**: `outlineBlocks` has exactly these blocks, by position, and no two at one byte
- **Documents**: the metadata of a converted document is its blocks, one after another
-/

namespace DocPage.Document

open Outline (Heading)

/-! ## Blocks -/

/-- Headings that belong at one byte of a page. -/
structure Block where
  offset : Nat
  headings : List Heading

/-- The headings of a block, each with the offset of the block. -/
def Block.entries (b : Block) : List Render.Entry :=
  b.headings.map fun h => ⟨b.offset, h⟩

/-- The blocks of a page whose placeholders are not yet restored: each heading of the page is one,
and each placeholder of a stashed component is one with all headings of the component. -/
inductive BlockOf (s : Stash) (page : Render.Page) : Block → Prop where
  | own {e : Render.Entry} : e ∈ page.headings → BlockOf s page ⟨e.offset, [e.heading]⟩
  | stashed {offset index : Nat} {component : StashItem} :
      PlaceholderAt page.html offset index → s.components[index]? = some component →
      BlockOf s page ⟨offset, component.headings⟩

def ownBlocks (own : List Render.Entry) : List Block :=
  own.map fun e => ⟨e.offset, [e.heading]⟩

/-- The blocks of placeholders, given by their offsets and indices. -/
def Stash.blocks (s : Stash) (found : List (Nat × Nat)) : List Block :=
  found.filterMap fun (offset, index) =>
    s.components[index]?.map fun component => ⟨offset, component.headings⟩

/-- The blocks of a page, those of its headings before those of its placeholders. -/
def unorderedBlocks (s : Stash) (page : Render.Page) : List Block :=
  ownBlocks page.headings ++ s.blocks (Text.hits 0 (Text.pieces placeholderMatcher page.html))

/-- The blocks of a page by position. -/
def outlineBlocks (s : Stash) (page : Render.Page) : List Block :=
  (unorderedBlocks s page).mergeSort fun a b => a.offset ≤ b.offset

theorem flatMap_entries_ownBlocks (own : List Render.Entry) :
    (ownBlocks own).flatMap Block.entries = own := by
  induction own with
  | nil => rfl
  | cons e own ih => exact congrArg (e :: ·) ih

theorem Stash.entriesOf_eq (s : Stash) (offset : Nat) (ps : List (Piece Nat)) :
    s.entriesOf offset ps = (s.blocks (Text.hits offset ps)).flatMap Block.entries := by
  -- The pieces are counted by their bytes, so the induction is for any offset to start from.
  induction ps generalizing offset with
  | nil => rfl
  | cons piece ps ih =>
    cases piece with
    | plain c => exact ih _
    | hit written index =>
      unfold Stash.entriesOf Text.hits Stash.blocks
      rw [ih]
      -- A placeholder without a component brings no block and no entry.
      cases hcomponent : s.components[index]? with
      | none => simp [hcomponent, Stash.blocks]
      | some component => simp [hcomponent, Stash.blocks, Block.entries]

theorem map_heading_entries (b : Block) : b.entries.map (·.heading) = b.headings := by
  rw [Block.entries, List.map_map]
  exact List.map_id' b.headings

/-- The entries that are sorted by offset are those of the blocks. -/
theorem flatMap_entries_unorderedBlocks (s : Stash) (page : Render.Page) :
    (unorderedBlocks s page).flatMap Block.entries =
      page.headings ++ s.entriesOf 0 (Text.pieces placeholderMatcher page.html) := by
  rw [unorderedBlocks, List.flatMap_append, flatMap_entries_ownBlocks, s.entriesOf_eq]

/-- The merged headings are the blocks, one after another. -/
theorem Stash.headings_eq (s : Stash) (page : Render.Page) :
    s.headings page.html page.headings = (outlineBlocks s page).flatMap Block.headings := by
  -- All entries of a block stand at its offset, which is what the sort looks at.
  have hoffset : ∀ b : Block, ∀ e ∈ b.entries, e.offset = b.offset := by
    intro b e he
    obtain ⟨h, -, rfl⟩ := List.mem_map.mp he
    rfl
  unfold Stash.headings outlineBlocks
  simp only
  -- The sort is stable, so it moves whole blocks.
  rw [← flatMap_entries_unorderedBlocks,
    mergeSort_flatMap Render.Entry.offset Block.offset Block.entries hoffset, List.map_flatMap]
  exact List.flatMap_congr fun b _ => map_heading_entries b

/-! ## Order -/

theorem mem_ownBlocks_iff {own : List Render.Entry} {b : Block} :
    b ∈ ownBlocks own ↔ ∃ e ∈ own, b = ⟨e.offset, [e.heading]⟩ := by
  unfold ownBlocks
  rw [List.mem_map]
  exact ⟨fun ⟨e, he, hb⟩ => ⟨e, he, hb.symm⟩, fun ⟨e, he, hb⟩ => ⟨e, he, hb.symm⟩⟩

theorem Stash.mem_blocks_iff {s : Stash} {found : List (Nat × Nat)} {b : Block} :
    b ∈ s.blocks found ↔ ∃ offset index component, (offset, index) ∈ found ∧
      s.components[index]? = some component ∧ b = ⟨offset, component.headings⟩ := by
  unfold Stash.blocks
  rw [List.mem_filterMap]
  constructor
  -- A placeholder makes a block only when the stash has its component.
  · rintro ⟨⟨offset, index⟩, hfound, hb⟩
    obtain ⟨component, hcomponent, rfl⟩ := Option.map_eq_some_iff.mp hb
    exact ⟨offset, index, component, hfound, hcomponent, rfl⟩
  · rintro ⟨offset, index, component, hfound, hcomponent, rfl⟩
    exact ⟨(offset, index), hfound, by simp [hcomponent]⟩

/-- The list has exactly the blocks of the page. -/
theorem mem_outlineBlocks_iff {s : Stash} {page : Render.Page} {b : Block} :
    b ∈ outlineBlocks s page ↔ BlockOf s page b := by
  unfold outlineBlocks unorderedBlocks
  rw [List.mem_mergeSort, List.mem_append, mem_ownBlocks_iff, Stash.mem_blocks_iff]
  constructor
  -- What was found by the scan are the placeholders that stand in the page.
  · rintro (⟨e, he, rfl⟩ | ⟨offset, index, component, hfound, hcomponent, rfl⟩)
    · exact .own he
    · exact .stashed ((mem_placeholders_iff).mp hfound) hcomponent
  · intro h
    cases h with
    | own he => exact .inl ⟨_, he, rfl⟩
    | stashed hat hcomponent =>
      exact .inr ⟨_, _, _, (mem_placeholders_iff).mpr hat, hcomponent, rfl⟩

/-- A heading and a placeholder do not start at the same byte. -/
theorem not_placeholderAt {html before after : Text} {h : Heading} {index : Nat}
    (hhtml : html = before ++ Render.headingMarkup h ++ after) :
    ¬ PlaceholderAt html (Text.byteSize before) index := by
  rintro ⟨front, written, behind, rfl, hwritten, hsize⟩
  obtain ⟨rest, hrest⟩ := Render.exists_headingMarkup_eq_cons h
  obtain ⟨tail, rfl, -⟩ := hwritten.exists_tail
  -- Behind the same number of bytes the same text follows, so the two would start alike.
  rw [List.append_assoc, List.append_assoc] at hhtml
  obtain ⟨-, hhere⟩ := Text.append_inj_of_byteSize hhtml hsize
  rw [hrest] at hhere
  -- The second characters differ.
  exact absurd (List.cons.inj (List.cons.inj hhere).2).1 (by decide)

theorem pairwise_ownBlocks {own : List Render.Entry}
    (h : own.Pairwise fun a b => a.offset < b.offset) :
    (ownBlocks own).Pairwise fun a b => a.offset < b.offset := by
  unfold ownBlocks
  rwa [List.pairwise_map]

theorem Stash.pairwise_blocks (s : Stash) {found : List (Nat × Nat)}
    (h : found.Pairwise fun a b => a.1 < b.1) :
    (s.blocks found).Pairwise fun a b => a.offset < b.offset := by
  unfold Stash.blocks
  rw [List.pairwise_filterMap]
  -- Leaving some of them out keeps the others in order.
  refine h.imp fun {a b} hlt c hc d hd => ?_
  obtain ⟨component, -, rfl⟩ := Option.map_eq_some_iff.mp hc
  obtain ⟨component', -, rfl⟩ := Option.map_eq_some_iff.mp hd
  exact hlt

/-- No two blocks belong at the same byte. -/
theorem pairwise_unorderedBlocks (s : Stash) {page : Render.Page}
    (hplaced : Render.Placed 0 page.html page.headings) :
    (unorderedBlocks s page).Pairwise fun a b => a.offset ≠ b.offset := by
  unfold unorderedBlocks
  rw [List.pairwise_append]
  -- Headings stand behind each other, placeholders do too, and the two never share a byte.
  refine ⟨?_, ?_, ?_⟩
  · exact (pairwise_ownBlocks hplaced.pairwise_offset).imp Nat.ne_of_lt
  · have hfound := Text.pairwise_hits placeholderMatcher_separate 0 page.html
    exact (s.pairwise_blocks hfound).imp Nat.ne_of_lt
  · intro a ha b hb
    obtain ⟨e, he, rfl⟩ := (mem_ownBlocks_iff).mp ha
    obtain ⟨offset, index, component, hfound, -, rfl⟩ := (Stash.mem_blocks_iff).mp hb
    obtain ⟨before, after, hhtml, hoffset⟩ := hplaced.exists_append_of_zero e he
    rintro rfl
    rw [← hoffset] at hfound
    exact not_placeholderAt hhtml ((mem_placeholders_iff).mp hfound)

/-- The blocks come by position. -/
theorem pairwise_outlineBlocks (s : Stash) {page : Render.Page}
    (hplaced : Render.Placed 0 page.html page.headings) :
    (outlineBlocks s page).Pairwise fun a b => a.offset < b.offset := by
  -- Sorting gives the order with equal offsets, and there are no equal ones.
  have hle := pairwise_mergeSort_key Block.offset (unorderedBlocks s page)
  have hperm := List.mergeSort_perm (unorderedBlocks s page) fun a b => a.offset ≤ b.offset
  have hne := hperm.symm.pairwise (pairwise_unorderedBlocks s hplaced) fun {a b} hab => hab.symm
  exact (hle.and hne).imp fun {a b} h => Nat.lt_of_le_of_ne h.1 h.2

/-! ## Documents -/

/-- What becomes of a clean source before its page is assembled: the tag passes leave the text `t`
and the assembly `s`, and `t` is rendered as a page whose placeholders are not yet restored. -/
structure Stages (settings : Settings) (source t : Text) (s : Assembly) (page : Render.Page) :
    Prop where
  replaced : (tagPasses (fragmentWithin ⟨settings, Text.contains wrapRequest source⟩
    (tagWeight source)) source .before).run {} = .ok (t, s)
  rendered : renderText ⟨settings, Text.contains wrapRequest source⟩ t .before = .ok page

section Documents

variable {settings : Settings}

/-- The parts of a computation that succeeds succeed. -/
theorem exists_ok_of_bind {α β : Type} {x : Except RenderError α} {f : α → Except RenderError β}
    {b : β} (h : x >>= f = .ok b) : ∃ a, x = .ok a ∧ f a = .ok b := by
  cases x with
  | error e => cases h
  | ok a => exact ⟨a, rfl, h⟩

theorem Page.exists_stages {source : Text} {page : Page}
    (h : Page.ofSource settings source = .ok page) :
    ∃ t s rendered, Stages settings source t s rendered ∧ page = Page.assemble s rendered := by
  unfold Page.ofSource at h
  obtain ⟨⟨t, s⟩, hreplaced, h⟩ := exists_ok_of_bind h
  obtain ⟨rendered, hrendered, h⟩ := exists_ok_of_bind h
  cases h
  exact ⟨t, s, rendered, ⟨hreplaced, hrendered⟩, rfl⟩

/-- A document that converts has its includes resolved. -/
theorem Page.exists_resolved {source : Text} {tree after : Files.Tree} {page : Page}
    (h : (Page.convert (m := StateM Files.Tree) settings source).run.run tree =
      (.ok page, after)) :
    ∃ resolved, (resolveIncludes (m := StateM Files.Tree) settings.baseDirectory source).run.run
        tree = (.ok resolved, after) ∧
      Page.ofSource settings (clean settings.page resolved) = .ok page := by
  unfold Page.convert at h
  -- The only work with files is the resolution of includes, which comes first.
  rw [ExceptT.run_bind, StateT.run_bind] at h
  cases hresult : (resolveIncludes (m := StateM Files.Tree) settings.baseDirectory
      source).run.run tree with
  | mk result next =>
    rw [hresult] at h
    cases result with
    | error e => cases h
    | ok resolved =>
      -- Includes are resolved; what is left does not look at the files.
      have hrest : (MonadExcept.ofExcept (Page.ofSource settings (clean settings.page resolved)) :
          ExceptT RenderError (StateM Files.Tree) Page).run.run next = (.ok page, after) := h
      cases hpage : Page.ofSource settings (clean settings.page resolved) with
      | error e =>
        rw [hpage] at hrest
        cases hrest
      | ok converted =>
        rw [hpage] at hrest
        cases hrest
        exact ⟨resolved, rfl, hpage⟩

/-- The headings of rendered text stand where they are noted. -/
theorem placed_of_renderText {scope : Scope} {t : Text} {region : Body.Region}
    {page : Render.Page} (h : renderText scope t region = .ok page) :
    Render.Placed 0 page.html page.headings :=
  (Render.placed_of_render .done h).1

theorem flatten_assemble (s : Assembly) (page : Render.Page) :
    (Page.assemble s page).metadata.flatten =
      (outlineBlocks s.stash page).flatMap Block.headings := by
  -- The forest of the headings has them in pre-order, so flattening gives the list back.
  show (Outline.Metadata.ofForest (Heading.forest
    (s.stash.headings page.html page.headings))).flatten = _
  rw [Outline.Metadata.flatten_ofForest, Outline.preorder_forest, Stash.headings_eq]

/-- **The metadata of a document lists its headings in page order.**

The headings of the page stand in its markup at their offsets. Flattened, the metadata is made of
these headings and of one block for each placeholder of a stashed component, which holds the
headings of the component. The blocks come by position, and there are no others. -/
theorem Page.flatten_metadata (settings : Settings) (source : Text) (tree after : Files.Tree)
    (page : Page)
    (h : (Page.convert (m := StateM Files.Tree) settings source).run.run tree =
      (.ok page, after)) :
    ∃ resolved t s rendered,
      (resolveIncludes (m := StateM Files.Tree) settings.baseDirectory source).run.run tree =
        (.ok resolved, after) ∧
      Stages settings (clean settings.page resolved) t s rendered ∧
      (rendered.headings.Pairwise fun a b => a.offset < b.offset) ∧
      (∀ e ∈ rendered.headings, ∃ before behind,
        rendered.html = before ++ Render.headingMarkup e.heading ++ behind ∧
          Text.byteSize before = e.offset) ∧
      ∃ blocks : List Block,
        (blocks.Pairwise fun a b => a.offset < b.offset) ∧
        (∀ b, b ∈ blocks ↔ BlockOf s.stash rendered b) ∧
        page.metadata.flatten = blocks.flatMap Block.headings := by
  obtain ⟨resolved, hresolved, hpage⟩ := Page.exists_resolved h
  obtain ⟨t, s, rendered, hstages, rfl⟩ := Page.exists_stages hpage
  -- What was rendered has its headings placed before anything is restored.
  have hplaced := placed_of_renderText hstages.rendered
  refine ⟨resolved, t, s, rendered, hresolved, hstages, hplaced.pairwise_offset,
    hplaced.exists_append_of_zero, outlineBlocks s.stash rendered, ?_, ?_, ?_⟩
  · exact pairwise_outlineBlocks s.stash hplaced
  · exact fun b => mem_outlineBlocks_iff
  · exact flatten_assemble s rendered

/-- A document whose only heading is inside a variant. -/
def variantSource : Text :=
  "<frameworkcontent>\n<pt>\n## Usage\n</pt>\n</frameworkcontent>".toList

/-- The heading inside a variant reaches the metadata, as a block of the page. -/
theorem variant_heading_reaches_metadata : ∃ page,
    (Page.convert (m := StateM Files.Tree) {} variantSource).run.run {} = (.ok page, {}) ∧
      page.metadata.flatten = [⟨"Usage".toList, "usage".toList, 2⟩] ∧
      ∃ blocks : List Block, page.metadata.flatten = blocks.flatMap Block.headings := by
  have houtcome : (match (Page.convert (m := StateM Files.Tree) {} variantSource).run.run {} with
      | (.ok page, after) => some (page.metadata.flatten, after)
      | (.error _, _) => none) = some ([⟨"Usage".toList, "usage".toList, 2⟩], {}) := by
    decide +kernel
  split at houtcome
  · next page after hrun =>
    obtain ⟨hflatten, rfl⟩ := Prod.mk.inj (Option.some.inj houtcome)
    obtain ⟨-, -, -, -, -, -, -, -, blocks, -, -, hblocks⟩ :=
      Page.flatten_metadata {} variantSource {} {} page hrun
    exact ⟨page, hrun, hflatten, blocks, hblocks⟩
  · cases houtcome

end Documents

end DocPage.Document
