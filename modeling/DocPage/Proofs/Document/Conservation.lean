import DocPage.Proofs.Document.Cleanup
import DocPage.Proofs.Document.Passes
import DocPage.Proofs.Document.Restore
import DocPage.Proofs.Render.Placeholders
import DocPage.Proofs.Tag.Substitute

/-!
# No component is lost or doubled

In a source without placeholders, the tag passes write each placeholder once, for a component of the
stash. The page of the text has the placeholders that raw HTML brings to it, and these are then
replaced by their components. So a document has each of its components once, if all placeholders of
the text reach the page; one in inline code does not.

## Architecture

- **Labels**: `Labelled`, which every pass preserves
- **Restoring**: `Restored`, between a page and the page with its components
- **Documents**: `WellPlaced`, and the conservation of components
-/

namespace DocPage.Document

open Tag (Span Segment)
open Text (Bracketed)

/-! ## Labels -/

/-- The placeholders of the text are different, and each is for a component of the stash. -/
structure Labelled (t : Text) (a : Assembly) : Prop where
  nodup : (indices t).Nodup
  lt : ∀ index ∈ indices t, index < a.stash.components.length

/-- Where each match gives way to the placeholder of a new component, the placeholders afterwards are
some of those before and new ones. What stands in front of both texts takes part, since a
placeholder may begin there. -/
theorem exists_perm_of_substituteSegments {f : Text → Span → Assemble Text}
    (hf : ∀ before span a new a', (f before span).run a = .ok (new, a') →
      ∃ index, new = placeholder index ∧ a.stash.components.length ≤ index ∧
        index < a'.stash.components.length)
    {before t' : Text} {segments : List Segment} {a a' : Assembly}
    (hmatches : ∀ m ∈ Tag.located before segments, Bracketed m.2.source)
    (hrun : (Tag.substituteSegments f before segments).run a = .ok (t', a')) (u : Text) :
    ∃ old new, (indices (u ++ t')).Perm (old ++ new) ∧
      old.Sublist (indices (u ++ segments.flatMap Segment.source)) ∧ new.Nodup ∧
      (∀ index ∈ new, a.stash.components.length ≤ index ∧ index < a'.stash.components.length) ∧
      a.stash.components.length ≤ a'.stash.components.length := by
  -- What stands in front grows along the gaps and is forgotten behind each placeholder, so the
  -- induction is for any such text.
  induction segments generalizing before t' a u with
  | nil =>
    cases hrun
    exact ⟨indices (u ++ []), [], by simp, List.Sublist.refl _, List.nodup_nil, by simp, Nat.le_refl _⟩
  | cons segment segments ih =>
    cases segment with
    | gap text =>
      obtain ⟨tail, a₁, htail, hrun⟩ := exists_run_of_bind hrun
      cases hrun
      -- A gap only moves to the front, where a placeholder may begin in it.
      have h := ih hmatches htail (u ++ text)
      rwa [List.append_assoc, List.append_assoc] at h
    | span s =>
      obtain ⟨written, a₁, hwritten, hrun⟩ := exists_run_of_bind hrun
      obtain ⟨tail, a₂, htail, hrun⟩ := exists_run_of_bind hrun
      cases hrun
      -- The match gives way to a placeholder, which brackets set apart from both its sides.
      obtain ⟨index, rfl, hle, hlt⟩ := hf _ _ _ _ _ hwritten
      have hbracketed : Bracketed s.source := hmatches _ List.mem_cons_self
      obtain ⟨old, new, hperm, hsublist, hnodup, hrange, hle'⟩ :=
        ih (fun m hm => hmatches m (List.mem_cons_of_mem _ hm)) htail []
      rw [List.nil_append] at hperm hsublist
      refine ⟨indices u ++ old, index :: new, ?_, ?_, ?_, ?_, by omega⟩
      · rw [← List.append_assoc, indices_around (bracketed_placeholder index), indices_placeholder]
        -- The new placeholder was met first, but it counts among the new ones.
        rw [List.append_assoc, List.append_assoc]
        have hmoved : (index :: indices tail).Perm (old ++ index :: new) :=
          (hperm.cons index).trans List.perm_middle.symm
        exact hmoved.append_left (indices u)
      · -- The placeholders inside the match go with it.
        rw [List.flatMap_cons, ← List.append_assoc]
        rw [show Segment.source (.span s) = s.source from rfl, indices_around hbracketed]
        exact (List.sublist_append_left _ _).append hsublist
      -- Its number was free before, and the later ones are taken behind it.
      · refine List.nodup_cons.mpr ⟨fun hmem => ?_, hnodup⟩
        have := (hrange index hmem).1
        omega
      · refine List.forall_mem_cons.mpr ⟨⟨hle, by omega⟩, fun i hi => ?_⟩
        have := hrange i hi
        omega

/-- **A pass keeps the placeholders apart.** -/
theorem Labelled.tagPass {p : Tag.Pattern} {transform : Body.Region → Span → Assemble Fragment}
    (htransform : ∀ region span,
      Makes (transform region span) fun fragment => Bracketed fragment.html)
    {region : Body.Region} {t t' : Text} {a a' : Assembly} (h : Labelled t a)
    (hrun : (Document.tagPass p transform region t).run a = .ok (t', a')) : Labelled t' a' := by
  -- Each match stashes its fragment, behind what the nested content stashed, and writes the number
  -- of that component.
  obtain ⟨old, new, hperm, hsublist, hnodup, hrange, hle⟩ :=
    exists_perm_of_substituteSegments (fun before span a written a' hmatch => by
      obtain ⟨fragment, made, hfragment, rfl, hlength⟩ := exists_stashed_of_match hmatch
      have := (htransform _ _ _ _ _ hfragment).1.length_le
      exact ⟨_, rfl, this, by omega⟩) (fun m hm => bracketed_of_mem_spans hm) hrun []
  rw [List.nil_append] at hperm hsublist
  rw [(p.scan_segments t).flatMap_source] at hsublist
  -- The old ones are below the old length of the stash, and the new ones are not.
  have hold : ∀ index ∈ old, index < a.stash.components.length :=
    fun index hindex => h.lt index (hsublist.subset hindex)
  constructor
  · refine hperm.nodup_iff.mpr (List.nodup_append.mpr ⟨h.nodup.sublist hsublist, hnodup, ?_⟩)
    rintro index hindex _ hnew rfl
    have := hold index hindex
    have := (hrange index hnew).1
    omega
  -- Every number that is left is either an old one or was given out in this pass.
  · intro index hindex
    rcases List.mem_append.mp (hperm.mem_iff.mp hindex) with hindex | hindex
    · have := hold index hindex
      omega
    · exact (hrange index hindex).2

/-- The passes over a text without the mark of a placeholder. -/
theorem labelled_of_tagPasses {nested : Nested} (hnested : ∀ t region, Grows (nested t region))
    {source t : Text} (hmark : ¬ placeholderMark <:+: source) {region : Body.Region} {a : Assembly}
    (hrun : (tagPasses nested source region).run {} = .ok (t, a)) : Labelled t a := by
  -- A text without the mark has no placeholders at all, so nothing has to be in the stash.
  have hstart : Labelled source {} := by
    constructor
    all_goals simp [indices_of_unmarked hmark]
  exact tagPasses_induction hnested
    (fun p transform htransform t a t' a' h hpass => h.tagPass htransform hpass) hstart hrun

/-! ## Restoring -/

/-- The two texts are the same, but where the first one has placeholders, which are those for the
given indices, in this order, the second one has their components. -/
inductive Restored (s : Stash) : List Nat → Text → Text → Prop where
  | last {gap : Text} : indices gap = [] → Restored s [] gap gap
  | component {gap written t restored : Text} {index : Nat} {rest : List Nat} {item : StashItem} :
      indices gap = [] → IsPlaceholder written index → s.components[index]? = some item →
      Restored s rest t restored →
      Restored s (index :: rest) (gap ++ written ++ t) (gap ++ item.markup ++ restored)

namespace Restored

variable {s : Stash} {found : List Nat} {t restored : Text}

/-- A character that starts no placeholder belongs to the first gap. -/
theorem cons (h : Restored s found t restored) {c : Char}
    (hnone : placeholderMatcher (c :: t) = none) : Restored s found (c :: t) (c :: restored) := by
  -- The character goes to the gap in front of the first placeholder, or of the end.
  cases h with
  | last hgap => exact .last ((indices_cons_of_none hnone).trans hgap)
  | @component gap written t restored index rest item hgap hwritten hitem hrest =>
    rw [List.append_assoc, ← List.cons_append] at hnone
    -- Without what follows the gap there is still no placeholder at this character.
    have hnone := placeholderMatcher_local.eq_none_of_append hnone
    rw [← List.cons_append, ← List.cons_append, ← List.cons_append, ← List.cons_append]
    exact .component ((indices_cons_of_none hnone).trans hgap) hwritten hitem hrest

/-- When the stash has all its components, a text is restored. -/
theorem restore (s : Stash) {t : Text} (h : ∀ index ∈ indices t, index < s.components.length) :
    Restored s (indices t) t (s.restore t) := by
  induction t using placeholders_induction with
  | nil => exact .last rfl
  | plain c t hnone ih =>
    rw [indices_cons_of_none hnone] at h ⊢
    rw [s.restore_cons_of_none hnone]
    exact (ih h).cons hnone
  | placeholder written after index hwritten ih =>
    rw [indices_append_of_isPlaceholder hwritten] at h ⊢
    obtain ⟨hlt, hrest⟩ := List.forall_mem_cons.mp h
    have hitem : s.components[index]? = some s.components[index] := List.getElem?_eq_getElem hlt
    rw [s.restore_append_of_some hwritten hitem]
    -- Nothing stands in front of this placeholder any more.
    have hhere : Restored s (index :: indices after) ([] ++ written ++ after)
        ([] ++ s.components[index].markup ++ s.restore after) :=
      .component rfl hwritten hitem (ih hrest)
    exact hhere

/-- Components without placeholders leave none in the restored text. -/
theorem indices_eq_nil (h : Restored s found t restored)
    (hitems : ∀ item ∈ s.components, Bracketed item.markup ∧ indices item.markup = []) :
    indices restored = [] := by
  induction h with
  | last hgap => exact hgap
  -- Brackets around a component keep it apart from the gaps beside it.
  | component hgap _ hitem _ ih =>
    obtain ⟨hbracketed, hnone⟩ := hitems _ (List.mem_of_getElem? hitem)
    rw [indices_around hbracketed, hgap, hnone, ih]
    rfl

end Restored

/-! ## Documents -/

section Documents

variable {settings : Settings}

/-- A source without includes stays as it is. -/
theorem resolveIncludes_of_spans_eq_nil {m : Type → Type} [Monad m] [LawfulMonad m]
    [Files.Access m] (base : Text) {source : Text}
    (h : (Tag.Pattern.plain .literalInclude).spans source = []) :
    resolveIncludes (m := m) base source = pure source :=
  Tag.substitute_of_spans_eq_nil h _

/-- Cleaning brings no placeholder into a source, unless the links of the published page do. -/
theorem unmarked_clean {source : Text} (hmark : ¬ placeholderMark <:+: source)
    (hlinks : ∀ publication ∈ settings.page,
      ¬ placeholderMark <:+: publishImageLinks publication (cleanDoctests source)) :
    ¬ placeholderMark <:+: clean settings.page source := by
  unfold clean
  -- Without a page there are only doctests to clean, and these cannot bring the mark.
  cases hpage : settings.page with
  | some publication => exact hlinks publication hpage
  | none =>
    exact fun h => hmark (infix_of_infix_cleanDoctests (by decide) (by decide) (by decide) h)

/-- What the document of a clean source is rendered with. -/
def Scope.ofSource (settings : Settings) (source : Text) : Scope :=
  ⟨settings, Text.contains wrapRequest source⟩

/-- The placeholders that the events of a text bring to the page of a document. -/
def brought (scope : Scope) (t : Text) : List Nat :=
  let processor := Code.componentProcessor scope.settings.highlighter scope.wrapCode
  Render.keptAll ⟨scope.settings.vocabulary, scope.settings.math⟩
    { region := .before, desks := [{ processor }] } (Markdown.eventsOf scope.settings.extended t)

/-- Every placeholder of the text comes to the page as raw HTML, and none is cut. -/
structure WellPlaced (scope : Scope) (t : Text) : Prop where
  finished : Render.FinishedEvents (Markdown.eventsOf scope.settings.extended t)
  brought_eq : brought scope t = indices t

theorem indices_of_renderText {scope : Scope} (hmath : Render.InertMath scope.settings.math)
    {t : Text} (hfinished : Render.FinishedEvents (Markdown.eventsOf scope.settings.extended t))
    {page : Render.Page} (h : renderText scope t .before = .ok page) :
    indices page.html = brought scope t := by
  refine Render.indices_of_render hmath ⟨.of_notMem List.not_mem_nil, ?_⟩ hfinished h
  -- The page starts with an empty desk, so nothing on it has been cut.
  intro desk hdesk
  obtain rfl := List.mem_singleton.mp hdesk
  exact Render.inertProcessor_componentProcessor _ _

theorem inert_metadataScript (metadata : Outline.Metadata) : Inert (metadataScript metadata) := by
  -- Between the fixed start and end of the script stands an attribute, in which no bracket opens.
  refine .append (.append (.of_isPlain rfl) ?_) (.of_isPlain rfl)
  exact .of_notMem (Json.openingAngle_notMem_toAttr metadata.toJson)

/-- The metadata in front of the page brings no placeholder. -/
theorem indices_html_assemble (s : Assembly) (page : Render.Page) :
    indices (Page.assemble s page).html = indices (s.stash.restore page.html) := by
  have hscript := inert_metadataScript (Page.assemble s page).metadata
  have hfront : Inert (metadataScript (Page.assemble s page).metadata ++ ['\n']) :=
    hscript.append (.of_notMem (by decide))
  have hhtml : (Page.assemble s page).html =
      metadataScript (Page.assemble s page).metadata ++ ['\n'] ++ s.stash.restore page.html :=
    List.append_cons ..
  rw [hhtml, hfront.finished.indices_append, hfront.indices, List.nil_append]

/-- **Every component of a document is restored once.**

In a source without includes and without the mark of a placeholder, the passes write different
placeholders, each for a component of the stash. The page has the placeholders that raw HTML brings
to it. When these are all placeholders of the text, each gives way to its component, at its place
and in order, and everything else stays; and when no component holds a placeholder, none is left in
the document. This last part speaks of complete placeholders only. A component comes from what a
docstring or a nested page says, so it may hold the mark of one without an index or an end behind
it; restoring does not touch that, and the mark then stays in the document as text. -/
theorem Page.components_restored_once (settings : Settings) (source : Text)
    (tree after : Files.Tree) (page : Page) (hmath : Render.InertMath settings.math)
    (hincludes : (Tag.Pattern.plain .literalInclude).spans source = [])
    (hmark : ¬ placeholderMark <:+: source)
    (hlinks : ∀ publication ∈ settings.page,
      ¬ placeholderMark <:+: publishImageLinks publication (cleanDoctests source))
    (h : (Page.convert (m := StateM Files.Tree) settings source).run.run tree =
      (.ok page, after)) :
    ∃ t s rendered, Stages settings (clean settings.page source) t s rendered ∧
      (indices t).Nodup ∧ (∀ index ∈ indices t, index < s.stash.components.length) ∧
      (Render.FinishedEvents (Markdown.eventsOf settings.extended t) →
        indices rendered.html = brought (.ofSource settings (clean settings.page source)) t) ∧
      (WellPlaced (.ofSource settings (clean settings.page source)) t →
        ∃ body, page.html = metadataScript page.metadata ++ '\n' :: body ∧
          Restored s.stash (indices t) rendered.html body ∧
          ((∀ item ∈ s.stash.components, indices item.markup = []) → indices page.html = [])) := by
  -- Nothing is included, so the source is cleaned as it is.
  obtain ⟨resolved, hresolved, hpage⟩ := Page.exists_resolved h
  rw [resolveIncludes_of_spans_eq_nil _ hincludes] at hresolved
  cases hresolved
  obtain ⟨t, s, rendered, hstages, rfl⟩ := Page.exists_stages hpage
  have hnested := grows_fragmentWithin (.ofSource settings (clean settings.page source))
    (tagWeight (clean settings.page source))
  have hlabelled := labelled_of_tagPasses hnested (unmarked_clean hmark hlinks) hstages.replaced
  refine ⟨t, s, rendered, hstages, hlabelled.nodup, hlabelled.lt,
    fun hfinished => indices_of_renderText hmath hfinished hstages.rendered, fun hplaced => ?_⟩
  have hindices := indices_of_renderText hmath hplaced.finished hstages.rendered
  rw [hplaced.brought_eq] at hindices
  -- The page has the placeholders of the text, so the stash has their components.
  have hrestored : Restored s.stash (indices t) rendered.html (s.stash.restore rendered.html) := by
    rw [← hindices]
    apply Restored.restore
    rw [hindices]
    exact hlabelled.lt
  refine ⟨_, rfl, hrestored, fun hitems => ?_⟩
  -- The stash was empty before the passes, so all its components are bracketed.
  obtain ⟨added, hadded, hbracketed⟩ := (grows_tagPasses hnested _ _ _ _ _ hstages.replaced).1
  rw [List.nil_append] at hadded
  have hbody := hrestored.indices_eq_nil fun item hitem =>
    ⟨hbracketed item (hadded ▸ hitem), hitems item hitem⟩
  exact (indices_html_assemble s rendered).trans hbody

/-- A document with one variant between its paragraphs and one inside a paragraph. -/
def twoVariants : Text :=
  ("Before.\n\n<frameworkcontent>\n<pt>\n## Usage\n</pt>\n</frameworkcontent>\n\n".toList ++
    "A <frameworkcontent><tf>y</tf></frameworkcontent> here.".toList)

/-- What the passes leave of it. -/
def twoPlaceholders : Text :=
  "Before.\n\n".toList ++ placeholder 0 ++ "\n\nA ".toList ++ placeholder 1 ++ " here.".toList

theorem wellPlaced_twoPlaceholders : WellPlaced ⟨{}, false⟩ twoPlaceholders := by
  have hevents : Markdown.eventsOf true twoPlaceholders =
      [.start .paragraph, .text "Before.".toList, .stop .paragraph, .start .htmlBlock,
        .html (placeholder 0 ++ ['\n']), .stop .htmlBlock, .start .paragraph, .text "A ".toList,
        .html (placeholder 1), .text " here.".toList, .stop .paragraph] := by
    decide +kernel
  refine ⟨fun chunk hchunk => ?_, by decide +kernel⟩
  have hchunks : chunk = placeholder 0 ++ ['\n'] ∨ chunk = placeholder 1 := by
    simpa [hevents] using hchunk
  rcases hchunks with rfl | rfl
  · exact (Finished.placeholder 0).append (.of_notMem (by decide))
  · exact Finished.placeholder 1

/-- Both variants are restored, in order, and no placeholder is left. -/
theorem two_variants_restored : ∃ page s rendered body,
    (Page.convert (m := StateM Files.Tree) {} twoVariants).run.run {} = (.ok page, {}) ∧
      page.html = metadataScript page.metadata ++ '\n' :: body ∧
      Restored s [0, 1] rendered body ∧ indices page.html = [] := by
  have houtcome : (match (Page.convert (m := StateM Files.Tree) {} twoVariants).run.run {} with
      | (.ok _, after) => some after
      | (.error _, _) => none) = some {} := by
    decide +kernel
  have hreplaced : ((tagPasses (fragmentWithin ⟨{}, false⟩ (tagWeight twoVariants)) twoVariants
      .before).run {}).toOption.map (fun result =>
        (result.1, result.2.stash.components.all fun item => indices item.markup == [])) =
        some (twoPlaceholders, true) := by
    decide +kernel
  split at houtcome
  · next page after hrun =>
    cases Option.some.inj houtcome
    obtain ⟨t, s, rendered, hstages, -, -, -, hrestored⟩ :=
      Page.components_restored_once {} twoVariants {} {} page Render.inertMath_delimitedMath
        (by decide +kernel) (by decide +kernel) (fun _ h => nomatch h) hrun
    have hclean : clean none twoVariants = twoVariants := by decide +kernel
    have hscope : Text.contains wrapRequest twoVariants = false := by decide +kernel
    have hpasses := hstages.replaced
    rw [hclean] at hpasses hrestored
    unfold Scope.ofSource at hrestored
    rw [hscope] at hpasses hrestored
    rw [hpasses] at hreplaced
    obtain ⟨rfl, hitems⟩ := Prod.mk.inj (Option.some.inj hreplaced)
    obtain ⟨body, hhtml, hbody, hnone⟩ := hrestored wellPlaced_twoPlaceholders
    have hindices : indices twoPlaceholders = [0, 1] := by decide +kernel
    rw [hindices] at hbody
    refine ⟨page, s.stash, rendered.html, body, hrun, hhtml, hbody, hnone fun item hitem => ?_⟩
    simpa using List.all_eq_true.mp hitems item hitem
  · cases houtcome

/-- A document with a variant inside inline code. -/
def variantInCode : Text :=
  "Use \x60<frameworkcontent><pt>x</pt></frameworkcontent>\x60 here".toList

/-- In inline code, a placeholder is escaped and stays in the document. -/
theorem placeholder_stays_in_code : ∃ page,
    (Page.convert (m := StateM Files.Tree) {} variantInCode).run.run {} = (.ok page, {}) ∧
      (Tag.Pattern.plain .literalInclude).spans variantInCode = [] ∧
      ¬ placeholderMark <:+: variantInCode ∧ placeholderMark <:+: page.html := by
  have houtcome : (match (Page.convert (m := StateM Files.Tree) {} variantInCode).run.run {} with
      | (.ok page, after) => some (Text.contains placeholderMark page.html, after)
      | (.error _, _) => none) = some (true, {}) := by
    decide +kernel
  split at houtcome
  · next page after hrun =>
    obtain ⟨hcontains, rfl⟩ := Prod.mk.inj (Option.some.inj houtcome)
    exact ⟨page, hrun, by decide +kernel, by decide +kernel, (Text.contains_iff).mp hcontains⟩
  · cases houtcome

end Documents

end DocPage.Document
