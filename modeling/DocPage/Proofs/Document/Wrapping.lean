import DocPage.Proofs.Document.Passes
import DocPage.Proofs.Render.Composition
import DocPage.Proofs.Render.Placeholders

/-!
# Wrapping code blocks moves no heading

Whether code blocks wrap long lines is written into the code blocks, and nothing else of a page
depends on it. So two renderings of one text that differ in it are made of the same texts with
components between them: a heading is the same in both, a code block is not, and where a component
stands may differ in bytes. The headings that a stash merges into the two pages are the same ones.

## Architecture

- **Components**: `Solid`, for markup that is scanned by itself
- **Aligned pages**: `Aligned`, and what it survives
- **Steps and runs**: `Twins`, for the sheets of the two renderings
- **Merging**: the merged headings go from component to component, whatever the offsets are
-/

namespace DocPage.Document

open Markdown (Event)
open Outline (Heading)
open Render (Entry Sheet State)

/-! ## Components -/

/-- Markup between angle brackets, without placeholders, that ends like a component without
children. -/
structure Solid (x : Text) : Prop where
  bracketed : Text.Bracketed x
  indices : indices x = []
  close : ∃ front, x = front ++ " />".toList

theorem solid_selfClosing {c : Component} (h : Inert c.selfClosing) : Solid c.selfClosing :=
  ⟨bracketed_selfClosing c, h.indices, '<' :: c.name ++ c.props, rfl⟩

theorem solid_headingComponent (h : Heading) : Solid (State.headingComponent h) :=
  solid_selfClosing (Render.inert_headingComponent h)

theorem solid_codeRender (highlight : Code.Highlighter) (wrap : Bool) (language source : Text) :
    Solid (Code.render highlight wrap language source) :=
  solid_selfClosing (Render.inert_codeRender highlight wrap language source)

/-! ## Aligned pages -/

/-- The entry of a component at an offset, which is a heading or not. -/
def notedAt (offset : Nat) (noted : Option Heading) : List Entry :=
  noted.toList.map fun h => ⟨offset, h⟩

/-- Two texts, which start at the bytes `start` and `start'`, are made of the same parts and of
components between them. The entries are those of the components that are headings. -/
inductive Aligned : (start start' : Nat) → (t t' : Text) → (own own' : List Entry) → Prop where
  | last {start start' : Nat} {t : Text} : Aligned start start' t t [] []
  | component {start start' : Nat} {gap x x' after after' : Text} {own own' : List Entry}
      -- Written with the component it has in front, which is what the recursion of the merge looks
      -- at.
      (noted : Option Heading) : Solid x → Solid x' →
      Aligned (start + Text.byteSize gap + Text.byteSize x)
        (start' + Text.byteSize gap + Text.byteSize x') after after' own own' →
      Aligned start start' (gap ++ x ++ after) (gap ++ x' ++ after')
        (notedAt (start + Text.byteSize gap) noted ++ own)
        (notedAt (start' + Text.byteSize gap) noted ++ own')

namespace Aligned

variable {start start' : Nat} {t t' : Text} {own own' : List Entry}

theorem symm (h : Aligned start start' t t' own own') : Aligned start' start t' t own' own := by
  -- The two sides have the same gaps, so each step can be read the other way round.
  induction h with
  | last => exact .last
  | component noted hx hx' _ ih => exact .component noted hx' hx ih

theorem append (h : Aligned start start' t t' own own') (added : Text) :
    Aligned start start' (t ++ added) (t' ++ added) own own' := by
  induction h with
  | last => exact .last
  | component noted hx hx' _ ih =>
    rw [List.append_assoc, List.append_assoc _ _ added]
    exact .component noted hx hx' ih

/-- Components are added at the sizes of the texts in front of them. -/
theorem concat (h : Aligned start start' t t' own own') {x x' : Text} (noted : Option Heading)
    (hx : Solid x) (hx' : Solid x') :
    Aligned start start' (t ++ x) (t' ++ x') (own ++ notedAt (start + Text.byteSize t) noted)
      (own' ++ notedAt (start' + Text.byteSize t') noted) := by
  -- Along the parts that are there: the new component comes behind the last of them.
  induction h with
  | @last start start' t =>
    have hlast : Aligned start start' (t ++ x ++ []) (t ++ x' ++ [])
        (notedAt (start + Text.byteSize t) noted ++ [])
        (notedAt (start' + Text.byteSize t) noted ++ []) :=
      .component noted hx hx' .last
    simpa using hlast
  | component other hy hy' _ ih =>
    have hbehind := component other hy hy' ih
    simpa only [List.append_assoc, Text.byteSize_append, Nat.add_assoc] using hbehind

/-- The start tag of a paragraph at the end of a page stands behind the last component. -/
theorem of_append_paragraph {u u' : Text} (h : Aligned start start' u u' own own')
    (hu : u = t ++ "<p>".toList) :
    ∃ t', u' = t' ++ "<p>".toList ∧ Aligned start start' t t' own own' := by
  -- From the front. Only the last part can hold the tag, since a component does not end like it.
  induction h generalizing t with
  | last => exact ⟨t, hu, .last⟩
  | @component start start' gap x x' after after' own own' noted hx hx' _ ih =>
    have hbehind : ∃ v, t = gap ++ x ++ v ∧ after = v ++ "<p>".toList := by
      rcases Text.append_cases hu.symm with ⟨v, rfl, hv⟩ | ⟨v, hv, htail⟩
      · exact ⟨v, rfl, hv⟩
      · -- A component that reached into the start tag would have to end like the tag.
        obtain ⟨front, hfront⟩ := hx.close
        have hend : gap ++ front ++ " />".toList = t ++ v := by
          rw [List.append_assoc, ← hfront, hv]
        obtain rfl := Render.eq_nil_of_append_close hend htail
        exact ⟨[], by rw [List.append_nil, hv, List.append_nil], htail.symm⟩
    obtain ⟨v, rfl, hafter⟩ := hbehind
    obtain ⟨v', rfl, haligned⟩ := ih hafter
    exact ⟨gap ++ x' ++ v', by simp only [List.append_assoc], .component noted hx hx' haligned⟩

/-- So a paragraph is empty on both pages or on none. -/
theorem dropSuffix?_cases (h : Aligned start start' t t' own own') :
    (Text.dropSuffix? "<p>" t = none ∧ Text.dropSuffix? "<p>" t' = none) ∨
      ∃ kept kept', Text.dropSuffix? "<p>" t = some kept ∧
        Text.dropSuffix? "<p>" t' = some kept' ∧ Aligned start start' kept kept' own own' := by
  cases hdrop : Text.dropSuffix? "<p>" t with
  -- The paragraph was empty on the first page, so it is empty on the second.
  | some kept =>
    obtain ⟨kept', ht', haligned⟩ := h.of_append_paragraph ((Text.dropSuffix?_eq_some_iff).mp hdrop)
    exact .inr ⟨kept, kept', rfl, (Text.dropSuffix?_eq_some_iff).mpr ht', haligned⟩
  | none =>
    refine .inl ⟨rfl, ?_⟩
    rw [Option.eq_none_iff_forall_ne_some]
    intro kept' hkept'
    -- The other way round, by the symmetry of aligned pages.
    obtain ⟨kept, ht, -⟩ :=
      h.symm.of_append_paragraph ((Text.dropSuffix?_eq_some_iff).mp hkept')
    rw [(Text.dropSuffix?_eq_some_iff).mpr ht] at hdrop
    cases hdrop

theorem le_offset (h : Aligned start start' t t' own own') : ∀ e ∈ own, start ≤ e.offset := by
  induction h with
  | last => exact fun _ he => nomatch he
  | component noted _ _ _ ih =>
    intro e he
    rcases List.mem_append.mp he with hnoted | hrest
    -- An entry of this component stands behind the gap, the others behind the component.
    · obtain ⟨heading, -, rfl⟩ := List.mem_map.mp hnoted
      exact Nat.le_add_right _ _
    · have hle := ih e hrest
      omega

end Aligned

/-! ## Steps and runs -/

/-- The only processor is the one for components, with a wrapping of its own. -/
def WrapsBy (highlight : Code.Highlighter) (wrap : Bool) (desks : List Code.Desk) : Prop :=
  ∃ offered warnings, desks = [⟨Code.componentProcessor highlight wrap, offered, warnings⟩]

/-- Two sheets that differ in the wrapping of code blocks. -/
structure Twins (highlight : Code.Highlighter) (wrap wrap' : Bool) (a b : Sheet) : Prop where
  aligned : Aligned 0 0 a.output b.output a.headings b.headings
  left : WrapsBy highlight wrap a.desks
  right : WrapsBy highlight wrap' b.desks

/-- Two states that differ in such sheets only. -/
def TwinStates (highlight : Code.Highlighter) (wrap wrap' : Bool) (s s' : State) : Prop :=
  ∃ core a b, s = State.on core a ∧ s' = core.on b ∧ Twins highlight wrap wrap' a b

section Runs

variable {highlight : Code.Highlighter} {wrap wrap' : Bool} {a b : Sheet}
  {settings : Render.Settings}

namespace Twins

variable (h : Twins highlight wrap wrap' a b) (s : State)
include h

theorem add (added : Text) : Twins highlight wrap wrap' (a.add added) (b.add added) :=
  ⟨h.aligned.append added, h.left, h.right⟩

theorem closeParagraph :
    TwinStates highlight wrap wrap' (s.on a).closeParagraph (s.on b).closeParagraph := by
  unfold State.closeParagraph
  -- Whether an empty paragraph is taken back is the same on both pages.
  rcases h.aligned.dropSuffix?_cases with ⟨ha, hb⟩ | ⟨kept, kept', ha, hb, haligned⟩
  · rw [show Text.dropSuffix? "<p>" (s.on a).output = none from ha,
      show Text.dropSuffix? "<p>" (s.on b).output = none from hb]
    exact ⟨s, _, _, rfl, rfl, h.add "</p>"⟩
  · rw [show Text.dropSuffix? "<p>" (s.on a).output = some kept from ha,
      show Text.dropSuffix? "<p>" (s.on b).output = some kept' from hb]
    exact ⟨s, { a with output := kept }, { b with output := kept' }, rfl, rfl, haligned, h.left,
      h.right⟩

theorem closeHeading :
    TwinStates highlight wrap wrap' (s.on a).closeHeading (s.on b).closeHeading := by
  cases hopen : s.heading with
  -- No heading is open, so the step writes nothing.
  | none => exact ⟨s, a, b, by simp [State.closeHeading, State.on, hopen],
      by simp [State.closeHeading, State.on, hopen], h⟩
  | some opened =>
    -- The anchor is derived from the slugs of the core, so it is the same heading.
    let heading := (State.headingOf s.derivedSlugs opened).1
    let slug := (State.headingOf s.derivedSlugs opened).2
    have hsolid := solid_headingComponent heading
    have hconcat := h.aligned.concat (some heading) hsolid hsolid
    rw [Nat.zero_add, Nat.zero_add] at hconcat
    refine ⟨{ s with heading := none, derivedSlugs := slug.toList ++ s.derivedSlugs },
      ⟨a.output ++ State.headingComponent heading,
        a.headings ++ notedAt (Text.byteSize a.output) (some heading), a.desks⟩,
      ⟨b.output ++ State.headingComponent heading,
        b.headings ++ notedAt (Text.byteSize b.output) (some heading), b.desks⟩,
      ?_, ?_, hconcat, h.left, h.right⟩
    all_goals simp [State.closeHeading, State.on, State.write, hopen, notedAt, heading, slug]

/-- Both processors take the block, and each writes its wrapping into it. -/
theorem closeCodeBlock :
    TwinStates highlight wrap wrap' (s.on a).closeCodeBlock (s.on b).closeCodeBlock := by
  obtain ⟨offered, warnings, hleft⟩ := h.left
  obtain ⟨offered', warnings', hright⟩ := h.right
  let code := s.code.getD ⟨none, []⟩
  let block : Code.Block := ⟨code.language.getD [], code.source, s.codeBlocks⟩
  -- A code block is no heading, so it adds no entry on either page.
  have hconcat := h.aligned.concat none
    (solid_codeRender highlight wrap block.language block.source)
    (solid_codeRender highlight wrap' block.language block.source)
  refine ⟨{ s with code := none, codeBlocks := s.codeBlocks + 1 },
    ⟨_, _, [⟨Code.componentProcessor highlight wrap, block :: offered, warnings⟩]⟩,
    ⟨_, _, [⟨Code.componentProcessor highlight wrap', block :: offered', warnings'⟩]⟩,
    ?_, ?_, hconcat, ⟨_, _, rfl⟩, ⟨_, _, rfl⟩⟩
  · simp [State.closeCodeBlock, State.on, State.write, hleft, Code.offer, Code.componentProcessor,
      notedAt, block, code]
  · simp [State.closeCodeBlock, State.on, State.write, hright, Code.offer, Code.componentProcessor,
      notedAt, block, code]

end Twins

/-- What a step preserves. -/
theorem TwinStates.step {s s' next next' : State} {event : Event}
    (h : TwinStates highlight wrap wrap' s s') (hs : Render.step settings s event = .ok next)
    (hs' : Render.step settings s' event = .ok next') :
    TwinStates highlight wrap wrap' next next' := by
  obtain ⟨core, a, b, rfl, rfl, htwins⟩ := h
  -- Closing an element is the only step that reads the page or writes a component.
  rcases Render.step_on settings core event with (rfl | rfl | rfl) | ⟨outcome, hblind⟩
  · cases hs
    cases hs'
    exact htwins.closeParagraph core
  · cases hs
    cases hs'
    exact htwins.closeHeading core
  · cases hs
    cases hs'
    exact htwins.closeCodeBlock core
  -- Any other step writes the same text whatever the page is, so it is added to both.
  · rw [hblind] at hs hs'
    cases outcome with
    | error e => cases hs
    | ok result =>
      cases hs
      cases hs'
      exact ⟨result.2, _, _, rfl, rfl, htwins.add result.1⟩

/-- What a run preserves. -/
theorem TwinStates.run {s s' last last' : State} {events : List Event}
    (h : TwinStates highlight wrap wrap' s s') (hs : Render.run settings s events = (none, last))
    (hs' : Render.run settings s' events = (none, last')) :
    TwinStates highlight wrap wrap' last last' := by
  -- Along the events. Both runs succeed, so each step does.
  induction events generalizing s s' with
  | nil =>
    cases hs
    cases hs'
    exact h
  | cons event events ih =>
    unfold Render.run at hs hs'
    split at hs
    · next next hnext =>
      split at hs'
      · next next' hnext' => exact ih (h.step hnext hnext') hs hs'
      · cases hs'
    · cases hs

end Runs

/-- Two pages of one text that differ in the wrapping of code blocks are aligned. -/
theorem aligned_of_renderText {settings : Settings} {wrap wrap' : Bool} {t : Text}
    {region : Body.Region} {page page' : Render.Page}
    (h : renderText ⟨settings, wrap⟩ t region = .ok page)
    (h' : renderText ⟨settings, wrap'⟩ t region = .ok page') :
    Aligned 0 0 page.html page'.html page.headings page'.headings := by
  obtain ⟨last, hrun, rfl, -⟩ := Render.exists_run_of_render h
  obtain ⟨last', hrun', rfl, -⟩ := Render.exists_run_of_render h'
  have hstart : ∀ wrap, WrapsBy settings.highlighter wrap
      [{ processor := Code.componentProcessor settings.highlighter wrap }] := fun wrap =>
    ⟨[], [], rfl⟩
  -- Both pages start empty, and each sheet has the processor of its own wrapping.
  have htwins : TwinStates settings.highlighter wrap wrap'
      { region, desks := [{ processor := Code.componentProcessor settings.highlighter wrap }] }
      { region, desks := [{ processor := Code.componentProcessor settings.highlighter wrap' }] } :=
    ⟨{ region }, ⟨[], [], _⟩, ⟨[], [], _⟩, rfl, rfl, .last, hstart wrap, hstart wrap'⟩
  obtain ⟨core, a, b, rfl, rfl, hlast⟩ := htwins.run hrun hrun'
  exact hlast.aligned

/-! ## Merging -/

namespace Stash

variable (s : Stash)

def behind (t : Text) : List Heading :=
  (indices t).flatMap fun index => ((s.components.map (·.headings))[index]?).getD []

/-- `headings` for a text that starts at the byte `start`. -/
def merged (start : Nat) (t : Text) (own : List Entry) : List Heading :=
  ((own ++ s.entriesOf start (Text.pieces placeholderMatcher t)).mergeSort
    fun a b => a.offset ≤ b.offset).map (·.heading)

theorem headings_eq_merged (t : Text) (own : List Entry) : s.headings t own = s.merged 0 t own :=
  rfl

theorem map_heading_entriesOf (start : Nat) (t : Text) :
    (s.entriesOf start (Text.pieces placeholderMatcher t)).map (·.heading) = s.behind t := by
  unfold behind indices Text.values
  -- By induction on the pieces, since what starts at a byte is no text by itself.
  generalize Text.pieces placeholderMatcher t = ps
  induction ps generalizing start with
  | nil => rfl
  | cons piece ps ih =>
    cases piece with
    | plain c => exact ih _
    | hit written index =>
      unfold entriesOf
      simp only [List.map_append, ih, List.filterMap_cons, Piece.value?, List.flatMap_cons]
      congr 1
      cases hitem : s.components[index]? with
      | none => simp [hitem]
      | some item => simp [hitem, Function.comp_def]

theorem entriesOf_append (start : Nat) (ps qs : List (Piece Nat)) :
    s.entriesOf start (ps ++ qs) =
      s.entriesOf start ps ++ s.entriesOf (start + Text.byteSize (ps.flatMap Piece.source)) qs := by
  induction ps generalizing start with
  | nil => rfl
  | cons piece ps ih =>
    cases piece with
    | plain c => simp [entriesOf, ih, Piece.source, Nat.add_assoc]
    | hit written index =>
      simp [entriesOf, ih, Piece.source, Text.byteSize_append, Nat.add_assoc]

/-- A placeholder stands inside the text. -/
theorem offset_of_mem_entriesOf {start : Nat} {t : Text} {e : Entry}
    (h : e ∈ s.entriesOf start (Text.pieces placeholderMatcher t)) :
    start ≤ e.offset ∧ e.offset < start + Text.byteSize t := by
  rw [s.entriesOf_eq, List.mem_flatMap] at h
  obtain ⟨block, hblock, he⟩ := h
  obtain ⟨heading, -, rfl⟩ := List.mem_map.mp he
  -- An entry stands where its placeholder starts, and the placeholder has a byte at least.
  obtain ⟨offset, index, item, hhit, -, rfl⟩ := (Stash.mem_blocks_iff).mp hblock
  obtain ⟨before, rest, n, rfl, hmatch, hoffset⟩ :=
    (Text.mem_hits_iff placeholderMatcher_separate).mp hhit
  obtain ⟨span, after, rfl, hne, -⟩ := placeholderMatcher_separate.exists_append hmatch
  have hpos := Text.byteSize_pos hne
  simp only [Text.byteSize_append]
  omega

theorem pairwise_entriesOf (start : Nat) (t : Text) :
    (s.entriesOf start (Text.pieces placeholderMatcher t)).Pairwise
      fun a b => a.offset ≤ b.offset := by
  rw [s.entriesOf_eq, List.pairwise_flatMap]
  have hfound := Text.pairwise_hits placeholderMatcher_separate start t
  refine ⟨fun block _ => ?_, (s.pairwise_blocks hfound).imp fun {b c} hlt x hx y hy => ?_⟩
  -- Headings of one component share its offset; those of two are as far apart as their
  -- placeholders.
  · exact List.pairwise_map.mpr (List.pairwise_of_forall fun _ _ => Nat.le_refl _)
  · obtain ⟨-, -, rfl⟩ := List.mem_map.mp hx
    obtain ⟨-, -, rfl⟩ := List.mem_map.mp hy
    exact Nat.le_of_lt hlt

/-- A component between two texts is scanned by itself, and holds no placeholder. -/
theorem entriesOf_around (start : Nat) (gap : Text) {x : Text} (hx : Solid x) (after : Text) :
    s.entriesOf start (Text.pieces placeholderMatcher (gap ++ x ++ after)) =
      s.entriesOf start (Text.pieces placeholderMatcher gap) ++
        s.entriesOf (start + Text.byteSize gap + Text.byteSize x)
          (Text.pieces placeholderMatcher after) := by
  obtain ⟨hfront, hback⟩ := hx.bracketed.not_straddles (fun _ => notMem_tail_of_accepts)
    (fun _ => notMem_dropLast_of_accepts) gap after
  have hnone : ∀ k, s.entriesOf k (Text.pieces placeholderMatcher x) = [] := by
    intro k
    have hhits : Text.hits k (Text.pieces placeholderMatcher x) = [] := by
      rw [← List.map_eq_nil_iff (f := Prod.snd), Text.map_snd_hits]
      exact hx.indices
    rw [s.entriesOf_eq, hhits]
    rfl
  -- Split at both ends of the component, where no placeholder reaches across.
  rw [Text.pieces_append placeholderMatcher_local hback,
    Text.pieces_append placeholderMatcher_local hfront, s.entriesOf_append, s.entriesOf_append,
    hnone, List.append_nil,
    ← Text.pieces_append placeholderMatcher_local hfront,
    Text.flatMap_source_pieces placeholderMatcher_local.proper, Text.byteSize_append,
    Nat.add_assoc]

/-- Behind the last component there are only placeholders. -/
theorem merged_nil (start : Nat) (t : Text) : s.merged start t [] = s.behind t := by
  unfold merged
  rw [List.nil_append, List.mergeSort_of_pairwise, map_heading_entriesOf]
  exact (s.pairwise_entriesOf start t).imp decide_eq_true

/-- The headings in front of a component, its own, and those behind it. -/
theorem merged_component (start : Nat) (gap : Text) {x : Text} (hx : Solid x) (after : Text)
    (noted : Option Heading) {own : List Entry}
    (hown : ∀ e ∈ own, start + Text.byteSize gap + Text.byteSize x ≤ e.offset) :
    s.merged start (gap ++ x ++ after) (notedAt (start + Text.byteSize gap) noted ++ own) =
      s.behind gap ++ noted.toList ++
        s.merged (start + Text.byteSize gap + Text.byteSize x) after own := by
  have hbehind : ∀ e ∈ own ++ s.entriesOf (start + Text.byteSize gap + Text.byteSize x)
      (Text.pieces placeholderMatcher after), start + Text.byteSize gap ≤ e.offset := by
    intro e he
    rcases List.mem_append.mp he with he | he
    · exact (Nat.le_add_right _ _).trans (hown e he)
    · exact (Nat.le_add_right _ _).trans (s.offset_of_mem_entriesOf he).1
  have hnoted : ∀ e ∈ notedAt (start + Text.byteSize gap) noted,
      e.offset = start + Text.byteSize gap := by
    intro e he
    obtain ⟨heading, -, rfl⟩ := List.mem_map.mp he
    rfl
  unfold merged
  rw [s.entriesOf_around start gap hx after,
    mergeSort_bring Entry.offset (s.pairwise_entriesOf start gap)
      (List.pairwise_of_forall_mem_list fun c hc d hd =>
        Nat.le_of_eq ((hnoted c hc).trans (hnoted d hd).symm)),
    List.map_append, List.map_append, map_heading_entriesOf]
  · simp [notedAt, Function.comp_def]
  -- What stands in front of the component starts before it.
  · intro c hc d hd
    have hlt := (s.offset_of_mem_entriesOf hc).2
    rcases List.mem_append.mp hd with hd | hd
    · rwa [hnoted d hd]
    · exact Nat.lt_of_lt_of_le hlt (hbehind d hd)
  · intro c hc d hd
    rw [hnoted c hc]
    exact hbehind d hd

end Stash

/-- **The merged headings do not depend on the wrapping of code blocks.** -/
theorem headings_eq_of_aligned {s s' : Stash}
    (hs : s.components.map (·.headings) = s'.components.map (·.headings)) {start start' : Nat}
    {t t' : Text} {own own' : List Entry} (h : Aligned start start' t t' own own') :
    s.merged start t own = s'.merged start' t' own' := by
  have hbehind : ∀ t, s.behind t = s'.behind t := fun t => by
    unfold Stash.behind
    rw [hs]
  -- The stashes enter through what is behind a text, and this was settled first.
  induction h with
  | last => rw [s.merged_nil, s'.merged_nil, hbehind]
  | component noted hx hx' hrest ih =>
    rw [s.merged_component _ _ hx _ noted hrest.le_offset,
      s'.merged_component _ _ hx' _ noted hrest.symm.le_offset, hbehind, ih]

end DocPage.Document
