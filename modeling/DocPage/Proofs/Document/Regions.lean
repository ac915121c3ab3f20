import DocPage.Proofs.Document.Passes
import DocPage.Proofs.Render.Region

/-!
# The region of a tag, and that of its placeholder

A tag is given the region behind all the text in front of it. Its placeholder is met later by the
renderer, which reads the substituted text as Markdown and moves its own region. The two are the
same when no earlier match holds a sentinel, and when the renderer misses none of the sentinels in
front of the placeholder. A sentinel inside inline code is missed, and then they differ.

## Architecture

- **Fronts**: what stands in front of the placeholder of a match, and the sentinels in it
- **Agreement**: `regions_agree`, for events and for tags
-/

namespace DocPage.Document

open Body (Region Sentinel)
open Markdown (Event)
open Render (Attentive contents heardAll)
open Tag (Span Segment)
open Text (Bracketed)

/-! ## Fronts -/

theorem all_placeholder (index : Nat) : Sentinel.all (placeholder index) = [] := by
  apply Sentinel.all_of_notMem
  intro hmem
  rcases List.mem_append.mp hmem with hmem | hclose
  · rcases List.mem_append.mp hmem with hstart | hdigit
    · exact absurd hstart (by decide)
    · exact Text.notMem_ofNat (by decide) index hdigit
  · exact absurd hclose (by decide)

/-- In front of the new text of a match stands what became of the text in front of the match. Where
the earlier matches and their new texts hold no sentinel, the two have the same sentinels, whatever
stands in front of both. -/
theorem exists_front {f : Text → Span → Assemble Text} {a a' : Assembly} {before t' b : Text}
    {segments : List Segment} {earlier later : List (Text × Span)} {s : Span}
    (hrun : (Tag.substituteSegments f before segments).run a = .ok (t', a'))
    (hmatches : Tag.located before segments = earlier ++ (b, s) :: later) :
    ∃ front new rest a₁ a₂, t' = front ++ new ++ rest ∧ (f b s).run a₁ = .ok (new, a₂) ∧
      ((∀ before span a new a', (f before span).run a = .ok (new, a') →
          Bracketed new ∧ Sentinel.all new = []) →
        (∀ m ∈ earlier, Bracketed m.2.source ∧ Sentinel.all m.2.source = []) →
        ∃ middle, b = before ++ middle ∧
          ∀ u, Sentinel.all (u ++ front) = Sentinel.all (u ++ middle)) := by
  -- Along the segments up to the match. What the earlier matches left is part of the front.
  induction segments generalizing before a t' earlier with
  | nil => exact absurd hmatches.symm (List.append_ne_nil_of_right_ne_nil _ (List.cons_ne_nil _ _))
  | cons segment segments ih =>
    cases segment with
    | gap text =>
      -- The gap is copied, and belongs to both fronts.
      obtain ⟨tail, a₁, htail, hrun⟩ := exists_run_of_bind hrun
      cases hrun
      obtain ⟨front, new, rest, a₂, a₃, rfl, hnew, hsame⟩ := ih htail hmatches
      refine ⟨text ++ front, new, rest, a₂, a₃, by simp, hnew, fun hf hearlier => ?_⟩
      obtain ⟨middle, rfl, hall⟩ := hsame hf hearlier
      refine ⟨text ++ middle, by simp, fun u => ?_⟩
      rw [← List.append_assoc, ← List.append_assoc]
      exact hall (u ++ text)
    | span first =>
      obtain ⟨new, a₁, hfirst, hrun⟩ := exists_run_of_bind hrun
      obtain ⟨tail, a₂, htail, hrun⟩ := exists_run_of_bind hrun
      cases hrun
      cases earlier with
      | nil =>
        -- This is the match itself.
        obtain ⟨hhere, -⟩ := List.cons.inj hmatches
        cases hhere
        exact ⟨[], new, tail, a, a₁, rfl, hfirst, fun _ _ => ⟨[], by simp, fun _ => rfl⟩⟩
      | cons m earlier =>
        obtain ⟨rfl, hlater⟩ := List.cons.inj hmatches
        obtain ⟨front, new', rest, a₃, a₄, rfl, hnew, hsame⟩ := ih htail hlater
        refine ⟨new ++ front, new', rest, a₃, a₄, by simp, hnew, fun hf hearlier => ?_⟩
        obtain ⟨middle, rfl, hall⟩ := hsame hf fun m hm => hearlier m (List.mem_cons_of_mem _ hm)
        refine ⟨first.source ++ middle, by simp, fun u => ?_⟩
        -- Neither the earlier match nor its new text has a sentinel, and brackets set both apart.
        obtain ⟨hbracketed, hnone⟩ := hf _ _ _ _ _ hfirst
        obtain ⟨hbracketed', hnone'⟩ := hearlier _ List.mem_cons_self
        rw [← List.append_assoc, ← List.append_assoc, Sentinel.all_around hbracketed,
          Sentinel.all_around hbracketed', hnone, hnone']
        exact congrArg (Sentinel.all u ++ [] ++ ·) (hall [])

/-- Each match of a pass leaves the placeholder of what its transform makes in its region. -/
theorem exists_placeholder_of_tagPass {p : Tag.Pattern}
    {transform : Region → Span → Assemble Fragment} {region : Region} {t t' before : Text}
    {a a' : Assembly} {earlier later : List (Text × Span)} {span : Span}
    (hrun : (tagPass p transform region t).run a = .ok (t', a'))
    (hmatches : p.spans t = earlier ++ (before, span) :: later) :
    ∃ front index rest fragment a₁ a₂, t' = front ++ placeholder index ++ rest ∧
      (transform (region.advance before) span).run a₁ = .ok (fragment, a₂) ∧
      index = a₂.stash.components.length ∧
      ((∀ m ∈ earlier, Sentinel.all m.2.source = []) →
        Sentinel.all front = Sentinel.all before) := by
  -- A match leaves the placeholder that it is told by, whatever its transform did.
  have hnew : ∀ before span a new a',
      (do stash (← transform (region.advance before) span) : Assemble Text).run a = .ok (new, a') →
      Bracketed new ∧ Sentinel.all new = [] := by
    intro before span a new a' h
    obtain ⟨-, a₂, -, rfl, -⟩ := exists_stashed_of_match h
    exact ⟨bracketed_placeholder _, all_placeholder _⟩
  have hbracketed : ∀ m ∈ earlier, Bracketed m.2.source := by
    intro m hm
    -- The match is one of those that the pattern finds, so it stands between its brackets.
    have hfound : m ∈ p.spans t := by
      rw [hmatches]
      exact List.mem_append_left _ hm
    exact bracketed_of_mem_spans hfound
  obtain ⟨front, new, rest, a₁, a₂, rfl, hhere, hsame⟩ := exists_front hrun hmatches
  obtain ⟨fragment, a₃, hfragment, rfl, -⟩ := exists_stashed_of_match hhere
  refine ⟨front, _, rest, fragment, a₁, a₃, rfl, hfragment, rfl, fun hearlier => ?_⟩
  -- Behind nothing, the two fronts have the same sentinels.
  obtain ⟨middle, rfl, hall⟩ := hsame hnew fun m hm => ⟨hbracketed m hm, hearlier m hm⟩
  exact hall []

/-! ## Agreement -/

/-- **The region of a tag is that of the renderer at its placeholder, if no sentinel is missed.**

Whatever events the renderer is given, its region afterwards is that after the sentinels it heard;
where it misses none, it is that after the contents of the events.

In a pass over a text, each match has its transform run in the region behind the text in front of
it, and leaves a placeholder. When no earlier match holds a sentinel, the text in front of the
placeholder has the same sentinels. So a renderer that starts in the same region, and meets these
sentinels without missing one, is then in the region in which the transform was run. -/
theorem regions_agree (settings : Render.Settings) :
    (∀ (s last : Render.State) (events : List Event),
      Render.run settings s events = (none, last) →
        last.region = (heardAll settings s events).foldl Region.pass s.region ∧
        (Attentive settings s events → last.region = s.region.advance (contents events))) ∧
    ∀ (p : Tag.Pattern) (transform : Region → Span → Assemble Fragment) (region : Region)
      (t t' before : Text) (a a' : Assembly) (earlier later : List (Text × Span)) (span : Span),
      (tagPass p transform region t).run a = .ok (t', a') →
      p.spans t = earlier ++ (before, span) :: later →
        ∃ front index rest fragment a₁ a₂, t' = front ++ placeholder index ++ rest ∧
          (transform (region.advance before) span).run a₁ = .ok (fragment, a₂) ∧
          index = a₂.stash.components.length ∧
          ((∀ m ∈ earlier, Sentinel.all m.2.source = []) →
            Sentinel.all front = Sentinel.all before ∧
            ∀ (s last : Render.State) (met : List Event), s.region = region →
              Attentive settings s met → Sentinel.all (contents met) = Sentinel.all front →
              Render.run settings s met = (none, last) →
              last.region = region.advance before) := by
  constructor
  · intro s last events hrun
    -- What was heard is known for every run. That it is all that the events hold needs attention.
    have hheard := Render.region_run settings s events
    rw [hrun] at hheard
    exact ⟨hheard, fun hattentive => Render.region_run_of_attentive hattentive hrun⟩
  · intro p transform region t t' before a a' earlier later span hrun hmatches
    obtain ⟨front, index, rest, fragment, a₁, a₂, ht', hfragment, hindex, hsame⟩ :=
      exists_placeholder_of_tagPass hrun hmatches
    refine ⟨front, index, rest, fragment, a₁, a₂, ht', hfragment, hindex, fun hearlier => ?_⟩
    refine ⟨hsame hearlier, ?_⟩
    rintro s last met rfl hattentive hmet hrun
    -- Both regions are moved by the sentinels of the same texts.
    have hregion := Render.region_run_of_attentive hattentive hrun
    unfold Region.advance at hregion ⊢
    rw [hregion, hmet, hsame hearlier]

/-- The pass over variants for frameworks, from the start of a document. -/
def frameworkPass : Text → Assemble Text :=
  familyPass (fragment ⟨{}, false⟩) .frameworks .before

/-- The mark that starts the body, in a paragraph of its own. -/
def mark : Text := "HF_DOC_BODY_START\n\n".toList

/-- A variant that shows a brace. -/
def bracedVariant : Span where
  opening := "<frameworkcontent>"
  id := none
  body := "\n<pt>\n\x7bx\x7d\n</pt>\n"
  closing := "</frameworkcontent>"

/-- The events of the mark, up to the placeholder behind it. -/
def markEvents : List Event :=
  [.start .paragraph, .text "HF_DOC_BODY_START".toList, .stop .paragraph, .start .htmlBlock]

/-- A variant behind the mark is rendered inside the body, and its placeholder is met there. -/
theorem regions_agree_behind_mark : ∃ t' a' index post last,
    (frameworkPass (mark ++ bracedVariant.source)).run {} = .ok (t', a') ∧
      Markdown.eventsOf true t' = markEvents ++ .html (placeholder index) :: post ∧
      Render.run {} {} markEvents = (none, last) ∧ last.region = .inside ∧
      last.region = Region.before.advance mark := by
  -- The pass puts a placeholder behind the mark, and this is what the renderer is given.
  have houtcome : ((frameworkPass (mark ++ bracedVariant.source)).run {}).toOption.map Prod.fst =
      some (mark ++ placeholder 0) := by
    decide +kernel
  have hmatches : (Tag.Pattern.plain .frameworkContent).spans (mark ++ bracedVariant.source) =
      [] ++ (mark, bracedVariant) :: [] := by
    decide +kernel
  obtain ⟨⟨t', a'⟩, hpass, rfl⟩ := exists_ok_of_toOption houtcome
  obtain ⟨-, htags⟩ := regions_agree {}
  obtain ⟨front, index, rest, -, -, -, ht', -, -, hfront⟩ :=
    htags _ _ _ _ _ _ _ _ _ _ _ hpass hmatches
  obtain ⟨hsame, hregion⟩ := hfront fun _ hm => nomatch hm
  have hmet : Sentinel.all (contents markEvents) = Sentinel.all mark := by decide +kernel
  have hrun : Render.run {} {} markEvents = (none, (Render.run {} {} markEvents).2) :=
    Prod.ext rfl rfl
  have hlast := hregion {} _ markEvents rfl (by decide +kernel) (hmet.trans hsame.symm) hrun
  have hinside : Region.before.advance mark = .inside := by decide +kernel
  exact ⟨_, a', 0, [.stop .htmlBlock], _, hpass, by decide +kernel, hrun, hlast.trans hinside, hlast⟩

/-- A paragraph behind the mark that mentions the other mark, at which the body ends, as code. -/
def mention : Text := mark ++ "Ends at \x60HF_DOC_BODY_END\x60.\n\n".toList

/-- The events of the mention, up to the placeholder behind it. -/
def mentionEvents : List Event :=
  [.start .paragraph, .text "HF_DOC_BODY_START".toList, .stop .paragraph, .start .paragraph,
    .text "Ends at ".toList, .code "HF_DOC_BODY_END".toList, .text ".".toList, .stop .paragraph,
    .start .htmlBlock]

/-- A variant behind the mention is rendered behind the body, so that its brace is not hidden, but
its placeholder is met inside. The same events show that the region after a run need not be that
after their contents. -/
theorem regions_differ_behind_mention : ∃ t' a' post,
    (Tag.Pattern.plain .frameworkContent).spans (mention ++ bracedVariant.source) =
        [(mention, bracedVariant)] ∧
      (frameworkPass (mention ++ bracedVariant.source)).run {} = .ok (t', a') ∧
      Markdown.eventsOf true t' = mentionEvents ++ .html (placeholder 0) :: post ∧
      Region.before.advance mention = .after ∧
      Region.before.advance (contents mentionEvents) = .after ∧
      (Render.run {} {} mentionEvents).2.region = .inside := by
  have houtcome : ((frameworkPass (mention ++ bracedVariant.source)).run {}).toOption.map
      Prod.fst = some (mention ++ placeholder 0) := by
    decide +kernel
  obtain ⟨⟨t', a'⟩, hpass, rfl⟩ := exists_ok_of_toOption houtcome
  -- The first text is read to its end by the scan, so the region there has left the body.
  refine ⟨_, a', [.stop .htmlBlock], ?_, hpass, ?_, ?_, ?_, ?_⟩
  all_goals decide +kernel

end DocPage.Document
