import DocPage.Proofs.Render.Headings
import DocPage.Proofs.Render.Region
import Mathlib.Data.List.Nodup

/-!
# Derived anchors

A heading without a slug of its own gets its anchor from its title: the first heading of a slug gets
the slug itself, a later one the slug and a number. The numbers are counted for each slug by itself,
so an anchor with a number can be the slug of another heading. This is the only way in which two
derived anchors coincide.

## Architecture

- **Numbering**: `anchorsOf`, and when its anchors are distinct
- **Completions**: `completion?`, and the slugs behind a step
- **Runs and sessions**: `history` and `sessionHistory`, which hold what is completed
- **Collisions**: when the derived anchors of a renderer are distinct, and headings for which they
  are not
-/

namespace DocPage.Render

open Markdown (Event)
open Outline (Heading)

/-! ## Numbering -/

/-- The anchor of a heading when `n` headings in front of it have the same slug. -/
def anchorAt (slug : Text) : (n : Nat) → Text
  | 0 => slug
  | n + 1 => slug ++ '-' :: Text.ofNat (n + 1)

theorem numberedAnchor_eq (earlier : List Text) (slug : Text) :
    numberedAnchor earlier slug = anchorAt slug (earlier.count slug) := by
  -- Only whether the slug came before matters, not how often.
  unfold numberedAnchor
  cases earlier.count slug <;> rfl

theorem anchorAt_of_pos (slug : Text) {n : Nat} (h : 0 < n) :
    anchorAt slug n = slug ++ '-' :: Text.ofNat n := by
  obtain ⟨n, rfl⟩ := Nat.exists_eq_succ_of_ne_zero (Nat.ne_of_gt h)
  rfl

/-- An anchor with a number determines the number and the slug. -/
theorem eq_of_numbered_eq {a b : Text} {n m : Nat}
    (h : a ++ '-' :: Text.ofNat n = b ++ '-' :: Text.ofNat m) : a = b ∧ n = m := by
  -- A number is written without hyphens, so the last hyphen is the one in front of it.
  have hdigits : Text.ofNat n = Text.ofNat m :=
    Text.eq_of_append_cons_eq h (Text.notMem_ofNat (by decide) n) (Text.notMem_ofNat (by decide) m)
  rw [hdigits] at h
  exact ⟨List.append_cancel_right h, Text.ofNat_injective hdigits⟩

/-- Two anchors are equal only when one of the slugs is the other anchor, with its number. -/
theorem cases_of_anchorAt_eq {a b : Text} {n m : Nat} (h : anchorAt a n = anchorAt b m) :
    (a, n) = (b, m) ∨ (0 < m ∧ a = b ++ '-' :: Text.ofNat m) ∨
      (0 < n ∧ b = a ++ '-' :: Text.ofNat n) := by
  -- An anchor with number zero is the slug itself, so the cases are which of the two has a number.
  rcases Nat.eq_zero_or_pos n with rfl | hn
  · rcases Nat.eq_zero_or_pos m with rfl | hm
    · exact .inl (congrArg (·, 0) h)
    · exact .inr (.inl ⟨hm, h.trans (anchorAt_of_pos b hm)⟩)
  · rcases Nat.eq_zero_or_pos m with rfl | hm
    · exact .inr (.inr ⟨hn, h.symm.trans (anchorAt_of_pos a hn)⟩)
    · rw [anchorAt_of_pos a hn, anchorAt_of_pos b hm] at h
      obtain ⟨rfl, rfl⟩ := eq_of_numbered_eq h
      exact .inl rfl

/-- The slugs, each with the number of times it came before, in `earlier` or in front. -/
def occurrences : (earlier slugs : List Text) → List (Text × Nat)
  | _, [] => []
  | earlier, slug :: rest => (slug, earlier.count slug) :: occurrences (slug :: earlier) rest

theorem mem_occurrences_iff {earlier slugs : List Text} {slug : Text} {n : Nat} :
    (slug, n) ∈ occurrences earlier slugs ↔
      earlier.count slug ≤ n ∧ n < earlier.count slug + slugs.count slug := by
  -- Along the slugs; the count in front grows with each of them.
  induction slugs generalizing earlier with
  | nil =>
    simp only [occurrences, List.not_mem_nil, List.count_nil, false_iff]
    omega
  | cons first rest ih =>
    rw [occurrences, List.mem_cons, ih]
    by_cases h : slug = first
    · -- One occurrence moves from the slugs to those in front.
      subst h
      simp only [Prod.mk.injEq, true_and, List.count_cons_self]
      omega
    · simp [h, List.count_cons_of_ne (Ne.symm h)]

theorem nodup_occurrences (earlier slugs : List Text) : (occurrences earlier slugs).Nodup := by
  induction slugs generalizing earlier with
  | nil => exact List.nodup_nil
  | cons slug rest ih =>
    refine List.nodup_cons.mpr ⟨fun hmem => ?_, ih (slug :: earlier)⟩
    -- Further on, the slug has come at least once more.
    have hle := ((mem_occurrences_iff).mp hmem).1
    rw [List.count_cons_self] at hle
    omega

/-- The anchors of headings with these slugs. -/
def anchorsOf (earlier slugs : List Text) : List Text :=
  (occurrences earlier slugs).map fun x => anchorAt x.1 x.2

theorem anchorsOf_cons (earlier : List Text) (slug : Text) (rest : List Text) :
    anchorsOf earlier (slug :: rest) =
      numberedAnchor earlier slug :: anchorsOf (slug :: earlier) rest := by
  rw [numberedAnchor_eq]
  rfl

/-- Two of the anchors coincide exactly when one with a number is itself one of the slugs. -/
theorem nodup_anchorsOf_iff {slugs : List Text} :
    (anchorsOf [] slugs).Nodup ↔
      ∀ slug n, 0 < n → n < slugs.count slug → slug ++ '-' :: Text.ofNat n ∉ slugs := by
  -- With nothing in front, the numbers of a slug are those below its count.
  have hmem : ∀ slug n, (slug, n) ∈ occurrences [] slugs ↔ n < slugs.count slug := by
    intro slug n
    simp [mem_occurrences_iff]
  rw [anchorsOf, List.nodup_map_iff_inj_on (nodup_occurrences [] slugs)]
  constructor
  · intro hinj slug n hpos hlt hslug
    -- The slug with a number and the first heading of that name have the same anchor.
    have hfirst : (slug ++ '-' :: Text.ofNat n, 0) ∈ occurrences [] slugs :=
      (hmem _ _).mpr (List.count_pos_iff.mpr hslug)
    have heq := hinj _ ((hmem slug n).mpr hlt) _ hfirst (anchorAt_of_pos slug hpos)
    have hn : n = 0 := congrArg Prod.snd heq
    omega
  · rintro hnone ⟨a, n⟩ ha ⟨b, m⟩ hb heq
    -- Conversely, two anchors of different occurrences need a slug that reads as a numbered anchor.
    rw [hmem] at ha hb
    have hslug : ∀ slug k, k < slugs.count slug → slug ∈ slugs := fun slug k hk =>
      List.count_pos_iff.mp (by omega)
    rcases cases_of_anchorAt_eq heq with hsame | ⟨hm, hplain⟩ | ⟨hn, hplain⟩
    · exact hsame
    · exact absurd (hplain ▸ hslug a n ha) (hnone b m hm hb)
    · exact absurd (hplain ▸ hslug b m hb) (hnone a n hn ha)

/-! ## Completions -/

/-- A completed heading, with the slug that its anchor is derived from; a heading with a slug of its
own has none. -/
abbrev Completion := Heading × Option Text

/-- What an event completes. -/
def completion? (s : State) : Event → Option Completion
  | .stop .heading => s.heading.map (State.headingOf s.derivedSlugs)
  | _ => none

theorem map_fst_completion? (s : State) (event : Event) :
    (completion? s event).map Prod.fst = completed? s event := by
  cases event with
  | stop element =>
    cases element with
    | heading => exact Option.map_map ..
    | _ => rfl
  | _ => rfl

def slugsOf (history : List Completion) : List Text :=
  history.filterMap Prod.snd

def derivedAnchors (history : List Completion) : List Text :=
  history.filterMap fun x => x.2.map fun _ => x.1.anchor

/-- An anchor is derived from the slug of the title and numbered by the slugs in front. -/
theorem eq_of_headingOf {earlier : List Text} {h : OpenHeading} {slug : Text}
    (hslug : (State.headingOf earlier h).2 = some slug) :
    slug = Outline.slugOf (State.headingOf earlier h).1.title ∧
      (State.headingOf earlier h).1.anchor = numberedAnchor earlier slug := by
  unfold State.headingOf at hslug ⊢
  -- Whether the title names a slug decides between the two kinds of anchor.
  cases hsplit : Outline.splitAnchor (Text.trim h.text) with
  | mk title explicit =>
    simp only [hsplit] at hslug ⊢
    cases explicit with
    | some own => cases hslug
    | none =>
      cases hslug
      exact ⟨rfl, rfl⟩

/-- Each of the headings is completed behind the slugs of those in front of it. -/
inductive Numbered : (earlier : List Text) → List Completion → Prop where
  | nil {earlier : List Text} : Numbered earlier []
  | cons {earlier : List Text} (h : OpenHeading) {rest : List Completion} :
      Numbered ((State.headingOf earlier h).2.toList ++ earlier) rest →
      Numbered earlier (State.headingOf earlier h :: rest)

namespace Numbered

variable {earlier : List Text} {front back : List Completion}

theorem append (hfront : Numbered earlier front)
    (hback : Numbered ((slugsOf front).reverse ++ earlier) back) :
    Numbered earlier (front ++ back) := by
  induction hfront with
  | nil => exact hback
  | @cons earlier h rest _ ih =>
    -- The slugs in front are listed last first, so the first of `front` comes in the middle.
    refine .cons h (ih ?_)
    unfold slugsOf at hback
    cases hslug : (State.headingOf earlier h).2 with
    | none => rwa [List.filterMap_cons_none hslug] at hback
    | some slug =>
      rw [List.filterMap_cons_some hslug, List.reverse_cons, List.append_assoc] at hback
      exact hback

theorem slug_eq (h : Numbered earlier front) :
    ∀ x ∈ front, ∀ slug ∈ x.2, slug = Outline.slugOf x.1.title := by
  -- Along the headings: what is said is about each of them by itself.
  induction h with
  | nil => exact fun _ hx => nomatch hx
  | cons h _ ih => exact List.forall_mem_cons.mpr ⟨fun slug hslug => (eq_of_headingOf hslug).1, ih⟩

theorem derivedAnchors_eq (h : Numbered earlier front) :
    derivedAnchors front = anchorsOf earlier (slugsOf front) := by
  -- A heading that names its slug adds to neither list, any other adds one to both.
  induction h with
  | nil => rfl
  | @cons earlier h rest _ ih =>
    unfold derivedAnchors slugsOf at ih ⊢
    cases hslug : (State.headingOf earlier h).2 with
    | none =>
      rw [hslug] at ih
      rw [List.filterMap_cons_none (by rw [hslug]; rfl), List.filterMap_cons_none hslug]
      exact ih
    | some slug =>
      rw [hslug] at ih
      rw [List.filterMap_cons_some (by rw [hslug]; rfl), List.filterMap_cons_some hslug,
        anchorsOf_cons, (eq_of_headingOf hslug).2]
      exact congrArg _ ih

end Numbered

/-! ## Steps and runs -/

section Runs

variable {settings : Settings} {s next : State}

theorem numbered_completion? (s : State) (event : Event) :
    Numbered s.derivedSlugs (completion? s event).toList := by
  unfold completion?
  split
  · cases s.heading with
    | none => exact .nil
    | some h => exact .cons h .nil
  · exact .nil

namespace State

theorem derivedSlugs_text (s : State) (t : Text) : (s.text t).derivedSlugs = s.derivedSlugs := by
  -- Wherever the text goes, the slugs are not touched.
  unfold text
  repeat' split
  all_goals rfl

theorem derivedSlugs_rawMarkup (settings : Settings) (s : State) (t : Text) :
    (s.rawMarkup settings t).derivedSlugs = s.derivedSlugs := by
  unfold rawMarkup
  repeat' split
  all_goals rfl

theorem derivedSlugs_closeHeading (s : State) :
    s.closeHeading.derivedSlugs =
      (slugsOf (completion? s (.stop .heading)).toList).reverse ++ s.derivedSlugs := by
  unfold closeHeading completion?
  cases s.heading with
  | none => rfl
  -- Only a derived slug is put in front of those kept.
  | some h =>
    cases hslug : (headingOf s.derivedSlugs h).2 <;>
      simp [write, slugsOf, hslug]

end State

/-- **A step adds the slug of the heading that it completes.** -/
theorem derivedSlugs_step {event : Event} (h : step settings s event = .ok next) :
    next.derivedSlugs = (slugsOf (completion? s event).toList).reverse ++ s.derivedSlugs := by
  cases event with
  | math tex display => exact (State.steady_math h).derivedSlugs
  | start element =>
    cases h
    exact (s.steady_start element).derivedSlugs
  | stop element =>
    cases h
    -- The end of a heading is the only event that completes something.
    by_cases hheading : element = .heading
    · subst hheading
      exact s.derivedSlugs_closeHeading
    · have hnone : completion? s (.stop element) = none := by
        cases element with
        | heading => exact absurd rfl hheading
        | _ => rfl
      rw [hnone]
      exact (s.steady_stop hheading).derivedSlugs
  | text t =>
    cases h
    exact s.derivedSlugs_text t
  | code t =>
    cases h
    exact (s.steady_codeSpan t).derivedSlugs
  | html t =>
    cases h
    exact s.derivedSlugs_rawMarkup settings t
  | softBreak =>
    cases h
    exact s.steady_softBreak.derivedSlugs
  | hardBreak =>
    cases h
    exact (s.steady_writeInline _).derivedSlugs
  | footnoteReference | taskMarker | rule =>
    cases h
    rfl

/-- What a run completes, up to the event that fails. -/
def history (settings : Settings) : State → List Event → List Completion
  | _, [] => []
  | s, event :: rest =>
    match step settings s event with
    | .ok next => (completion? s event).toList ++ history settings next rest
    | .error _ => []

theorem map_fst_history (settings : Settings) (s : State) (events : List Event) :
    (history settings s events).map Prod.fst = completions settings s events := by
  induction events generalizing s with
  | nil => rfl
  | cons event rest ih =>
    -- A step that fails ends both lists.
    unfold history completions
    cases step settings s event with
    | error e => rfl
    | ok next => rw [List.map_append, ih, ← Option.toList_map, map_fst_completion?]

/-- **A run adds the slugs of the headings that it completes**, and numbers them by those before. -/
theorem numbered_run (settings : Settings) (s : State) (events : List Event) :
    Numbered s.derivedSlugs (history settings s events) ∧
      (run settings s events).2.derivedSlugs =
        (slugsOf (history settings s events)).reverse ++ s.derivedSlugs := by
  induction events generalizing s with
  | nil => exact ⟨.nil, rfl⟩
  | cons event rest ih =>
    unfold history run
    cases hstep : step settings s event with
    | error e => exact ⟨.nil, rfl⟩
    | ok next =>
      -- The rest of the run numbers its headings behind what the step has completed.
      obtain ⟨hnumbered, hslugs⟩ := ih next
      rw [derivedSlugs_step hstep] at hnumbered hslugs
      refine ⟨(numbered_completion? s event).append hnumbered, hslugs.trans ?_⟩
      unfold slugsOf
      rw [List.filterMap_append, List.reverse_append, List.append_assoc]

end Runs

/-! ## Sessions -/

section Sessions

variable (settings : Settings) (s : State)

theorem derivedSlugs_render (events : List Event) :
    (render settings s events).2.derivedSlugs = (run settings s events).2.derivedSlugs := by
  unfold render
  split
  · next last hlast => rw [hlast]
  · next e last hlast => rw [hlast]

/-- What a renderer completes in one call after another. -/
def sessionHistory : State → List (List Event) → List Completion
  | _, [] => []
  | s, events :: calls =>
    history settings s events ++ sessionHistory (render settings s events).2 calls

theorem numbered_sessionHistory (calls : List (List Event)) :
    Numbered s.derivedSlugs (sessionHistory settings s calls) := by
  -- One call after another, with the state that each call leaves.
  induction calls generalizing s with
  | nil => exact .nil
  | cons events calls ih =>
    obtain ⟨hnumbered, hslugs⟩ := numbered_run settings s events
    have hrest := ih (render settings s events).2
    rw [derivedSlugs_render, hslugs] at hrest
    exact hnumbered.append hrest

/-- The headings that an answer hands over. -/
def handedOver : Except RenderError Page → List Heading
  | .ok page => page.headings.map Entry.heading
  | .error _ => []

/-- The headings that are completed and not handed over when the calls are over. -/
def pending : State → List (List Event) → List Heading
  | s, [] => s.headings.map Entry.heading
  | s, events :: calls => pending (render settings s events).2 calls

/-- The headings of all pages, and those that wait for the next page, are those completed. -/
theorem headings_of_session (hp : Placed 0 s.output s.headings) (calls : List (List Event)) :
    (answers settings s calls).flatMap handedOver ++ pending settings s calls =
      s.headings.map Entry.heading ++ (sessionHistory settings s calls).map Prod.fst := by
  -- The notes of one call are what the next one starts with.
  induction calls generalizing s with
  | nil => exact (List.append_nil _).symm
  | cons events calls ih =>
    obtain ⟨hplaced, hnoted⟩ := placed_render settings events hp
    have hrest := ih _ hplaced
    rw [hnoted] at hrest
    rw [answers, pending, sessionHistory, List.flatMap_cons, List.append_assoc, hrest,
      List.map_append, map_fst_history, ← List.append_assoc, ← List.append_assoc]
    congr 1
    -- A page that is handed over takes all headings with it; a failed call keeps them.
    cases hanswer : (render settings s events).1 with
    | error e => rfl
    | ok page =>
      have hpage := (placed_of_render hp hanswer).2
      exact (List.append_nil _).trans hpage

/-- What a new renderer completes in its calls. -/
def completedBy (region : Body.Region) (processors : List Code.Processor)
    (calls : List (List Event)) : List Completion :=
  sessionHistory settings (fresh region processors) calls

end Sessions

/-- **When the derived anchors of a renderer are distinct.**

For every sequence of calls, take the headings of all pages and those that wait for the next one, in
the order in which they are completed, each with the slug that its anchor is derived from. The
derived anchors are distinct if and only if no slug that comes more than `n` times, followed by a
hyphen and the number `n`, is itself the slug of one of the headings. -/
theorem derived_anchors_distinct_iff (settings : Settings) (region : Body.Region)
    (processors : List Code.Processor) (calls : List (List Event)) :
    (answers settings (fresh region processors) calls).flatMap handedOver ++
        pending settings (fresh region processors) calls =
      (completedBy settings region processors calls).map Prod.fst ∧
    (∀ x ∈ completedBy settings region processors calls, ∀ slug ∈ x.2,
      slug = Outline.slugOf x.1.title) ∧
    ((derivedAnchors (completedBy settings region processors calls)).Nodup ↔
      ∀ slug n, 0 < n → n < (slugsOf (completedBy settings region processors calls)).count slug →
        slug ++ '-' :: Text.ofNat n ∉ slugsOf (completedBy settings region processors calls)) := by
  -- All anchors are numbered from the first call on, so they are the anchors of the slugs.
  have hnumbered := numbered_sessionHistory settings (fresh region processors) calls
  refine ⟨headings_of_session settings (fresh region processors) .done calls,
    hnumbered.slug_eq, ?_⟩
  unfold completedBy
  rw [hnumbered.derivedAnchors_eq]
  exact nodup_anchorsOf_iff

/-- Two headings of one title, and one whose title looks like the anchor of the second. -/
def numberedTitles : List Event :=
  ["FAQ".toList, "FAQ".toList, "FAQ-1".toList].flatMap fun title =>
    [.start (.heading 1), .text title, .stop .heading]

/-- The second and the third heading get the same anchor; all anchors are derived. -/
theorem numbered_anchor_taken_twice :
    (answers {} (fresh .before []) [numberedTitles]).flatMap handedOver =
      [⟨"FAQ".toList, "faq".toList, 1⟩, ⟨"FAQ".toList, "faq-1".toList, 1⟩,
        ⟨"FAQ-1".toList, "faq-1".toList, 1⟩] ∧
      (completedBy {} .before [] [numberedTitles]).map Prod.snd =
        ["faq".toList, "faq".toList, "faq-1".toList].map some ∧
      ¬ (derivedAnchors (completedBy {} .before [] [numberedTitles])).Nodup := by
  decide +kernel

end DocPage.Render
