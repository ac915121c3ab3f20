import DocPage.Proofs.Render.Anchors

/-!
# The anchor of each heading

The renderer keeps the slugs of the headings whose anchors it has derived, from one call to the
next. So the anchor of a heading can be told from the headings that were closed in front of it: it
is its own slug when the heading names one, and otherwise the slug of its title, numbered by the
earlier headings of the same slug that name none. The invariant is that the slugs kept are those of
the headings closed so far, in reverse.

## Architecture

- **Closed headings**: `closed?`, `closedIn` and `closedHeadings`, what events close
- **Completions**: `completionsOf`, what closed headings become one after another
- **Sessions**: `sessionHistory_eq`, and the anchor of each heading of a renderer
-/

namespace DocPage.Render

open Markdown (Event)
open Outline (Heading)

/-! ## Closed headings -/

namespace OpenHeading

/-- The title of the heading, and the slug that it names. -/
def parts (h : OpenHeading) : Text × Option Text :=
  Outline.splitAnchor (Text.trim h.text)

/-- The slug of the title, for a heading that names no slug. -/
def derivedSlug? (h : OpenHeading) : Option Text :=
  match h.parts with
  | (_, some _) => none
  | (title, none) => some (Outline.slugOf title)

/-- What a closed heading becomes behind headings with derived slugs. -/
theorem headingOf_eq (earlier : List Text) (h : OpenHeading) :
    State.headingOf earlier h =
      (⟨h.parts.1, h.parts.2.getD (anchorAt (Outline.slugOf h.parts.1)
        (earlier.count (Outline.slugOf h.parts.1))), h.level⟩, h.derivedSlug?) := by
  unfold State.headingOf derivedSlug? parts
  -- The title decides: it names a slug, or one is derived and counted.
  cases Outline.splitAnchor (Text.trim h.text) with
  | mk title explicit =>
    cases explicit with
    | some slug => rfl
    | none => simp [numberedAnchor_eq]

end OpenHeading

/-- The heading that an event closes. -/
def closed? (s : State) : Event → Option OpenHeading
  | .stop .heading => s.heading
  | _ => none

/-- The headings that a run closes, up to the event that fails. -/
def closedIn (settings : Settings) : State → List Event → List OpenHeading
  | _, [] => []
  | s, event :: rest =>
    match step settings s event with
    | .ok next => (closed? s event).toList ++ closedIn settings next rest
    | .error _ => []

/-- The headings that a renderer closes in one call after another. -/
def closedHeadings (settings : Settings) : State → List (List Event) → List OpenHeading
  | _, [] => []
  | s, events :: calls =>
    closedIn settings s events ++ closedHeadings settings (render settings s events).2 calls

/-! ## Completions -/

/-- What headings become when they are closed one after another, behind others with the slugs in
`earlier`. -/
def completionsOf : (earlier : List Text) → List OpenHeading → List Completion
  | _, [] => []
  | earlier, h :: rest =>
    State.headingOf earlier h :: completionsOf (h.derivedSlug?.toList ++ earlier) rest

/-- The slugs of closed headings, the last one first. -/
def slugsBehind (closed : List OpenHeading) (earlier : List Text) : List Text :=
  (closed.filterMap OpenHeading.derivedSlug?).reverse ++ earlier

theorem completionsOf_append (earlier : List Text) (front back : List OpenHeading) :
    completionsOf earlier (front ++ back) =
      completionsOf earlier front ++ completionsOf (slugsBehind front earlier) back := by
  -- Along the headings in front, each of which may leave a slug for those behind.
  induction front generalizing earlier with
  | nil => rfl
  | cons h front ih =>
    have hslugs : slugsBehind front (h.derivedSlug?.toList ++ earlier) =
        slugsBehind (h :: front) earlier := by
      unfold slugsBehind
      cases hslug : h.derivedSlug? <;> simp [hslug]
    rw [List.cons_append, completionsOf, ih, hslugs]
    rfl

theorem slugsOf_completionsOf (earlier : List Text) (closed : List OpenHeading) :
    slugsOf (completionsOf earlier closed) = closed.filterMap OpenHeading.derivedSlug? := by
  induction closed generalizing earlier with
  | nil => rfl
  | cons h closed ih =>
    have hslug : (State.headingOf earlier h).2 = h.derivedSlug? := by rw [h.headingOf_eq]
    unfold slugsOf at ih ⊢
    rw [completionsOf, List.filterMap_cons, List.filterMap_cons, hslug, ih]

theorem length_completionsOf (earlier : List Text) (closed : List OpenHeading) :
    (completionsOf earlier closed).length = closed.length := by
  induction closed generalizing earlier with
  | nil => rfl
  | cons h closed ih => rw [completionsOf, List.length_cons, ih, List.length_cons]

/-- A heading among closed ones becomes what the slugs in front of it make of it. -/
theorem getElem?_completionsOf (front : List OpenHeading) (h : OpenHeading)
    (back : List OpenHeading) :
    (completionsOf [] (front ++ h :: back))[front.length]? =
      some (State.headingOf (slugsBehind front []) h) := by
  -- The headings in front fill the positions below, so the next position is its own.
  rw [completionsOf_append, List.getElem?_append_right (length_completionsOf [] front).le,
    length_completionsOf, Nat.sub_self]
  rfl

/-- Counting a slug among those kept is counting the headings that it was derived for. -/
theorem count_slugsBehind (front : List OpenHeading) (slug : Text) :
    (slugsBehind front []).count slug =
      front.countP fun e => e.parts.2 = none ∧ Outline.slugOf e.parts.1 = slug := by
  rw [slugsBehind, List.append_nil, List.count_reverse, List.count, List.countP_filterMap]
  -- Only a heading that names no slug has left one.
  refine List.countP_congr fun e _ => ?_
  unfold OpenHeading.derivedSlug?
  cases e.parts with
  | mk title explicit => cases explicit <;> simp

/-! ## Sessions -/

section Sessions

variable (settings : Settings) (s : State)

theorem completion?_eq (event : Event) :
    (completion? s event).toList = completionsOf s.derivedSlugs (closed? s event).toList := by
  -- Only the end of a heading closes one.
  cases event with
  | stop element =>
    cases element with
    | heading =>
      show (s.heading.map _).toList = completionsOf _ s.heading.toList
      cases s.heading <;> rfl
    | _ => rfl
  | _ => rfl

/-- **A step keeps the slug of the heading that it closes.** -/
theorem derivedSlugs_of_step {settings : Settings} {s next : State} {event : Event}
    (h : step settings s event = .ok next) :
    next.derivedSlugs = slugsBehind (closed? s event).toList s.derivedSlugs := by
  rw [derivedSlugs_step h, completion?_eq, slugsOf_completionsOf]
  rfl

theorem history_eq (events : List Event) :
    history settings s events = completionsOf s.derivedSlugs (closedIn settings s events) := by
  -- As long as the steps succeed; a failing step ends both lists.
  induction events generalizing s with
  | nil => rfl
  | cons event rest ih =>
    unfold history closedIn
    cases hstep : step settings s event with
    | error e => rfl
    | ok next =>
      -- The rest of the run goes on behind the slug of the heading that the step closes.
      have hrest := ih next
      rw [derivedSlugs_of_step hstep] at hrest
      rw [completionsOf_append, ← completion?_eq, ← hrest]

/-- **A run keeps the slugs of the headings that it closes**, also when it fails. -/
theorem derivedSlugs_run (events : List Event) :
    (run settings s events).2.derivedSlugs =
      slugsBehind (closedIn settings s events) s.derivedSlugs := by
  rw [(numbered_run settings s events).2, history_eq, slugsOf_completionsOf]
  rfl

/-- What a renderer completes in all its calls is told from the headings that it closes. -/
theorem sessionHistory_eq (calls : List (List Event)) :
    sessionHistory settings s calls =
      completionsOf s.derivedSlugs (closedHeadings settings s calls) := by
  -- One call after another: what a call leaves is what the next one starts with.
  induction calls generalizing s with
  | nil => rfl
  | cons events calls ih =>
    rw [sessionHistory, closedHeadings, completionsOf_append, ih, history_eq, derivedSlugs_render,
      derivedSlugs_run]

end Sessions

/-- **The anchor of a heading is told from those in front of it.**

Over any calls of a renderer, whether they fail or not, the headings of all pages and those that
wait for the next page are the headings that were closed, in order. Each has the slug that it names
as its anchor. The anchor of one that names none is the slug of its title when no earlier heading
that names none has this slug, and otherwise the slug, a hyphen and the number of those headings. -/
theorem anchor_counts_earlier_headings (settings : Settings) (region : Body.Region)
    (processors : List Code.Processor) (calls : List (List Event)) :
    let closed := closedHeadings settings (fresh region processors) calls
    let headings := (answers settings (fresh region processors) calls).flatMap handedOver ++
      pending settings (fresh region processors) calls
    headings.length = closed.length ∧
    ∀ front h back, closed = front ++ h :: back →
      ∃ heading, headings[front.length]? = some heading ∧
        heading.title = h.parts.1 ∧ heading.depth = h.level ∧
        (∀ slug, h.parts.2 = some slug → heading.anchor = slug) ∧
        (h.parts.2 = none → heading.anchor = anchorAt (Outline.slugOf heading.title)
          (front.countP fun e =>
            e.parts.2 = none ∧ Outline.slugOf e.parts.1 = Outline.slugOf heading.title)) := by
  intro closed headings
  -- The headings of the pages and the pending ones together are those completed.
  have hheadings : headings = (completionsOf [] closed).map Prod.fst := by
    have hsession := headings_of_session settings (fresh region processors) .done calls
    rw [sessionHistory_eq] at hsession
    exact hsession
  refine ⟨?_, fun front h back hclosed => ?_⟩
  · rw [hheadings, List.length_map, length_completionsOf]
  · -- The heading was completed with the slugs that those in front of it left.
    refine ⟨(State.headingOf (slugsBehind front []) h).1, ?_, ?_⟩
    · rw [hheadings, hclosed, List.getElem?_map, getElem?_completionsOf]
      rfl
    rw [h.headingOf_eq]
    refine ⟨rfl, rfl, fun slug hslug => ?_, fun hnone => ?_⟩
    · show h.parts.2.getD _ = slug
      rw [hslug]
      rfl
    · show h.parts.2.getD _ = _
      rw [hnone, count_slugsBehind]
      rfl

/-- A heading with the slug `a` in front of two headings whose title has this slug. -/
example :
    let heading := fun title : Text =>
      [Event.start (.heading 1), .text title, .stop .heading]
    (answers {} (fresh .before []) [heading "A [[a]]".toList, heading "A".toList,
      heading "a!".toList]).flatMap handedOver =
      [⟨"A".toList, "a".toList, 1⟩, ⟨"A".toList, "a".toList, 1⟩,
        ⟨"a!".toList, "a-1".toList, 1⟩] := by
  decide +kernel

end DocPage.Render
