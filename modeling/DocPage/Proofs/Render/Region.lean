import DocPage.Proofs.Body.Sentinel
import DocPage.Render.Step

/-!
# The region of the renderer

The region moves at sentinels only, and a sentinel counts when it is a whole text, or a whole chunk
of raw HTML, at a place where it is not swallowed: `heard?` says which events these are. So the
region after a run is known from the sentinels heard. It is the region that a reader of the bare
contents would be in when no event holds a sentinel that is not heard, and none is spelled by two
events together.

## Architecture

- **Hearing**: `heard?`, and what a step does to the region
- **Runs**: `heardAll`, and the region after a run
- **Contents**: `Attentive`, the condition under which the contents say the same
-/

namespace DocPage.Render

open Body (Region Sentinel)
open Markdown (Event)

/-! ## Hearing -/

/-- The text that an event brings, as text, as code or as raw HTML. -/
def content : Event → Text
  | .text t | .code t | .html t => t
  | _ => []

/-- The contents of events, joined. -/
def contents (events : List Event) : Text :=
  events.flatMap content

/-- The sentinel that the renderer takes an event for. -/
def heard? (s : State) : Event → Option Sentinel
  | .text t =>
    if s.code.isSome || s.image.isSome || s.heading.isSome then none else Sentinel.ofChunk? t
  | .html t => if s.heading.isSome then none else Sentinel.ofChunk? t
  | _ => none

/-- What is heard is all that the event says. -/
theorem all_content_of_heard {s : State} {event : Event} {sentinel : Sentinel}
    (h : heard? s event = some sentinel) : Sentinel.all (content event) = [sentinel] := by
  -- The event is heard only when its content as a whole is taken for a sentinel.
  cases event with
  | text t | html t =>
    simp only [heard?] at h
    split at h
    · cases h
    · exact Sentinel.all_of_ofChunk? h
  | _ => cases h

/-- The region and the slugs that gave anchors are as they were. -/
structure Steady (s next : State) : Prop where
  region : next.region = s.region
  derivedSlugs : next.derivedSlugs = s.derivedSlugs

namespace State

theorem steady_writeInline (s : State) (t : Text) : Steady s (s.writeInline t) := by
  unfold writeInline
  split <;> exact ⟨rfl, rfl⟩

theorem region_text (s : State) (t : Text) :
    (s.text t).region = (heard? s (.text t)).toList.foldl Region.pass s.region := by
  -- The text is asked for a sentinel only when nothing else takes it.
  unfold text heard?
  cases hcode : s.code with
  | some code => simp
  | none =>
    cases himage : s.image with
    | some image => simp
    | none =>
      cases hheading : s.heading with
      | some heading => simp [addToHeading]
      | none => cases hchunk : Sentinel.ofChunk? t <;> simp [write, hchunk]

theorem region_rawMarkup (settings : Settings) (s : State) (t : Text) :
    (s.rawMarkup settings t).region = (heard? s (.html t)).toList.foldl Region.pass s.region := by
  unfold rawMarkup heard?
  -- In a heading raw markup is not looked at.
  cases hheading : s.heading with
  | some heading => simp
  | none => cases hchunk : Sentinel.ofChunk? t <;> simp [write, hchunk]

theorem steady_codeSpan (s : State) (t : Text) : Steady s (s.codeSpan t) := by
  unfold codeSpan
  split <;> exact ⟨rfl, rfl⟩

theorem steady_math {settings : Settings} {s next : State} {tex : Text} {display : Bool}
    (h : s.math settings tex display = .ok next) : Steady s next := by
  unfold math at h
  split at h
  · cases h
    exact ⟨rfl, rfl⟩
  · split at h
    · cases h
      exact ⟨rfl, rfl⟩
    · cases h

theorem steady_softBreak (s : State) : Steady s s.softBreak := by
  unfold softBreak
  split <;> exact ⟨rfl, rfl⟩

theorem steady_start (s : State) (element : Markdown.Start) : Steady s (s.start element) := by
  cases element with
  | blockQuote alert => cases alert <;> exact ⟨rfl, rfl⟩
  | codeBlock kind => cases kind <;> exact ⟨rfl, rfl⟩
  | list first => match first with
    | none | some 0 | some 1 | some (_ + 2) => exact ⟨rfl, rfl⟩
  | emphasis | strong | strikethrough | superscript | subscript | link =>
    exact s.steady_writeInline _
  | _ => exact ⟨rfl, rfl⟩

theorem steady_closeParagraph (s : State) : Steady s s.closeParagraph := by
  unfold closeParagraph
  split <;> exact ⟨rfl, rfl⟩

theorem region_closeHeading (s : State) : s.closeHeading.region = s.region := by
  unfold closeHeading
  split <;> rfl

theorem steady_closeImage (s : State) : Steady s s.closeImage := by
  unfold closeImage
  split
  · exact ⟨rfl, rfl⟩
  · next image _ =>
    -- The image is closed first, which touches neither.
    have hwrite := steady_writeInline { s with image := none } (imageMarkup s.region image)
    exact ⟨hwrite.region, hwrite.derivedSlugs⟩

theorem steady_closeQuote (s : State) : Steady s s.closeQuote := by
  unfold closeQuote
  split <;> exact ⟨rfl, rfl⟩

/-- The end of an element, but that of a heading. -/
theorem steady_stop (s : State) {element : Markdown.End} (h : element ≠ .heading) :
    Steady s (s.stop element) := by
  cases element with
  | paragraph => exact s.steady_closeParagraph
  | heading => exact absurd rfl h
  | blockQuote => exact s.steady_closeQuote
  | image => exact s.steady_closeImage
  | emphasis | strong | strikethrough | superscript | subscript | link =>
    exact s.steady_writeInline _
  | _ => exact ⟨rfl, rfl⟩

theorem region_stop (s : State) (element : Markdown.End) : (s.stop element).region = s.region := by
  -- The end of a heading adds a slug, so of the two it keeps the region only.
  by_cases h : element = .heading
  · rw [h]
    exact s.region_closeHeading
  · exact (s.steady_stop h).region

end State

/-- **A step moves the region by the sentinel that it hears.** -/
theorem region_step {settings : Settings} {s next : State} {event : Event}
    (h : step settings s event = .ok next) :
    next.region = (heard? s event).toList.foldl Region.pass s.region := by
  cases event with
  | math tex display => exact (State.steady_math h).region
  | start element =>
    cases h
    exact (s.steady_start element).region
  | stop element =>
    cases h
    exact s.region_stop element
  | text t =>
    cases h
    exact s.region_text t
  | code t =>
    cases h
    exact (s.steady_codeSpan t).region
  | html t =>
    cases h
    exact s.region_rawMarkup settings t
  | softBreak =>
    cases h
    exact s.steady_softBreak.region
  | hardBreak =>
    cases h
    exact (s.steady_writeInline _).region
  | footnoteReference | taskMarker | rule =>
    cases h
    rfl

/-! ## Runs -/

/-- The sentinels that a run hears, up to the event that fails. -/
def heardAll (settings : Settings) : State → List Event → List Sentinel
  | _, [] => []
  | s, event :: rest =>
    match step settings s event with
    | .ok next => (heard? s event).toList ++ heardAll settings next rest
    | .error _ => []

/-- **The region after a run is that after the sentinels heard in it.** -/
theorem region_run (settings : Settings) (s : State) (events : List Event) :
    (run settings s events).2.region = (heardAll settings s events).foldl Region.pass s.region := by
  -- Each step moves the region by what it hears, so the run moves it by all of that.
  induction events generalizing s with
  | nil => rfl
  | cons event rest ih =>
    unfold run heardAll
    cases hstep : step settings s event with
    | error e => rfl
    | ok next => rw [List.foldl_append, ← region_step hstep, ih]

/-! ## Contents -/

/-- No sentinel is missed: an event that holds one is heard, and no event ends inside a sentinel. -/
def Attentive (settings : Settings) : State → List Event → Prop
  | _, [] => True
  | s, event :: rest =>
    (heard? s event = none → Sentinel.all (content event) = []) ∧
      Sentinel.Unsplit (content event) ∧
      match step settings s event with
      | .ok next => Attentive settings next rest
      | .error _ => True

instance decidableAttentive (settings : Settings) :
    (s : State) → (events : List Event) → Decidable (Attentive settings s events)
  | _, [] => .isTrue trivial
  | s, event :: rest =>
    match hstep : step settings s event with
    -- The condition at a step mentions the next state, so the instance follows the step.
    | .ok next =>
      have := decidableAttentive settings next rest
      decidable_of_iff
        ((heard? s event = none → Sentinel.all (content event) = []) ∧
          Sentinel.Unsplit (content event) ∧ Attentive settings next rest)
        (by simp only [Attentive, hstep])
    | .error _ =>
      decidable_of_iff
        ((heard? s event = none → Sentinel.all (content event) = []) ∧
          Sentinel.Unsplit (content event) ∧ True)
        (by simp only [Attentive, hstep])

/-- Where no sentinel is missed, the sentinels heard are those of the contents. -/
theorem heardAll_eq_all_contents {settings : Settings} {s last : State} {events : List Event}
    (hattentive : Attentive settings s events) (hrun : run settings s events = (none, last)) :
    heardAll settings s events = Sentinel.all (contents events) := by
  induction events generalizing s with
  | nil => rfl
  | cons event rest ih =>
    obtain ⟨hmissed, hunsplit, hrest⟩ := hattentive
    unfold run at hrun
    unfold heardAll contents
    rw [List.flatMap_cons, hunsplit.all_append]
    cases hstep : step settings s event with
    | error e =>
      rw [hstep] at hrun
      cases hrun
    | ok next =>
      rw [hstep] at hrun hrest
      -- An event that is heard says its sentinel and no more; any other says none.
      have hfirst : (heard? s event).toList = Sentinel.all (content event) := by
        cases hheard : heard? s event with
        | none => exact (hmissed hheard).symm
        | some sentinel => exact (all_content_of_heard hheard).symm
      exact congrArg₂ (· ++ ·) hfirst (ih hrest hrun)

/-- Where no sentinel is missed, the region after a run is that after the contents. -/
theorem region_run_of_attentive {settings : Settings} {s last : State} {events : List Event}
    (hattentive : Attentive settings s events) (hrun : run settings s events = (none, last)) :
    last.region = s.region.advance (contents events) := by
  -- Both are the region moved by one list of sentinels.
  have hregion := region_run settings s events
  rwa [hrun, heardAll_eq_all_contents hattentive hrun] at hregion

end DocPage.Render
