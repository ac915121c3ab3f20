import DocPage.Proofs.Text.Search
import DocPage.Render.Step

/-!
# What an event does to the page

Nearly every event only adds text at the end of the page. Two do something else: the end of a
heading adds its component and notes the heading, and the end of an empty paragraph takes the start
tag of that paragraph away again. `step_cases` says so once for all events, and proofs about the
page go through it instead of through the events.

## Architecture

- **Appending**: `Appends`, with one lemma for each operation of the state
- **Completed headings**: `completed?` tells which heading an event completes
- **Steps**: `step_cases`
- **Runs**: a run of two lists of events is a run of one behind the other
-/

namespace DocPage.Render

open Markdown (Event)

/-! ## Appending -/

/-- Text was added at the end of the page, and no heading was noted. -/
structure Appends (s next : State) : Prop where
  output : ∃ added, next.output = s.output ++ added
  headings : next.headings = s.headings

/-- Other fields of the state do not matter. -/
theorem Appends.of_eq {s changed next : State} (h : Appends changed next)
    (ho : changed.output = s.output) (hh : changed.headings = s.headings) : Appends s next :=
  ⟨ho ▸ h.output, hh ▸ h.headings⟩

namespace State

theorem appends_self (s : State) : Appends s s :=
  ⟨⟨[], by simp⟩, rfl⟩

theorem appends_write (s : State) (t : Text) : Appends s (s.write t) :=
  ⟨⟨t, rfl⟩, rfl⟩

theorem appends_writeInline (s : State) (t : Text) : Appends s (s.writeInline t) := by
  unfold writeInline
  split
  · exact s.appends_self
  · exact s.appends_write t

theorem appends_addToHeading (s : State) (t : Text) : Appends s (s.addToHeading t) :=
  ⟨⟨[], by simp [addToHeading]⟩, rfl⟩

theorem appends_text (s : State) (t : Text) : Appends s (s.text t) := by
  unfold text
  -- The text is kept for a code block, an image or a heading, moves the region, or is written.
  split
  · exact ⟨⟨[], by simp⟩, rfl⟩
  · split
    · exact ⟨⟨[], by simp⟩, rfl⟩
    · split
      · exact s.appends_addToHeading t
      · split
        · exact ⟨⟨[], by simp⟩, rfl⟩
        · exact s.appends_write _

theorem appends_codeSpan (s : State) (t : Text) : Appends s (s.codeSpan t) := by
  unfold codeSpan
  split
  · exact s.appends_addToHeading t
  · exact s.appends_write _

theorem appends_rawMarkup (settings : Settings) (s : State) (t : Text) :
    Appends s (s.rawMarkup settings t) := by
  unfold rawMarkup
  -- In a heading raw markup is dropped, a sentinel is written as it is, and the rest may be
  -- escaped.
  split
  · exact s.appends_self
  · split
    · exact ⟨⟨t, rfl⟩, rfl⟩
    · exact s.appends_write _

theorem appends_math {settings : Settings} {s next : State} {tex : Text} {display : Bool}
    (h : s.math settings tex display = .ok next) : Appends s next := by
  unfold math at h
  -- In a heading the formula is kept for the title.
  split at h
  · cases h
    exact s.appends_addToHeading tex
  · split at h
    · cases h
      exact s.appends_write _
    · cases h

theorem appends_softBreak (s : State) : Appends s s.softBreak := by
  unfold softBreak
  split
  · exact s.appends_addToHeading [' ']
  · exact s.appends_write ['\n']

theorem appends_start (s : State) (element : Markdown.Start) : Appends s (s.start element) := by
  -- The cases apart are those that write in a line or write nothing.
  cases element with
  | blockQuote alert => cases alert <;> exact ⟨⟨_, rfl⟩, rfl⟩
  | codeBlock kind => cases kind <;> exact ⟨⟨[], by simp [start]⟩, rfl⟩
  | list first =>
    match first with
    | none | some 0 | some 1 | some (_ + 2) => exact s.appends_write _
  | emphasis | strong | strikethrough | superscript | subscript | link =>
    exact s.appends_writeInline _
  | heading | image => exact ⟨⟨[], by simp [start]⟩, rfl⟩
  | footnoteDefinition | htmlBlock | metadataBlock => exact s.appends_self
  | _ => exact ⟨⟨_, rfl⟩, rfl⟩

theorem appends_closeCodeBlock (s : State) : Appends s s.closeCodeBlock :=
  ⟨⟨_, rfl⟩, rfl⟩

theorem appends_closeImage (s : State) : Appends s s.closeImage := by
  unfold closeImage
  split
  · exact s.appends_self
  · exact (appends_writeInline _ _).of_eq rfl rfl

theorem appends_closeQuote (s : State) : Appends s s.closeQuote := by
  unfold closeQuote
  split <;> exact ⟨⟨_, rfl⟩, rfl⟩

/-- The end of any element but a paragraph and a heading only appends. -/
theorem appends_stop (s : State) {element : Markdown.End} (hp : element ≠ .paragraph)
    (hh : element ≠ .heading) : Appends s (s.stop element) := by
  -- The two ends that do more are excluded by the hypotheses.
  cases element with
  | paragraph => exact absurd rfl hp
  | heading => exact absurd rfl hh
  | blockQuote => exact s.appends_closeQuote
  | codeBlock => exact s.appends_closeCodeBlock
  | image => exact s.appends_closeImage
  | emphasis | strong | strikethrough | superscript | subscript | link =>
    exact s.appends_writeInline _
  | footnoteDefinition | htmlBlock | metadataBlock => exact s.appends_self
  | _ => exact ⟨⟨_, rfl⟩, rfl⟩

end State

/-! ## Steps -/

/-- The heading that an event completes: the end of a heading completes the open one. -/
def completed? (s : State) : Event → Option Outline.Heading
  | .stop .heading => s.heading.map fun h => (State.headingOf s.derivedSlugs h).1
  | _ => none

/-- What a step does to the page and to its headings: it appends, or it takes back the start tag of
a paragraph, or it writes a heading and notes where. -/
inductive PageStep (s : State) (event : Event) (next : State) : Prop where
  | append : Appends s next → completed? s event = none → PageStep s event next
  | drop : s.output = next.output ++ "<p>" → next.headings = s.headings →
      completed? s event = none → PageStep s event next
  | heading {heading : Outline.Heading} : completed? s event = some heading →
      next.output = s.output ++ State.headingComponent heading →
      next.headings = s.headings ++ [⟨Text.byteSize s.output, heading⟩] → PageStep s event next

theorem pageStep_closeParagraph (s : State) :
    PageStep s (.stop .paragraph) s.closeParagraph := by
  unfold State.closeParagraph
  split
  · next output houtput =>
    -- Nothing was written since the start tag, which is taken back.
    exact .drop ((Text.dropSuffix?_eq_some_iff).mp houtput) rfl rfl
  · exact .append (s.appends_write _) rfl

theorem pageStep_closeHeading (s : State) : PageStep s (.stop .heading) s.closeHeading := by
  unfold State.closeHeading
  split
  · next hnone => exact .append s.appends_self (by simp [completed?, hnone])
  · next h hsome =>
    have hcompleted : completed? s (.stop .heading) =
        some (State.headingOf s.derivedSlugs h).1 := by
      simp [completed?, hsome]
    exact .heading hcompleted rfl List.concat_eq_append

theorem pageStep_stop (s : State) (element : Markdown.End) :
    PageStep s (.stop element) (s.stop element) := by
  -- The ends of paragraphs and headings are the two that do not only append.
  by_cases hp : element = .paragraph
  · subst hp
    exact pageStep_closeParagraph s
  · by_cases hh : element = .heading
    · subst hh
      exact pageStep_closeHeading s
    · refine .append (s.appends_stop hp hh) ?_
      cases element with
      | heading => exact absurd rfl hh
      | _ => rfl

/-- **Every event moves the page in one of three ways.** -/
theorem step_cases {settings : Settings} {s next : State} {event : Event}
    (h : step settings s event = .ok next) : PageStep s event next := by
  -- Only math can fail; all other events give their state at once.
  cases event with
  | math tex display => exact .append (State.appends_math h) rfl
  | start element =>
    cases h
    exact .append (s.appends_start element) rfl
  | stop element =>
    cases h
    exact pageStep_stop s element
  | text t =>
    cases h
    exact .append (s.appends_text t) rfl
  | code t =>
    cases h
    exact .append (s.appends_codeSpan t) rfl
  | html t =>
    cases h
    exact .append (s.appends_rawMarkup settings t) rfl
  | footnoteReference =>
    cases h
    exact .append s.appends_self rfl
  | taskMarker checked =>
    cases h
    exact .append (s.appends_write _) rfl
  | softBreak =>
    cases h
    exact .append s.appends_softBreak rfl
  | hardBreak =>
    cases h
    exact .append (s.appends_writeInline _) rfl
  | rule =>
    cases h
    exact .append (s.appends_write _) rfl

/-! ## Runs -/

section Runs

variable {settings : Settings} {s next : State}

theorem run_append {a b : List Event} (h : run settings s a = (none, next)) :
    run settings s (a ++ b) = run settings next b := by
  -- Along the first list.
  induction a generalizing s with
  | nil =>
    cases h
    rfl
  | cons event a ih =>
    -- No step of `a` failed, so the run of both goes on behind each of them.
    unfold run at h
    rw [List.cons_append, run]
    cases hstep : step settings s event with
    | error e =>
      rw [hstep] at h
      cases h
    | ok s' =>
      rw [hstep] at h
      exact ih h

/-- Behind an event that fails, the run does not go on. -/
theorem run_append_of_failure {a : List Event} {e : RenderError} (b : List Event)
    (h : run settings s a = (some e, next)) : run settings s (a ++ b) = (some e, next) := by
  -- The failing event is behind the first one, or is the first one.
  induction a generalizing s with
  | nil => cases h
  | cons event a ih =>
    unfold run at h
    rw [List.cons_append, run]
    cases hstep : step settings s event with
    | error e' =>
      rw [hstep] at h
      exact h
    | ok s' =>
      rw [hstep] at h
      exact ih h

theorem run_singleton {event : Event} (h : step settings s event = .ok next) :
    run settings s [event] = (none, next) := by
  unfold run
  rw [h]
  rfl

end Runs

end DocPage.Render
