import DocPage.Proofs.Render.Frame

/-!
# Calls of a renderer compose

A renderer that is called twice gives the two parts of the page that one call for all events gives.
The second call starts on an empty sheet, and everything else goes on from the first one. So its
page is what would have been written behind the first page, unless the end of a paragraph would have
looked into that page. A call that fails stops where the failing event found it, and the next call
goes on from there.

## Architecture

- **Pages in front**: `State.behind`, a state with a page in front of what it has written
- **Steps and runs**: what a page in front changes, which is nothing but offsets
- **Calls**: joined calls, failed calls, and `calls_join_and_resume` for both
-/

namespace DocPage.Render

open Markdown (Event)

/-! ## Pages in front -/

/-- The entry, when a page of the given size stands in front of its page. -/
def Entry.shift (size : Nat) (e : Entry) : Entry :=
  { e with offset := size + e.offset }

/-- The state, when a page with headings stands in front of what it has written. -/
def State.behind (s : State) (front : Text) (headings : List Entry) : State :=
  s.on ⟨front ++ s.output, headings ++ s.headings.map (Entry.shift (Text.byteSize front)), s.desks⟩

/-- The starts of the tag that the end of a paragraph looks for. -/
def paragraphStarts : List Text :=
  ["<".toList, "<p".toList, "<p>".toList]

/-- No text behind the page completes the start tag of a paragraph. -/
def Settled (page : Text) : Prop :=
  ∀ start ∈ paragraphStarts, ¬ start <:+ page

instance (page : Text) : Decidable (Settled page) :=
  inferInstanceAs (Decidable (∀ start ∈ paragraphStarts, ¬ start <:+ page))

theorem mem_paragraphStarts {start rest : Text} (hne : start ≠ [])
    (h : "<p>".toList = start ++ rest) : start ∈ paragraphStarts := by
  -- The starts are the prefixes of the tag, without the empty one.
  have hprefix : start ∈ "<p>".toList.inits := (List.mem_inits _ _).mpr ⟨rest, h.symm⟩
  have hinits : "<p>".toList.inits = [] :: paragraphStarts := rfl
  rw [hinits] at hprefix
  exact (List.mem_cons.mp hprefix).resolve_left hne

/-- The end of a paragraph does not look into a settled page. -/
theorem dropSuffix?_append {front : Text} (h : Settled front) (t : Text) :
    Text.dropSuffix? "<p>" (front ++ t) = (Text.dropSuffix? "<p>" t).map (front ++ ·) := by
  -- Either the tag ends the text behind the page, or it ends neither of the two.
  cases hdrop : Text.dropSuffix? "<p>" t with
  | some kept =>
    obtain rfl := (Text.dropSuffix?_eq_some_iff).mp hdrop
    exact (Text.dropSuffix?_eq_some_iff).mpr (List.append_assoc ..).symm
  | none =>
    rw [Option.map_none, Option.eq_none_iff_forall_ne_some]
    intro kept hkept
    -- The tag is cut by the seam of the two texts, or it stands in the second one.
    rcases Text.append_cases ((Text.dropSuffix?_eq_some_iff).mp hkept) with
      ⟨start, rfl, htag⟩ | ⟨inner, rfl, ht⟩
    · by_cases hne : start = []
      · -- Then the tag would stand in the text as a whole.
        rw [hne, List.nil_append] at htag
        have hwhole : Text.dropSuffix? "<p>" t = some [] :=
          (Text.dropSuffix?_eq_some_iff).mpr htag.symm
        rw [hdrop] at hwhole
        cases hwhole
      · exact h start (mem_paragraphStarts hne htag) (List.suffix_append kept start)
    · rw [(Text.dropSuffix?_eq_some_iff).mpr ht] at hdrop
      cases hdrop

/-! ## Steps and runs -/

section Runs

variable {settings : Settings} {front : Text} (hfront : Settled front) (noted : List Entry)
include hfront

theorem closeParagraph_behind (s : State) :
    (s.behind front noted).closeParagraph = s.closeParagraph.behind front noted := by
  -- Both pages end a paragraph in the same way, as the first one is settled.
  have hdrop : Text.dropSuffix? "<p>" (s.behind front noted).output =
      (Text.dropSuffix? "<p>" s.output).map (front ++ ·) := dropSuffix?_append hfront s.output
  unfold State.closeParagraph
  rw [hdrop]
  cases Text.dropSuffix? "<p>" s.output with
  | some output => rfl
  | none => simp [State.behind, State.on, State.write]

omit hfront in
theorem closeHeading_behind (s : State) :
    (s.behind front noted).closeHeading = s.closeHeading.behind front noted := by
  unfold State.closeHeading
  cases hopen : s.heading with
  | none => simp [State.behind, State.on, hopen]
  -- The offset of a heading is the size of all text in front of it, the page in front included.
  | some h =>
    simp [State.behind, State.on, State.write, hopen, Entry.shift, Text.byteSize_append]

/-- A step behind a page does what it does without it. -/
theorem step_behind (s : State) (event : Event) :
    step settings (s.behind front noted) event =
      (step settings s event).map (·.behind front noted) := by
  rcases step_on settings s event with (rfl | rfl | rfl) | ⟨outcome, hblind⟩
  · exact congrArg Except.ok (closeParagraph_behind hfront noted s)
  · exact congrArg Except.ok (closeHeading_behind noted s)
  · -- What the desks make of a code block depends on their own state, which is the same.
    simp [step, State.stop, State.closeCodeBlock, State.behind, State.on, State.write, Except.map]
  -- All other events do the same on every sheet, and a page in front is another sheet.
  · have hown := hblind s.sheet
    rw [State.on_sheet] at hown
    rw [hown]
    show step settings (s.on _) event = _
    rw [hblind]
    cases outcome with
    | error e => rfl
    | ok result => simp [Except.map, State.behind, State.on, State.sheet, Sheet.add]

/-- A run behind a page does what it does without it. -/
theorem run_behind (s : State) (events : List Event) :
    run settings (s.behind front noted) events =
      ((run settings s events).1, (run settings s events).2.behind front noted) := by
  -- Along the events, with the page in front kept as it is by each step.
  induction events generalizing s with
  | nil => rfl
  | cons event rest ih =>
    unfold run
    rw [step_behind hfront noted]
    cases step settings s event with
    | error e => rfl
    | ok next => exact ih next

end Runs

/-! ## Calls -/

section Calls

variable {settings : Settings} {s last : State}

/-- A call that succeeds runs through all events, and what they wrote is the page. -/
theorem exists_run_of_render {events : List Event} {page : Page}
    (h : (render settings s events).1 = .ok page) :
    ∃ last, run settings s events = (none, last) ∧
      page = ⟨last.output, last.headings, last.desks.flatMap (·.warnings)⟩ ∧
      (render settings s events).2 = last.on ⟨[], [], last.desks⟩ := by
  unfold render at h ⊢
  split at h
  · next last hlast =>
    cases h
    exact ⟨last, hlast, rfl, rfl⟩
  · cases h

/-- A call is determined by its run. -/
theorem render_eq_of_run {s' : State} {xs ys : List Event}
    (h : run settings s xs = run settings s' ys) :
    render settings s xs = render settings s' ys := by
  unfold render
  rw [h]

/-- Joined calls: the second page is written behind the first one. -/
theorem render_append {xs ys : List Event} {p q : Page}
    (hp : (render settings s xs).1 = .ok p)
    (hq : (render settings (render settings s xs).2 ys).1 = .ok q) (hfront : Settled p.html) :
    render settings s (xs ++ ys) =
      (.ok ⟨p.html ++ q.html,
          p.headings ++ q.headings.map (Entry.shift (Text.byteSize p.html)), q.warnings⟩,
        (render settings (render settings s xs).2 ys).2) := by
  obtain ⟨mid, hmid, rfl, hnext⟩ := exists_run_of_render hp
  obtain ⟨last, hlast, rfl, hend⟩ := exists_run_of_render hq
  -- The run of all events goes on where the second call started, with the first page in front.
  have hbehind : mid = ((render settings s xs).2).behind mid.output mid.headings := by
    rw [hnext]
    simp [State.behind, State.on]
  have hrun : run settings s (xs ++ ys) = (none, last.behind mid.output mid.headings) := by
    rw [run_append hmid]
    conv_lhs => rw [hbehind]
    rw [run_behind hfront, hlast]
  rw [hend]
  unfold render
  rw [hrun]
  rfl

/-- Math outside a heading is the only event that fails, and it fails as the math renderer does. -/
theorem exists_math_of_step {event : Event} {e : RenderError}
    (h : step settings s event = .error e) :
    ∃ tex display reason, event = .math tex display ∧ s.heading = none ∧
      settings.math tex display = .error reason ∧ e = .math tex reason := by
  -- All other events cannot fail.
  cases event with
  | math tex display =>
    change s.math settings tex display = .error e at h
    unfold State.math at h
    split at h
    · cases h
    · next hclosed =>
      split at h
      · cases h
      · next reason hreason =>
        cases h
        exact ⟨tex, display, reason, rfl, by simpa using hclosed, hreason, rfl⟩
  | _ => cases h

/-- A run that fails stops in front of the event that fails. -/
theorem exists_failure_of_run {events : List Event} {e : RenderError}
    (h : run settings s events = (some e, last)) :
    ∃ before event after, events = before ++ event :: after ∧
      run settings s before = (none, last) ∧ step settings last event = .error e := by
  -- The failing event is the first one whose step has no next state.
  induction events generalizing s with
  | nil => cases h
  | cons event rest ih =>
    unfold run at h
    cases hstep : step settings s event with
    | error e' =>
      rw [hstep] at h
      cases h
      exact ⟨[], event, rest, rfl, rfl, hstep⟩
    | ok next =>
      rw [hstep] at h
      obtain ⟨before, failing, after, rfl, hbefore, hfailing⟩ := ih h
      refine ⟨event :: before, failing, after, rfl, ?_, hfailing⟩
      unfold run
      rw [hstep]
      exact hbefore

/-- **Calls join, and a call goes on behind a failed one.**

Two calls that succeed give the page of one call for all events in two parts: the second part is the
rest of the page, with its offsets taken from its own start, and the warnings of the second call are
all warnings. The state behind both ways is the same. Only the end of a paragraph could see the
difference, when the first page ends like its start tag.

A call that fails does so at math outside a heading, and it leaves the state that the events in
front of it lead to. So whatever is called next does what one call for those events and its own ones
does. -/
theorem calls_join_and_resume (settings : Settings) (s : State) :
    (∀ xs ys p q, (render settings s xs).1 = .ok p →
      (render settings (render settings s xs).2 ys).1 = .ok q → Settled p.html →
      render settings s (xs ++ ys) =
        (.ok ⟨p.html ++ q.html,
            p.headings ++ q.headings.map (Entry.shift (Text.byteSize p.html)), q.warnings⟩,
          (render settings (render settings s xs).2 ys).2)) ∧
    ∀ events e, (render settings s events).1 = .error e →
      ∃ before tex display after reason, events = before ++ .math tex display :: after ∧
        run settings s before = (none, (render settings s events).2) ∧
        (render settings s events).2.heading = none ∧
        settings.math tex display = .error reason ∧ e = .math tex reason ∧
        ∀ later, render settings (render settings s events).2 later =
          render settings s (before ++ later) := by
  refine ⟨fun xs ys p q => render_append, fun events e h => ?_⟩
  -- A failed call keeps the state in which its run stopped.
  have hrun : run settings s events = (some e, (render settings s events).2) := by
    unfold render at h ⊢
    split at h
    · cases h
    · next e' last hlast =>
      cases h
      rw [hlast]
  obtain ⟨before, event, after, hevents, hbefore, hstep⟩ := exists_failure_of_run hrun
  obtain ⟨tex, display, reason, rfl, hclosed, hreason, he⟩ := exists_math_of_step hstep
  refine ⟨before, tex, display, after, reason, hevents, hbefore, hclosed, hreason, he, ?_⟩
  -- The events in front of the failing one lead to the state of the failed call.
  exact fun later => render_eq_of_run (run_append hbefore).symm

/-- Math that is always rejected. -/
def rejectedMath : MathRenderer := fun _ _ => .error "unknown".toList

/-- The start of a page whose heading is still open. -/
def openEvents : List Event :=
  [.start .paragraph, .text "\u00e9".toList, .stop .paragraph, .start (.heading 2),
    .text "A".toList]

/-- The rest of the page, which starts with the rest of the heading. -/
def restEvents : List Event :=
  [.text "B".toList, .stop .heading, .start .paragraph, .stop .paragraph]

/-- A paragraph whose math is rejected. -/
def rejectedEvents : List Event :=
  [.start .paragraph, .math "x".toList false, .rule]

/-- A heading that is open between two calls, and calls behind one that fails. -/
theorem openEvents_join_and_resume :
    let settings : Settings := { math := rejectedMath }
    let heading : Outline.Heading := ⟨"AB".toList, "ab".toList, 2⟩
    let front : Text := "<p>\u00e9</p>".toList
    ((render settings {} openEvents).1 = .ok ⟨front, [], []⟩ ∧
      (render settings (render settings {} openEvents).2 restEvents).1 =
        .ok ⟨State.headingComponent heading, [⟨0, heading⟩], []⟩ ∧
      Settled front ∧
      (render settings {} (openEvents ++ restEvents)).1 =
        .ok ⟨front ++ State.headingComponent heading, [⟨9, heading⟩], []⟩) ∧
    (render settings {} rejectedEvents).1 = .error (.math "x".toList "unknown".toList) ∧
    ∃ before, ∀ later, render settings (render settings {} rejectedEvents).2 later =
      render settings {} (before ++ later) := by
  intro settings heading front
  have hp : (render settings {} openEvents).1 = .ok ⟨front, [], []⟩ := by decide +kernel
  have hq : (render settings (render settings {} openEvents).2 restEvents).1 =
      .ok ⟨State.headingComponent heading, [⟨0, heading⟩], []⟩ := by decide +kernel
  have hsettled : Settled front := by decide
  have he : (render settings {} rejectedEvents).1 =
      .error (.math "x".toList "unknown".toList) := by decide +kernel
  have hjoined := (calls_join_and_resume settings {}).1 _ _ _ _ hp hq hsettled
  obtain ⟨before, -, -, -, -, -, -, -, -, -, hlater⟩ :=
    (calls_join_and_resume settings {}).2 _ _ he
  exact ⟨⟨hp, hq, hsettled, congrArg Prod.fst hjoined⟩, he, before, hlater⟩

end Calls

end DocPage.Render
