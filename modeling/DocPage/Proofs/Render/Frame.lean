import DocPage.Proofs.Render.Output

/-!
# What a step does not look at

The renderer holds a sheet: what is written so far, the headings noted on it, and the desks that
render its code blocks. Nearly every event adds the same text to every sheet and leaves the rest of
the state in the same way, because it looks at none of this. Three ends are different: that of a
paragraph looks at the end of the page, that of a heading notes the size of the page, and that of a
code block asks the desks. `step_on` says so once for all events; a proof that compares two sheets
has these three ends left to look at.

## Architecture

- **Sheets**: `State.on` puts a state on another sheet
- **Blindness**: `Blind`, with one lemma for each operation of the state
- **Steps and runs**: `step_on` and `run_on`
-/

namespace DocPage.Render

open Markdown (Event)

/-! ## Sheets -/

/-- What a renderer writes on: the page, the headings noted, and the desks for code blocks. -/
structure Sheet where
  output : Text := []
  headings : List Entry := []
  desks : List Code.Desk := []

namespace Sheet

def add (sheet : Sheet) (t : Text) : Sheet :=
  { sheet with output := sheet.output ++ t }

@[simp]
theorem add_nil (sheet : Sheet) : sheet.add [] = sheet := by
  simp [add]

theorem add_append (sheet : Sheet) (a b : Text) : sheet.add (a ++ b) = (sheet.add a).add b := by
  simp [add]

end Sheet

namespace State

/-- The state with another sheet. -/
def on (s : State) (sheet : Sheet) : State :=
  { s with output := sheet.output, headings := sheet.headings, desks := sheet.desks }

def sheet (s : State) : Sheet :=
  ⟨s.output, s.headings, s.desks⟩

@[simp]
theorem on_sheet (s : State) : s.on s.sheet = s := rfl

@[simp]
theorem on_on (s : State) (a b : Sheet) : (s.on a).on b = s.on b := rfl

/-! ## Blindness -/

/-- On every sheet the operation adds the same text and leaves the same state behind. -/
def Blind (s : State) (f : State → State) : Prop :=
  ∃ added next, ∀ sheet, f (s.on sheet) = on next (sheet.add added)

namespace Blind

variable {s : State} {f g : State → State}

theorem of_eq (h : s.Blind g) (heq : ∀ sheet, f (s.on sheet) = g (s.on sheet)) : s.Blind f := by
  obtain ⟨added, next, hg⟩ := h
  exact ⟨added, next, fun sheet => (heq sheet).trans (hg sheet)⟩

/-- An operation that leaves the sheet alone. -/
theorem silent (next : State) (h : ∀ sheet, f (s.on sheet) = next.on sheet) : s.Blind f :=
  ⟨[], next, fun sheet => by rw [h, sheet.add_nil]⟩

/-- Other fields may change before text is written. -/
theorem write (next : State) {t : Text} (h : ∀ sheet, f (s.on sheet) = (next.on sheet).write t) :
    s.Blind f :=
  ⟨t, next, h⟩

end Blind

section Operations

variable (s : State)

theorem blind_addToHeading (t : Text) : s.Blind (·.addToHeading t) :=
  .silent (s.addToHeading t) fun _ => rfl

theorem blind_writeInline (t : Text) : s.Blind (·.writeInline t) := by
  -- Inside a heading the text is kept for the title, elsewhere it is written.
  by_cases hopen : s.heading.isSome
  · exact .silent s fun sheet => if_pos hopen
  · exact .write s fun sheet => if_neg hopen

theorem blind_text (t : Text) : s.Blind (·.text t) := by
  -- The text goes to the open code block, else to the image, else to the heading, else to the page.
  cases hcode : s.code with
  | some code =>
    refine .silent { s with code := some { code with source := code.source ++ t } } ?_
    intro sheet
    simp [text, on, hcode]
  | none =>
    cases himage : s.image with
    | some image =>
      refine .silent { s with image := some { image with alt := image.alt ++ t } } ?_
      intro sheet
      simp [text, on, hcode, himage]
    | none =>
      by_cases hopen : s.heading.isSome
      · refine (s.blind_addToHeading t).of_eq fun sheet => ?_
        simp [text, on, hcode, himage, hopen]
      · cases hchunk : Body.Sentinel.ofChunk? t with
        | some sentinel =>
          refine .silent { s with region := s.region.pass sentinel } fun sheet => ?_
          simp [text, on, hcode, himage, hopen, hchunk]
        | none =>
          refine .write s (t := escapeIn s.region t) fun sheet => ?_
          simp [text, on, hcode, himage, hopen, hchunk]

theorem blind_codeSpan (t : Text) : s.Blind (·.codeSpan t) := by
  by_cases hopen : s.heading.isSome
  · exact (s.blind_addToHeading t).of_eq fun sheet => if_pos hopen
  · exact .write s (t := "<code>" ++ escapeIn s.region t ++ "</code>")
      fun sheet => if_neg hopen

theorem blind_rawMarkup (settings : Settings) (t : Text) : s.Blind (·.rawMarkup settings t) := by
  -- What is written depends on the region, which is no part of the sheet.
  by_cases hopen : s.heading.isSome
  · exact .silent s fun sheet => if_pos hopen
  · cases hchunk : Body.Sentinel.ofChunk? t with
    | some sentinel =>
      refine .write { s with region := s.region.pass sentinel } (t := t) fun sheet => ?_
      simp [rawMarkup, on, hopen, hchunk]
    | none =>
      refine .write s (t := if s.region.isInside then
        Body.escapeChunk settings.vocabulary t else t) fun sheet => (if_neg hopen).trans ?_
      rw [hchunk]
      rfl

theorem blind_softBreak : s.Blind (·.softBreak) := by
  by_cases hopen : s.heading.isSome
  · exact (s.blind_addToHeading [' ']).of_eq fun sheet => if_pos hopen
  · exact .write s fun sheet => if_neg hopen

theorem blind_start (element : Markdown.Start) : s.Blind (·.start element) := by
  cases element with
  | heading level =>
    exact .silent { s with heading := some ⟨level, []⟩ } fun _ => rfl
  | image source title =>
    exact .silent { s with image := some ⟨source, title, []⟩ } fun _ => rfl
  | codeBlock kind =>
    cases kind with
    | fenced info =>
      exact .silent { s with code := some ⟨Code.infoLanguage? info, []⟩ } fun _ => rfl
    | indented => exact .silent { s with code := some ⟨none, []⟩ } fun _ => rfl
  | footnoteDefinition | htmlBlock | metadataBlock => exact .silent s fun _ => rfl
  | blockQuote alert =>
    cases alert with
    | some alert =>
      exact .write { s with quotes := some (alertLook alert) :: s.quotes } fun _ => rfl
    | none => exact .write { s with quotes := none :: s.quotes } fun _ => rfl
  | table alignments => exact .write { s with table := { alignments } } fun _ => rfl
  | tableHead =>
    exact .write { s with table := { s.table with inHead := true, cellIndex := 0 } }
      fun _ => rfl
  | tableRow =>
    exact .write { s with table := { s.table with cellIndex := 0 } } fun _ => rfl
  | list first =>
    match first with
    | none | some 0 | some 1 | some (_ + 2) => exact .write s fun _ => rfl
  | link destination title =>
    exact s.blind_writeInline ("<a href=\"" ++ escapeIn s.region destination ++ "\">")
  | emphasis | strong | strikethrough | superscript | subscript => exact s.blind_writeInline _
  | tableCell =>
    exact .write s (t := '<' :: s.table.cellTag ++ s.table.cellAttribute ++ ['>'])
      fun _ => rfl
  | paragraph | item | definitionList | definitionTitle | definitionBody =>
    exact .write s fun _ => rfl

theorem blind_closeImage : s.Blind (·.closeImage) := by
  -- Without an open image the end does nothing; otherwise the image is closed before it is written.
  cases himage : s.image with
  | none =>
    refine .silent s fun sheet => ?_
    simp [closeImage, on, himage]
  | some image =>
    obtain ⟨added, next, h⟩ :=
      blind_writeInline { s with image := none } (imageMarkup s.region image)
    refine ⟨added, next, fun sheet => ?_⟩
    rw [← h]
    simp [closeImage, on, himage]

theorem blind_closeQuote : s.Blind (·.closeQuote) := by
  -- The innermost quote decides which tag is written.
  match hquotes : s.quotes with
  | some look :: quotes =>
    refine .write { s with quotes } (t := Admonition.closeTag) fun sheet => ?_
    simp [closeQuote, on, hquotes]
  | none :: quotes =>
    refine .write { s with quotes } (t := "</blockquote>") fun sheet => ?_
    simp [closeQuote, on, hquotes]
  | [] =>
    refine .write s (t := "</blockquote>") fun sheet => ?_
    simp [closeQuote, on, hquotes]

/-- The ends that look at the sheet are those of paragraphs, headings and code blocks. -/
theorem blind_stop {element : Markdown.End} (hp : element ≠ .paragraph) (hh : element ≠ .heading)
    (hc : element ≠ .codeBlock) : s.Blind (·.stop element) := by
  cases element with
  | paragraph => exact absurd rfl hp
  | heading => exact absurd rfl hh
  | codeBlock => exact absurd rfl hc
  | blockQuote => exact s.blind_closeQuote
  | image => exact s.blind_closeImage
  | emphasis | strong | strikethrough | superscript | subscript | link =>
    exact s.blind_writeInline _
  | footnoteDefinition | htmlBlock | metadataBlock => exact .silent s fun _ => rfl
  | tableHead =>
    exact .write { s with table := { s.table with inHead := false } } fun _ => rfl
  | tableCell =>
    exact .write { s with table := { s.table with cellIndex := s.table.cellIndex + 1 } }
      (t := "</" ++ s.table.cellTag ++ ">") fun _ => rfl
  | _ => exact .write s fun _ => rfl

end Operations

end State

/-! ## Steps -/

/-- The event ends a paragraph, a heading or a code block. -/
def LooksAtSheet (event : Event) : Prop :=
  event = .stop .paragraph ∨ event = .stop .heading ∨ event = .stop .codeBlock

/-- What a step does on a sheet that it does not look at: it fails, or it adds a text and leaves a
state behind, and this is the same for all sheets. -/
def BlindStep (settings : Settings) (s : State) (event : Event) : Prop :=
  ∃ outcome : Except RenderError (Text × State), ∀ sheet,
    step settings (s.on sheet) event = outcome.map fun (added, next) => next.on (sheet.add added)

theorem State.Blind.step {settings : Settings} {s : State} {event : Event} {f : State → State}
    (h : s.Blind f) (hf : ∀ s, step settings s event = .ok (f s)) : BlindStep settings s event := by
  obtain ⟨added, next, hnext⟩ := h
  exact ⟨.ok (added, next), fun sheet => (hf _).trans (congrArg Except.ok (hnext sheet))⟩

theorem blindStep_math (settings : Settings) (s : State) (tex : Text) (display : Bool) :
    BlindStep settings s (.math tex display) := by
  -- A formula in a heading is kept as text; elsewhere the processor may reject it, on every sheet
  -- alike.
  by_cases hopen : s.heading.isSome
  · obtain ⟨added, next, h⟩ := s.blind_addToHeading tex
    refine ⟨.ok (added, next), fun sheet => ?_⟩
    exact (if_pos hopen).trans (congrArg Except.ok (h sheet))
  · cases hmath : settings.math tex display with
    | ok html =>
      refine ⟨.ok (html, s), fun sheet => ?_⟩
      simp [step, State.math, State.on, hopen, hmath, Except.map, State.write, Sheet.add]
    | error reason =>
      refine ⟨.error (.math tex reason), fun sheet => ?_⟩
      simp [step, State.math, State.on, hopen, hmath, Except.map]

/-- **All other events are blind to the sheet.** -/
theorem step_on (settings : Settings) (s : State) (event : Event) :
    LooksAtSheet event ∨ BlindStep settings s event := by
  by_cases hlooks : LooksAtSheet event
  -- For the other events the operation of the state is blind, and the step is that operation.
  · exact .inl hlooks
  refine .inr ?_
  cases event with
  | start element => exact (s.blind_start element).step fun _ => rfl
  | stop element =>
    -- The hypothesis excludes exactly the three ends.
    have hblind : s.Blind (·.stop element) := by
      refine s.blind_stop ?_ ?_ ?_
      all_goals
        rintro rfl
        exact hlooks (by simp [LooksAtSheet])
    exact hblind.step fun _ => rfl
  | text t => exact (s.blind_text t).step fun _ => rfl
  | code t => exact (s.blind_codeSpan t).step fun _ => rfl
  | html t => exact (s.blind_rawMarkup settings t).step fun _ => rfl
  | math tex display => exact blindStep_math settings s tex display
  | footnoteReference => exact State.Blind.step (.silent s fun _ => rfl) fun _ => rfl
  | taskMarker checked =>
    exact State.Blind.step (f := (·.taskMarker checked)) (.write s fun _ => rfl)
      fun _ => rfl
  | softBreak => exact s.blind_softBreak.step fun _ => rfl
  | hardBreak => exact (s.blind_writeInline "<br>").step fun _ => rfl
  | rule =>
    exact State.Blind.step (f := (·.write "<hr>")) (.write s fun _ => rfl) fun _ => rfl

/-! ## Runs -/

/-- **A run without these ends is blind to the sheet**, also when it fails. -/
theorem run_on (settings : Settings) (s : State) {events : List Event}
    (h : ∀ event ∈ events, ¬ LooksAtSheet event) :
    ∃ (failure : Option RenderError) (added : Text) (next : State), ∀ sheet,
      run settings (s.on sheet) events = (failure, next.on (sheet.add added)) := by
  -- What the steps add is put together, and a step that fails fails on every sheet.
  induction events generalizing s with
  | nil => exact ⟨none, [], s, fun sheet => by rw [sheet.add_nil, run]⟩
  | cons event rest ih =>
    obtain ⟨hevent, hrest⟩ := List.forall_mem_cons.mp h
    obtain ⟨outcome, hstep⟩ := (step_on settings s event).resolve_left hevent
    cases outcome with
    | error e =>
      refine ⟨some e, [], s, fun sheet => ?_⟩
      rw [sheet.add_nil, run, hstep]
      rfl
    | ok result =>
      obtain ⟨added, mid⟩ := result
      obtain ⟨failure, more, next, hrun⟩ := ih mid hrest
      refine ⟨failure, added ++ more, next, fun sheet => ?_⟩
      rw [run, hstep, Sheet.add_append]
      exact hrun _

end DocPage.Render
