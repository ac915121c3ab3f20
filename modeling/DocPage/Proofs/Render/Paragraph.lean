import DocPage.Proofs.Render.Composition
import DocPage.Proofs.Render.Markup

/-!
# Paragraphs keep their content

The end of a paragraph drops the paragraph when the page ends with its start tag, which is meant to
say that nothing was written since. The content itself does not look at the page, so it writes what
it writes without the paragraph around it. No text, code or tag of a span ends like the start tag,
whatever the document says in it; only raw HTML and formulas can, as their markup is not the
renderer's own. A paragraph that ends so loses its end tag and the last tag of its content.

## Architecture

- **Ends**: `WritesOtherwise`, what parts of a line add to the page
- **Last words**: `written_or_raw`, by what a line can end like the start tag of a paragraph
- **Paragraphs**: `closeParagraph_of_append`, and `paragraph_keeps_content_iff`
-/

namespace DocPage.Render

open Markdown (Event Inline enclose)

/-! ## Ends -/

theorem IsBalanced.endsOtherwise {t : Text} (h : IsBalanced t) : t ≠ [] → EndsOtherwise t := by
  obtain ⟨closed, h⟩ := h
  exact endsOtherwise_of_balanced h

/-- Nothing was added to the page, or text that does not end like the start tag of a paragraph. -/
def WritesOtherwise (s next : State) : Prop :=
  ∃ added, next.output = s.output ++ added ∧ (added ≠ [] → EndsOtherwise added)

namespace WritesOtherwise

variable {s : State}

theorem silent {next : State} (h : next.output = s.output) : WritesOtherwise s next :=
  ⟨[], by rw [h, List.append_nil], fun hne => absurd rfl hne⟩

theorem write {t : Text} (h : t ≠ [] → EndsOtherwise t) : WritesOtherwise s (s.write t) :=
  ⟨t, rfl, h⟩

theorem writeInline {t : Text} (h : t ≠ [] → EndsOtherwise t) :
    WritesOtherwise s (s.writeInline t) := by
  -- In a heading the tag is dropped.
  unfold State.writeInline
  split
  · exact silent rfl
  · exact write h

/-! ### Parts of a line -/

theorem text (t : Text) : WritesOtherwise s (s.text t) := by
  -- Only the last case writes, and what it writes is escaped.
  unfold State.text
  split
  · exact silent rfl
  · split
    · exact silent rfl
    · split
      · exact silent rfl
      · split
        · exact silent rfl
        · exact write (IsBalanced.escapeIn s.region t).endsOtherwise

theorem codeSpan (t : Text) : WritesOtherwise s (s.codeSpan t) := by
  unfold State.codeSpan
  split
  · exact silent rfl
  · refine write fun _ => ?_
    -- The closing tag is the last thing written.
    have htag := EndsOtherwise.of_tag (by decide : '<' ∉ "/code".toList) (by decide)
      ("<code>".toList ++ escapeIn s.region t)
    simpa using htag

theorem softBreak : WritesOtherwise s s.softBreak := by
  unfold State.softBreak
  split
  · exact silent rfl
  · exact write fun _ => .of_last (by decide) []

theorem taskMarker (checked : Bool) : WritesOtherwise s (s.taskMarker checked) := by
  -- The box has a blank behind it.
  have hlast := EndsOtherwise.of_last (c := ' ') (by decide)
  cases checked with
  | true => exact write fun _ => hlast "<input type=\"checkbox\" checked disabled>".toList
  | false => exact write fun _ => hlast "<input type=\"checkbox\" disabled>".toList

/-- A tag that is not the start tag of a paragraph. -/
theorem tag (inside : Text) (hinside : '<' ∉ inside) (hne : inside ≠ ['p']) :
    WritesOtherwise s (s.writeInline ('<' :: inside ++ ['>'])) :=
  writeInline fun _ => .of_tag hinside hne []

theorem closeImage : WritesOtherwise s s.closeImage := by
  unfold State.closeImage
  split
  · exact silent rfl
  -- The image is closed first, which writes nothing.
  · next image _ =>
    exact writeInline (s := { s with image := none })
      (isBalanced_imageMarkup s.region image).endsOtherwise

theorem startSpan {element : Markdown.Start} (h : element.isSpan = true) :
    WritesOtherwise s (s.start element) := by
  cases element with
  | emphasis => exact tag "em".toList (by decide) (by decide)
  | strong => exact tag "strong".toList (by decide) (by decide)
  | strikethrough => exact tag "s".toList (by decide) (by decide)
  | superscript => exact tag "sup".toList (by decide) (by decide)
  | subscript => exact tag "sub".toList (by decide) (by decide)
  | link destination title =>
    -- The destination is escaped, so the only `<` is that of the tag itself.
    have hvalue := (isValue_escapeIn s.region destination).notMem_lt
    have hlink := tag (s := s)
      ("a href=\"".toList ++ escapeIn s.region destination ++ "\"".toList)
      (by simp [hvalue]) (by simp)
    simpa [State.start] using hlink
  | image => exact silent rfl
  | _ => cases h

theorem stopSpan {element : Markdown.Start} (h : element.isSpan = true) :
    WritesOtherwise s (s.stop element.closing) := by
  cases element with
  | emphasis => exact tag "/em".toList (by decide) (by decide)
  | strong => exact tag "/strong".toList (by decide) (by decide)
  | strikethrough => exact tag "/s".toList (by decide) (by decide)
  | superscript => exact tag "/sup".toList (by decide) (by decide)
  | subscript => exact tag "/sub".toList (by decide) (by decide)
  | link => exact tag "/a".toList (by decide) (by decide)
  | image => exact closeImage
  | _ => cases h

end WritesOtherwise

/-- Whether the markup for an event is not the renderer's own: raw HTML, and formulas. -/
def isForeign : Event → Bool
  | .html _ | .math _ _ => true
  | _ => false

/-- The event stands in a line: it is a part of it, or the start or the end of a span. -/
def StandsInLine (event : Event) : Prop :=
  event.isInline = true ∨ ∃ element : Markdown.Start, element.isSpan = true ∧
    (event = .start element ∨ event = .stop element.closing)

/-- No such event ends a paragraph, a heading or a code block. -/
theorem StandsInLine.not_looksAtSheet {event : Event} (h : StandsInLine event) :
    ¬ LooksAtSheet event := by
  rcases h with hpart | ⟨element, hspan, rfl | rfl⟩
  · rintro (rfl | rfl | rfl) <;> cases hpart
  · rintro (h | h | h) <;> cases h
  · cases element with
    | emphasis | strong | strikethrough | superscript | subscript | link | image =>
      rintro (h | h | h) <;> cases h
    | _ => cases hspan

/-- **A step in a line ends otherwise**, when its markup is the renderer's own. -/
theorem writesOtherwise_step {settings : Settings} {s next : State} {event : Event}
    (hline : StandsInLine event) (hown : isForeign event = false)
    (h : step settings s event = .ok next) : WritesOtherwise s next := by
  -- The tags of spans are treated above, and the parts of a line are the other events.
  rcases hline with hpart | ⟨element, hspan, rfl | rfl⟩
  · cases event with
    | text t =>
      cases h
      exact .text t
    | code t =>
      cases h
      exact .codeSpan t
    | html | math => cases hown
    | footnoteReference =>
      cases h
      exact .silent rfl
    | taskMarker checked =>
      cases h
      exact .taskMarker checked
    | softBreak =>
      cases h
      exact .softBreak
    | hardBreak =>
      cases h
      exact .tag "br".toList (by decide) (by decide)
    | start | stop | rule => cases hpart
  · cases h
    exact .startSpan hspan
  · cases h
    exact .stopSpan hspan

/-! ## Last words -/

section Runs

variable {settings : Settings} {s last : State}

/-- A foreign event adds what it wants to the page. -/
theorem exists_added_of_foreign {next : State} {event : Event} (hforeign : isForeign event = true)
    (h : step settings s event = .ok next) : ∃ added, next.output = s.output ++ added := by
  cases event with
  | html t =>
    cases h
    exact (s.appends_rawMarkup settings t).output
  | math tex display => exact (State.appends_math h).output
  | _ => cases hforeign

/-- What was written last is foreign: nothing was added to the page behind such an event. -/
def EndsForeign (settings : Settings) (s last : State) (events : List Event) : Prop :=
  ∃ front event back, events = front ++ event :: back ∧ isForeign event = true ∧
    (run settings s (front ++ [event])).2.output = last.output

/-- **A line ends otherwise, or what it wrote last is foreign**, also when it fails. -/
theorem written_or_foreign {events : List Event} {failure : Option RenderError}
    (h : ∀ event ∈ events, StandsInLine event) (hrun : run settings s events = (failure, last)) :
    WritesOtherwise s last ∨ EndsForeign settings s last events := by
  -- The induction looks at the first event last: what is written behind it decides first.
  induction events generalizing s with
  | nil =>
    cases hrun
    exact .inl (.silent rfl)
  | cons event rest ih =>
    obtain ⟨hevent, hrest⟩ := List.forall_mem_cons.mp h
    unfold run at hrun
    cases hstep : step settings s event with
    | error e =>
      rw [hstep] at hrun
      cases hrun
      exact .inl (.silent rfl)
    | ok next =>
      rw [hstep] at hrun
      have hsingle : run settings s [event] = (none, next) := run_singleton hstep
      rcases ih hrest hrun with ⟨more, hmore, hends⟩ | ⟨front, foreign, back, rfl, hforeign, hlast⟩
      · -- The rest decides when it writes anything, and otherwise the event.
        by_cases hnil : more = []
        · rw [hnil, List.append_nil] at hmore
          cases hown : isForeign event with
          | true => exact .inr ⟨[], event, rest, rfl, hown, by rw [List.nil_append, hsingle, hmore]⟩
          | false =>
            obtain ⟨added, hadded, hends'⟩ := writesOtherwise_step hevent hown hstep
            exact .inl ⟨added, hmore.trans hadded, hends'⟩
        · obtain ⟨added, hadded⟩ : ∃ added, next.output = s.output ++ added := by
            cases hown : isForeign event with
            | true => exact exists_added_of_foreign hown hstep
            | false =>
              obtain ⟨added, hadded, -⟩ := writesOtherwise_step hevent hown hstep
              exact ⟨added, hadded⟩
          refine .inl ⟨added ++ more, ?_, fun _ => (hends hnil).append added⟩
          rw [hmore, hadded, List.append_assoc]
      -- What the rest wrote last is what all of them wrote last.
      · refine .inr ⟨event :: front, foreign, back, rfl, hforeign, ?_⟩
        rw [← hlast, List.cons_append, ← List.singleton_append, run_append hsingle]

end Runs

/-! ## Paragraphs -/

/-- Behind a start tag, the page ends with one when nothing follows or when what follows does. -/
theorem suffix_append_paragraph_iff {front w : Text} :
    "<p>".toList <:+ front ++ "<p>".toList ++ w ↔ w = [] ∨ "<p>".toList <:+ w := by
  constructor
  · intro h
    refine Classical.or_iff_not_imp_left.mpr fun hw => ?_
    -- Both are ends of one text, so one of them is an end of the other.
    rcases List.suffix_or_suffix_of_suffix h (List.suffix_append _ w) with hin | ⟨u, hu⟩
    · exact hin
    · -- A tag that starts in front of `w` would start inside the first one, which ends with `>`.
      obtain ⟨output, houtput⟩ := h
      have hcut : output ++ u ++ w = front ++ "<p>".toList ++ w := by
        rw [List.append_assoc, hu]
        exact houtput
      have hlast : (output ++ u).getLast? = some '>' := by
        rw [List.append_cancel_right hcut, List.getLast?_append_of_ne_nil _ (by decide)]
        rfl
      have hchars : u ++ w = ['<', 'p', '>'] := hu
      -- The tag has three characters, so `w` starts behind at most two of them.
      rcases u with _ | ⟨a, _ | ⟨b, _ | ⟨c, u⟩⟩⟩
      · exact ⟨[], hu.symm⟩
      · obtain ⟨rfl, -⟩ := List.cons.inj hchars
        simp at hlast
      · obtain ⟨-, htail⟩ := List.cons.inj hchars
        obtain ⟨rfl, -⟩ := List.cons.inj htail
        simp at hlast
      · have hlength := congrArg List.length hchars
        have hpos := List.length_pos_iff.mpr hw
        simp only [List.length_append, List.length_cons, List.length_nil] at hlength
        omega
  · rintro (rfl | hw)
    · exact ⟨front, (List.append_nil _).symm⟩
    · exact hw.trans (List.suffix_append _ w)

/-- What stands on the page for a paragraph whose content writes `w`. -/
def paragraphMarkup (w : Text) : Text :=
  (Text.dropSuffix? "<p>" ("<p>".toList ++ w)).getD ("<p>".toList ++ w ++ "</p>".toList)

section Markup

variable {w : Text}

theorem paragraphMarkup_nil : paragraphMarkup [] = [] := rfl

theorem paragraphMarkup_append (v : Text) :
    paragraphMarkup (v ++ "<p>".toList) = "<p>".toList ++ v := by
  -- The last three characters are dropped, wherever the first tag stands.
  have hdrop : Text.dropSuffix? "<p>" ("<p>".toList ++ (v ++ "<p>".toList)) =
      some ("<p>".toList ++ v) :=
    (Text.dropSuffix?_eq_some_iff).mpr (List.append_assoc ..).symm
  rw [paragraphMarkup, hdrop]
  rfl

/-- Nothing is dropped from other content. -/
theorem dropSuffix?_paragraph (front : Text) (hne : w ≠ []) (hend : ¬ "<p>".toList <:+ w) :
    Text.dropSuffix? "<p>" (front ++ "<p>".toList ++ w) = none := by
  rw [Option.eq_none_iff_forall_ne_some]
  intro kept hkept
  have hsuffix : "<p>".toList <:+ front ++ "<p>".toList ++ w :=
    ⟨kept, ((Text.dropSuffix?_eq_some_iff).mp hkept).symm⟩
  exact (suffix_append_paragraph_iff.mp hsuffix).elim hne hend

theorem paragraphMarkup_of_ne (hne : w ≠ []) (hend : ¬ "<p>".toList <:+ w) :
    paragraphMarkup w = "<p>".toList ++ w ++ "</p>".toList := by
  have hdrop := dropSuffix?_paragraph [] hne hend
  rw [List.nil_append] at hdrop
  rw [paragraphMarkup, hdrop]
  rfl

theorem paragraphMarkup_eq_iff :
    paragraphMarkup w = "<p>".toList ++ w ++ "</p>".toList ↔ w ≠ [] ∧ ¬ "<p>".toList <:+ w := by
  refine ⟨fun h => ⟨?_, ?_⟩, fun ⟨hne, hend⟩ => paragraphMarkup_of_ne hne hend⟩
  · rintro rfl
    cases h
  · rintro ⟨v, rfl⟩
    -- The end tag and the start tag at the end are missing.
    rw [paragraphMarkup_append] at h
    have hlength := congrArg List.length h
    simp only [List.length_append] at hlength
    have hpos : 0 < "</p>".toList.length := by decide
    omega

theorem paragraphMarkup_eq_nil_iff : paragraphMarkup w = [] ↔ w = [] := by
  refine ⟨fun h => ?_, fun h => h ▸ paragraphMarkup_nil⟩
  by_contra hne
  -- The end decides which of the two forms the markup has, and neither of them is empty.
  by_cases hend : "<p>".toList <:+ w
  · obtain ⟨v, rfl⟩ := hend
    rw [paragraphMarkup_append] at h
    cases h
  · rw [paragraphMarkup_of_ne hne hend] at h
    cases h

/-- The end of a paragraph looks at what was written since its start tag only. -/
theorem closeParagraph_of_append {s : State} {front : Text}
    (h : s.output = front ++ "<p>".toList ++ w) :
    s.closeParagraph = { s with output := front ++ paragraphMarkup w } := by
  have hkept : ∀ kept : Text, "<p>".toList ++ w = kept ++ "<p>".toList →
      Text.dropSuffix? "<p>" s.output = some (front ++ kept) := by
    -- The kept part is a start of what was written, so it stands behind the same page.
    intro kept hw
    rw [h]
    refine (Text.dropSuffix?_eq_some_iff).mpr ?_
    rw [List.append_assoc, hw, List.append_assoc]
  unfold State.closeParagraph
  -- Nothing was written, or a start tag was written last, or something else was.
  by_cases hnil : w = []
  · subst hnil
    rw [hkept [] rfl]
    rfl
  · by_cases hend : "<p>".toList <:+ w
    · obtain ⟨v, rfl⟩ := hend
      rw [hkept ("<p>".toList ++ v) (List.append_assoc ..).symm, paragraphMarkup_append]
    · have hdrop : Text.dropSuffix? "<p>" s.output = none := by
        rw [h]
        exact dropSuffix?_paragraph front hnil hend
      rw [hdrop, paragraphMarkup_of_ne hnil hend]
      simp [State.write, h]

end Markup

/-- **A paragraph keeps its content, unless it ends like its start tag.**

Whatever stands in a line, the paragraph around it writes what the line writes by itself between its
two tags, and is dropped when the line writes nothing. A line that ends with a start tag `<p>` loses
this tag, and the paragraph its end tag; what such a line wrote last is raw HTML or a formula. Only
a formula that is rejected makes the line fail, and with it the paragraph, behind the same content.
-/
theorem paragraph_keeps_content_iff (settings : Settings) (s : State) {content : List Event}
    (h : Inline Event.isInline content) :
    ∃ (failure : Option RenderError) (w : Text) (last : State),
      run settings s content = (failure, last) ∧ last.output = s.output ++ w ∧
      (failure = none → ∃ p,
        run settings s (enclose .paragraph content) =
          (none, { last with output := s.output ++ p }) ∧
        (p = "<p>".toList ++ w ++ "</p>".toList ↔ w ≠ [] ∧ ¬ "<p>".toList <:+ w) ∧
        (p = [] ↔ w = []) ∧ ∀ v, w = v ++ "<p>".toList → p = "<p>".toList ++ v) ∧
      ("<p>".toList <:+ w → EndsForeign settings s last content) ∧
      ∀ e, failure = some e →
        run settings s (enclose .paragraph content) =
          (failure, { last with output := s.output ++ "<p>".toList ++ w }) ∧
        ∃ tex display reason, Event.math tex display ∈ content ∧
          settings.math tex display = .error reason := by
  have hline : ∀ event ∈ content, StandsInLine event := h.cases_of_mem
  -- A line does not look at the sheet, so it writes the same with and without the paragraph.
  obtain ⟨failure, w, next, hrun⟩ :=
    run_on settings s fun event hevent => (hline event hevent).not_looksAtSheet
  have hown : run settings s content = (failure, next.on (s.sheet.add w)) := hrun s.sheet
  -- The start tag of the paragraph is on the page when the content runs inside it.
  have hinside : run settings (s.start .paragraph) content =
      (failure, next.on ((s.sheet.add "<p>").add w)) := hrun (s.sheet.add "<p>")
  refine ⟨failure, w, next.on (s.sheet.add w), hown, rfl, ?_, ?_, ?_⟩
  · -- The end of the paragraph sees the start tag and what the content wrote behind it.
    rintro rfl
    refine ⟨paragraphMarkup w, ?_, paragraphMarkup_eq_iff, paragraphMarkup_eq_nil_iff, ?_⟩
    · rw [run_enclose hinside]
      exact congrArg (Prod.mk none) (closeParagraph_of_append rfl)
    · rintro v rfl
      exact paragraphMarkup_append v
  · -- The renderer's own markup does not end like the start tag.
    rintro ⟨v, hv⟩
    refine (written_or_foreign hline hown).resolve_left ?_
    rintro ⟨added, hadded, hends⟩
    obtain rfl : w = added := List.append_cancel_left hadded
    have hne : w ≠ [] := by
      rintro rfl
      simp at hv
    exact hends hne [] v hv.symm
  · -- The end of the paragraph is not reached.
    rintro e rfl
    refine ⟨run_append_of_failure _ hinside, ?_⟩
    obtain ⟨before, event, after, rfl, -, hstep⟩ := exists_failure_of_run hown
    obtain ⟨tex, display, reason, rfl, -, hreason, -⟩ := exists_math_of_step hstep
    exact ⟨tex, display, reason, by simp, hreason⟩

/-- A line with a start tag in raw HTML, a link whose text is like one, and a formula. -/
def taggedLine : List Event :=
  [.html "<p>".toList] ++ (enclose (.link "/<p>".toList []) [.text "<p>".toList] ++
    [.math "x".toList false])

theorem inline_taggedLine : Inline Event.isInline taggedLine :=
  .append (.part rfl) (.append (.span rfl (.part rfl)) (.part rfl))

/-- The start tag is not at the end of this line, so the paragraph keeps all of it. -/
theorem taggedLine_kept : Inline Event.isInline taggedLine ∧
    (run {} {} (enclose .paragraph taggedLine)).2.output =
      "<p>".toList ++ (run {} {} taggedLine).2.output ++ "</p>".toList := by
  refine ⟨inline_taggedLine, ?_⟩
  obtain ⟨failure, w, last, hrun, hw, hkept, -, -⟩ :=
    paragraph_keeps_content_iff {} {} inline_taggedLine
  have hsucceeds : (run {} {} taggedLine).1 = none := by decide +kernel
  have houtput : last.output = (run {} {} taggedLine).2.output := by rw [hrun]
  have hcontent : w = (run {} {} taggedLine).2.output := hw.symm.trans houtput
  rw [hrun] at hsucceeds
  obtain ⟨p, hparagraph, hiff, -⟩ := hkept hsucceeds
  have hends : w ≠ [] ∧ ¬ "<p>".toList <:+ w := by
    rw [hcontent]
    decide +kernel
  rw [hparagraph, ← hcontent]
  exact hiff.mpr hends

def endedLine : List Event :=
  [.text "a".toList] ++ [.html "<p>".toList]

/-- The content writes more than nothing, and the paragraph loses the end of it. -/
theorem paragraph_loses_last_tag : Inline Event.isInline endedLine ∧
    (run {} {} endedLine).2.output = "a<p>".toList ∧
    (run {} {} (enclose .paragraph endedLine)).2.output = "<p>a".toList :=
  ⟨.append (.part rfl) (.part rfl), by decide +kernel, by decide +kernel⟩

end DocPage.Render
