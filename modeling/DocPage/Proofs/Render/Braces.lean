import DocPage.Proofs.Render.Headings

/-!
# Opening braces inside the body

Inside the body region no opening brace of the text may reach the page, because the component
compiler would read an expression there. Every event that copies text hides them, with one
exception: the language of a fence is only escaped for HTML. When the languages have no brace, the
page has none either; when one does, the page shows it.

## Architecture

- **Escaping**: which ways to write a text leave no brace
- **States**: `Masked`, the invariant, and what each event makes of it
- **Pages**: `page_has_no_brace`, and the fence that breaks it
-/

namespace DocPage.Render

open Markdown (Event)
open Body (Sentinel)

/-! ## Escaping -/

def BraceFree (t : Text) : Prop := '\x7b' ∉ t

instance (t : Text) : Decidable (BraceFree t) :=
  inferInstanceAs (Decidable (_ ∉ _))

namespace BraceFree

theorem append {t u : Text} (ht : BraceFree t) (hu : BraceFree u) : BraceFree (t ++ u) :=
  fun h => (List.mem_append.mp h).elim ht hu

theorem cons {c : Char} {t : Text} (hc : '\x7b' ≠ c) (ht : BraceFree t) : BraceFree (c :: t) :=
  fun h => (List.mem_cons.mp h).elim hc ht

theorem left {t u : Text} (h : BraceFree (t ++ u)) : BraceFree t :=
  fun hmem => h (List.mem_append_left u hmem)

theorem escapeBraced (t : Text) : BraceFree (Html.escapeBraced t) := by
  intro h
  obtain ⟨c, -, hc⟩ := List.mem_flatMap.mp h
  -- A brace is written as a reference, and every other character as for HTML.
  unfold Html.escapeBracedChar at hc
  split at hc
  · exact absurd hc (by decide)
  · next hne =>
    unfold Html.escapeChar at hc
    split at hc
    case h_6 => exact hne (List.mem_singleton.mp hc).symm
    all_goals exact absurd hc (by decide)

/-- Escaping for HTML alone brings no new brace. -/
-- In contrast to the body's own escape, `{` stays as it is here, so the text must bring none.
theorem escape {t : Text} (ht : BraceFree t) : BraceFree (Html.escape t) := by
  intro h
  obtain ⟨c, hmem, hc⟩ := List.mem_flatMap.mp h
  unfold Html.escapeChar at hc
  -- The sixth case is that of all other characters; the others write references.
  split at hc
  case h_6 => exact ht (List.mem_singleton.mp hc ▸ hmem)
  all_goals exact absurd hc (by decide)

theorem escapeIn_inside (t : Text) : BraceFree (escapeIn .inside t) :=
  escapeBraced t

theorem ofNat (n : Nat) : BraceFree (Text.ofNat n) :=
  Text.notMem_ofNat (by decide) n

theorem openTag (look : Admonition) : BraceFree look.openTag := by
  cases look
  all_goals decide +kernel

theorem cellTag (table : Table) : BraceFree table.cellTag := by
  unfold Table.cellTag
  split
  all_goals decide

theorem cellAttribute (table : Table) : BraceFree table.cellAttribute := by
  unfold Table.cellAttribute alignAttribute
  split
  all_goals decide

end BraceFree

/-! ## States -/

/-- The renderer is inside the body with no brace on the page or in the language of the open code
block, no heading is open, and no processor is asked. -/
structure Masked (s : State) : Prop where
  output : BraceFree s.output
  region : s.region = .inside
  heading : s.heading = none
  desks : s.desks = []
  language : ∀ code ∈ s.code, ∀ l ∈ code.language, BraceFree l

/-- Whether an event is no raw markup, starts no heading and is no text that is a sentinel. -/
def isCovered : Event → Bool
  | .html _ | .start (.heading _) => false
  | .text t => (Sentinel.ofChunk? t).isNone
  | _ => true

/-- The language that an event names when it starts a fence. -/
def fenceLanguage? : Event → Option Text
  | .start (.codeBlock (.fenced info)) => Code.infoLanguage? info
  | _ => none

namespace Masked

variable {s : State}

/-- What the renderer remembers of images, tables and quotes does not matter. -/
theorem of_eq {next : State} (h : Masked s) (ho : next.output = s.output)
    (hr : next.region = s.region) (hh : next.heading = s.heading) (hd : next.desks = s.desks)
    (hc : next.code = s.code) : Masked next :=
  ⟨ho ▸ h.output, hr ▸ h.region, hh ▸ h.heading, hd ▸ h.desks, hc ▸ h.language⟩

theorem write (h : Masked s) {t : Text} (ht : BraceFree t) : Masked (s.write t) :=
  ⟨h.output.append ht, h.region, h.heading, h.desks, h.language⟩

theorem writeInline (h : Masked s) {t : Text} (ht : BraceFree t) : Masked (s.writeInline t) := by
  -- No heading is open, so inline text goes to the page.
  unfold State.writeInline
  rw [h.heading]
  exact h.write ht

theorem escapeIn (h : Masked s) (t : Text) : BraceFree (escapeIn s.region t) := by
  rw [h.region]
  exact .escapeIn_inside t

theorem text (h : Masked s) {t : Text} (ht : Sentinel.ofChunk? t = none) : Masked (s.text t) := by
  unfold State.text
  split
  · next code hcode =>
    -- The source of an open code block grows, and its language stays.
    refine ⟨h.output, h.region, h.heading, h.desks, ?_⟩
    intro _ hsome l hl
    cases hsome
    exact h.language code hcode l hl
  · split
    · exact h.of_eq rfl rfl rfl rfl rfl
    · -- No heading takes the text and it is no sentinel, so it is escaped.
      rw [h.heading, ht]
      exact h.write (h.escapeIn t)

theorem codeSpan (h : Masked s) (t : Text) : Masked (s.codeSpan t) := by
  unfold State.codeSpan
  rw [h.heading]
  refine h.write (.append (.append ?_ (h.escapeIn t)) ?_)
  all_goals decide

theorem math (h : Masked s) {settings : Settings} (hmath : settings.math = delimitedMath)
    (tex : Text) (display : Bool) : ∃ next, s.math settings tex display = .ok next ∧ Masked next := by
  unfold State.math
  rw [h.heading, hmath]
  refine ⟨_, rfl, h.write ?_⟩
  -- Both pairs of delimiters are without braces, and the formula between them is escaped.
  cases display
  all_goals
    refine .append (.append ?_ (.escapeBraced tex)) ?_
    all_goals decide

theorem softBreak (h : Masked s) : Masked s.softBreak := by
  unfold State.softBreak
  rw [h.heading]
  exact h.write (by decide)

theorem taskMarker (h : Masked s) (checked : Bool) : Masked (s.taskMarker checked) := by
  cases checked
  all_goals exact h.write (by decide)

theorem start (h : Masked s) {element : Markdown.Start} (hcovered : isCovered (.start element))
    (hfence : ∀ l ∈ fenceLanguage? (.start element), BraceFree l) : Masked (s.start element) := by
  -- Nearly all starts write a fixed tag; the cases apart are those that write or keep a text.
  cases element with
  | heading => cases hcovered
  | blockQuote alert =>
    have hquotes : ∀ quotes, Masked { s with quotes } := fun _ => h.of_eq rfl rfl rfl rfl rfl
    cases alert with
    | none => exact (hquotes _).write (by decide)
    | some alert => exact (hquotes _).write (.openTag (State.alertLook alert))
  | codeBlock kind =>
    -- Nothing is written yet; the language is kept for the end of the block.
    cases kind with
    | indented =>
      refine ⟨h.output, h.region, h.heading, h.desks, ?_⟩
      intro code hcode l hl
      cases hcode
      cases hl
    | fenced info =>
      refine ⟨h.output, h.region, h.heading, h.desks, ?_⟩
      intro code hcode l hl
      cases hcode
      exact hfence l hl
  | list first =>
    have hnumbered : ∀ n, BraceFree ("<ol start=\"".toList ++ Text.ofNat n ++ "\">".toList) :=
      fun n => .append (.append (by decide) (.ofNat n)) (by decide)
    match first with
    | none | some 1 => exact h.write (by decide)
    | some 0 | some (_ + 2) => exact h.write (hnumbered _)
  | footnoteDefinition | htmlBlock | metadataBlock => exact h
  | table | tableHead | tableRow =>
    have htable : ∀ table, Masked { s with table } := fun _ => h.of_eq rfl rfl rfl rfl rfl
    exact (htable _).write (t := _) (by decide)
  | tableCell =>
    refine h.write (.append (.cons ?_ (.append (.cellTag _) (.cellAttribute _))) ?_)
    all_goals decide
  | emphasis | strong | strikethrough | superscript | subscript =>
    exact h.writeInline (by decide)
  | link destination =>
    exact h.writeInline (.append (.append (by decide) (h.escapeIn destination)) (by decide))
  | image => exact h.of_eq rfl rfl rfl rfl rfl
  | _ => exact h.write (by decide)

/-- A paragraph that wrote nothing takes its start tag back, which is no brace either. -/
theorem closeParagraph (h : Masked s) : Masked s.closeParagraph := by
  unfold State.closeParagraph
  split
  · next output hdrop =>
    -- What is left is a part of the page as it was.
    have houtput := h.output
    rw [(Text.dropSuffix?_eq_some_iff).mp hdrop] at houtput
    exact ⟨houtput.left, h.region, h.heading, h.desks, h.language⟩
  · exact h.write (by decide)

theorem closeHeading (h : Masked s) : Masked s.closeHeading := by
  -- An end without its start: no heading is open.
  unfold State.closeHeading
  rw [h.heading]
  exact h

theorem plainCodeBlock {language : Option Text} (hl : ∀ l ∈ language, BraceFree l) (source : Text) :
    BraceFree (State.plainCodeBlock .inside language source) := by
  have hsource := BraceFree.escapeIn_inside source
  unfold State.plainCodeBlock
  cases language with
  | none =>
    refine .append (.append (.append (.append ?_ ?_) ?_) hsource) ?_
    all_goals decide
  | some l =>
    -- The language is the one part that is not escaped for the body.
    have hclass : BraceFree (" class=\"language-".toList ++ Html.escape l ++ "\"".toList) :=
      .append (.append (by decide) (.escape (hl l rfl))) (by decide)
    refine .append (.append (.append (.append ?_ hclass) ?_) hsource) ?_
    all_goals decide

theorem closeCodeBlock (h : Masked s) : Masked s.closeCodeBlock := by
  -- An end without its start closes a block without a language.
  have hlanguage : ∀ l ∈ (s.code.getD ⟨none, []⟩).language, BraceFree l := by
    intro l hl
    cases hcode : s.code with
    | none =>
      rw [hcode] at hl
      cases hl
    | some code =>
      rw [hcode] at hl
      exact h.language code hcode l hl
  have hplain := plainCodeBlock hlanguage (s.code.getD ⟨none, []⟩).source
  rw [← h.region] at hplain
  unfold State.closeCodeBlock
  -- No processor is asked, so the block is written in the plain way.
  rw [h.desks]
  refine ⟨h.output.append hplain, h.region, h.heading, rfl, ?_⟩
  intro code hcode
  cases hcode

theorem imageMarkup (image : OpenImage) : BraceFree (State.imageMarkup .inside image) := by
  have htitle : BraceFree (if image.title.isEmpty then [] else
      " title=\"".toList ++ Render.escapeIn .inside image.title ++ "\"".toList) := by
    -- The title is left out when it is empty.
    split
    · decide
    · exact .append (.append (by decide) (.escapeIn_inside _)) (by decide)
  unfold State.imageMarkup
  refine .append (.append (.append (.append (.append (.append ?_ ?_) ?_) ?_) ?_) htitle) ?_
  case refine_2 => exact .escapeIn_inside _
  case refine_4 => exact .escapeIn_inside _
  all_goals decide

theorem closeImage (h : Masked s) : Masked s.closeImage := by
  unfold State.closeImage
  split
  · exact h
  · next image _ =>
    have himage : Masked { s with image := none } := h.of_eq rfl rfl rfl rfl rfl
    have hmarkup := imageMarkup image
    rw [← h.region] at hmarkup
    exact himage.writeInline hmarkup

theorem closeQuote (h : Masked s) : Masked s.closeQuote := by
  have hquotes : ∀ quotes, Masked { s with quotes } := fun _ => h.of_eq rfl rfl rfl rfl rfl
  unfold State.closeQuote
  split
  · exact (hquotes _).write (by decide)
  · exact (hquotes _).write (by decide)
  · exact h.write (by decide)

theorem stop (h : Masked s) (element : Markdown.End) : Masked (s.stop element) := by
  -- The ends that write change nothing else, except for the operations treated above.
  cases element with
  | paragraph => exact h.closeParagraph
  | heading => exact h.closeHeading
  | blockQuote => exact h.closeQuote
  | codeBlock => exact h.closeCodeBlock
  | image => exact h.closeImage
  | list ordered =>
    cases ordered
    all_goals exact h.write (by decide)
  | footnoteDefinition | htmlBlock | metadataBlock => exact h
  | tableHead =>
    have htable : ∀ table, Masked { s with table } := fun _ => h.of_eq rfl rfl rfl rfl rfl
    exact (htable _).write (by decide)
  | tableCell =>
    have htable : ∀ table, Masked { s with table } := fun _ => h.of_eq rfl rfl rfl rfl rfl
    refine (htable _).write (.append (.append ?_ (.cellTag s.table)) ?_)
    all_goals decide
  | emphasis | strong | strikethrough | superscript | subscript | link =>
    exact h.writeInline (by decide)
  | _ => exact h.write (by decide)

end Masked

/-! ## Pages -/

/-- What a step preserves; it cannot fail, for the delimiters of math never do. -/
theorem masked_step {settings : Settings} (hmath : settings.math = delimitedMath) {s : State}
    (hs : Masked s) {event : Event} (hcovered : isCovered event)
    (hfence : ∀ l ∈ fenceLanguage? event, BraceFree l) :
    ∃ next, step settings s event = .ok next ∧ Masked next := by
  cases event with
  | start element => exact ⟨_, rfl, hs.start hcovered hfence⟩
  | stop element => exact ⟨_, rfl, hs.stop element⟩
  | text t => exact ⟨_, rfl, hs.text (Option.isNone_iff_eq_none.mp hcovered)⟩
  | code t => exact ⟨_, rfl, hs.codeSpan t⟩
  | html => cases hcovered
  | math tex display => exact hs.math hmath tex display
  | footnoteReference => exact ⟨s, rfl, hs⟩
  | taskMarker checked => exact ⟨_, rfl, hs.taskMarker checked⟩
  | softBreak => exact ⟨_, rfl, hs.softBreak⟩
  | hardBreak => exact ⟨_, rfl, hs.writeInline (by decide)⟩
  | rule => exact ⟨_, rfl, hs.write (by decide)⟩

/-- What a run preserves. -/
theorem masked_run {settings : Settings} (hmath : settings.math = delimitedMath)
    {events : List Event} {s : State} (hs : Masked s)
    (hcovered : ∀ event ∈ events, isCovered event)
    (hfence : ∀ event ∈ events, ∀ l ∈ fenceLanguage? event, BraceFree l) :
    ∃ last, run settings s events = (none, last) ∧ Masked last := by
  -- The events are taken one by one, with `Masked` as the invariant between them.
  induction events generalizing s with
  | nil => exact ⟨s, rfl, hs⟩
  | cons event rest ih =>
    obtain ⟨hcovered, hrestCovered⟩ := List.forall_mem_cons.mp hcovered
    obtain ⟨hfence, hrestFence⟩ := List.forall_mem_cons.mp hfence
    obtain ⟨next, hstep, hnext⟩ := masked_step hmath hs hcovered hfence
    unfold run
    rw [hstep]
    exact ih hnext hrestCovered hrestFence

theorem masked_fresh : Masked (fresh .inside []) where
  output := by decide
  region := rfl
  heading := rfl
  desks := rfl
  language _ hcode := nomatch hcode

/-- **Inside the body no opening brace reaches the page, when no fence names a language with one.**

Headings, raw markup and sentinels apart, the events may be any, in any order. -/
theorem page_has_no_brace (vocabulary : Body.Vocabulary) (events : List Event)
    (hcovered : ∀ event ∈ events, isCovered event)
    (hfence : ∀ event ∈ events, ∀ l ∈ fenceLanguage? event, BraceFree l) :
    ∃ page, (render ⟨vocabulary, delimitedMath⟩ (fresh .inside []) events).1 = .ok page ∧
      '\x7b' ∉ page.html := by
  -- The renderer starts masked, so the run ends masked, and the page is what the run has written.
  obtain ⟨last, hrun, hlast⟩ : ∃ last,
      run ⟨vocabulary, delimitedMath⟩ (fresh .inside []) events = (none, last) ∧ Masked last :=
    masked_run rfl masked_fresh hcovered hfence
  unfold render
  rw [hrun]
  exact ⟨_, rfl, hlast.output⟩

/-- Text, code, a link, an image, a formula, a cell and a fence, all with braces to hide. -/
def bracedEvents : List Event :=
  [.start .paragraph, .text "\x7ba\x7d".toList, .code "\x7b".toList,
    .start (.link "/\x7bb\x7d".toList []), .start (.image "\x7bc".toList "\x7bd".toList),
    .text "\x7be".toList, .stop .image, .stop .link, .math "x^\x7b2\x7d".toList true, .stop .paragraph,
    .start (.table [.left]), .start .tableHead, .start .tableCell, .text "\x7bf".toList,
    .stop .tableCell, .stop .tableHead, .stop .table,
    .start (.codeBlock (.fenced "rust \x7bignore\x7d".toList)), .text "fn f() \x7b\x7d\n".toList,
    .stop .codeBlock]

theorem bracedEvents_page_has_no_brace :
    (∀ event ∈ bracedEvents, isCovered event) ∧
      (∀ event ∈ bracedEvents, ∀ l ∈ fenceLanguage? event, BraceFree l) ∧
      ∃ page, (render ⟨.standard, delimitedMath⟩ (fresh .inside []) bracedEvents).1 = .ok page ∧
        '\x7b' ∉ page.html := by
  have hcovered : ∀ event ∈ bracedEvents, isCovered event := by decide
  have hfence : ∀ event ∈ bracedEvents, ∀ l ∈ fenceLanguage? event, BraceFree l := by decide
  exact ⟨hcovered, hfence, page_has_no_brace .standard bracedEvents hcovered hfence⟩

/-- A fence whose language is a brace. -/
def braceFence : List Event :=
  [.start (.codeBlock (.fenced "\x7br\x7d".toList)), .text "x\n".toList, .stop .codeBlock]

/-- The language of a fence shows its brace: without the condition on fences the page can have one,
whatever else is left out. -/
theorem brace_of_fence_reaches_page :
    (∀ event ∈ braceFence, isCovered event) ∧
      (render {} (fresh .inside []) braceFence).1 = .ok
        ⟨"<pre><code class=\"language-\x7br\x7d\">x\n</code></pre>".toList, [], []⟩ ∧
      ¬ ∀ events, (∀ event ∈ events, isCovered event) → ∀ page,
        (render {} (fresh .inside []) events).1 = .ok page → '\x7b' ∉ page.html := by
  have hcovered : ∀ event ∈ braceFence, isCovered event := by decide
  have hpage : (render {} (fresh .inside []) braceFence).1 = .ok
      ⟨"<pre><code class=\"language-\x7br\x7d\">x\n</code></pre>".toList, [], []⟩ := by
    decide
  exact ⟨hcovered, hpage, fun h => absurd (h braceFence hcovered _ hpage) (by decide)⟩

end DocPage.Render
