import DocPage.Code.Split
import DocPage.Proofs.Body.Comments
import DocPage.Proofs.Body.Sentinel
import DocPage.Proofs.Json.Attribute
import DocPage.Proofs.Render.Markup

/-!
# Placeholders on their way through the renderer

A placeholder reaches the page as raw HTML. Headings drop it, and inside the body a chunk with an
unknown tag loses it; `kept` says which placeholders an event brings to the page. Nothing else that
the renderer writes holds one, and the start tag of an empty paragraph, which is taken back, belongs
to none. So a page has the placeholders that its events bring, in the same order.

## Architecture

- **Markup**: what the renderer writes by itself is `Inert`
- **States**: `Tidy`, and `Adds` for what an event adds to the page
- **Runs**: `adds_run`, whether the run fails or not, and `indices_of_render` for a page
-/

namespace DocPage.Render

open Document (indices Finished Inert)
open Markdown (Event)

/-! ## Markup -/

section Markup

theorem inert_of_isValue {t : Text} (h : IsValue t) : Inert t :=
  .of_notMem h.notMem_lt

theorem inert_escapeIn (region : Body.Region) (t : Text) : Inert (escapeIn region t) :=
  inert_of_isValue (isValue_escapeIn region t)

theorem inert_ofNat (n : Nat) : Inert (Text.ofNat n) :=
  .of_notMem (Text.notMem_ofNat (by decide) n)

section Component

variable {c : Component}

/-- Props open a bracket only in a key or an expression. -/
@[simp]
theorem mem_props_expr {key expression : Text} : '<' ∈ (c.expr key expression).props ↔
    '<' ∈ c.props ∨ '<' ∈ key ∨ '<' ∈ expression := by
  simp [Component.expr]

/-- A JSON value opens none. -/
@[simp]
theorem mem_props_prop {key : Text} {value : Json} :
    '<' ∈ (c.prop key value).props ↔ '<' ∈ c.props ∨ '<' ∈ key := by
  simp [Component.prop, Json.openingAngle_notMem_toAttr]

/-- An invocation whose name has only letters, and whose props open no bracket. -/
theorem inert_selfClosing (hne : c.name ≠ []) (hname : ∀ ch ∈ c.name, ch.isAlpha = true)
    (hprops : '<' ∉ c.props) : Inert c.selfClosing := by
  obtain ⟨first, rest, hcons⟩ := List.exists_cons_of_ne_nil hne
  -- The name starts with a letter, so the bracket starts no comment.
  have hopens : '<' ∉ c.name := fun hmem => absurd (hname _ hmem) (by decide)
  have hfirst : first ≠ '!' := by
    rintro rfl
    have hbang : '!' ∈ c.name := by simp [hcons]
    exact absurd (hname _ hbang) (by decide)
  unfold Component.selfClosing
  rw [hcons] at hopens ⊢
  -- The bracket at the front is then the only one, and what it opens is no comment.
  apply Inert.tag (t := rest ++ c.props ++ " />".toList) hfirst
  simp only [List.mem_cons, List.mem_append, not_or] at hopens ⊢
  exact ⟨hopens.1, ⟨hopens.2, hprops⟩, by simp⟩

end Component

theorem inert_headingComponent (h : Outline.Heading) : Inert (State.headingComponent h) := by
  apply inert_selfClosing
  · exact List.cons_ne_nil _ _
  · show ∀ ch ∈ "Heading".toList, ch.isAlpha = true
    decide
  · simp

theorem inert_openTag (look : Admonition) : Inert look.openTag := by
  cases look
  all_goals exact .of_isPlain (by decide +kernel)

theorem inert_cell (table : Table) :
    Inert ('<' :: table.cellTag ++ table.cellAttribute ++ ['>']) := by
  unfold Table.cellTag Table.cellAttribute alignAttribute
  -- A cell is one of two names with one of four attributes.
  split
  all_goals
    split
    all_goals exact .of_isPlain rfl

theorem inert_closeCell (table : Table) : Inert ("</".toList ++ table.cellTag ++ ">".toList) := by
  unfold Table.cellTag
  split
  all_goals exact .of_isPlain rfl

theorem inert_plainCodeBlock (region : Body.Region) (language : Option Text) (source : Text) :
    Inert (State.plainCodeBlock region language source) := by
  have hclass : ∀ l : Text, Inert (" class=\"language-".toList ++ Html.escape l ++ "\"".toList) :=
    fun l => (Inert.append (.of_isPlain rfl) (inert_of_isValue (isValue_escape l))).append
      (.of_isPlain rfl)
  unfold State.plainCodeBlock
  -- The language and the source are escaped, and all between them is fixed.
  cases language with
  | none =>
    refine .append (.append (.append (.append ?_ ?_) ?_) (inert_escapeIn region source)) ?_
    all_goals exact .of_isPlain rfl
  | some l =>
    refine .append (.append (.append (.append ?_ (hclass l)) ?_) (inert_escapeIn region source)) ?_
    all_goals exact .of_isPlain rfl

theorem inert_imageMarkup (region : Body.Region) (image : OpenImage) :
    Inert (State.imageMarkup region image) := by
  have hvalue := inert_escapeIn region
  have htitle : Inert (if image.title.isEmpty then [] else
      " title=\"".toList ++ escapeIn region image.title ++ "\"".toList) := by
    split
    · exact .of_isPlain rfl
    · exact .append (.append (.of_isPlain rfl) (hvalue _)) (.of_isPlain rfl)
  unfold State.imageMarkup
  refine .append (.append (.append (.append (.append (.append ?_ (hvalue _)) ?_) (hvalue _)) ?_)
    htitle) ?_
  all_goals exact .of_isPlain rfl

/-- The component of a code block, whatever the highlighter makes of the code. -/
theorem inert_codeRender (highlight : Code.Highlighter) (wrap : Bool) (language source : Text) :
    Inert (Code.render highlight wrap language source) := by
  unfold Code.render Code.component
  -- Both components have a fixed name, and their props are JSON values.
  split
  · apply inert_selfClosing
    · exact List.cons_ne_nil _ _
    · show ∀ ch ∈ "CodeBlockFw".toList, ch.isAlpha = true
      decide
    · cases wrap <;> simp
  · apply inert_selfClosing
    · exact List.cons_ne_nil _ _
    · show ∀ ch ∈ "CodeBlock".toList, ch.isAlpha = true
      decide
    · cases wrap <;> simp

/-- The markup of the math renderer holds no placeholder. -/
def InertMath (math : MathRenderer) : Prop :=
  ∀ tex display html, math tex display = .ok html → Inert html

theorem inertMath_delimitedMath : InertMath delimitedMath := by
  intro tex display html h
  cases h
  -- The formula is escaped between fixed delimiters.
  have hescaped : Inert (Html.escapeBraced tex) := inert_escapeIn .inside tex
  cases display
  all_goals
    refine .append (.append ?_ hescaped) ?_
    all_goals exact .of_isPlain rfl

/-- The markup of a processor holds no placeholder, whatever it was offered. -/
def InertProcessor (processor : Code.Processor) : Prop :=
  ∀ earlier block html, (processor.process earlier block).html = some html → Inert html

theorem inertProcessor_componentProcessor (highlight : Code.Highlighter) (wrap : Bool) :
    InertProcessor (Code.componentProcessor highlight wrap) := by
  intro earlier block html h
  cases h
  exact inert_codeRender highlight wrap block.language block.source

/-- A sentinel is no placeholder and holds none. -/
theorem indices_of_ofChunk? {chunk : Text} {sentinel : Body.Sentinel}
    (h : Body.Sentinel.ofChunk? chunk = some sentinel) : indices chunk = [] := by
  obtain ⟨b, spelling, a, hb, ha, hmem, rfl⟩ := Body.Sentinel.exists_of_ofChunk? h
  apply Document.indices_of_unmarked
  -- With a placeholder in it, the chunk would have all letters of its mark.
  intro hoccurs
  -- The mark of a placeholder has a letter that neither blanks nor sentinels have.
  have hletter : 'd' ∈ b ++ spelling ++ a := hoccurs.subset (by decide)
  have hspelling : ∀ p ∈ Body.Sentinel.spellings, 'd' ∉ p.1 := by decide
  have hblank : ∀ t, Text.Blank t → 'd' ∉ t := fun t ht hd => absurd (ht _ hd) (by decide)
  simp only [List.mem_append] at hletter
  rcases hletter with (hbefore | hinside) | hafter
  · exact hblank b hb hbefore
  · exact hspelling _ hmem hinside
  · exact hblank a ha hafter

end Markup

/-! ## States -/

/-- The page leaves no placeholder unfinished, and no processor writes one. -/
structure Tidy (s : State) : Prop where
  output : Finished s.output
  desks : ∀ desk ∈ s.desks, InertProcessor desk.processor

/-- The page stays tidy, and the placeholders `found` were added at its end. -/
structure Adds (found : List Nat) (s next : State) : Prop where
  tidy : Tidy next
  indices : indices next.output = indices s.output ++ found

/-- The placeholders that an event brings to the page: those in raw HTML, but not in a heading, and
not inside the body beside an unknown tag. -/
def kept (settings : Settings) (s : State) : Event → List Nat
  | .html chunk =>
    if s.heading.isSome || s.region.isInside && !Body.allTagsKnown settings.vocabulary chunk then []
    else indices chunk
  | _ => []

namespace Tidy

variable {s : State}

/-- Other fields of the state do not matter. -/
theorem of_eq {next : State} (h : Tidy s) (ho : next.output = s.output) (hd : next.desks = s.desks) :
    Tidy next :=
  ⟨ho ▸ h.output, hd ▸ h.desks⟩

theorem same {next : State} (h : Tidy s) (ho : next.output = s.output)
    (hd : next.desks = s.desks) : Adds [] s next :=
  ⟨h.of_eq ho hd, by rw [ho, List.append_nil]⟩

theorem writeFinished (h : Tidy s) {t : Text} (ht : Finished t) : Adds (indices t) s (s.write t) :=
  ⟨⟨h.output.append ht, h.desks⟩, h.output.indices_append t⟩

/-- An operation that writes inert text, whatever else it does. -/
theorem writes (h : Tidy s) {next : State} {t : Text} (ho : next.output = s.output ++ t)
    (ht : Inert t) (hd : next.desks = s.desks) : Adds [] s next := by
  -- Written text adds its placeholders, and inert text has none.
  have hadds := h.writeFinished ht.finished
  rw [ht.indices] at hadds
  exact ⟨hadds.tidy.of_eq ho hd, by rw [ho, ← hadds.indices]; rfl⟩

theorem write (h : Tidy s) {t : Text} (ht : Inert t) : Adds [] s (s.write t) :=
  h.writes rfl ht rfl

theorem writeInline (h : Tidy s) {t : Text} (ht : Inert t) : Adds [] s (s.writeInline t) := by
  unfold State.writeInline
  split
  · exact h.same rfl rfl
  · exact h.write ht

theorem text (h : Tidy s) (t : Text) : Adds [] s (s.text t) := by
  unfold State.text
  split
  · exact h.same rfl rfl
  · split
    · exact h.same rfl rfl
    · split
      · exact h.same rfl rfl
      · split
        · exact h.same rfl rfl
        · exact h.write (inert_escapeIn s.region t)

theorem codeSpan (h : Tidy s) (t : Text) : Adds [] s (s.codeSpan t) := by
  unfold State.codeSpan
  split
  · exact h.same rfl rfl
  · refine h.write (.append (.append ?_ (inert_escapeIn s.region t)) ?_)
    all_goals exact .of_isPlain rfl

theorem rawMarkup (h : Tidy s) (settings : Settings) {chunk : Text} (hchunk : Finished chunk) :
    Adds (kept settings s (.html chunk)) s (s.rawMarkup settings chunk) := by
  unfold State.rawMarkup kept
  -- What becomes of the chunk is decided in the order of the function: heading, sentinel, region.
  cases hheading : s.heading with
  | some heading => exact h.same rfl rfl
  | none =>
    simp only [Option.isSome_none, Bool.false_or, Bool.false_eq_true, if_false]
    cases hsentinel : Body.Sentinel.ofChunk? chunk with
    | some sentinel =>
      -- The sentinel is written as it is, and brings no placeholder either way.
      rw [indices_of_ofChunk? hsentinel, ite_self]
      exact h.writes rfl ⟨indices_of_ofChunk? hsentinel, hchunk⟩ rfl
    | none =>
      cases hinside : s.region.isInside with
      | false => simpa using h.writeFinished hchunk
      | true =>
        -- Escaping keeps all placeholders when every tag is known, and none when one is not.
        have hadds := h.writeFinished (Body.finished_escapeChunk settings.vocabulary hchunk)
        rw [Body.indices_escapeChunk] at hadds
        cases hknown : Body.allTagsKnown settings.vocabulary chunk <;> simpa [hknown] using hadds

theorem math (h : Tidy s) {settings : Settings} (hmath : InertMath settings.math) {tex : Text}
    {display : Bool} {next : State} (hstep : s.math settings tex display = .ok next) :
    Adds [] s next := by
  unfold State.math at hstep
  split at hstep
  · cases hstep
    exact h.same rfl rfl
  · split at hstep
    · next html hhtml =>
      cases hstep
      exact h.write (hmath _ _ _ hhtml)
    · cases hstep

theorem softBreak (h : Tidy s) : Adds [] s s.softBreak := by
  unfold State.softBreak
  split
  · exact h.same rfl rfl
  · exact h.write (.of_isPlain rfl)

theorem taskMarker (h : Tidy s) (checked : Bool) : Adds [] s (s.taskMarker checked) := by
  cases checked
  all_goals exact h.write (.of_isPlain rfl)

theorem start (h : Tidy s) (element : Markdown.Start) : Adds [] s (s.start element) := by
  cases element with
  | blockQuote alert =>
    cases alert with
    | none => exact h.writes rfl (.of_isPlain rfl) rfl
    | some alert => exact h.writes rfl (inert_openTag (State.alertLook alert)) rfl
  | codeBlock kind => cases kind <;> exact h.same rfl rfl
  | list first =>
    have hnumbered : ∀ n, Inert ("<ol start=\"".toList ++ Text.ofNat n ++ "\">".toList) := fun n =>
      .append (.append (.of_isPlain rfl) (inert_ofNat n)) (.of_isPlain rfl)
    match first with
    | none | some 1 => exact h.write (.of_isPlain rfl)
    | some 0 | some (_ + 2) => exact h.write (hnumbered _)
  | footnoteDefinition | htmlBlock | metadataBlock | heading | image => exact h.same rfl rfl
  | table | tableHead | tableRow => exact h.writes rfl (.of_isPlain rfl) rfl
  | tableCell => exact h.write (inert_cell s.table)
  | emphasis | strong | strikethrough | superscript | subscript =>
    exact h.writeInline (.of_isPlain rfl)
  | link destination =>
    refine h.writeInline (.append (.append ?_ (inert_escapeIn s.region destination)) ?_)
    all_goals exact .of_isPlain rfl
  | _ => exact h.write (.of_isPlain rfl)

/-- The start tag that a paragraph takes back belongs to no placeholder. -/
theorem closeParagraph (h : Tidy s) : Adds [] s s.closeParagraph := by
  unfold State.closeParagraph
  split
  · next output hdrop =>
    have houtput : s.output = output ++ '<' :: "p>".toList := (Text.dropSuffix?_eq_some_iff).mp hdrop
    have hfinished := h.output
    rw [houtput] at hfinished
    -- The start tag begins with a bracket, so no placeholder reaches from the page into it.
    refine ⟨⟨hfinished.left, h.desks⟩, ?_⟩
    rw [houtput, Document.indices_append_of_bracket]
    have htag : indices ('<' :: "p>".toList) = [] := by decide
    rw [htag, List.append_nil, List.append_nil]
  · exact h.write (.of_isPlain rfl)

theorem closeHeading (h : Tidy s) : Adds [] s s.closeHeading := by
  unfold State.closeHeading
  split
  · exact h.same rfl rfl
  · exact h.writes rfl (inert_headingComponent _) rfl

/-- What the processors answer is inert, and they stay what they are. -/
theorem offer {desks : List Code.Desk} (hdesks : ∀ desk ∈ desks, InertProcessor desk.processor)
    (block : Code.Block) : (∀ html, (Code.offer block desks).1 = some html → Inert html) ∧
      ∀ desk ∈ (Code.offer block desks).2, InertProcessor desk.processor := by
  -- Along the desks: the first one that answers is the last one that is asked.
  induction desks with
  | nil => simp [Code.offer]
  | cons desk rest ih =>
    have hfirst := hdesks desk List.mem_cons_self
    obtain ⟨hhtml, hrest⟩ := ih fun d hd => hdesks d (List.mem_cons_of_mem desk hd)
    unfold Code.offer
    cases hanswer : (desk.processor.process desk.offered block).html with
    | some html =>
      simp only [hanswer, Option.some.injEq, forall_eq', List.forall_mem_cons]
      exact ⟨hfirst _ _ _ hanswer, hfirst, fun d hd => hdesks d (List.mem_cons_of_mem desk hd)⟩
    | none =>
      simp only [hanswer, List.forall_mem_cons]
      exact ⟨hhtml, hfirst, hrest⟩

theorem closeCodeBlock (h : Tidy s) : Adds [] s s.closeCodeBlock := by
  unfold State.closeCodeBlock
  simp only
  generalize s.code.getD ⟨none, []⟩ = code
  obtain ⟨hhtml, hdesks⟩ := offer h.desks ⟨code.language.getD [], code.source, s.codeBlocks⟩
  generalize Code.offer _ s.desks = answer at *
  have hwritten : Inert (answer.1.getD (State.plainCodeBlock s.region code.language code.source)) := by
    -- The block is written by the desk that answered, and in the plain way when none did.
    cases hanswer : answer.1 with
    | none => exact inert_plainCodeBlock s.region code.language code.source
    | some html => exact hhtml html hanswer
  have hadds := h.write hwritten
  exact ⟨⟨hadds.tidy.output, hdesks⟩, hadds.indices⟩

theorem closeImage (h : Tidy s) : Adds [] s s.closeImage := by
  unfold State.closeImage
  split
  · exact h.same rfl rfl
  · next image _ =>
    have hclosed : Tidy { s with image := none } := h.of_eq rfl rfl
    have hadds := hclosed.writeInline (inert_imageMarkup s.region image)
    exact ⟨hadds.tidy, hadds.indices⟩

theorem closeQuote (h : Tidy s) : Adds [] s s.closeQuote := by
  unfold State.closeQuote
  split
  all_goals exact h.writes rfl (.of_isPlain rfl) rfl

theorem stop (h : Tidy s) (element : Markdown.End) : Adds [] s (s.stop element) := by
  cases element with
  | paragraph => exact h.closeParagraph
  | heading => exact h.closeHeading
  | blockQuote => exact h.closeQuote
  | codeBlock => exact h.closeCodeBlock
  | image => exact h.closeImage
  | list ordered => cases ordered <;> exact h.write (.of_isPlain rfl)
  | footnoteDefinition | htmlBlock | metadataBlock => exact h.same rfl rfl
  | tableHead => exact h.writes rfl (.of_isPlain rfl) rfl
  | tableCell => exact h.writes rfl (inert_closeCell s.table) rfl
  | emphasis | strong | strikethrough | superscript | subscript | link =>
    exact h.writeInline (.of_isPlain rfl)
  | _ => exact h.write (.of_isPlain rfl)

end Tidy

/-! ## Runs -/

/-- The raw HTML among the events leaves no placeholder unfinished. -/
def FinishedEvents (events : List Event) : Prop :=
  ∀ chunk, .html chunk ∈ events → Finished chunk

variable {settings : Settings}

/-- **A step adds the placeholders that its event brings.** -/
theorem adds_step (hmath : InertMath settings.math) {s next : State} (hs : Tidy s) {event : Event}
    (hevent : FinishedEvents [event]) (h : step settings s event = .ok next) :
    Adds (kept settings s event) s next := by
  -- Only raw HTML brings placeholders; all other events write inert text.
  cases event with
  | math tex display => exact hs.math hmath h
  | start element =>
    cases h
    exact hs.start element
  | stop element =>
    cases h
    exact hs.stop element
  | text t =>
    cases h
    exact hs.text t
  | code t =>
    cases h
    exact hs.codeSpan t
  | html chunk =>
    cases h
    exact hs.rawMarkup settings (hevent chunk List.mem_cons_self)
  | footnoteReference =>
    cases h
    exact hs.same rfl rfl
  | taskMarker checked =>
    cases h
    exact hs.taskMarker checked
  | softBreak =>
    cases h
    exact hs.softBreak
  | hardBreak =>
    cases h
    exact hs.writeInline (.of_isPlain rfl)
  | rule =>
    cases h
    exact hs.write (.of_isPlain rfl)

/-- The placeholders that a run brings to the page, up to the event that fails. -/
def keptAll (settings : Settings) : State → List Event → List Nat
  | _, [] => []
  | s, event :: rest =>
    match step settings s event with
    | .ok next => kept settings s event ++ keptAll settings next rest
    | .error _ => []

/-- What a run adds, whether it fails or not. -/
theorem adds_run (hmath : InertMath settings.math) {s : State} (hs : Tidy s) {events : List Event}
    (hevents : FinishedEvents events) :
    Adds (keptAll settings s events) s (run settings s events).2 := by
  induction events generalizing s with
  | nil => exact hs.same rfl rfl
  | cons event rest ih =>
    unfold run keptAll
    cases hstep : step settings s event with
    | error e => exact hs.same rfl rfl
    | ok next =>
      have hfirst := adds_step hmath hs (fun chunk hchunk => hevents chunk (by
        rw [List.mem_singleton.mp hchunk]
        exact List.mem_cons_self)) hstep
      have hrest := ih hfirst.tidy fun chunk hchunk => hevents chunk (List.mem_cons_of_mem _ hchunk)
      -- The placeholders of the run are those of its steps, one behind another.
      refine ⟨hrest.tidy, ?_⟩
      rw [hrest.indices, hfirst.indices, List.append_assoc]

/-- A page that is handed over has the placeholders that were there before, and those that its
events bring. -/
theorem indices_of_render (hmath : InertMath settings.math) {s : State} (hs : Tidy s)
    {events : List Event} (hevents : FinishedEvents events) {page : Page}
    (h : (render settings s events).1 = .ok page) :
    indices page.html = indices s.output ++ keptAll settings s events := by
  have hadds := adds_run hmath hs hevents
  unfold render at h
  split at h
  · next last hlast =>
    cases h
    rw [hlast] at hadds
    exact hadds.indices
  · cases h

end DocPage.Render
