import DocPage.Proofs.Render.Output

/-!
# The headings of a page stand where they are noted

A renderer is used for one call after another. Its page grows with every event, is handed over by a
call that succeeds, and stays when a call fails. Throughout, each noted heading stands in the page
at its offset, the headings do not overlap, and none is missing.

## Architecture

- **Markup**: `headingMarkup`, the component of a heading spelled out
- **Placement**: `Placed` relates a text to the headings in it; it survives whatever a step does to
  the page
- **Runs and calls**: what one step preserves is preserved by runs, by calls, and by sessions of
  calls
-/

namespace DocPage.Render

open Markdown (Event)
open Outline (Heading)

/-! ## Markup -/

/-- A digit is written as it is inside a string of an attribute. -/
theorem escapeAttrChar_of_isDigit {c : Char} (h : c.isDigit = true) :
    Json.escapeAttrChar c = [c] := by
  -- Every character that is written in another way is no digit.
  have hne : ∀ d : Char, d.isDigit = false → c ≠ d := by
    rintro d hd rfl
    rw [hd] at h
    cases h
  have hlarge : ¬ c.toNat < 0x20 := by
    have hbound : 48 ≤ c.toNat := by
      simp only [Char.isDigit, Bool.and_eq_true, decide_eq_true_eq] at h
      exact h.1
    omega
  simp [Json.escapeAttrChar, Json.escapeChar, hlarge, hne]

/-- The component of a heading, spelled out. -/
def headingMarkup (h : Heading) : Text :=
  "<Heading title=\x7b".toList ++ (Json.string h.title).toAttr ++ "\x7d local=\x7b".toList ++
    (Json.string h.anchor).toAttr ++ "\x7d headingTag=\x7b\"h".toList ++ Text.ofNat h.depth ++
    "\"\x7d />".toList

theorem toAttr_headingTag (n : Nat) :
    (Json.string ('h' :: Text.ofNat n)).toAttr = "\"h".toList ++ Text.ofNat n ++ "\"".toList := by
  -- The number is written as it is, so only the letter and the quotes stand around it.
  have hdigits : (Text.ofNat n).flatMap Json.escapeAttrChar = Text.ofNat n := by
    have hone : ∀ c ∈ Text.ofNat n, Json.escapeAttrChar c = [c] := fun c hc =>
      escapeAttrChar_of_isDigit (Text.isDigit_of_mem_ofNat hc)
    rw [List.flatMap_congr hone]
    exact List.flatMap_singleton' _
  show '"' :: (('h' :: Text.ofNat n).flatMap Json.escapeAttrChar) ++ ['"'] = _
  rw [List.flatMap_cons, hdigits]
  rfl

theorem headingComponent_eq (h : Heading) : State.headingComponent h = headingMarkup h := by
  -- The literals are cut where the builder joins them, so that only associativity is left.
  have htitle : "<Heading title=\x7b".toList =
      '<' :: "Heading".toList ++ ([] ++ ' ' :: "title".toList ++ "=\x7b".toList) := rfl
  have hlocal : "\x7d local=\x7b".toList =
      "\x7d".toList ++ ' ' :: "local".toList ++ "=\x7b".toList := rfl
  have htag : "\x7d headingTag=\x7b\"h".toList =
      "\x7d".toList ++ ' ' :: "headingTag".toList ++ "=\x7b".toList ++ "\"h".toList := rfl
  have hclose : "\"\x7d />".toList = "\"".toList ++ "\x7d".toList ++ " />".toList := rfl
  unfold headingMarkup
  rewrite [htitle, hlocal, htag, hclose]
  simp only [State.headingComponent, Component.prop, Component.expr, Component.selfClosing,
    toAttr_headingTag, List.append_assoc]

theorem exists_headingMarkup_eq_cons (h : Heading) : ∃ rest, headingMarkup h = '<' :: 'H' :: rest :=
  ⟨"eading title=\x7b".toList ++ (Json.string h.title).toAttr ++ "\x7d local=\x7b".toList ++
    (Json.string h.anchor).toAttr ++ "\x7d headingTag=\x7b\"h".toList ++ Text.ofNat h.depth ++
    "\"\x7d />".toList, rfl⟩

theorem exists_headingMarkup_eq_append (h : Heading) :
    ∃ front, headingMarkup h = front ++ " />".toList := by
  have hclose : "\"\x7d />".toList = "\"\x7d".toList ++ " />".toList := rfl
  refine ⟨"<Heading title=\x7b".toList ++ (Json.string h.title).toAttr ++
    "\x7d local=\x7b".toList ++ (Json.string h.anchor).toAttr ++
    "\x7d headingTag=\x7b\"h".toList ++ Text.ofNat h.depth ++ "\"\x7d".toList, ?_⟩
  unfold headingMarkup
  rewrite [hclose]
  simp only [List.append_assoc]

theorem headingMarkup_ne_nil (h : Heading) : headingMarkup h ≠ [] := by
  obtain ⟨rest, hrest⟩ := exists_headingMarkup_eq_cons h
  rw [hrest]
  exact List.cons_ne_nil _ _

/-- The end of a heading shares nothing with the start tag of a paragraph. -/
theorem eq_nil_of_append_close {front t v after : Text} (h : front ++ " />".toList = t ++ v)
    (hv : "<p>".toList = v ++ after) : v = [] := by
  -- Read from the end, the close is `>`, `/`, and so on.
  have hreversed : '>' :: '/' :: ' ' :: front.reverse = v.reverse ++ t.reverse := by
    rw [← List.reverse_append, ← h, List.reverse_append]
    rfl
  have hchars : '<' :: 'p' :: ['>'] = v ++ after := hv
  -- The overlap is a start of the tag, so it has at most three characters.
  rcases v with _ | ⟨a, _ | ⟨b, _ | ⟨c, v⟩⟩⟩
  · rfl
  · obtain ⟨rfl, -⟩ := List.cons.inj hchars
    exact absurd (List.cons.inj hreversed).1 (by decide)
  · obtain ⟨-, htail⟩ := List.cons.inj hchars
    obtain ⟨rfl, -⟩ := List.cons.inj htail
    exact absurd (List.cons.inj hreversed).1 (by decide)
  · simp only [List.cons_append, List.cons.injEq, List.nil_eq, List.append_eq_nil_iff] at hchars
    obtain ⟨rfl, rfl, rfl, rfl, -⟩ := hchars
    -- `>` fits, but in front of it stands `p`, not a slash.
    exact absurd (List.cons.inj (List.cons.inj hreversed).2).1 (by decide)

/-! ## Placement -/

/-- The text, which starts at the byte `start`, holds the headings in this order and without
overlaps, each at its offset. -/
inductive Placed : (start : Nat) → Text → List Entry → Prop where
  | done {start : Nat} {t : Text} : Placed start t []
  | heading {start : Nat} {gap after : Text} {h : Heading} {rest : List Entry} :
      Placed (start + Text.byteSize gap + Text.byteSize (headingMarkup h)) after rest →
      Placed start (gap ++ headingMarkup h ++ after) (⟨start + Text.byteSize gap, h⟩ :: rest)

namespace Placed

variable {start : Nat} {t : Text} {entries : List Entry}

/-- Text that is added at the end disturbs no heading. -/
theorem append (hp : Placed start t entries) (added : Text) :
    Placed start (t ++ added) entries := by
  -- Along the headings: only the text behind the last one grows.
  induction hp with
  | done => exact .done
  | heading _ ih =>
    rw [List.append_assoc]
    exact .heading ih

/-- A heading that is added at the end is placed at the size of the text in front of it. -/
theorem concat (hp : Placed start t entries) (h : Heading) :
    Placed start (t ++ headingMarkup h) (entries ++ [⟨start + Text.byteSize t, h⟩]) := by
  induction hp with
  | @done start t =>
    have hlast : Placed start (t ++ headingMarkup h ++ []) [⟨start + Text.byteSize t, h⟩] :=
      .heading .done
    rwa [List.append_nil] at hlast
  | @heading start gap after first rest _ ih =>
    rw [List.append_assoc, List.cons_append]
    -- The size of the text in front is put together from the parts in front of it.
    refine .heading ?_
    simpa [Nat.add_assoc] using ih

/-- The start tag of a paragraph at the end of the page is not part of a heading. -/
theorem of_append_paragraph (hp : Placed start (t ++ "<p>".toList) entries) :
    Placed start t entries := by
  generalize hu : t ++ "<p>".toList = u at hp
  -- The cut in front of the tag is behind the first heading, or inside it or in front of it.
  induction hp generalizing t with
  | done => exact .done
  | @heading start gap after h rest _ ih =>
    rcases Text.append_cases hu with ⟨v, rfl, hv⟩ | ⟨v, hv, htail⟩
    · exact .heading (ih hv.symm)
    · -- A heading that reached into the start tag would have to end like the tag.
      obtain ⟨front, hfront⟩ := exists_headingMarkup_eq_append h
      have hend : gap ++ front ++ " />".toList = t ++ v := by
        rw [List.append_assoc, ← hfront]
        exact hv
      obtain rfl := eq_nil_of_append_close hend htail
      rw [List.append_nil] at hv
      rw [List.nil_append] at htail
      have hrest : Placed _ [] rest := ih htail
      rw [← hv, ← List.append_nil (gap ++ headingMarkup h)]
      exact .heading hrest

theorem le_offset (hp : Placed start t entries) : ∀ e ∈ entries, start ≤ e.offset := by
  -- Each heading starts behind those in front of it.
  induction hp with
  | done => exact fun _ h => nomatch h
  | heading _ ih =>
    intro e he
    rcases List.mem_cons.mp he with rfl | he
    · exact Nat.le_add_right _ _
    · have := ih e he
      omega

/-- The headings do not overlap. -/
theorem pairwise (hp : Placed start t entries) :
    entries.Pairwise fun a b => a.offset + Text.byteSize (headingMarkup a.heading) ≤ b.offset := by
  induction hp with
  | done => exact List.Pairwise.nil
  | heading hrest ih => exact List.pairwise_cons.mpr ⟨hrest.le_offset, ih⟩

/-- The offsets increase. -/
theorem pairwise_offset (hp : Placed start t entries) :
    entries.Pairwise fun a b => a.offset < b.offset := by
  refine hp.pairwise.imp fun {a b} hle => ?_
  -- A component is not empty, so the next heading starts strictly later.
  have hpos := Text.byteSize_pos (headingMarkup_ne_nil a.heading)
  omega

/-- Each heading stands at its offset. -/
theorem exists_append (hp : Placed start t entries) : ∀ e ∈ entries, ∃ before after,
    t = before ++ headingMarkup e.heading ++ after ∧ start + Text.byteSize before = e.offset := by
  induction hp with
  | done => exact fun _ h => nomatch h
  | @heading start gap after h rest _ ih =>
    intro e he
    rcases List.mem_cons.mp he with rfl | he
    · exact ⟨gap, after, rfl, rfl⟩
    -- The text in front of a later heading includes the first heading.
    · obtain ⟨before, behind, rfl, hoffset⟩ := ih e he
      refine ⟨gap ++ headingMarkup h ++ before, behind, by simp, ?_⟩
      simp only [Text.byteSize_append]
      omega

/-- From the start of the page, the text in front of a heading has the size of its offset. -/
theorem exists_append_of_zero (hp : Placed 0 t entries) : ∀ e ∈ entries, ∃ before after,
    t = before ++ headingMarkup e.heading ++ after ∧ Text.byteSize before = e.offset := by
  intro e he
  obtain ⟨before, after, ht, hoffset⟩ := hp.exists_append e he
  rw [Nat.zero_add] at hoffset
  exact ⟨before, after, ht, hoffset⟩

end Placed

/-! ## Steps and runs -/

section Runs

variable {settings : Settings} {s next : State}

/-- What a step preserves: the headings stay placed, and the one it completes is noted last. -/
theorem placed_step {event : Event} (hp : Placed 0 s.output s.headings)
    (h : step settings s event = .ok next) :
    Placed 0 next.output next.headings ∧
      next.headings.map Entry.heading =
        s.headings.map Entry.heading ++ (completed? s event).toList := by
  -- The step adds text, takes a start tag back, or writes and notes a heading.
  cases step_cases h with
  | append happends hnone =>
    obtain ⟨added, hadded⟩ := happends.output
    rw [hadded, happends.headings, hnone]
    exact ⟨hp.append added, (List.append_nil _).symm⟩
  | drop houtput hheadings hnone =>
    rw [houtput] at hp
    rw [hheadings, hnone]
    exact ⟨hp.of_append_paragraph, (List.append_nil _).symm⟩
  | @heading heading hsome houtput hheadings =>
    rw [houtput, hheadings, hsome, headingComponent_eq, List.map_append]
    refine ⟨?_, rfl⟩
    have hconcat := hp.concat heading
    rwa [Nat.zero_add] at hconcat

/-- The headings that a run completes, up to the event that fails. -/
def completions (settings : Settings) : State → List Event → List Heading
  | _, [] => []
  | s, event :: rest =>
    match step settings s event with
    | .ok next => (completed? s event).toList ++ completions settings next rest
    | .error _ => []

/-- What a run preserves, whether it fails or not. -/
theorem placed_run (settings : Settings) (events : List Event) (hp : Placed 0 s.output s.headings) :
    Placed 0 (run settings s events).2.output (run settings s events).2.headings ∧
      (run settings s events).2.headings.map Entry.heading =
        s.headings.map Entry.heading ++ completions settings s events := by
  induction events generalizing s with
  | nil => exact ⟨hp, (List.append_nil _).symm⟩
  | cons event rest ih =>
    unfold run completions
    cases hstep : step settings s event with
    | error e =>
      -- A failed step has no new state, so what was there before it is kept.
      exact ⟨hp, (List.append_nil _).symm⟩
    | ok next =>
      obtain ⟨hplaced, hnoted⟩ := placed_step hp hstep
      obtain ⟨hend, hall⟩ := ih hplaced
      refine ⟨hend, ?_⟩
      rw [hall, hnoted, List.append_assoc]

end Runs

/-! ## Calls -/

section Calls

variable {settings : Settings} {s : State}

/-- A page that a call hands over holds its headings: those that were noted before, and those that
the call completes. -/
theorem placed_of_render {events : List Event} {page : Page} (hp : Placed 0 s.output s.headings)
    (h : (render settings s events).1 = .ok page) :
    Placed 0 page.html page.headings ∧ page.headings.map Entry.heading =
      s.headings.map Entry.heading ++ completions settings s events := by
  -- The page is what the run has written, with what it has noted.
  have hrun := placed_run settings events hp
  unfold render at h
  split at h
  · next last hlast =>
    cases h
    rwa [hlast] at hrun
  · cases h

/-- The state behind a call is ready for the next one. -/
theorem placed_render (settings : Settings) (events : List Event)
    (hp : Placed 0 s.output s.headings) :
    Placed 0 (render settings s events).2.output (render settings s events).2.headings ∧
      (render settings s events).2.headings.map Entry.heading =
        if (render settings s events).1.isOk then []
        else s.headings.map Entry.heading ++ completions settings s events := by
  have hrun := placed_run settings events hp
  unfold render
  split
  · -- A page was handed over, and with it all headings.
    exact ⟨.done, rfl⟩
  · next last hlast =>
    rwa [hlast] at hrun

/-- A renderer before its first call. -/
def fresh (region : Body.Region) (processors : List Code.Processor) : State :=
  { region, desks := processors.map fun processor => { processor } }

/-- The answers of a renderer to one call after another. -/
def answers (settings : Settings) : State → List (List Event) → List (Except RenderError Page)
  | _, [] => []
  | s, events :: calls =>
    (render settings s events).1 :: answers settings (render settings s events).2 calls

/-- For each call, the headings completed up to its end since the last call that succeeded;
`pending` were completed before the first of the calls. -/
def completedSince (settings : Settings) :
    State → (pending : List Heading) → List (List Event) → List (List Heading)
  | _, _, [] => []
  | s, pending, events :: calls =>
    let completed := pending ++ completions settings s events
    let pending := if (render settings s events).1.isOk then [] else completed
    completed :: completedSince settings (render settings s events).2 pending calls

/-- What holds between calls carries over to the answer of every later call. -/
theorem placed_answers {calls : List (List Event)} {i : Nat} {page : Page}
    (hp : Placed 0 s.output s.headings) (h : (answers settings s calls)[i]? = some (.ok page)) :
    Placed 0 page.html page.headings ∧
      (completedSince settings s (s.headings.map Entry.heading) calls)[i]? =
        some (page.headings.map Entry.heading) := by
  -- Call by call: what a call leaves is what the next one begins with.
  induction calls generalizing s i with
  | nil => cases h
  | cons events calls ih =>
    unfold answers at h
    unfold completedSince
    cases i with
    -- The answer asked for is that of the first call.
    | zero =>
      obtain ⟨hplaced, hnoted⟩ := placed_of_render hp (Option.some.inj h)
      exact ⟨hplaced, congrArg some hnoted.symm⟩
    | succ i =>
      obtain ⟨hplaced, hnoted⟩ := placed_render settings events hp
      obtain ⟨hend, hall⟩ := ih hplaced h
      rw [hnoted] at hall
      exact ⟨hend, hall⟩

/-- **In every page of a renderer, the headings and the markup agree.**

Whatever events the calls bring, in every page that is handed over the offsets of the headings
increase, each heading stands in the markup at its offset, the headings do not overlap, and they are
those completed since the last page, in order. -/
theorem headings_agree_with_html (settings : Settings) (region : Body.Region)
    (processors : List Code.Processor) (calls : List (List Event)) (i : Nat) (page : Page)
    (h : (answers settings (fresh region processors) calls)[i]? = some (.ok page)) :
    page.headings.Pairwise (fun a b => a.offset < b.offset ∧
        a.offset + Text.byteSize (headingMarkup a.heading) ≤ b.offset) ∧
      (∀ e ∈ page.headings, ∃ before after,
        page.html = before ++ headingMarkup e.heading ++ after ∧ Text.byteSize before = e.offset) ∧
      (completedSince settings (fresh region processors) [] calls)[i]? =
        some (page.headings.map Entry.heading) := by
  -- A new renderer has written nothing and noted nothing.
  obtain ⟨hplaced, hnoted⟩ := placed_answers (s := fresh region processors) .done h
  exact ⟨hplaced.pairwise_offset.and hplaced.pairwise, hplaced.exists_append_of_zero, hnoted⟩

/-- Settings under which every formula is rejected. -/
def rejectMath : Settings := { math := fun _ _ => .error "no formula".toList }

/-- A call that fails behind a heading, and one that drops a paragraph and finishes the page. -/
def interruptedCalls : List (List Event) :=
  [[.start (.heading 1), .text "Intro".toList, .stop .heading, .math "x".toList false],
    [.start .paragraph, .stop .paragraph, .start (.heading 2), .text "Intro".toList,
      .stop .heading]]

/-- The page of the second of these calls; the heading of the failed call is still there. -/
def interruptedPage : Page where
  html :=
    "<Heading title=\x7b\"Intro\"\x7d local=\x7b\"intro\"\x7d headingTag=\x7b\"h1\"\x7d />".toList ++
    "<Heading title=\x7b\"Intro\"\x7d local=\x7b\"intro-1\"\x7d headingTag=\x7b\"h2\"\x7d />".toList
  headings := [⟨0, ⟨"Intro".toList, "intro".toList, 1⟩⟩,
    ⟨61, ⟨"Intro".toList, "intro-1".toList, 2⟩⟩]
  warnings := []

theorem headings_agree_after_failure :
    (answers rejectMath (fresh .before []) interruptedCalls)[1]? = some (.ok interruptedPage) ∧
      (completedSince rejectMath (fresh .before []) [] interruptedCalls)[1]? =
        some (interruptedPage.headings.map Entry.heading) := by
  have hanswer : (answers rejectMath (fresh .before []) interruptedCalls)[1]? =
      some (.ok interruptedPage) := by
    decide +kernel
  have hagree := headings_agree_with_html rejectMath .before [] interruptedCalls 1 interruptedPage
    hanswer
  exact ⟨hanswer, hagree.2.2⟩

end Calls

end DocPage.Render
