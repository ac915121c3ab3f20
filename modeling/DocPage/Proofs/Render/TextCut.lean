import DocPage.Proofs.Render.Output

/-!
# Where a text is cut does not matter

One text can come as several events. Whatever is open then, all of them go to the same place, one
behind another, and each escaper works on one character at a time. So the parts of a text leave what
the text itself leaves, and no run tells two lists of events apart in which the same texts are cut
in different places. Only a sentinel has to come as one event, since it is looked for event by
event.

## Architecture

- **Texts**: `State.absorb`, which is how a text acts on a state when it is not heard as a sentinel
- **Cuts**: `SameTexts` relates lists of events that differ in the cuts of their texts
- **Runs**: `run_texts`, and `run_eq_of_sameTexts` along the relation
- **Merging**: `render_mergeTexts`, for texts that are joined before they are rendered
-/

namespace DocPage.Render

open Body (Sentinel)
open Markdown (Event mergeTexts)

/-! ## Texts -/

theorem escapeIn_append (region : Body.Region) (a b : Text) :
    escapeIn region (a ++ b) = escapeIn region a ++ escapeIn region b := by
  unfold escapeIn
  -- Both ways to escape go character by character.
  split
  · exact List.flatMap_append
  · exact List.flatMap_append

theorem escapeIn_nil (region : Body.Region) : escapeIn region [] = [] := by
  unfold escapeIn
  split <;> rfl

namespace State

/-- The state after a text that is taken as it stands, whether it spells a sentinel or not. -/
def absorb (s : State) (t : Text) : State :=
  match s.code, s.image with
  | some code, _ => { s with code := some { code with source := code.source ++ t } }
  | none, some image => { s with image := some { image with alt := image.alt ++ t } }
  | none, none => if s.heading.isSome then s.addToHeading t else s.write (escapeIn s.region t)

theorem text_eq_absorb (s : State) {t : Text} (h : Sentinel.ofChunk? t = none) :
    s.text t = s.absorb t := by
  -- Only a text that nothing takes is asked for a sentinel.
  unfold text absorb
  cases s.code with
  | some code => rfl
  | none =>
    cases s.image with
    | some image => rfl
    | none => rw [h]

theorem absorb_nil (s : State) : s.absorb [] = s := by
  -- Nothing is added to whatever takes the text.
  obtain ⟨output, code, image, heading⟩ := s
  cases code with
  | some code => simp [absorb]
  | none =>
    cases image with
    | some image => simp [absorb]
    | none =>
      cases heading with
      | some heading => simp [absorb, addToHeading]
      | none => simp [absorb, write, escapeIn_nil]

/-- What takes the first text takes the second one too. -/
theorem absorb_append (s : State) (a b : Text) : (s.absorb a).absorb b = s.absorb (a ++ b) := by
  -- The first text does not change what is open, so the second one goes to the same place.
  obtain ⟨output, code, image, heading⟩ := s
  cases code with
  | some code => simp [absorb]
  | none =>
    cases image with
    | some image => simp [absorb]
    | none =>
      cases heading with
      | some heading => simp [absorb, addToHeading]
      | none => simp [absorb, write, escapeIn_append]

end State

/-! ## Cuts -/

/-- Lists of events with the same texts and the same events between them. Each text may be cut into
any number of events on either side, none of which spells a sentinel. -/
inductive SameTexts : List Event → List Event → Prop where
  | nil : SameTexts [] []
  /-- Any event may also stand on both sides as it is. -/
  | event (event : Event) {xs ys : List Event} : SameTexts xs ys →
      SameTexts (event :: xs) (event :: ys)
  | texts (as bs : List Text) {xs ys : List Event} : as.flatten = bs.flatten →
      (∀ t ∈ as, Sentinel.ofChunk? t = none) → (∀ t ∈ bs, Sentinel.ofChunk? t = none) →
      SameTexts xs ys → SameTexts (as.map .text ++ xs) (bs.map .text ++ ys)

namespace SameTexts

variable {xs ys : List Event}

theorem refl (xs : List Event) : SameTexts xs xs := by
  induction xs with
  | nil => exact .nil
  | cons event xs ih => exact .event event ih

theorem append_left (before : List Event) (h : SameTexts xs ys) :
    SameTexts (before ++ xs) (before ++ ys) := by
  induction before with
  | nil => exact h
  | cons event before ih => exact .event event ih

/-- One cut between two neighbours. -/
theorem merge {a b : Text} (ha : Sentinel.ofChunk? a = none) (hb : Sentinel.ofChunk? b = none)
    (hab : Sentinel.ofChunk? (a ++ b) = none) (rest : List Event) :
    SameTexts (.text a :: .text b :: rest) (.text (a ++ b) :: rest) := by
  have hpair : ∀ t ∈ [a, b], Sentinel.ofChunk? t = none :=
    List.forall_mem_cons.mpr ⟨ha, List.forall_mem_singleton.mpr hb⟩
  -- The pair and the one text are two cuts of the same.
  exact .texts [a, b] [a ++ b] (by simp) hpair
    (List.forall_mem_singleton.mpr hab) (.refl rest)

end SameTexts

/-! ## Runs -/

/-- Texts that spell no sentinel are taken as the one text that they make. -/
theorem run_texts (settings : Settings) (s : State) {ts : List Text}
    (h : ∀ t ∈ ts, Sentinel.ofChunk? t = none) (rest : List Event) :
    run settings s (ts.map .text ++ rest) = run settings (s.absorb ts.flatten) rest := by
  -- The texts are absorbed one after another, which is absorbing what they make.
  induction ts generalizing s with
  | nil => rw [List.flatten_nil, s.absorb_nil, List.map_nil, List.nil_append]
  | cons t ts ih =>
    obtain ⟨ht, hts⟩ := List.forall_mem_cons.mp h
    have hstep : step settings s (.text t) = .ok (s.absorb t) :=
      congrArg Except.ok (s.text_eq_absorb ht)
    rw [List.map_cons, List.cons_append, run, hstep, List.flatten_cons, ← s.absorb_append]
    exact ih (s.absorb t) hts

/-- No run looks at the cuts of texts. -/
theorem run_eq_of_sameTexts (settings : Settings) {xs ys : List Event} (h : SameTexts xs ys)
    (s : State) : run settings s xs = run settings s ys := by
  -- Along the relation: the same event on both sides, or the same texts in two cuts.
  induction h generalizing s with
  | nil => rfl
  | event event _ ih =>
    unfold run
    cases step settings s event with
    | error e => rfl
    | ok next => exact ih next
  | texts as bs hsame has hbs _ ih =>
    rw [run_texts settings s has, run_texts settings s hbs, hsame, ih]

theorem render_eq_of_sameTexts (settings : Settings) {xs ys : List Event} (h : SameTexts xs ys)
    (s : State) : render settings s xs = render settings s ys := by
  unfold render
  rw [run_eq_of_sameTexts settings h]

/-- **Rendering does not depend on how text is cut into events.**

Whatever was rendered before and whatever is open, two neighbouring texts give the page, the failure
and the state that they give as one text, when none of the three spells a sentinel. In general, any
two lists of events in which the same texts are cut into events that spell no sentinel are rendered
alike, also where a text as a whole would be one. -/
theorem render_ignores_cuts (settings : Settings) (s : State) :
    (∀ before a b after, Sentinel.ofChunk? a = none → Sentinel.ofChunk? b = none →
      Sentinel.ofChunk? (a ++ b) = none →
      render settings s (before ++ .text a :: .text b :: after) =
        render settings s (before ++ .text (a ++ b) :: after)) ∧
    ∀ xs ys, SameTexts xs ys → render settings s xs = render settings s ys := by
  -- The first part is the case of one cut between two neighbours.
  refine ⟨fun before a b after ha hb hab => ?_, fun xs ys h => ?_⟩
  · exact render_eq_of_sameTexts settings (.append_left before (.merge ha hb hab after)) s
  · exact render_eq_of_sameTexts settings h s

/-- Texts in a heading, in an image and in a line. The parts of the last one spell the start of the
body together. -/
def scatteredEvents : List Event :=
  [.start (.heading 1), .text "A \x7b".toList, .text "B".toList, .stop .heading,
    .start (.image "i.png".toList []), .text "\x7b".toList, .text "c".toList, .stop .image,
    .text "HF_DOC_".toList, .text "BODY_START".toList]

/-- The same texts, with other cuts. -/
def regroupedEvents : List Event :=
  [.start (.heading 1), .text "A".toList, .text " \x7bB".toList, .stop .heading,
    .start (.image "i.png".toList []), .text "\x7bc".toList, .stop .image,
    .text "HF_DOC_BODY_".toList, .text [], .text "START".toList]

theorem scattered_rendered_alike :
    let s : State := { region := .inside }
    (Sentinel.ofChunk? "\x7b".toList = none ∧ Sentinel.ofChunk? "c".toList = none ∧
      Sentinel.ofChunk? "\x7bc".toList = none) ∧
    render {} s [.start .tableCell, .text "\x7b".toList, .text "c".toList, .stop .tableCell] =
      render {} s [.start .tableCell, .text "\x7bc".toList, .stop .tableCell] ∧
    SameTexts scatteredEvents regroupedEvents ∧
    render {} s scatteredEvents = render {} s regroupedEvents := by
  intro s
  -- The events are walked through together, with one cut for each group of texts.
  have hsame : SameTexts scatteredEvents regroupedEvents := by
    apply SameTexts.event
    apply SameTexts.texts ["A \x7b".toList, "B".toList] ["A".toList, " \x7bB".toList] rfl
      (by decide) (by decide)
    apply SameTexts.event
    apply SameTexts.event
    apply SameTexts.texts ["\x7b".toList, "c".toList] ["\x7bc".toList] rfl (by decide) (by decide)
    apply SameTexts.event
    exact .texts ["HF_DOC_".toList, "BODY_START".toList]
      ["HF_DOC_BODY_".toList, [], "START".toList] rfl (by decide) (by decide) .nil
  obtain ⟨hmerge, hcuts⟩ := render_ignores_cuts {} s
  refine ⟨by decide, ?_, hsame, hcuts _ _ hsame⟩
  exact hmerge [.start .tableCell] "\x7b".toList "c".toList [.stop .tableCell] (by decide)
    (by decide) (by decide)

/-! ## Merging -/

def SentinelFree (events : List Event) : Prop :=
  ∀ t, .text t ∈ events → Sentinel.ofChunk? t = none

/-- Events are the texts in front and then something else. -/
theorem exists_texts_append (events : List Event) : ∃ (ts : List Text) (rest : List Event),
    events = ts.map .text ++ rest ∧ ∀ t, rest.head? ≠ some (.text t) := by
  induction events with
  | nil => exact ⟨[], [], rfl, fun t h => nomatch h⟩
  | cons event events ih =>
    -- A text joins those in front; any other event ends them.
    by_cases htext : ∃ t, event = .text t
    · obtain ⟨t, rfl⟩ := htext
      obtain ⟨ts, rest, rfl, hrest⟩ := ih
      exact ⟨t :: ts, rest, rfl, hrest⟩
    · exact ⟨[], event :: events, rfl, fun t h => htext ⟨t, Option.some.inj h⟩⟩

theorem mergeTexts_cons_of_ne {event : Event} (h : ∀ t, event ≠ .text t) (rest : List Event) :
    mergeTexts (event :: rest) = event :: mergeTexts rest := by
  cases event with
  | text t => exact absurd rfl (h t)
  | _ => rfl

/-- Neighbouring texts become one. -/
theorem mergeTexts_texts (t : Text) (ts : List Text) {rest : List Event}
    (hrest : ∀ t, rest.head? ≠ some (.text t)) :
    mergeTexts ((t :: ts).map .text ++ rest) = .text (t :: ts).flatten :: mergeTexts rest := by
  induction ts generalizing t with
  | nil =>
    cases rest with
    | nil => simp [mergeTexts]
    -- Behind the texts stands another event, where the joining starts anew.
    | cons event rest =>
      have hevent : ∀ t, event ≠ .text t := fun t h => hrest t (congrArg some h)
      rw [List.map_singleton, List.singleton_append, mergeTexts, mergeTexts_cons_of_ne hevent]
      cases event with
      | text t => exact absurd rfl (hevent t)
      | _ => simp
  | cons t' ts ih =>
    rw [List.map_cons, List.cons_append, mergeTexts, ih t']
    rfl

/-- Joining neighbours is one way to cut the texts. -/
theorem sameTexts_mergeTexts {events : List Event} (h : SentinelFree events)
    (hmerged : SentinelFree (mergeTexts events)) : SameTexts events (mergeTexts events) := by
  -- A group of texts and the event behind it are taken off together, so the induction is on the
  -- length.
  induction hlength : events.length using Nat.strong_induction_on generalizing events with
  | _ n ih =>
    subst hlength
    obtain ⟨ts, rest, rfl, hrest⟩ := exists_texts_append events
    cases ts with
    | cons t ts =>
      rw [mergeTexts_texts t ts hrest] at hmerged ⊢
      have hbehind : SameTexts rest (mergeTexts rest) := by
        refine ih rest.length ?_ (fun u hu => h u (List.mem_append_right _ hu))
          (fun u hu => hmerged u (List.mem_cons_of_mem _ hu)) rfl
        simp only [List.length_append, List.length_map, List.length_cons]
        omega
      refine .texts (t :: ts) [(t :: ts).flatten] (by simp) (fun u hu => ?_)
        (List.forall_mem_singleton.mpr (hmerged _ List.mem_cons_self)) hbehind
      exact h u (List.mem_append_left _ (List.mem_map_of_mem hu))
    | nil =>
      cases rest with
      | nil => exact .nil
      | cons event rest =>
        have hevent : ∀ t, event ≠ .text t := fun t heq => hrest t (congrArg some heq)
        rw [List.map_nil, List.nil_append, mergeTexts_cons_of_ne hevent] at hmerged ⊢
        exact .event event (ih rest.length (Nat.lt_succ_self _)
          (fun u hu => h u (List.mem_cons_of_mem _ hu))
          (fun u hu => hmerged u (List.mem_cons_of_mem _ hu)) rfl)

/-- Whether neighbouring texts are joined before they are rendered makes no difference, unless one
of them spells a sentinel or becomes one. -/
theorem render_mergeTexts (settings : Settings) (s : State) {events : List Event}
    (h : SentinelFree events) (hmerged : SentinelFree (mergeTexts events)) :
    render settings s (mergeTexts events) = render settings s events :=
  (render_eq_of_sameTexts settings (sameTexts_mergeTexts h hmerged) s).symm

end DocPage.Render
