import DocPage.Proofs.Body.Sentinel

/-!
# The region as an automaton

The body starts once and stops once, so the region only moves forward. Where it stands behind a text
is told by what is spelled in the text: it is inside behind the first start, and after the body
behind any stop that follows a start. Since no sentinel overlaps another one, a text may be read in
parts, as long as no sentinel is cut.

## Architecture

- **Occurrences**: `SpelledIn`; the sentinels that a scan finds are those spelled in the text
- **Sequences**: the region behind a list of sentinels
- **Texts**: the region behind a text, by what is spelled in it
- **Flags**: `Flags`, a region as what was passed, and the states that can be reached
-/

namespace DocPage.Body

/-! ## Occurrences -/

namespace Sentinel

variable {sentinel : Sentinel} {spelling before after t : Text}

/-- The sentinel is spelled somewhere in the text. -/
def SpelledIn (sentinel : Sentinel) (t : Text) : Prop :=
  ∃ spelling, (spelling, sentinel) ∈ spellings ∧ spelling <:+: t

/-- A sentinel starts in the first text and ends in the second one. -/
def Straddles (t u : Text) : Prop :=
  ∃ a b sentinel, a ≠ [] ∧ b ≠ [] ∧ a <:+ t ∧ b <+: u ∧ (a ++ b, sentinel) ∈ spellings

theorem straddles_iff {t u : Text} : matcher.Straddles t u ↔ Straddles t u := by
  constructor
  -- The matcher accepts exactly the spellings, so both sides speak of the same cut.
  · rintro ⟨a, b, ha, hb, hat, hbu, haccepts⟩
    obtain ⟨sentinel, hmem⟩ := spells_spellings.accepts_iff.mp haccepts
    exact ⟨a, b, sentinel, ha, hb, hat, hbu, hmem⟩
  · rintro ⟨a, b, sentinel, ha, hb, hat, hbu, hmem⟩
    exact ⟨a, b, ha, hb, hat, hbu, spells_spellings.accepts_iff.mpr ⟨sentinel, hmem⟩⟩

/-- A straddling sentinel is a spelling that the seam cuts into two parts. -/
theorem straddles_iff_exists_cut {t u : Text} : Straddles t u ↔
    ∃ p ∈ spellings, ∃ n < p.1.length, 0 < n ∧ p.1.take n <:+ t ∧ p.1.drop n <+: u :=
  straddles_iff.symm.trans spells_spellings.straddles_iff

instance (t u : Text) : Decidable (Straddles t u) :=
  decidable_of_iff _ straddles_iff_exists_cut.symm

/-- What is left of a sentinel behind a cut neither starts a sentinel nor starts with one. -/
theorem spellings_apart : ∀ p ∈ spellings, ∀ q ∈ spellings, ∀ n < p.1.length, 0 < n →
    ¬ p.1.drop n <+: q.1 ∧ ¬ q.1 <+: p.1.drop n := by
  decide +kernel

/-- A sentinel that is spelled is found, and the texts around it are read by themselves. -/
theorem all_append_spelling (h : (spelling, sentinel) ∈ spellings) (before after : Text) :
    all (before ++ spelling ++ after) = all before ++ sentinel :: all after := by
  -- The front of a spelling never ends a text that goes on with this one, by checking all pairs of
  -- spellings.
  have happart : ¬ matcher.Straddles before (spelling ++ after) :=
    spells_spellings.not_straddles_of_apart (fun p hp => spellings_apart p hp _ h) before after
  rw [List.append_assoc, all_append happart, all_spelling_append h]

/-- A sentinel that is found is spelled, between texts with the sentinels around it. -/
theorem exists_of_all_eq {front back : List Sentinel} (h : all t = front ++ sentinel :: back) :
    ∃ before spelling after, (spelling, sentinel) ∈ spellings ∧
      t = before ++ spelling ++ after ∧ all before = front ∧ all after = back := by
  -- The scan is followed up to the sentinel, so what is in front of it grows with each step.
  induction t using Text.pieces_induction spells_spellings.isLocal.proper generalizing front with
  | nil => exact absurd h (List.append_ne_nil_of_right_ne_nil front (List.cons_ne_nil _ _)).symm
  | plain c t hnone ih =>
    have hsame : ∀ u, matcher (c :: u) = none → all (c :: u) = all u := by
      intro u hu
      unfold all Text.values
      rw [Text.pieces_cons_of_none hu]
      rfl
    rw [hsame t hnone] at h
    obtain ⟨before, spelling, after, hmem, rfl, hbefore, hafter⟩ := ih h
    refine ⟨c :: before, spelling, after, hmem, rfl, ?_, hafter⟩
    -- What follows the first part did not make a match of it.
    have hnone' : matcher (c :: before) = none := by
      refine spells_spellings.isLocal.eq_none_of_append (u := spelling ++ after) ?_
      simpa using hnone
    rw [hsame before hnone', hbefore]
  | hit span after found hne hhit ih =>
    -- Either this is the sentinel that is asked for, or it is one of those in front of it.
    have hmem := spells_spellings.mem_of_match hhit
    rw [all_spelling_append hmem] at h
    cases front with
    | nil =>
      obtain ⟨rfl, hback⟩ := List.cons.inj h
      exact ⟨[], span, after, hmem, rfl, rfl, hback⟩
    | cons first front =>
      obtain ⟨rfl, hrest⟩ := List.cons.inj h
      obtain ⟨before, spelling, behind, hspelled, rfl, hbefore, hbehind⟩ := ih hrest
      refine ⟨span ++ before, spelling, behind, hspelled, by simp, ?_, hbehind⟩
      rw [all_spelling_append hmem, hbefore]

/-- **The sentinels that a scan finds are those spelled in the text.** -/
theorem mem_all_iff : sentinel ∈ all t ↔ sentinel.SpelledIn t := by
  constructor
  · intro h
    obtain ⟨front, back, hall⟩ := List.append_of_mem h
    obtain ⟨before, spelling, after, hmem, rfl, -, -⟩ := exists_of_all_eq hall
    exact ⟨spelling, hmem, before, after, rfl⟩
  · rintro ⟨spelling, hmem, before, after, rfl⟩
    rw [all_append_spelling hmem]
    exact List.mem_append_right _ List.mem_cons_self

end Sentinel

/-! ## Sequences -/

namespace Region

open Sentinel (SpelledIn spellings)

section Sequences

variable {region : Region} {sentinels : List Sentinel}

theorem foldl_pass_after (sentinels : List Sentinel) : sentinels.foldl pass after = after := by
  -- The body is over, so every sentinel leaves the region where it is.
  induction sentinels with
  | nil => rfl
  | cons sentinel rest ih => simpa [pass] using ih

theorem foldl_pass_inside (sentinels : List Sentinel) :
    sentinels.foldl pass inside = if .stop ∈ sentinels then after else inside := by
  -- A stop ends it for good; a second start changes nothing.
  induction sentinels with
  | nil => rfl
  | cons sentinel rest ih =>
    cases sentinel with
    | start => simpa [pass] using ih
    | stop => simp [pass, foldl_pass_after]

theorem foldl_pass_before (h : .start ∉ sentinels) : sentinels.foldl pass before = before := by
  -- A stop in front of the body is passed over.
  induction sentinels with
  | nil => rfl
  | cons sentinel rest ih =>
    obtain ⟨hhead, hrest⟩ := not_or.mp (mt List.mem_cons.mpr h)
    cases sentinel with
    | start => exact absurd rfl hhead
    | stop => simpa [pass] using ih hrest

/-- Behind the start of the body, a stop leads out of it. -/
theorem foldl_pass_of_stop (hregion : region ≠ before) (h : .stop ∈ sentinels) :
    sentinels.foldl pass region = after := by
  cases region with
  | before => exact absurd rfl hregion
  | inside => rw [foldl_pass_inside, if_pos h]
  | after => exact foldl_pass_after sentinels

theorem pass_start_ne_before (region : Region) : region.pass .start ≠ before := by
  cases region <;> decide

end Sequences

/-! ## Texts -/

section Texts

variable {t : Text}

/-- The text has a stop somewhere behind a start. -/
def StopsBehindStart (t : Text) : Prop :=
  ∃ front spelling back, (spelling, .start) ∈ spellings ∧ t = front ++ spelling ++ back ∧
    Sentinel.stop.SpelledIn back

/-- The text has a start, and no stop behind the first one. -/
def StaysBehindFirstStart (t : Text) : Prop :=
  ∃ front spelling back, (spelling, .start) ∈ spellings ∧ t = front ++ spelling ++ back ∧
    ¬ Sentinel.start.SpelledIn front ∧ ¬ Sentinel.stop.SpelledIn back

theorem advance_after (t : Text) : after.advance t = after :=
  foldl_pass_after _

theorem advance_inside_eq_after_iff : inside.advance t = after ↔ Sentinel.stop.SpelledIn t := by
  unfold advance
  rw [foldl_pass_inside, ← Sentinel.mem_all_iff]
  simp

theorem advance_inside_eq_inside_iff :
    inside.advance t = inside ↔ ¬ Sentinel.stop.SpelledIn t := by
  unfold advance
  rw [foldl_pass_inside, ← Sentinel.mem_all_iff]
  simp

theorem advance_before_of_not_spelledIn (h : ¬ Sentinel.start.SpelledIn t) :
    before.advance t = before := by
  rw [← Sentinel.mem_all_iff] at h
  exact foldl_pass_before h

/-- Behind the first start, the text is read from inside the body. -/
theorem advance_before_of_first_start {front spelling : Text}
    (hmem : (spelling, .start) ∈ spellings) (hfront : ¬ Sentinel.start.SpelledIn front)
    (back : Text) : before.advance (front ++ spelling ++ back) = inside.advance back := by
  -- In front of the start there is no other one, so nothing has happened yet.
  have hquiet : (Sentinel.all front).foldl pass before = before :=
    advance_before_of_not_spelledIn hfront
  unfold advance
  rw [Sentinel.all_append_spelling hmem, List.foldl_append, hquiet, List.foldl_cons]
  rfl

theorem exists_first_start (h : Sentinel.start.SpelledIn t) : ∃ front spelling back,
    (spelling, .start) ∈ spellings ∧ t = front ++ spelling ++ back ∧
      ¬ Sentinel.start.SpelledIn front := by
  -- The first start that is spelled is the first one that the scan finds.
  obtain ⟨earlier, later, hall, hfirst⟩ := List.eq_append_cons_of_mem (Sentinel.mem_all_iff.mpr h)
  obtain ⟨front, spelling, back, hmem, ht, hfront, -⟩ := Sentinel.exists_of_all_eq hall
  refine ⟨front, spelling, back, hmem, ht, ?_⟩
  rwa [← Sentinel.mem_all_iff, hfront]

theorem advance_before_eq_before_iff :
    before.advance t = before ↔ ¬ Sentinel.start.SpelledIn t := by
  refine ⟨fun h hstart => ?_, advance_before_of_not_spelledIn⟩
  obtain ⟨front, spelling, back, hmem, rfl, hfront⟩ := exists_first_start hstart
  rw [advance_before_of_first_start hmem hfront] at h
  -- From inside the body no text leads back in front of it.
  by_cases hstop : Sentinel.stop.SpelledIn back
  · rw [advance_inside_eq_after_iff.mpr hstop] at h
    cases h
  · rw [advance_inside_eq_inside_iff.mpr hstop] at h
    cases h

theorem advance_before_eq_after_iff : before.advance t = after ↔ StopsBehindStart t := by
  constructor
  · intro h
    -- Without a start the region would still be before the body.
    by_cases hstart : Sentinel.start.SpelledIn t
    · obtain ⟨front, spelling, back, hmem, rfl, hfront⟩ := exists_first_start hstart
      rw [advance_before_of_first_start hmem hfront, advance_inside_eq_after_iff] at h
      exact ⟨front, spelling, back, hmem, rfl, h⟩
    · rw [advance_before_of_not_spelledIn hstart] at h
      cases h
  · rintro ⟨front, spelling, back, hmem, rfl, hstop⟩
    -- The start need not be the first one: whatever the front leads to, it leads into the body.
    unfold advance
    rw [Sentinel.all_append_spelling hmem, List.foldl_append, List.foldl_cons]
    exact foldl_pass_of_stop (pass_start_ne_before _) (Sentinel.mem_all_iff.mpr hstop)

theorem advance_before_eq_inside_iff : before.advance t = inside ↔ StaysBehindFirstStart t := by
  constructor
  · intro h
    by_cases hstart : Sentinel.start.SpelledIn t
    · obtain ⟨front, spelling, back, hmem, rfl, hfront⟩ := exists_first_start hstart
      rw [advance_before_of_first_start hmem hfront, advance_inside_eq_inside_iff] at h
      exact ⟨front, spelling, back, hmem, rfl, hfront, h⟩
    · rw [advance_before_of_not_spelledIn hstart] at h
      cases h
  · rintro ⟨front, spelling, back, hmem, rfl, hfront, hstop⟩
    rw [advance_before_of_first_start hmem hfront, advance_inside_eq_inside_iff]
    exact hstop

/-- A text is read in two parts when no sentinel is cut. -/
theorem advance_append {a b : Text} (h : ¬ Sentinel.Straddles a b) (region : Region) :
    region.advance (a ++ b) = (region.advance a).advance b := by
  have huncut : ¬ Sentinel.matcher.Straddles a b := fun hstraddles =>
    h (Sentinel.straddles_iff.mp hstraddles)
  unfold advance
  rw [Sentinel.all_append huncut, List.foldl_append]

end Texts

end Region

/-! ## Flags -/

/-- Whether the start of the body was passed, and whether its end was. -/
structure Flags where
  started : Bool
  ended : Bool
  deriving Repr, DecidableEq

namespace Flags

/-- A start counts always, and a stop behind a start. -/
def pass (flags : Flags) : Sentinel → Flags
  | .start => { flags with started := true }
  | .stop => if flags.started then { flags with ended := true } else flags

/-- The flags that sentinels lead to, from before the body or from inside it. -/
inductive Reachable : Flags → Prop where
  | before : Reachable ⟨false, false⟩
  | inside : Reachable ⟨true, false⟩
  | pass {flags : Flags} (sentinel : Sentinel) : Reachable flags → Reachable (flags.pass sentinel)

end Flags

namespace Region

/-- What was passed on the way to a region. -/
def flags : Region → Flags
  | before => ⟨false, false⟩
  | inside => ⟨true, false⟩
  | after => ⟨true, true⟩

/-- No two regions have the same flags. -/
theorem flags_injective : Function.Injective flags := by
  intro region region' h
  cases region <;> cases region' <;> first | rfl | cases h

/-- A region moves as its flags do. -/
theorem flags_pass (region : Region) (sentinel : Sentinel) :
    (region.pass sentinel).flags = region.flags.pass sentinel := by
  cases region <;> cases sentinel <;> rfl

theorem flags_foldl_pass (region : Region) (sentinels : List Sentinel) :
    (sentinels.foldl pass region).flags = sentinels.foldl Flags.pass region.flags := by
  -- The flags follow the region one sentinel after the other.
  induction sentinels generalizing region with
  | nil => rfl
  | cons sentinel rest ih => rw [List.foldl_cons, List.foldl_cons, ih, flags_pass]

/-- The flags that can be reached are those of the regions. -/
theorem reachable_iff {flags : Flags} :
    flags.Reachable ↔ ∃ region : Region, flags = region.flags := by
  constructor
  · intro h
    -- From the flags of a region each sentinel leads to the flags of the next region.
    induction h with
    | before => exact ⟨before, rfl⟩
    | inside => exact ⟨inside, rfl⟩
    | pass sentinel _ ih =>
      obtain ⟨region, rfl⟩ := ih
      exact ⟨region.pass sentinel, (region.flags_pass sentinel).symm⟩
  · rintro ⟨region, rfl⟩
    cases region with
    | before => exact .before
    | inside => exact .inside
    | after => exact Flags.Reachable.inside.pass .stop

theorem started_of_ended (region : Region) (h : region.flags.ended = true) :
    region.flags.started = true := by
  cases region with
  | before | inside => cases h
  | after => rfl

/-- The next region is not in front of this one. -/
def IsForward (region next : Region) : Prop :=
  (region = after → next = after) ∧ (region = inside → next ≠ before)

theorem isForward_foldl_pass (region : Region) (sentinels : List Sentinel) :
    region.IsForward (sentinels.foldl pass region) := by
  constructor
  · rintro rfl
    exact foldl_pass_after sentinels
  · rintro rfl
    rw [foldl_pass_inside]
    split <;> decide

end Region

open Region in
/-- **The region is an automaton that only moves forward and reads texts in parts.**

Its flags move as those of a body that starts once and stops behind its start. The flags that can be
reached are those of the three regions, one for each, so whatever ended has started. No sentinel and
no text leads back. Behind a text, a region that was before the body is after it exactly when a stop
is spelled behind a start, inside exactly when a start is spelled and no stop behind the first one,
and before it otherwise; a region that was inside is left exactly when a stop is spelled. And a text
is read in two parts when no sentinel is cut. -/
theorem region_moves_forward_in_parts :
    (∀ (region : Region) (sentinel : Sentinel),
      (region.pass sentinel).flags = region.flags.pass sentinel) ∧
    (∀ (region : Region) (t : Text),
      (region.advance t).flags = (Sentinel.all t).foldl Flags.pass region.flags) ∧
    (∀ flags : Flags, flags.Reachable →
      (flags.ended = true → flags.started = true) ∧ ∃! region : Region, flags = region.flags) ∧
    (∀ (region : Region) (sentinel : Sentinel) (t : Text),
      region.IsForward (region.pass sentinel) ∧ region.IsForward (region.advance t)) ∧
    (∀ t : Text, (before.advance t = after ↔ StopsBehindStart t) ∧
      (before.advance t = inside ↔ StaysBehindFirstStart t) ∧
      (before.advance t = before ↔ ¬ Sentinel.start.SpelledIn t) ∧
      (inside.advance t = after ↔ Sentinel.stop.SpelledIn t) ∧
      (inside.advance t = inside ↔ ¬ Sentinel.stop.SpelledIn t) ∧ after.advance t = after) ∧
    (∀ (region : Region) (a b : Text), ¬ Sentinel.Straddles a b →
      region.advance (a ++ b) = (region.advance a).advance b) := by
  refine ⟨flags_pass, fun region t => flags_foldl_pass region _, fun flags hreachable => ?_,
    fun region sentinel t =>
      ⟨isForward_foldl_pass region [sentinel], isForward_foldl_pass region _⟩,
    fun t => ⟨advance_before_eq_after_iff, advance_before_eq_inside_iff,
      advance_before_eq_before_iff, advance_inside_eq_after_iff, advance_inside_eq_inside_iff,
      advance_after t⟩, fun region a b huncut => advance_append huncut region⟩
  obtain ⟨region, rfl⟩ := reachable_iff.mp hreachable
  exact ⟨region.started_of_ended, region, rfl, fun _ hsame => (flags_injective hsame).symm⟩

open Region in
/-- A document whose body starts in a heading line and stops behind it is read in its two parts, and
the flags that it leads to are those of a body that has started. -/
theorem region_behind_two_parts :
    let front : Text := "# Title HF_DOC_BODY_START"
    let back : Text := "text\n<!--HF DOCBUILD BODY END-->"
    ¬ Sentinel.Straddles front back ∧
      before.advance (front ++ back) = (before.advance front).advance back ∧
      after.flags.Reachable ∧ after.flags.started = true := by
  obtain ⟨-, -, hflags, -, -, hparts⟩ := region_moves_forward_in_parts
  have huncut : ¬ Sentinel.Straddles "# Title HF_DOC_BODY_START"
      "text\n<!--HF DOCBUILD BODY END-->" := by
    decide +kernel
  have hreachable : after.flags.Reachable := .pass .stop .inside
  exact ⟨huncut, hparts before _ _ huncut, hreachable, (hflags _ hreachable).1 rfl⟩

/-- A cut through a sentinel hides it from both parts. -/
example :
    Region.before.advance ("HF_DOC_BODY_" ++ "START") = .inside ∧
      (Region.before.advance "HF_DOC_BODY_").advance "START" = .before := by
  decide +kernel

end DocPage.Body
