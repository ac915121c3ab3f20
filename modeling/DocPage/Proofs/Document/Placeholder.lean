import DocPage.Document.Stash
import DocPage.Proofs.Text.Scan

/-!
# Placeholders in a text

A placeholder is an opening, some digits and a close. Its first character does not come again in it,
so no placeholder starts inside another one, and a scan finds all placeholders of a text.

## Architecture

- **Spelling**: `IsPlaceholder` says how a placeholder for an index is written
- **Matching**: the matcher of the stash accepts exactly the placeholders
- **Positions**: `PlaceholderAt`, for a placeholder that stands at a byte of a text
- **Joined texts**: `Finished`, for a text in which no placeholder is left unfinished, so that what
  is written behind it completes none; `Inert`, for one that holds no placeholder at all
-/

namespace DocPage.Document

/-! ## Spelling -/

/-- The text is a placeholder for the index. Leading zeros are allowed. -/
inductive IsPlaceholder : Text → Nat → Prop where
  | intro {digits : Text} : digits ≠ [] → (∀ d ∈ digits, d.isDigit = true) →
      IsPlaceholder (placeholderStart ++ digits ++ "-->".toList) (Text.digitsValue digits)

namespace IsPlaceholder

variable {written : Text} {index : Nat}

/-- The angle bracket at the start of a placeholder is the only one that opens in it. -/
theorem exists_tail (h : IsPlaceholder written index) :
    ∃ tail, written = '<' :: '!' :: tail ∧ '<' ∉ '!' :: tail := by
  obtain @⟨digits, -, hdigits⟩ := h
  -- It is in none of the three parts: each is made of other characters.
  refine ⟨"--docmark-component-".toList ++ digits ++ "-->".toList, rfl, ?_⟩
  intro hmem
  rcases List.mem_cons.mp hmem with hbang | hmem
  · exact absurd hbang (by decide)
  rcases List.mem_append.mp hmem with hmem | hclose
  · rcases List.mem_append.mp hmem with hstart | hdigit
    · exact absurd hstart (by decide)
    · exact absurd (hdigits _ hdigit) (by decide)
  · exact absurd hclose (by decide)

/-- The delimiters of a comment stand around a content that closes no bracket. -/
theorem exists_content (h : IsPlaceholder written index) :
    ∃ content, written = "<!--".toList ++ content ++ "-->".toList ∧ '>' ∉ content := by
  obtain @⟨digits, -, hdigits⟩ := h
  refine ⟨"docmark-component-".toList ++ digits, rfl, ?_⟩
  intro hmem
  rcases List.mem_append.mp hmem with hstart | hdigit
  · exact absurd hstart (by decide)
  · exact absurd (hdigits _ hdigit) (by decide)

/-- The angle bracket at the end of a placeholder is the only one that closes in it. -/
theorem exists_front (h : IsPlaceholder written index) :
    ∃ front, written = front ++ ['>'] ∧ '>' ∉ front := by
  obtain ⟨content, rfl, hcontent⟩ := h.exists_content
  have hclose : "-->".toList = "--".toList ++ ['>'] := rfl
  refine ⟨"<!--".toList ++ content ++ "--".toList, ?_, ?_⟩
  · rw [hclose, List.append_assoc _ _ ['>']]
  · intro hmem
    rcases List.mem_append.mp hmem with hmem | hdashes
    · rcases List.mem_append.mp hmem with hopening | hmem
      · exact absurd hopening (by decide)
      · exact hcontent hmem
    · exact absurd hdashes (by decide)

/-- What the stash gives out is a placeholder. -/
theorem of_index (index : Nat) : IsPlaceholder (placeholder index) index := by
  have hplaceholder := @intro (Text.ofNat index) Nat.toDigits_ne_nil fun _ =>
    Text.isDigit_of_mem_ofNat
  rwa [Text.digitsValue_ofNat] at hplaceholder

theorem ne_nil (h : IsPlaceholder written index) : written ≠ [] := by
  obtain ⟨tail, rfl, -⟩ := h.exists_tail
  exact List.cons_ne_nil _ _

end IsPlaceholder

/-! ## Matching -/

/-- The digits behind the opening end where the close begins. -/
theorem takeWhile_isDigit_append {digits : Text} (h : ∀ d ∈ digits, d.isDigit = true)
    (after : Text) : (digits ++ ("-->".toList ++ after)).takeWhile Char.isDigit = digits := by
  -- The close starts with a dash, which is no digit.
  refine Text.takeWhile_append_of_boundary h fun c hc => ?_
  cases hc
  decide

/-- The matcher of the stash accepts exactly the placeholders. -/
theorem placeholderMatcher_eq_some_iff {t : Text} {n index : Nat} :
    placeholderMatcher t = some (n, index) ↔
      ∃ written after, IsPlaceholder written index ∧ t = written ++ after ∧ n = written.length := by
  constructor
  · intro h
    obtain ⟨rest, hrest, h⟩ := Option.bind_eq_some_iff.mp h
    obtain rfl := (Text.dropPrefix?_eq_some_iff).mp hrest
    obtain ⟨tail, htail⟩ := List.takeWhile_prefix (l := rest) Char.isDigit
    have hall : ∀ d ∈ rest.takeWhile Char.isDigit, d.isDigit = true :=
      List.all_eq_true.mp List.all_takeWhile
    -- The digits are what the matcher takes, so the rest of it is read off them.
    generalize hdigits : rest.takeWhile Char.isDigit = digits at *
    simp only at h
    split at h
    · cases h
    · next hne =>
      obtain ⟨after, hafter, h⟩ := Option.bind_eq_some_iff.mp h
      rw [Text.dropPrefix?_eq_some_iff, ← htail, List.drop_left] at hafter
      cases h
      have hplaceholder := IsPlaceholder.intro (fun hnil => hne (by rw [hnil]; rfl)) hall
      have ht : placeholderStart ++ rest =
          placeholderStart ++ digits ++ "-->".toList ++ after := by
        rw [← htail, hafter]
        simp only [List.append_assoc]
      refine ⟨_, after, hplaceholder, ht, ?_⟩
      rw [ht, List.length_append, Nat.add_sub_cancel]
  -- The other way round, the matcher is run on a placeholder with something behind it.
  · rintro ⟨written, after, @⟨digits, hne, hall⟩, rfl, rfl⟩
    have hstart : placeholderStart ++ digits ++ "-->".toList ++ after =
        placeholderStart ++ (digits ++ ("-->".toList ++ after)) := by
      simp only [List.append_assoc]
    unfold placeholderMatcher
    rw [hstart, Text.dropPrefix?_append]
    simp only [Option.bind_eq_bind, Option.bind_some, takeWhile_isDigit_append hall, List.drop_left,
      Text.dropPrefix?_append]
    rw [if_neg (by simpa using hne), ← hstart, List.length_append, Nat.add_sub_cancel]

theorem placeholderMatcher_append {written : Text} {index : Nat} (h : IsPlaceholder written index)
    (after : Text) : placeholderMatcher (written ++ after) = some (written.length, index) :=
  (placeholderMatcher_eq_some_iff).mpr ⟨written, after, h, rfl, rfl⟩

theorem placeholderMatcher_local : Matcher.Local placeholderMatcher := by
  intro t n index h
  obtain ⟨written, after, hwritten, rfl, rfl⟩ := (placeholderMatcher_eq_some_iff).mp h
  exact ⟨written, after, rfl, hwritten.ne_nil, rfl, placeholderMatcher_append hwritten⟩

theorem isPlaceholder_of_match {span after : Text} {index : Nat}
    (h : placeholderMatcher (span ++ after) = some (span.length, index)) : IsPlaceholder span index := by
  obtain ⟨written, behind, hwritten, heq, hlength⟩ := (placeholderMatcher_eq_some_iff).mp h
  -- The two start the same text with the same length.
  obtain ⟨rfl, -⟩ := List.append_inj heq hlength
  exact hwritten

/-- Induction along a text: a character that starts no placeholder, or a whole placeholder. -/
theorem placeholders_induction {motive : Text → Prop} (nil : motive [])
    (plain : ∀ c t, placeholderMatcher (c :: t) = none → motive t → motive (c :: t))
    (placeholder : ∀ written after index, IsPlaceholder written index → motive after →
      motive (written ++ after)) (t : Text) : motive t := by
  induction t using Text.pieces_induction placeholderMatcher_local.proper with
  | nil => exact nil
  | plain c t hnone ih => exact plain c t hnone ih
  | hit span after index _ hhit ih => exact placeholder span after index (isPlaceholder_of_match hhit) ih

theorem accepts_placeholder_iff {span : Text} :
    placeholderMatcher.Accepts span ↔ ∃ index, IsPlaceholder span index := by
  constructor
  · rintro ⟨index, h⟩
    obtain ⟨written, after, hwritten, rfl, hlength⟩ := (placeholderMatcher_eq_some_iff).mp h
    rw [List.length_append] at hlength
    -- The match takes the whole text, so nothing is left behind the placeholder.
    obtain rfl := List.length_eq_zero_iff.mp (by omega : after.length = 0)
    exact ⟨index, by rwa [List.append_nil]⟩
  · rintro ⟨index, h⟩
    refine ⟨index, ?_⟩
    simpa using placeholderMatcher_append h []

theorem head?_of_placeholderMatcher {t : Text} {n index : Nat}
    (h : placeholderMatcher t = some (n, index)) : t.head? = some '<' := by
  obtain ⟨written, after, hwritten, rfl, -⟩ := (placeholderMatcher_eq_some_iff).mp h
  obtain ⟨tail, rfl, -⟩ := hwritten.exists_tail
  rfl

/-- No placeholder starts inside another one. -/
theorem placeholderMatcher_separate : Matcher.Separate placeholderMatcher where
  exists_append := by
    intro t n index h
    obtain ⟨written, after, hwritten, ht, hn⟩ := (placeholderMatcher_eq_some_iff).mp h
    exact ⟨written, after, ht, hwritten.ne_nil, hn⟩
  apart := by
    intro span inner after index hspan hinner h
    obtain ⟨written, behind, hwritten, ht, hlength⟩ := (placeholderMatcher_eq_some_iff).mp h
    -- The outer match is the placeholder `span ++ inner`.
    obtain ⟨rfl, -⟩ := List.append_inj ht hlength
    rw [Option.eq_none_iff_forall_ne_some]
    rintro ⟨n, other⟩ hother
    obtain ⟨written', behind', hwritten', ht', -⟩ := (placeholderMatcher_eq_some_iff).mp hother
    obtain ⟨tail, htail, hbracket⟩ := hwritten.exists_tail
    obtain ⟨tail', rfl, -⟩ := hwritten'.exists_tail
    -- Neither part is empty, so the inner placeholder starts behind the first character.
    cases span with
    | nil => exact absurd rfl hspan
    | cons c span =>
      cases inner with
      | nil => exact absurd rfl hinner
      | cons d inner =>
        -- The inner placeholder would bring a second opening bracket.
        obtain ⟨rfl, -⟩ := List.cons.inj ht'
        obtain ⟨-, htail⟩ := List.cons.inj htail
        refine hbracket ?_
        rw [← htail]
        exact List.mem_append_right span List.mem_cons_self

/-! ## Positions -/

/-- A placeholder for the index starts at the byte `offset` of the text. -/
def PlaceholderAt (t : Text) (offset index : Nat) : Prop :=
  ∃ before written after, t = before ++ written ++ after ∧ IsPlaceholder written index ∧
    Text.byteSize before = offset

/-- A scan finds exactly the placeholders of a text. -/
theorem mem_placeholders_iff {t : Text} {offset index : Nat} :
    (offset, index) ∈ Text.hits 0 (Text.pieces placeholderMatcher t) ↔
      PlaceholderAt t offset index := by
  -- A scan of matches that are separate finds each of them, wherever it starts.
  rw [Text.mem_hits_iff placeholderMatcher_separate]
  constructor
  · rintro ⟨before, rest, n, rfl, hmatch, hoffset⟩
    obtain ⟨written, after, hwritten, rfl, -⟩ := (placeholderMatcher_eq_some_iff).mp hmatch
    rw [Nat.zero_add] at hoffset
    exact ⟨before, written, after, (List.append_assoc ..).symm, hwritten, hoffset⟩
  · rintro ⟨before, written, after, rfl, hwritten, rfl⟩
    refine ⟨before, written ++ after, written.length, List.append_assoc .., ?_, Nat.zero_add _⟩
    exact (placeholderMatcher_eq_some_iff).mpr ⟨written, after, hwritten, rfl, rfl⟩

/-! ## Joined texts -/

/-- The indices of the placeholders of a text, in order. -/
def indices (t : Text) : List Nat :=
  Text.values placeholderMatcher t

/-- These are the indices of the placeholders that occur anywhere in the text. -/
theorem mem_indices_iff {t : Text} {index : Nat} :
    index ∈ indices t ↔ ∃ written, IsPlaceholder written index ∧ written <:+: t := by
  unfold indices Text.values
  rw [← Text.map_snd_hits 0, List.mem_map]
  constructor
  · rintro ⟨⟨offset, index⟩, hmem, rfl⟩
    obtain ⟨before, written, after, rfl, hwritten, -⟩ := (mem_placeholders_iff).mp hmem
    exact ⟨written, hwritten, before, after, rfl⟩
  · rintro ⟨written, hwritten, before, after, rfl⟩
    -- The offset is not asked for, so it can be that of this occurrence.
    refine ⟨(Text.byteSize before, index), (mem_placeholders_iff).mpr ?_, rfl⟩
    exact ⟨before, written, after, rfl, hwritten, rfl⟩

theorem indices_cons_of_none {c : Char} {t : Text} (h : placeholderMatcher (c :: t) = none) :
    indices (c :: t) = indices t := by
  rw [indices, Text.values, Text.pieces_cons_of_none h]
  rfl

theorem indices_append_of_isPlaceholder {written : Text} {index : Nat}
    (h : IsPlaceholder written index) (after : Text) :
    indices (written ++ after) = index :: indices after := by
  rw [indices, Text.values,
    Text.pieces_append_of_match h.ne_nil (placeholderMatcher_append h after)]
  rfl

theorem notMem_tail_of_accepts {span : Text} (h : placeholderMatcher.Accepts span) :
    '<' ∉ span.tail := by
  obtain ⟨index, hplaceholder⟩ := (accepts_placeholder_iff).mp h
  obtain ⟨tail, rfl, hbracket⟩ := hplaceholder.exists_tail
  exact hbracket

theorem notMem_dropLast_of_accepts {span : Text} (h : placeholderMatcher.Accepts span) :
    '>' ∉ span.dropLast := by
  obtain ⟨index, hplaceholder⟩ := (accepts_placeholder_iff).mp h
  obtain ⟨front, rfl, hbracket⟩ := hplaceholder.exists_front
  rwa [List.dropLast_concat]

theorem indices_append_of_bracket (t u : Text) :
    indices (t ++ '<' :: u) = indices t ++ indices ('<' :: u) :=
  Text.values_append placeholderMatcher_local
    (Text.not_straddles_of_head (fun _ => notMem_tail_of_accepts) t u)

theorem indices_bracket_append (t u : Text) :
    indices (t ++ ['>'] ++ u) = indices (t ++ ['>']) ++ indices u :=
  Text.values_append placeholderMatcher_local
    (Text.not_straddles_of_last (fun _ => notMem_dropLast_of_accepts) t u)

theorem indices_around {x : Text} (hx : Text.Bracketed x) (t u : Text) :
    indices (t ++ x ++ u) = indices t ++ indices x ++ indices u :=
  Text.values_around placeholderMatcher_local (fun _ => notMem_tail_of_accepts)
    (fun _ => notMem_dropLast_of_accepts) hx t u

theorem bracketed_placeholder (index : Nat) : Text.Bracketed (placeholder index) := by
  have hclose : "-->".toList = "--".toList ++ ['>'] := rfl
  refine ⟨"!--docmark-component-".toList ++ Text.ofNat index ++ "--".toList, ?_⟩
  unfold placeholder
  rw [hclose, ← List.append_assoc]
  rfl

theorem indices_placeholder (index : Nat) : indices (placeholder index) = [index] := by
  have h := indices_append_of_isPlaceholder (.of_index index) []
  rwa [List.append_nil] at h

theorem indices_of_notMem {t : Text} (h : '<' ∉ t) : indices t = [] := by
  rw [indices, Text.values, Text.pieces_of_notMem placeholderMatcher_local.proper
    (fun _ _ _ => head?_of_placeholderMatcher) h, List.filterMap_map]
  exact List.filterMap_eq_nil_iff.mpr fun _ _ => rfl

/-- What tells a placeholder from other comments. -/
def placeholderMark : Text := "docmark-component-"

/-- Every placeholder of a text brings the mark into it. -/
theorem indices_of_unmarked {t : Text} (h : ¬ placeholderMark <:+: t) : indices t = [] := by
  -- Where a placeholder stands, the mark stands in it.
  induction t using placeholders_induction with
  | nil => rfl
  | plain c t hnone ih =>
    rw [indices_cons_of_none hnone]
    exact ih fun hoccurs => h (hoccurs.trans (List.suffix_cons c t).isInfix)
  | placeholder written after index hwritten ih =>
    obtain @⟨digits, -, -⟩ := hwritten
    refine absurd ⟨"<!--".toList, digits ++ "-->".toList ++ after, ?_⟩ h
    simp only [List.append_assoc]
    rfl

/-- The start of a placeholder that goes on. -/
def Unfinished (a : Text) : Prop :=
  a ≠ [] ∧ ∃ b index, b ≠ [] ∧ IsPlaceholder (a ++ b) index

namespace Unfinished

variable {a : Text}

theorem exists_tail (h : Unfinished a) : ∃ tail, a = '<' :: tail ∧ '<' ∉ tail := by
  obtain ⟨ha, b, index, -, hplaceholder⟩ := h
  obtain ⟨tail, htail, hbracket⟩ := hplaceholder.exists_tail
  -- It is the start of a placeholder, whose later characters open no bracket.
  obtain ⟨c, a, rfl⟩ := List.exists_cons_of_ne_nil ha
  obtain ⟨rfl, hrest⟩ := List.cons.inj htail
  refine ⟨a, rfl, fun hmem => hbracket ?_⟩
  rw [← hrest]
  exact List.mem_append_left b hmem

theorem notMem (h : Unfinished a) : '>' ∉ a := by
  obtain ⟨-, b, index, hb, hplaceholder⟩ := h
  obtain ⟨front, hfront, hbracket⟩ := hplaceholder.exists_front
  -- The last character of the placeholder is behind it, and only that one closes a bracket.
  obtain ⟨b, c, rfl⟩ := List.eq_nil_or_concat' b |>.resolve_left hb
  rw [← List.append_assoc] at hfront
  obtain ⟨rfl, -⟩ := List.append_inj' hfront rfl
  exact fun hmem => hbracket (List.mem_append_left b hmem)

/-- A shorter start of a placeholder is unfinished, too. -/
theorem left {u v : Text} (h : Unfinished (u ++ v)) (hu : u ≠ []) : Unfinished u := by
  obtain ⟨-, b, index, hb, hplaceholder⟩ := h
  refine ⟨hu, v ++ b, index, List.append_ne_nil_of_right_ne_nil v hb, ?_⟩
  rwa [← List.append_assoc]

/-- Behind its bracket, the start of a placeholder goes on with an exclamation mark. -/
theorem eq_of_cons {c d : Char} {rest : Text} (h : Unfinished (c :: d :: rest)) : d = '!' := by
  obtain ⟨-, b, index, -, hplaceholder⟩ := h
  obtain ⟨tail, htail, -⟩ := hplaceholder.exists_tail
  exact (List.cons.inj (List.cons.inj htail).2).1

end Unfinished

/-- No start of a placeholder is left unfinished at the end of the text or in front of an opening
bracket. -/
def Finished (t : Text) : Prop :=
  ∀ x a y, Unfinished a → t = x ++ a ++ y → ∃ c rest, y = c :: rest ∧ c ≠ '<'

namespace Finished

variable {t u : Text}

theorem of_notMem (h : '<' ∉ t) : Finished t := by
  rintro x a y ha rfl
  obtain ⟨tail, rfl, -⟩ := ha.exists_tail
  exact absurd (by simp) h

theorem append (ht : Finished t) (hu : Finished u) : Finished (t ++ u) := by
  intro x a y ha heq
  rw [List.append_assoc] at heq
  -- The start stands in front of the seam, across it, or behind it.
  rcases Text.append_cases heq with ⟨v, rfl, hv⟩ | ⟨v, rfl, hv⟩
  · rcases Text.append_cases hv with ⟨w, rfl, rfl⟩ | ⟨w, rfl, rfl⟩
    · by_cases hnil : v = []
      · subst hnil
        exact hu [] w y ha rfl
      · -- It would be unfinished at the end of the first text.
        obtain ⟨c, rest, hrest, -⟩ := ht x v [] (ha.left hnil) (by simp)
        cases hrest
    · -- The start stands in the first text, and so does what comes behind it.
      obtain ⟨c, rest, rfl, hc⟩ := ht x a w ha (by simp)
      exact ⟨c, rest ++ u, rfl, hc⟩
  · exact hu v a y ha (by simpa using hv)

/-- What stands in front of an opening bracket is finished by itself. -/
theorem left (h : Finished (t ++ '<' :: u)) : Finished t := by
  rintro x a y ha rfl
  obtain ⟨c, rest, hrest, hc⟩ := h x a (y ++ '<' :: u) ha (by simp)
  -- A start at the very end would have a bracket behind it, which is what is ruled out.
  cases y with
  | nil => exact absurd (List.cons.inj hrest).1.symm hc
  | cons d y =>
    obtain ⟨rfl, -⟩ := List.cons.inj hrest
    exact ⟨d, y, rfl, hc⟩

/-- Part of a text whose end closes a bracket. -/
theorem of_middle {front back : Text} (h : Finished (front ++ (t ++ ['>']) ++ back)) :
    Finished (t ++ ['>']) := by
  intro x a y ha heq
  obtain ⟨c, rest, hrest, hc⟩ := h (front ++ x) a (y ++ back) ha (by rw [heq]; simp)
  cases y with
  | nil =>
    -- Then the start would end with the closing bracket.
    rw [List.append_nil] at heq
    have hlast : '>' ∈ a := by
      obtain ⟨a, d, rfl⟩ := List.eq_nil_or_concat' a |>.resolve_left ha.1
      rw [← List.append_assoc] at heq
      obtain ⟨-, hd⟩ := List.append_inj' heq rfl
      cases hd
      simp
    exact absurd hlast ha.notMem
  | cons d y =>
    obtain ⟨rfl, -⟩ := List.cons.inj hrest
    exact ⟨d, y, rfl, hc⟩

theorem indices_append (h : Finished t) (u : Text) : indices (t ++ u) = indices t ++ indices u := by
  refine Text.values_append placeholderMatcher_local ?_
  -- A placeholder across the seam would begin with an unfinished start at the end of the first
  -- text.
  rintro ⟨a, b, ha, hb, ⟨x, rfl⟩, -, haccepts⟩
  obtain ⟨index, hplaceholder⟩ := (accepts_placeholder_iff).mp haccepts
  obtain ⟨c, rest, hrest, -⟩ := h x a [] ⟨ha, b, index, hb, hplaceholder⟩ (by simp)
  cases hrest

/-- A placeholder is finished. -/
theorem placeholder (index : Nat) : Finished (placeholder index) := by
  intro x a y ha heq
  have hplaceholder := IsPlaceholder.of_index index
  obtain ⟨tail, htail, hopens⟩ := hplaceholder.exists_tail
  obtain ⟨front, hfront, -⟩ := hplaceholder.exists_front
  have hclose : '>' ∈ x ++ a ++ y := by
    rw [← heq, hfront]
    simp
  obtain ⟨rest, rfl, -⟩ := ha.exists_tail
  -- The start stands at the only opening bracket, so the closing one is behind it.
  rw [htail] at heq
  cases x with
  | cons c x =>
    obtain ⟨-, heq⟩ := List.cons.inj heq
    exact absurd (by rw [heq]; simp) hopens
  | nil =>
    -- The closing bracket is the last character, and no start of a placeholder holds it.
    have hy : '>' ∈ y := by
      rcases List.mem_append.mp hclose with hmem | hmem
      · exact absurd hmem ha.notMem
      · exact hmem
    obtain ⟨c, y, rfl⟩ := List.exists_cons_of_ne_nil (List.ne_nil_of_mem hy)
    refine ⟨c, y, rfl, ?_⟩
    rintro rfl
    obtain ⟨-, heq⟩ := List.cons.inj heq
    exact hopens (by rw [heq]; simp)

end Finished

/-- The text holds no placeholder, and leaves none unfinished. -/
structure Inert (t : Text) : Prop where
  indices : indices t = []
  finished : Finished t

/-- Each opening bracket of the text is followed by a character that is neither another one nor an
exclamation mark. -/
def isPlain : Text → Bool
  | [] => true
  | [c] => c != '<'
  | c :: d :: t => (c != '<' || (d != '<' && d != '!')) && isPlain (d :: t)

theorem isPlain_tail {c : Char} {t : Text} (h : isPlain (c :: t) = true) : isPlain t = true := by
  cases t with
  | nil => rfl
  | cons d t => exact (Bool.and_eq_true_iff.mp h).2

/-- What stands behind an opening bracket of a plain text. -/
theorem exists_of_isPlain {t : Text} (h : isPlain ('<' :: t) = true) :
    ∃ d rest, t = d :: rest ∧ d ≠ '<' ∧ d ≠ '!' := by
  cases t with
  | nil => cases h
  | cons d t =>
    have hd := (Bool.and_eq_true_iff.mp h).1
    simp only [bne_self_eq_false, Bool.false_or, Bool.and_eq_true, bne_iff_ne] at hd
    exact ⟨d, t, rfl, hd⟩

namespace Inert

variable {t u : Text}

theorem append (ht : Inert t) (hu : Inert u) : Inert (t ++ u) where
  indices := by rw [ht.finished.indices_append, ht.indices, hu.indices, List.append_nil]
  finished := ht.finished.append hu.finished

theorem of_notMem (h : '<' ∉ t) : Inert t :=
  ⟨indices_of_notMem h, .of_notMem h⟩

theorem of_isPlain (h : isPlain t = true) : Inert t := by
  constructor
  -- No placeholder starts at a plain position, since it goes on with an exclamation mark.
  · induction t with
    | nil => rfl
    | cons c t ih =>
      have hnone : placeholderMatcher (c :: t) = none := by
        rw [Option.eq_none_iff_forall_ne_some]
        rintro ⟨n, index⟩ hmatch
        obtain ⟨written, after, hwritten, heq, -⟩ := (placeholderMatcher_eq_some_iff).mp hmatch
        obtain ⟨tail, rfl, -⟩ := hwritten.exists_tail
        obtain ⟨rfl, rfl⟩ := List.cons.inj heq
        obtain ⟨d, rest, hd, -, hmark⟩ := exists_of_isPlain h
        exact hmark (List.cons.inj hd).1.symm
      rw [indices_cons_of_none hnone]
      exact ih (isPlain_tail h)
  -- The same mark tells why no start is left over: it has to be all that there is.
  · rintro x a y ha rfl
    obtain ⟨tail, rfl, -⟩ := ha.exists_tail
    have hplain : isPlain ('<' :: (tail ++ y)) = true := by
      induction x with
      | nil => exact h
      | cons c x ih => exact ih (isPlain_tail h)
    obtain ⟨d, rest, hd, hopens, hmark⟩ := exists_of_isPlain hplain
    cases tail with
    | nil => exact ⟨d, rest, hd, hopens⟩
    | cons e tail =>
      obtain ⟨rfl, -⟩ := List.cons.inj hd
      exact absurd ha.eq_of_cons hmark

/-- A tag, without the bracket that closes it: one bracket, and no declaration or comment. -/
theorem tag {first : Char} (hfirst : first ≠ '!') (ht : '<' ∉ first :: t) :
    Inert ('<' :: first :: t) := by
  have hopens : first ≠ '<' := by
    rintro rfl
    exact ht List.mem_cons_self
  -- Without an opening bracket there is nothing to be said about what follows one.
  have hplain : ∀ u : Text, '<' ∉ u → isPlain u = true := by
    intro u hu
    induction u with
    | nil => rfl
    | cons c u ih =>
      have hc : c ≠ '<' := by
        rintro rfl
        exact hu List.mem_cons_self
      have hrest := ih fun hmem => hu (List.mem_cons_of_mem c hmem)
      cases u with
      | nil => simpa [isPlain] using hc
      | cons d u => simp [isPlain, hc, hrest]
  apply of_isPlain
  simp [isPlain, hfirst, hopens, hplain _ ht]

end Inert

end DocPage.Document
