import DocPage.Proofs.Text.Scan

/-!
# Matchers that look for words

Some matchers look for words of a fixed list, and find each of them whatever stands behind it. What
such a matcher does at a seam, or with a text without a word, is then a question about the list.

## Architecture

- **Words**: `Matcher.Spells` relates a matcher and the words that it finds; `spells_wordMatcher`
  for a search through the list
- **Seams**: a word that straddles a seam is cut by it into two parts; `not_straddles_of_apart` and
  `not_straddles_behind` look at one side of the seam only
- **Texts without a word**: `FreeOf`, which a scan leaves as they are
-/

namespace DocPage

variable {α : Type} {m : Matcher α} {words : List (Text × α)}

/-! ## Words -/

/-- The matcher finds the words of the list, each with its value, wherever they stand. -/
structure Matcher.Spells (m : Matcher α) (words : List (Text × α)) : Prop where
  ne_nil {word : Text} {value : α} : (word, value) ∈ words → word ≠ []
  found {word : Text} {value : α} : (word, value) ∈ words → ∀ after,
    m (word ++ after) = some (word.length, value)
  exists_word {t : Text} {n : Nat} {value : α} : m t = some (n, value) →
    ∃ word after, (word, value) ∈ words ∧ t = word ++ after ∧ n = word.length

/-- No word of the list stands in the text. -/
def FreeOf (words : List (Text × α)) (t : Text) : Prop :=
  ∀ p ∈ words, ¬ p.1 <:+: t

/-- The first word of the list that stands at the start of a text. -/
def wordMatcher (words : List (Text × α)) : Matcher α := fun t =>
  words.findSome? fun (word, value) =>
    if Text.startsWith word t then some (word.length, value) else none

/-- The order of the words does not matter when no word starts with another one. -/
theorem spells_wordMatcher (hne : ∀ p ∈ words, p.1 ≠ [])
    (hstarts : ∀ p ∈ words, ∀ q ∈ words, p.1 <+: q.1 → p = q) :
    (wordMatcher words).Spells words where
  ne_nil hmem := hne _ hmem
  exists_word {t n value} h := by
    -- The search through the list gives a word that stands at the start.
    obtain ⟨⟨word, value'⟩, hmem, h⟩ := List.exists_of_findSome?_eq_some h
    dsimp only at h
    split at h
    · next hhere =>
      cases h
      obtain ⟨after, hafter⟩ := Text.startsWith_iff.mp hhere
      exact ⟨word, after, hmem, hafter.symm, rfl⟩
    · cases h
  found {word value} hmem after := by
    have hhere := Text.startsWith_iff.mpr (List.prefix_append word after)
    -- The word is in the list, so the search through it gives some word.
    cases hfound : wordMatcher words (word ++ after) with
    | none =>
      have hnone := List.findSome?_eq_none_iff.mp hfound (word, value) hmem
      simp [hhere] at hnone
    | some found =>
      obtain ⟨⟨other, value'⟩, hother, hread⟩ := List.exists_of_findSome?_eq_some hfound
      dsimp only at hread
      split at hread
      · next hstart =>
        cases hread
        -- Both words stand at the start, so one of them starts with the other one.
        have hboth := List.prefix_or_prefix_of_prefix (Text.startsWith_iff.mp hstart)
          (List.prefix_append word after)
        rcases hboth with hp | hp
        · cases hstarts _ hother _ hmem hp
          rfl
        · cases hstarts _ hmem _ hother hp
          rfl
      · cases hread

namespace Matcher.Spells

theorem isLocal (h : m.Spells words) : m.Local := by
  intro t n value hmatch
  obtain ⟨word, after, hmem, rfl, rfl⟩ := h.exists_word hmatch
  exact ⟨word, after, rfl, h.ne_nil hmem, rfl, h.found hmem⟩

/-- The words are the texts that are matches as a whole. -/
theorem accepts_iff (h : m.Spells words) {span : Text} :
    m.Accepts span ↔ ∃ value, (span, value) ∈ words := by
  constructor
  · rintro ⟨value, hmatch⟩
    -- The match spans all of the text, so nothing stands behind the word.
    obtain ⟨word, after, hmem, rfl, hlength⟩ := h.exists_word hmatch
    rw [List.length_append] at hlength
    obtain rfl := List.length_eq_zero_iff.mp (by omega : after.length = 0)
    exact ⟨value, by rwa [List.append_nil]⟩
  · rintro ⟨value, hmem⟩
    have hmatch := h.found hmem []
    rw [List.append_nil] at hmatch
    exact ⟨value, hmatch⟩

/-- What a match spans is a word. -/
theorem mem_of_match (h : m.Spells words) {span after : Text} {value : α}
    (hmatch : m (span ++ after) = some (span.length, value)) : (span, value) ∈ words := by
  -- The word and the span start at one place and have one length.
  obtain ⟨word, behind, hmem, heq, hlength⟩ := h.exists_word hmatch
  obtain ⟨rfl, -⟩ := List.append_inj heq hlength
  exact hmem

theorem eq_none_iff (h : m.Spells words) {t : Text} :
    m t = none ↔ ∀ p ∈ words, ¬ p.1 <+: t := by
  rw [Option.eq_none_iff_forall_ne_some]
  constructor
  · rintro hnone ⟨word, value⟩ hmem ⟨after, rfl⟩
    exact hnone _ (h.found hmem after)
  -- A match spells a word at the start of the text.
  · rintro hnone ⟨n, value⟩ hmatch
    obtain ⟨word, after, hmem, rfl, -⟩ := h.exists_word hmatch
    exact hnone _ hmem (List.prefix_append word after)

/-! ## Seams -/

/-- A word straddles a seam when the seam cuts it into two parts that are not empty. -/
theorem straddles_iff (h : m.Spells words) {t u : Text} : m.Straddles t u ↔
    ∃ p ∈ words, ∃ n < p.1.length, 0 < n ∧ p.1.take n <:+ t ∧ p.1.drop n <+: u := by
  constructor
  · rintro ⟨a, b, ha, hb, hat, hbu, haccepts⟩
    -- The parts of a straddling match are a start of a word and its rest.
    obtain ⟨value, hmem⟩ := h.accepts_iff.mp haccepts
    refine ⟨(a ++ b, value), hmem, a.length, ?_, List.length_pos_iff.mpr ha, ?_, ?_⟩
    · have hpos := List.length_pos_iff.mpr hb
      rw [List.length_append]
      omega
    · rwa [List.take_left]
    · rwa [List.drop_left]
  · rintro ⟨⟨word, value⟩, hmem, n, hn, hpos, hfront, hback⟩
    refine ⟨word.take n, word.drop n, ?_, ?_, hfront, hback, ?_⟩
    · simpa [List.take_eq_nil_iff, hpos.ne'] using h.ne_nil hmem
    · simpa using hn
    · rw [List.take_append_drop]
      exact h.accepts_iff.mpr ⟨value, hmem⟩

/-- No word runs into a text that no rest of a word agrees with. -/
theorem not_straddles_of_apart (h : m.Spells words) {x : Text}
    (hapart : ∀ p ∈ words, ∀ n < p.1.length, 0 < n → ¬ p.1.drop n <+: x ∧ ¬ x <+: p.1.drop n)
    (before after : Text) : ¬ m.Straddles before (x ++ after) := by
  intro hstraddles
  obtain ⟨p, hmem, n, hn, hpos, -, hrest⟩ := h.straddles_iff.mp hstraddles
  obtain ⟨hstarts, hholds⟩ := hapart p hmem n hn hpos
  -- The two of them start at one place, so one is a prefix of the other.
  rcases List.prefix_or_prefix_of_prefix hrest (List.prefix_append x after) with hp | hp
  · exact hstarts hp
  · exact hholds hp

/-- No word starts in a text that ends otherwise than every start of a word. -/
theorem not_straddles_behind (h : m.Spells words) {x : Text}
    (hapart : ∀ p ∈ words, ∀ n < p.1.length, 0 < n → ¬ p.1.take n <:+ x ∧ ¬ x <:+ p.1.take n)
    (before after : Text) : ¬ m.Straddles (before ++ x) after := by
  intro hstraddles
  obtain ⟨p, hmem, n, hn, hpos, hstart, -⟩ := h.straddles_iff.mp hstraddles
  obtain ⟨hends, hholds⟩ := hapart p hmem n hn hpos
  -- Both end at one place, so one is a suffix of the other.
  rcases List.suffix_or_suffix_of_suffix hstart (List.suffix_append before x) with hp | hp
  · exact hends hp
  · exact hholds hp

/-! ## Texts without a word -/

theorem freeOf_append (h : m.Spells words) {t u : Text} (ht : FreeOf words t) (hu : FreeOf words u)
    (hseam : ¬ m.Straddles t u) : FreeOf words (t ++ u) := by
  rintro ⟨word, value⟩ hmem hoccurs
  -- A word in the joined text is in one of the two or straddles the seam.
  rcases List.infix_append_iff_ne_nil.mp hoccurs with
    hfront | hback | ⟨a, b, ha, hb, rfl, hat, hbu⟩
  · exact ht _ hmem hfront
  · exact hu _ hmem hback
  · exact hseam ⟨a, b, ha, hb, hat, hbu, h.accepts_iff.mpr ⟨value, hmem⟩⟩

theorem mapMatches_of_freeOf (h : m.Spells words) (f : Text → α → Text) {t : Text}
    (ht : FreeOf words t) : Text.mapMatches m f t = t := by
  -- No word starts at any character, so each of them is copied.
  induction t with
  | nil => rfl
  | cons c t ih =>
    have hnone : m (c :: t) = none := h.eq_none_iff.mpr fun p hp hstarts => ht p hp hstarts.isInfix
    have hrest : FreeOf words t := fun p hp hoccurs => ht p hp (List.infix_cons hoccurs)
    have hkept := ih hrest
    unfold Text.mapMatches at hkept ⊢
    rw [Text.pieces_cons_of_none hnone, List.flatMap_cons, hkept]
    rfl

/-- When no other word runs into a word, it is mapped where it stands, and the texts around it are
scanned by themselves. -/
theorem mapMatches_word (h : m.Spells words) (f : Text → α → Text) {word before after : Text}
    {value : α} (hmem : (word, value) ∈ words) (hfront : ¬ m.Straddles before (word ++ after)) :
    Text.mapMatches m f (before ++ word ++ after) =
      Text.mapMatches m f before ++ f word value ++ Text.mapMatches m f after := by
  -- The word is a match at its own start, and the scan goes on behind it.
  have hword : Text.mapMatches m f (word ++ after) = f word value ++ Text.mapMatches m f after := by
    unfold Text.mapMatches
    rw [Text.pieces_append_of_match (h.ne_nil hmem) (h.found hmem after), List.flatMap_cons]
  rw [List.append_assoc, Text.mapMatches_append h.isLocal f hfront, hword, List.append_assoc]

end Matcher.Spells

end DocPage
