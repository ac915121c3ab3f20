import DocPage.Body.Region
import DocPage.Proofs.Text.Words
import DocPage.Proofs.Text.Trim

/-!
# Sentinels in texts

The scan of a text finds the sentinels in it one after another. Two texts that are joined have the
sentinels of both, unless one starts in the first text and ends in the second; a bracket at the seam
rules that out. A chunk that is heard as a sentinel holds that one and no other.

## Architecture

- **Matching**: `spells_spellings`, the scan finds exactly the spellings
- **Joined texts**: `Unsplit`, for a text at whose end no sentinel is left open
- **Chunks**: `all_of_ofChunk?`
-/

namespace DocPage.Body.Sentinel

variable {t u : Text} {sentinel : Sentinel}

/-! ## Matching -/

/-- The scan finds the spellings, since none of them starts with another one. -/
theorem spells_spellings : matcher.Spells spellings :=
  show (wordMatcher spellings).Spells spellings from
    spells_wordMatcher (by decide +kernel) (by decide +kernel)

/-! ## Joined texts -/

/-- A sentinel at the start of a text is found first. -/
theorem all_spelling_append {spelling : Text} (h : (spelling, sentinel) ∈ spellings)
    (after : Text) : all (spelling ++ after) = sentinel :: all after := by
  unfold all Text.values
  rw [Text.pieces_append_of_match (spells_spellings.ne_nil h) (spells_spellings.found h after)]
  rfl

theorem all_append (h : ¬ matcher.Straddles t u) : all (t ++ u) = all t ++ all u :=
  Text.values_append spells_spellings.isLocal h

theorem all_around {x : Text} (hx : Text.Bracketed x) (t u : Text) :
    all (t ++ x ++ u) = all t ++ all x ++ all u := by
  -- No spelling has an opening bracket inside or a closing one before its end, so a bracket
  -- separates.
  refine Text.values_around spells_spellings.isLocal (fun span hspan => ?_)
    (fun span hspan => ?_) hx t u
  · obtain ⟨sentinel, hmem⟩ := spells_spellings.accepts_iff.mp hspan
    exact (by decide : ∀ p ∈ spellings, '<' ∉ p.1.tail) _ hmem
  · obtain ⟨sentinel, hmem⟩ := spells_spellings.accepts_iff.mp hspan
    exact (by decide : ∀ p ∈ spellings, '>' ∉ p.1.dropLast) _ hmem

/-- Every sentinel is spelled with an `H`. -/
theorem all_of_notMem (h : 'H' ∉ t) : all t = [] := by
  -- The scan goes on behind each character, since no spelling is in such a text.
  induction t using Text.pieces_induction spells_spellings.isLocal.proper with
  | nil => rfl
  | plain c t hnone ih =>
    unfold all Text.values
    rw [Text.pieces_cons_of_none hnone]
    exact ih fun hmem => h (List.mem_cons_of_mem c hmem)
  | hit span after sentinel hne hhit ih =>
    have hmem := spells_spellings.mem_of_match hhit
    have hspelled : 'H' ∈ span := (by decide : ∀ p ∈ spellings, 'H' ∈ p.1) _ hmem
    exact absurd (List.mem_append_left after hspelled) h

/-- The text does not end inside a sentinel. -/
def Unsplit (t : Text) : Prop :=
  ∀ p ∈ spellings, ∀ n < p.1.length, 0 < n → ¬ p.1.take n <:+ t

instance (t : Text) : Decidable (Unsplit t) :=
  inferInstanceAs (Decidable (∀ p ∈ spellings, ∀ n < p.1.length, 0 < n → ¬ p.1.take n <:+ t))

theorem Unsplit.all_append (h : Unsplit t) (u : Text) : all (t ++ u) = all t ++ all u := by
  apply Sentinel.all_append
  intro hstraddles
  -- A sentinel across the seam would be a spelling that is cut, and its front would end the first
  -- text.
  obtain ⟨p, hmem, n, hn, hpos, hfront, -⟩ := spells_spellings.straddles_iff.mp hstraddles
  exact h p hmem n hn hpos hfront

/-! ## Chunks -/

/-- Blanks in front of a text are no part of a sentinel. -/
theorem all_append_of_blank {b : Text} (hb : Text.Blank b) (t : Text) : all (b ++ t) = all t := by
  induction b with
  | nil => rfl
  | cons c b ih =>
    have hblank : Unicode.isBlank c = true := hb c List.mem_cons_self
    have hnone : matcher (c :: (b ++ t)) = none := by
      -- No spelling starts with a blank, so the scan passes over it.
      rw [Option.eq_none_iff_forall_ne_some]
      rintro ⟨n, sentinel⟩ hmatch
      obtain ⟨spelling, after, hmem, heq, -⟩ := spells_spellings.exists_word hmatch
      obtain ⟨hne, hhead⟩ : spelling ≠ [] ∧ spelling.head?.all Unicode.isBlank = false :=
        (by decide : ∀ p ∈ spellings, p.1 ≠ [] ∧ p.1.head?.all Unicode.isBlank = false) _ hmem
      obtain ⟨d, rest, rfl⟩ := List.exists_cons_of_ne_nil hne
      -- The first character of a spelling is no blank.
      obtain ⟨rfl, -⟩ := List.cons.inj heq
      simp [hblank] at hhead
    rw [List.cons_append, ← ih fun d hd => hb d (List.mem_cons_of_mem c hd)]
    unfold all Text.values
    rw [Text.pieces_cons_of_none hnone]
    rfl

theorem all_of_blank {b : Text} (hb : Text.Blank b) : all b = [] := by
  have h := all_append_of_blank hb []
  rwa [List.append_nil] at h

/-- A chunk that is a sentinel is one of the spellings between blanks. -/
theorem exists_of_ofChunk? (h : ofChunk? t = some sentinel) : ∃ b spelling a, Text.Blank b ∧
    Text.Blank a ∧ (spelling, sentinel) ∈ spellings ∧ t = b ++ spelling ++ a := by
  -- Reading a chunk ignores the blanks around it, and the rest is looked up among the spellings.
  obtain ⟨b, a, hb, ha, ht⟩ := Text.exists_blank_trim t
  refine ⟨b, Text.trim t, a, hb, ha, ?_, ht⟩
  obtain ⟨earlier, later, hspellings, -⟩ := List.lookup_eq_some_iff.mp h
  rw [hspellings]
  exact List.mem_append_right earlier List.mem_cons_self

/-- A chunk that is a sentinel holds this one and no other. -/
theorem all_of_ofChunk? (h : ofChunk? t = some sentinel) : all t = [sentinel] := by
  obtain ⟨b, spelling, a, hb, ha, hmem, rfl⟩ := exists_of_ofChunk? h
  rw [List.append_assoc, all_append_of_blank hb, all_spelling_append hmem, all_of_blank ha]

end DocPage.Body.Sentinel
