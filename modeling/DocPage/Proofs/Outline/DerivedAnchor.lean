import DocPage.Outline.Slug
import DocPage.Proofs.Text.Trim
import DocPage.Proofs.Unicode.LowerCase

/-!
# Derived anchors

The anchor derived from a title is made of letters, digits and hyphens, and the anchor derived from
such an anchor is the anchor itself. There is one exception. The characters of a title are chosen
before they are put into lower case, so that a capital I with a dot leaves its combining dot in the
anchor; the dot would not have been chosen, and the next derivation drops it.

## Architecture

- **Characters**: `isAnchorChar`, and what the characters of a title become
- **Derivation**: which characters an anchor has, and `slugOfFrom_of_settled` for texts that are
  anchors already
- **Titles**: `slugOf_slugOf`, and the titles whose anchors are settled
-/

namespace DocPage.Outline

open Unicode (combiningDot dottedCapital isAlphanumeric isBlank toLower)

/-! ## Characters -/

/-- Whether a character is a letter, a digit or a hyphen. -/
def isAnchorChar (c : Char) : Bool :=
  isAlphanumeric c || c == '-'

theorem isAnchorChar_of_isBlank {c : Char} (h : isBlank c = true) : isAnchorChar c = false := by
  have hhyphen : c ≠ '-' := by
    rintro rfl
    exact absurd h (by decide)
  simp [isAnchorChar, Unicode.isAlphanumeric_of_isBlank h, hhyphen]

/-- A derivation that keeps the character keeps it as it is. -/
structure IsSettled (c : Char) : Prop where
  lower : toLower c = [c]
  not_blank : isBlank c = false

/-- What becomes of a character that is kept is kept too, unless it is the combining dot. -/
theorem isAnchorChar_of_mem_toLower {c d : Char} (hc : isAnchorChar c = true) (hd : d ∈ toLower c) :
    isAnchorChar d = true ∨ c = dottedCapital ∧ d = combiningDot := by
  -- The letter with a dot is the only one that becomes more than one character.
  by_cases hdotted : c = dottedCapital
  · subst hdotted
    simp only [Unicode.toLower_dottedCapital, List.mem_cons, List.not_mem_nil, or_false] at hd
    rcases hd with rfl | rfl
    · exact .inl (by decide)
    · exact .inr ⟨rfl, rfl⟩
  · refine .inl ?_
    simp only [isAnchorChar, Bool.or_eq_true, beq_iff_eq] at hc ⊢
    -- Apart from letters and digits there is the hyphen, which has no case.
    rcases hc with hletter | rfl
    · exact .inl (Unicode.isAlphanumeric_of_mem_toLower hletter hdotted hd)
    · have hself : toLower '-' = ['-'] := rfl
      rw [hself, List.mem_singleton] at hd
      exact .inr hd

theorem isAnchorChar_combiningDot : isAnchorChar combiningDot = false := by
  have hhyphen : combiningDot ≠ '-' := by decide
  simp [isAnchorChar, Unicode.isAlphanumeric_combiningDot, hhyphen]

theorem isSettled_of_mem_toLower {c d : Char} (hc : isAnchorChar c = true) (hd : d ∈ toLower c) :
    IsSettled d := by
  refine ⟨Unicode.toLower_of_mem_toLower hd, ?_⟩
  -- The combining dot is no blank either.
  rcases isAnchorChar_of_mem_toLower hc hd with hkept | ⟨-, rfl⟩
  · by_contra hblank
    rw [isAnchorChar_of_isBlank (by simpa using hblank)] at hkept
    cases hkept
  · decide

/-! ## Derivation -/

section Derivation

variable {gap : Bool} {t : Text}

/-- An anchor consists of what becomes of the kept characters, and of hyphens between them. -/
theorem mem_slugOfFrom {d : Char} (h : d ∈ slugOfFrom gap t) :
    d = '-' ∨ ∃ c ∈ t, isAnchorChar c = true ∧ d ∈ toLower c := by
  -- The gap in front is a parameter, since each character decides it for the next one.
  induction t generalizing gap with
  | nil => cases h
  | cons c t ih =>
    have hlater : ∀ {gap}, d ∈ slugOfFrom gap t →
        d = '-' ∨ ∃ c' ∈ c :: t, isAnchorChar c' = true ∧ d ∈ toLower c' := fun hmem =>
      (ih hmem).imp_right fun ⟨c', hc', hkept⟩ => ⟨c', List.mem_cons_of_mem c hc', hkept⟩
    unfold slugOfFrom at h
    split at h
    · exact hlater h
    · split at h
      · next hkept =>
        rcases List.mem_append.mp h with h | h
        · rcases List.mem_append.mp h with hhyphen | hlower
          · cases gap with
            | true => exact .inl (List.mem_singleton.mp hhyphen)
            | false => cases hhyphen
          · exact .inr ⟨c, List.mem_cons_self, hkept, hlower⟩
        · exact hlater h
      · exact hlater h

/-- Every kept character gets into the anchor. -/
theorem mem_slugOfFrom_of_mem {c d : Char} (hc : c ∈ t) (hkept : isAnchorChar c = true)
    (hd : d ∈ toLower c) : d ∈ slugOfFrom gap t := by
  induction t generalizing gap with
  | nil => cases hc
  | cons c' t ih =>
    unfold slugOfFrom
    rcases List.mem_cons.mp hc with rfl | hc
    -- A kept character is no blank, so it is taken where it stands.
    · have hblank : ¬ isBlank c = true := by
        intro hblank
        rw [isAnchorChar_of_isBlank hblank] at hkept
        cases hkept
      have hchosen : (isAlphanumeric c || c == '-') = true := hkept
      rw [if_neg hblank, if_pos hchosen]
      exact List.mem_append_left _ (List.mem_append_right _ hd)
    · split
      · exact ih hc
      · split
        · exact List.mem_append_right _ (ih hc)
        · exact ih hc

/-- From settled characters a derivation takes those that belong to an anchor. -/
theorem slugOfFrom_of_settled (h : ∀ c ∈ t, IsSettled c) :
    slugOfFrom false t = t.filter isAnchorChar := by
  -- Blanks and kept characters decide each step; here the former are excluded.
  induction t with
  | nil => rfl
  | cons c t ih =>
    obtain ⟨⟨hlower, hblank⟩, hrest⟩ := List.forall_mem_cons.mp h
    unfold slugOfFrom
    rw [if_neg (by simp [hblank]), ih hrest]
    cases hkept : isAnchorChar c with
    | true =>
      have hchosen : (isAlphanumeric c || c == '-') = true := hkept
      rw [if_pos hchosen, hlower, List.filter_cons_of_pos hkept]
      rfl
    | false =>
      have hdropped : (isAlphanumeric c || c == '-') = false := hkept
      rw [if_neg (by simp [hdropped]), List.filter_cons_of_neg (by simp [hkept])]

end Derivation

/-! ## Titles -/

section Titles

variable {title : Text}

theorem isSettled_of_mem_slugOf : ∀ c ∈ slugOf title, IsSettled c := by
  intro d hd
  rcases mem_slugOfFrom hd with rfl | ⟨c, -, hkept, hlower⟩
  · exact ⟨rfl, by decide⟩
  · exact isSettled_of_mem_toLower hkept hlower

/-- An anchor has no blanks at its ends. -/
theorem trim_slugOf : Text.trim (slugOf title) = slugOf title := by
  -- Every character of an anchor is settled, and no settled one is a blank.
  have hends : ∀ c ∈ slugOf title, Unicode.isBlank c = false := fun c hc =>
    (isSettled_of_mem_slugOf c hc).not_blank
  have hcore : Text.trim ([] ++ slugOf title ++ []) = slugOf title := by
    apply Text.trim_eq_core Text.Blank.nil Text.Blank.nil
    · exact fun c hc => hends c (List.mem_of_head? hc)
    · exact fun c hc => hends c (List.mem_of_getLast? hc)
  rwa [List.nil_append, List.append_nil] at hcore

/-- The anchor of an anchor is made of the same characters, without combining dots. -/
theorem slugOf_slugOf : slugOf (slugOf title) = (slugOf title).filter isAnchorChar := by
  show slugOfFrom false (Text.trim (slugOf title)) = _
  rw [trim_slugOf]
  exact slugOfFrom_of_settled isSettled_of_mem_slugOf

theorem isAnchorChar_or_eq_of_mem_slugOf {d : Char} (hd : d ∈ slugOf title) :
    isAnchorChar d = true ∨ d = combiningDot := by
  -- A hyphen between two words was not in the title as such.
  rcases mem_slugOfFrom hd with rfl | ⟨c, -, hkept, hlower⟩
  · exact .inl (by decide)
  · exact (isAnchorChar_of_mem_toLower hkept hlower).imp_right And.right

/-- Only a capital I with a dot leaves a combining dot, and each one does. -/
theorem combiningDot_mem_slugOf_iff : combiningDot ∈ slugOf title ↔ dottedCapital ∈ title := by
  obtain ⟨before, after, hbefore, hafter, htitle⟩ := Text.exists_blank_trim title
  constructor
  · intro hdot
    -- The dot comes from a character of the title, and only one character has it.
    rcases mem_slugOfFrom hdot with hhyphen | ⟨c, hc, hkept, hlower⟩
    · exact absurd hhyphen (by decide)
    · rcases isAnchorChar_of_mem_toLower hkept hlower with hletter | ⟨rfl, -⟩
      · rw [isAnchorChar_combiningDot] at hletter
        cases hletter
      · rw [htitle]
        exact List.mem_append_left after (List.mem_append_right before hc)
  · intro hdotted
    -- The letter is no blank, so trimming keeps it.
    have hblank : ¬ isBlank dottedCapital = true := by decide
    rw [htitle, List.mem_append, List.mem_append] at hdotted
    rcases hdotted with (hfront | hcore) | hback
    · exact absurd (hbefore _ hfront) hblank
    · refine mem_slugOfFrom_of_mem hcore rfl ?_
      rw [Unicode.toLower_dottedCapital]
      exact List.mem_cons_of_mem _ List.mem_cons_self
    · exact absurd (hafter _ hback) hblank

theorem all_isAnchorChar_iff :
    (∀ c ∈ slugOf title, isAnchorChar c = true) ↔ dottedCapital ∉ title := by
  rw [← combiningDot_mem_slugOf_iff]
  constructor
  · intro hall hdot
    have hkept := hall combiningDot hdot
    rw [isAnchorChar_combiningDot] at hkept
    cases hkept
  · intro hdot c hc
    -- The only exception is the dot, which does not occur here.
    refine (isAnchorChar_or_eq_of_mem_slugOf hc).resolve_right ?_
    rintro rfl
    exact hdot hc

end Titles

/-- **A derived anchor consists of letters, digits and hyphens, and is its own anchor, exactly when
the title has no capital I with a dot.**

Otherwise the anchor has a combining dot besides letters, digits and hyphens. The anchor derived
from an anchor is the same without these dots, so it is its own anchor in any case. -/
theorem derived_anchor_settled_iff (title : Text) :
    ((∀ c ∈ slugOf title, isAnchorChar c = true) ↔ dottedCapital ∉ title) ∧
      (slugOf (slugOf title) = slugOf title ↔ dottedCapital ∉ title) ∧
      (∀ c ∈ slugOf title, isAnchorChar c = true ∨ c = combiningDot) ∧
      slugOf (slugOf title) = (slugOf title).filter isAnchorChar ∧
      slugOf (slugOf (slugOf title)) = slugOf (slugOf title) := by
  refine ⟨all_isAnchorChar_iff, ?_, fun c => isAnchorChar_or_eq_of_mem_slugOf, slugOf_slugOf, ?_⟩
  · rw [slugOf_slugOf, List.filter_eq_self, all_isAnchorChar_iff]
  -- Filtering a second time takes nothing away.
  · rw [slugOf_slugOf, slugOf_slugOf, List.filter_filter]
    simp

/-- A title with capital letters beyond ASCII, a run of blanks and a bracket has a settled anchor. -/
theorem anchor_of_accented_title :
    let title : Text := "Über  (Größe) 2"
    dottedCapital ∉ title ∧ slugOf title = "über-größe-2".toList ∧
      (∀ c ∈ slugOf title, isAnchorChar c = true) ∧ slugOf (slugOf title) = slugOf title := by
  intro title
  have hdotted : dottedCapital ∉ title := by decide +kernel
  obtain ⟨hall, hsame, -, -, -⟩ := derived_anchor_settled_iff title
  exact ⟨hdotted, by decide +kernel, hall.mpr hdotted, hsame.mpr hdotted⟩

/-- A capital I with a dot alone: its anchor has a character that anchors do not have, and another
anchor. -/
theorem anchor_of_dottedCapital : slugOf [dottedCapital] = ['i', combiningDot] ∧
    isAnchorChar combiningDot = false ∧ slugOf (slugOf [dottedCapital]) = ['i'] := by
  decide +kernel

end DocPage.Outline
