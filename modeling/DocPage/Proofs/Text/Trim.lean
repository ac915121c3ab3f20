import DocPage.Text.Basic
import Mathlib.Data.List.TakeWhile

/-!
# Laws of trimming

Trimming cuts a text into the blanks at its start, the rest, and the blanks at its end; a text whose
ends are not blank is what trimming leaves of it, whatever blanks stand around. The same holds for
any other class of characters, and determines what trimming leaves.
-/

namespace DocPage.Text

def Blank (t : Text) : Prop := ∀ c ∈ t, Unicode.isBlank c = true

theorem Blank.nil : Blank [] := fun _ h => nomatch h

theorem Blank.reverse {t : Text} (h : Blank t) : Blank t.reverse :=
  fun c hc => h c (List.mem_reverse.mp hc)

/-- No character between the blank and the next line of ASCII is blank. -/
theorem isBlank_of_toNat {c : Char} (hlow : 0x20 < c.toNat) (hhigh : c.toNat < 0x85) :
    Unicode.isBlank c = false := by
  unfold Unicode.isBlank Unicode.blankRanges
  simp only [Unicode.Ranges.contains]
  -- The first two ranges lie below the character, the third one and all others above.
  rw [if_neg (by omega), if_neg (by omega), if_neg (by omega), if_neg (by omega), if_pos hhigh]

theorem isUpper_iff {c : Char} : c.isUpper = true ↔ 65 ≤ c.toNat ∧ c.toNat ≤ 90 := by
  show decide ('A'.val ≤ c.val ∧ c.val ≤ 'Z'.val) = true ↔ _
  rw [decide_eq_true_eq, UInt32.le_iff_toNat_le, UInt32.le_iff_toNat_le]
  rfl

theorem isLower_iff {c : Char} : c.isLower = true ↔ 97 ≤ c.toNat ∧ c.toNat ≤ 122 := by
  show (decide ('a'.val ≤ c.val) && decide (c.val ≤ 'z'.val)) = true ↔ _
  rw [Bool.and_eq_true, decide_eq_true_eq, decide_eq_true_eq, UInt32.le_iff_toNat_le,
    UInt32.le_iff_toNat_le]
  rfl

theorem toNat_of_isAlpha {c : Char} (h : c.isAlpha = true) : 65 ≤ c.toNat ∧ c.toNat ≤ 122 := by
  -- Letters are capitals or small letters, two runs of ASCII.
  have hcase : (c.isUpper || c.isLower) = true := h
  simp only [Bool.or_eq_true, isUpper_iff, isLower_iff] at hcase
  omega

theorem ne_of_isAlpha {c d : Char} (hc : c.isAlpha = true) (hd : d.isAlpha = false) : c ≠ d := by
  rintro rfl
  rw [hc] at hd
  cases hd

theorem isBlank_of_isAlpha {c : Char} (h : c.isAlpha = true) : Unicode.isBlank c = false := by
  obtain ⟨hlow, hhigh⟩ := toNat_of_isAlpha h
  exact isBlank_of_toNat (by omega) (by omega)

/-! ## At the start -/

theorem trimStart_append_of_blank {b : Text} (hb : Blank b) (t : Text) :
    trimStart (b ++ t) = trimStart t :=
  List.dropWhile_append_of_pos hb

/-- A text that does not start with a blank is left alone. -/
theorem trimStart_eq_self {t : Text} (h : ∀ c, t.head? = some c → Unicode.isBlank c = false) :
    trimStart t = t := by
  cases t with
  | nil => rfl
  | cons c t => simp [trimStart, h c rfl]

theorem exists_blank_trimStart (t : Text) : ∃ b, Blank b ∧ t = b ++ trimStart t :=
  ⟨t.takeWhile Unicode.isBlank, fun _ hc => List.mem_takeWhile_imp hc,
    List.takeWhile_append_dropWhile.symm⟩

/-! ## At both ends -/

theorem dropRightWhile_append {p : Char → Bool} {behind : Text} (h : ∀ c ∈ behind, p c = true)
    (t : Text) : dropRightWhile p (t ++ behind) = dropRightWhile p t := by
  -- From the end, the characters to be taken come first.
  have hrev : ∀ c ∈ behind.reverse, p c = true := fun c hc => h c (List.mem_reverse.mp hc)
  simp only [dropRightWhile, List.reverse_append, List.dropWhile_append_of_pos hrev]

theorem trimEnd_append_of_blank (t : Text) {a : Text} (ha : Blank a) :
    trimEnd (t ++ a) = trimEnd t :=
  dropRightWhile_append ha t

theorem dropRightWhile_eq_self {p : Char → Bool} {t : Text} (h : ∀ c ∈ t.getLast?, p c = false) :
    dropRightWhile p t = t := by
  -- Read backwards, the text starts with its last character.
  have hrev : t.reverse.dropWhile p = t.reverse := by
    rw [← List.head?_reverse] at h
    cases hcases : t.reverse with
    | nil => rfl
    | cons c rest =>
      rw [hcases] at h
      simp [h c rfl]
  rw [dropRightWhile, hrev, List.reverse_reverse]

theorem trimEnd_eq_self {t : Text} (h : ∀ c, t.getLast? = some c → Unicode.isBlank c = false) :
    trimEnd t = t :=
  dropRightWhile_eq_self h

theorem exists_trimEnd_blank (t : Text) : ∃ a, Blank a ∧ t = trimEnd t ++ a := by
  obtain ⟨b, hb, ht⟩ := exists_blank_trimStart t.reverse
  refine ⟨b.reverse, fun c hc => hb c (List.mem_reverse.mp hc), ?_⟩
  have := congrArg List.reverse ht
  simpa [trimEnd, dropRightWhile, trimStart] using this

/-- Trimming takes blanks away at both ends and nothing else. -/
theorem exists_blank_trim (t : Text) : ∃ b a, Blank b ∧ Blank a ∧ t = b ++ trim t ++ a := by
  -- The blanks at the start go first, then those at the end of what is left.
  obtain ⟨b, hb, ht⟩ := exists_blank_trimStart t
  obtain ⟨a, ha, hs⟩ := exists_trimEnd_blank (trimStart t)
  refine ⟨b, a, hb, ha, ?_⟩
  rw [List.append_assoc]
  exact ht.trans (congrArg (b ++ ·) hs)

/-- What trimming leaves of a text with blanks around a core whose ends are not blank. -/
theorem trim_eq_core {b core a : Text} (hb : Blank b) (ha : Blank a)
    (hfirst : ∀ c, core.head? = some c → Unicode.isBlank c = false)
    (hlast : ∀ c, core.getLast? = some c → Unicode.isBlank c = false) :
    trim (b ++ core ++ a) = core := by
  have hstart : trimStart (b ++ core ++ a) = trimStart (core ++ a) := by
    rw [List.append_assoc, trimStart_append_of_blank hb]
  show trimEnd (trimStart (b ++ core ++ a)) = core
  rw [hstart]
  -- With an empty core all of the text is blank.
  cases core with
  | nil =>
    have hnil : trimStart a = [] := List.dropWhile_eq_nil_iff.mpr ha
    rw [List.nil_append, hnil]
    rfl
  | cons c core =>
    rw [trimStart_eq_self (by simpa using hfirst c rfl), trimEnd_append_of_blank _ ha,
      trimEnd_eq_self hlast]

theorem trim_of_blank {t : Text} (h : Blank t) : trim t = [] := by
  have hcore : trim (t ++ [] ++ []) = [] := trim_eq_core h Blank.nil (by simp) (by simp)
  simpa using hcore

/-- A text is blank iff trimming leaves nothing. -/
theorem trim_eq_nil_iff {t : Text} : trim t = [] ↔ Blank t := by
  refine ⟨fun h => ?_, trim_of_blank⟩
  -- Trimming takes blanks only, so a text of which it leaves nothing has no other character.
  obtain ⟨b, a, hb, ha, ht⟩ := exists_blank_trim t
  rw [h] at ht
  rw [ht]
  intro c hc
  simp only [List.append_nil, List.mem_append] at hc
  exact hc.elim (hb c) (ha c)

/-! ## What trimming leaves -/

/-- The text is `core` and behind it characters in `p`, in which `core` does not end. -/
def CoreInFront (p : Char → Bool) (t core : Text) : Prop :=
  ∃ behind, t = core ++ behind ∧ (∀ c ∈ behind, p c = true) ∧ ∀ c ∈ core.getLast?, p c = false

/-- The text is `core` and around it characters in `p`, in which `core` does not start or end. -/
def CoreWithin (p : Char → Bool) (t core : Text) : Prop :=
  ∃ front behind, t = front ++ core ++ behind ∧ (∀ c ∈ front, p c = true) ∧
    (∀ c ∈ behind, p c = true) ∧ (∀ c ∈ core.head?, p c = false) ∧ ∀ c ∈ core.getLast?, p c = false

section Core

variable {p : Char → Bool} {t core : Text}

theorem head?_dropWhile_eq_false (p : Char → Bool) (t : Text) :
    ∀ c ∈ (t.dropWhile p).head?, p c = false := by
  intro c hc
  have hhead := List.head?_dropWhile_not p t
  rw [Option.mem_def.mp hc] at hhead
  exact hhead

theorem coreInFront_dropRightWhile (p : Char → Bool) (t : Text) :
    CoreInFront p t (dropRightWhile p t) := by
  -- Read backwards, what is taken is the longest run at the start.
  refine ⟨(t.reverse.takeWhile p).reverse, ?_, ?_, ?_⟩
  · rw [dropRightWhile, ← List.reverse_append, List.takeWhile_append_dropWhile,
      List.reverse_reverse]
  · exact fun c hc => List.mem_takeWhile_imp (List.mem_reverse.mp hc)
  · rw [dropRightWhile, List.getLast?_reverse]
    exact head?_dropWhile_eq_false p t.reverse

/-- Trimming at the end is determined by what it leaves. -/
theorem dropRightWhile_eq_iff : dropRightWhile p t = core ↔ CoreInFront p t core := by
  constructor
  · rintro rfl
    exact coreInFront_dropRightWhile p t
  · rintro ⟨behind, rfl, hbehind, hlast⟩
    rw [dropRightWhile_append hbehind, dropRightWhile_eq_self hlast]

/-- Trimming at both ends is determined by what it leaves. -/
theorem trimWhile_eq_iff : trimWhile p t = core ↔ CoreWithin p t core := by
  unfold trimWhile
  rw [dropRightWhile_eq_iff]
  constructor
  · rintro ⟨behind, hdropped, hbehind, hlast⟩
    refine ⟨t.takeWhile p, behind, ?_, fun _ hc => List.mem_takeWhile_imp hc, hbehind, ?_, hlast⟩
    · rw [List.append_assoc, ← hdropped, List.takeWhile_append_dropWhile]
    -- What is left at the start is where the run of taken characters ends.
    · have hhead := head?_dropWhile_eq_false p t
      rw [hdropped] at hhead
      intro c hc
      exact hhead c (by rw [List.head?_append, Option.mem_def.mp hc]; rfl)
  -- The characters in front go first, and the core keeps those behind from being taken with them.
  · rintro ⟨front, behind, rfl, hfront, hbehind, hhead, hlast⟩
    rw [List.append_assoc, List.dropWhile_append_of_pos hfront]
    cases core with
    | nil =>
      -- All of the text goes.
      refine ⟨[], ?_, List.forall_mem_nil _, hlast⟩
      rw [List.nil_append, List.append_nil, List.dropWhile_eq_nil_iff]
      exact hbehind
    | cons c core =>
      have hc : p c = false := hhead c rfl
      exact ⟨behind, by rw [List.cons_append, List.dropWhile_cons_of_neg (by rw [hc]; decide)],
        hbehind, hlast⟩

/-- Characters behind a text that trimming takes away do not change what it leaves. -/
theorem trimWhile_append {behind : Text} (h : ∀ c ∈ behind, p c = true) (t : Text) :
    trimWhile p (t ++ behind) = trimWhile p t := by
  -- What trimming leaves stands in the longer text, with more behind it.
  obtain ⟨front, back, ht, hfront, hback, hhead, hlast⟩ :=
    trimWhile_eq_iff.mp (rfl : trimWhile p t = _)
  refine trimWhile_eq_iff.mpr ⟨front, back ++ behind, ?_, hfront, ?_, hhead, hlast⟩
  · rw [← List.append_assoc, ← ht]
  · exact List.forall_mem_append.mpr ⟨hback, h⟩

end Core

end DocPage.Text
