import DocPage.Unicode.Alphanumeric
import DocPage.Unicode.Blank
import DocPage.Unicode.CaseMap

/-!
# Lower case letters

What the lower case mapping gives, it maps to itself. Letters and digits it maps to letters and
digits, but for one letter: the capital I with a dot, U+0130, becomes a small i and a combining dot,
and the combining dot is neither a letter nor a digit. The tables say so for whole runs of letters
at once: the images of a run fill one range of letters, and lie beside or between the letters of
every run.

## Architecture

- **Ranges**: `Ranges.covers`, a whole interval in a set of characters, and blanks outside of one
- **Two letters and ASCII**: the letter with a dot, and the tables below 0x80
- **Runs**: `CaseRun.isApart`, and what holds of all runs of the mapping
- **Characters**: `toLower_of_mem_toLower` and `isAlphanumeric_of_mem_toLower`
-/

namespace DocPage.Unicode

/-! ## Ranges -/

/-- Whether all code points between two bounds are in the set, within one of its ranges. -/
def Ranges.covers : Ranges → (low high : Nat) → Bool
  | [], _, _ => false
  | (first, last) :: rest, low, high =>
    first.ble low && bif low.ble last then high.ble last else Ranges.covers rest low high

theorem Ranges.contains_of_covers {r : Ranges} {low high n : Nat} (h : r.covers low high = true)
    (hlow : low ≤ n) (hhigh : n ≤ high) : r.contains n = true := by
  induction r with
  | nil => simp [covers] at h
  | cons range rest ih =>
    obtain ⟨first, last⟩ := range
    simp only [covers, Bool.and_eq_true, Nat.ble_eq] at h
    obtain ⟨hfirst, h⟩ := h
    unfold contains
    rw [if_neg (by omega)]
    -- The bounds lie in the first range, or both of them behind it.
    cases hlast : low.ble last with
    | true =>
      rw [hlast, cond_true, Nat.ble_eq] at h
      rw [if_pos (by omega)]
    | false =>
      rw [hlast, cond_false] at h
      have hbehind : ¬ low ≤ last := by
        rw [← Nat.ble_eq, hlast]
        decide
      rw [if_neg (by omega)]
      exact ih h

theorem Ranges.exists_of_contains {r : Ranges} {n : Nat} (h : r.contains n = true) :
    ∃ range ∈ r, range.1 ≤ n ∧ n ≤ range.2 := by
  -- Along the ranges, as the search goes: one that starts behind the number ends it.
  induction r with
  | nil => cases h
  | cons range rest ih =>
    unfold contains at h
    split at h
    · cases h
    · next hfirst =>
      split at h
      · next hlast => exact ⟨range, List.mem_cons_self, by omega, hlast⟩
      · obtain ⟨found, hfound, hbounds⟩ := ih h
        exact ⟨found, List.mem_cons_of_mem range hfound, hbounds⟩

/-- A blank is neither a letter nor a digit. -/
theorem isAlphanumeric_of_isBlank {c : Char} (h : isBlank c = true) : isAlphanumeric c = false := by
  -- There are few blanks, so each of them is computed.
  have hblanks : ∀ range ∈ blankRanges, ∀ k < range.2 + 1 - range.1,
      isAlphanumeric (Char.ofNat (range.1 + k)) = false := by
    decide +kernel
  obtain ⟨range, hrange, hfirst, hlast⟩ := Ranges.exists_of_contains h
  have hblank := hblanks range hrange (c.toNat - range.1) (by omega)
  rwa [Nat.add_sub_cancel' hfirst, Char.ofNat_toNat] at hblank

/-! ## Two letters and ASCII -/

/-- The capital letter whose lower case form is not one letter. -/
def dottedCapital : Char := '\u0130'

def combiningDot : Char := '\u0307'

theorem toLower_dottedCapital : toLower dottedCapital = ['i', combiningDot] := rfl

theorem isAlphanumeric_combiningDot : isAlphanumeric combiningDot = false := rfl

theorem toLower_combiningDot : toLower combiningDot = [combiningDot] := rfl

/-- What ASCII becomes: it is in lower case, and a letter or a digit if it was one before. Small
letters stay as they are. -/
theorem ascii_toLower : ∀ n < 0x80,
    (∀ d ∈ toLower (Char.ofNat n), toLower d = [d] ∧
      (isAlphanumeric (Char.ofNat n) = true → isAlphanumeric d = true)) ∧
    (0x61 ≤ n → n < 0x7B →
      isAlphanumeric (Char.ofNat n) = true ∧ toLower (Char.ofNat n) = [Char.ofNat n]) := by
  decide +kernel

/-! ## Runs -/

namespace CaseRun

variable {run other : CaseRun} {n image : Nat}

/-- The image of the last letter of the run. -/
def lastImage (run : CaseRun) : Nat :=
  run.image + (run.last - run.first)

/-- The images of the run lie on one side of the letters of the other run, or every one of them
between two of those letters. -/
def isApart (run other : CaseRun) : Bool :=
  run.lastImage.blt other.first || other.last.blt run.image ||
    (other.stride.beq 2 && (run.stride.beq 2 || run.first.beq run.last) &&
      Nat.beq ((run.image + other.first) % 2) 1)

theorem map?_eq_some_iff : run.map? n = some image ↔
    (run.first ≤ n ∧ n ≤ run.last ∧ (n - run.first) % run.stride = 0) ∧
      run.image + (n - run.first) = image := by
  simp [map?]

theorem le_of_map? (h : run.map? n = some image) : run.image ≤ image ∧ image ≤ run.lastImage := by
  -- The image is as far from the first image as the letter is from the first letter.
  obtain ⟨⟨hfirst, hlast, -⟩, rfl⟩ := map?_eq_some_iff.mp h
  unfold lastImage
  omega

/-- What lies apart from a run is not mapped by it. -/
theorem map?_of_isApart (h : run.isApart other = true) (hn : run.map? n = some image) :
    other.map? image = none := by
  obtain ⟨hlow, hhigh⟩ := le_of_map? hn
  obtain ⟨⟨hfirst, hlast, hstride⟩, himage⟩ := map?_eq_some_iff.mp hn
  -- The other run would need the image between its bounds and on its stride.
  refine if_neg ?_
  rintro ⟨hfirst', hlast', hstride'⟩
  simp only [isApart, Bool.or_eq_true, Bool.and_eq_true, Nat.blt_eq, Nat.beq_eq] at h
  rcases h with (hbelow | habove) | ⟨⟨htwo, hsteps⟩, hodd⟩
  · omega
  · omega
  · -- The images are as many twos away from the first one, which is an odd number away.
    have heven : (n - run.first) % 2 = 0 := by
      rcases hsteps with hsteps | hsingle
      · rwa [hsteps] at hstride
      · rw [show n - run.first = 0 by omega]
    rw [htwo] at hstride'
    omega

end CaseRun

/-! ### The runs of the mapping -/

/-- Where images lie: they are characters, they are small letters where they are ASCII, and they do
not lie around U+0130. -/
theorem bounds_images : ∀ run ∈ lowerMap.runs,
    (run.lastImage < 0xD800 ∨ 0xE000 ≤ run.image ∧ run.lastImage < 0x110000) ∧
      (0x80 ≤ run.image ∨ 0x61 ≤ run.image ∧ run.lastImage ≤ 0x7A) ∧
      (run.lastImage < 0x130 ∨ 0x130 < run.image) := by
  decide +kernel

/-- One letter has several images. -/
theorem lookup_expansions {n : Nat} (h : n ≠ 0x130) : lowerMap.expansions.lookup n = none :=
  List.lookup_eq_none_iff.mpr (List.forall_mem_singleton.mpr (bne_iff_ne.mpr h))

/-- The images of every run are letters, and no run maps them further. -/
theorem settled_images : lowerMap.runs.all (fun run =>
    alphanumericRanges.covers run.image run.lastImage && lowerMap.runs.all run.isApart) = true := by
  decide +kernel

theorem covers_and_isApart {run : CaseRun} (hrun : run ∈ lowerMap.runs) :
    alphanumericRanges.covers run.image run.lastImage = true ∧
      ∀ other ∈ lowerMap.runs, run.isApart other = true := by
  have hsettled := List.all_eq_true.mp settled_images run hrun
  rwa [Bool.and_eq_true, List.all_eq_true] at hsettled

section Images

variable {run : CaseRun} {n image : Nat} (hrun : run ∈ lowerMap.runs)
  (hn : run.map? n = some image)
include hrun hn

theorem toNat_image : (Char.ofNat image).toNat = image := by
  obtain ⟨hlow, hhigh⟩ := CaseRun.le_of_map? hn
  obtain ⟨hbounds, -⟩ := bounds_images run hrun
  have hvalid : image.isValidChar := by
    rcases hbounds with hbelow | habove
    · exact .inl (by omega)
    · exact .inr (by omega)
  -- A number is a character only when it is none of the surrogates.
  unfold Char.ofNat
  rw [dif_pos hvalid]
  rfl

theorem isAlphanumeric_image : isAlphanumeric (Char.ofNat image) = true := by
  obtain ⟨hlow, hhigh⟩ := CaseRun.le_of_map? hn
  -- The tables have no range for ASCII, which is told apart before.
  by_cases hascii : image < 0x80
  · obtain ⟨-, hsmall, -⟩ := bounds_images run hrun
    exact ((ascii_toLower image hascii).2 (by omega) (by omega)).1
  · unfold isAlphanumeric
    rw [toNat_image hrun hn, if_neg hascii]
    exact Ranges.contains_of_covers (covers_and_isApart hrun).1 hlow hhigh

/-- An image is mapped by no run and has no expansion, so it is its own image. -/
theorem toLower_image : toLower (Char.ofNat image) = [Char.ofNat image] := by
  obtain ⟨hlow, hhigh⟩ := CaseRun.le_of_map? hn
  obtain ⟨-, hsmall, hexpanded⟩ := bounds_images run hrun
  by_cases hascii : image < 0x80
  · exact ((ascii_toLower image hascii).2 (by omega) (by omega)).2
  -- No run maps the image, because each of them lies apart from this one.
  · have hnone : lowerMap.runs.findSome? (·.map? image) = none := by
      refine List.findSome?_eq_none_iff.mpr fun other hother => ?_
      exact CaseRun.map?_of_isApart ((covers_and_isApart hrun).2 other hother) hn
    have hlookup := lookup_expansions (n := image) (by omega)
    unfold toLower CaseMap.apply
    rw [toNat_image hrun hn, if_neg hascii, hlookup, hnone]

end Images

/-! ## Characters -/

/-- What a character beyond ASCII becomes: itself, the image that a run gives, or an i with a dot
above. -/
theorem toLower_cases {c : Char} (h : ¬ c.toNat < 0x80) :
    toLower c = [c] ∨
      (∃ run ∈ lowerMap.runs, ∃ image, run.map? c.toNat = some image ∧
        toLower c = [Char.ofNat image]) ∨
      c = dottedCapital := by
  -- The dotted capital has an expansion, so no run is asked for it.
  by_cases hdotted : c = dottedCapital
  · exact .inr (.inr hdotted)
  have hlookup := lookup_expansions fun hsame : c.toNat = 0x130 =>
    hdotted (Char.toNat_inj.mp hsame)
  have hlower : toLower c = lowerMap.apply c := if_neg h
  rw [hlower, CaseMap.apply, hlookup]
  cases hfound : lowerMap.runs.findSome? (·.map? c.toNat) with
  | none => exact .inl rfl
  | some image =>
    obtain ⟨run, hrun, hn⟩ := List.exists_of_findSome?_eq_some hfound
    exact .inr (.inl ⟨run, hrun, image, hn, rfl⟩)

/-- **The lower case form of a character is in lower case.** -/
theorem toLower_of_mem_toLower {c d : Char} (hd : d ∈ toLower c) : toLower d = [d] := by
  by_cases hascii : c.toNat < 0x80
  · rw [← Char.ofNat_toNat c] at hd
    exact ((ascii_toLower c.toNat hascii).1 d hd).1
  -- What the character becomes is itself, the image of a run, or an i with a dot.
  · rcases toLower_cases hascii with hself | ⟨run, hrun, image, hn, himage⟩ | rfl
    · rw [hself, List.mem_singleton] at hd
      rwa [hd]
    · rw [himage, List.mem_singleton] at hd
      rw [hd]
      exact toLower_image hrun hn
    · rw [toLower_dottedCapital] at hd
      -- Both characters of the expansion are in lower case.
      have hboth : ∀ e ∈ ['i', combiningDot], toLower e = [e] :=
        List.forall_mem_cons.mpr ⟨rfl, List.forall_mem_singleton.mpr toLower_combiningDot⟩
      exact hboth d hd

/-- **The lower case form of a letter or a digit consists of letters and digits**, but for one. -/
theorem isAlphanumeric_of_mem_toLower {c d : Char} (hc : isAlphanumeric c = true)
    (hne : c ≠ dottedCapital) (hd : d ∈ toLower c) : isAlphanumeric d = true := by
  by_cases hascii : c.toNat < 0x80
  · rw [← Char.ofNat_toNat c] at hc hd
    exact ((ascii_toLower c.toNat hascii).1 d hd).2 hc
  · rcases toLower_cases hascii with hself | ⟨run, hrun, image, hn, himage⟩ | hdotted
    · rw [hself, List.mem_singleton] at hd
      rwa [hd]
    · rw [himage, List.mem_singleton] at hd
      rw [hd]
      exact isAlphanumeric_image hrun hn
    · exact absurd hdotted hne

end DocPage.Unicode
