import DocPage.Text.Basic
import Mathlib.Data.List.Infix

/-!
# Laws of prefixes, of search, of sizes and of numbers

`dropPrefix?`, `dropSuffix?`, `splitOnce?` and `contains` are characterised by concatenation, so
that proofs about readers of text never walk over characters again.

## Architecture

- **Prefixes**: `dropPrefix?` and `dropSuffix?` succeed exactly on `p ++ rest` and `rest ++ s`
- **Search**: `splitOnce?` cuts at the first occurrence, and `needle` occurs iff it is an infix
- **Replacement**: `replace` goes from one occurrence to the next
- **Delimiters**: a needle that holds its first character only once cannot overlap itself
- **Sizes**: `byteSize` is additive, and a prefix of a text is determined by its size
- **Numbers**: a number is written with digits only, and they determine it; `toWord?` reads the
  digits of a number of 64 bits
-/

namespace DocPage.Text

/-! ## Prefixes and suffixes -/

/-- `dropPrefix?` succeeds exactly on the texts that start with `p`. -/
theorem dropPrefix?_eq_some_iff {p t rest : Text} :
    dropPrefix? p t = some rest ↔ t = p ++ rest := by
  -- Character by character, with both texts getting shorter.
  induction p generalizing t with
  | nil => simp [dropPrefix?]
  | cons a p ih =>
    cases t with
    | nil => simp [dropPrefix?]
    | cons c t =>
      by_cases hc : a = c
      · simp only [dropPrefix?, hc, if_true, ih, List.cons_append, List.cons.injEq, true_and]
      · have hc' : ¬ c = a := fun h => hc h.symm
        simp [dropPrefix?, hc, hc']

@[simp]
theorem dropPrefix?_append (p rest : Text) : dropPrefix? p (p ++ rest) = some rest :=
  (dropPrefix?_eq_some_iff).mpr rfl

theorem dropPrefix?_eq_none_iff {p t : Text} : dropPrefix? p t = none ↔ ¬ p <+: t := by
  rw [Option.eq_none_iff_forall_ne_some]
  constructor
  · rintro h ⟨rest, rfl⟩
    exact h rest (dropPrefix?_append p rest)
  · intro h rest hrest
    exact h ⟨rest, ((dropPrefix?_eq_some_iff).mp hrest).symm⟩

theorem head?_ne {c : Char} {t : Text} (h : ∀ rest, t = c :: rest → False) : t.head? ≠ some c := by
  intro hhead
  obtain ⟨rest, rfl⟩ := List.head?_eq_some_iff.mp hhead
  exact h rest rfl

/-- `dropSuffix?` succeeds exactly on the texts that end with `s`. -/
theorem dropSuffix?_eq_some_iff {s t rest : Text} :
    dropSuffix? s t = some rest ↔ t = rest ++ s := by
  simp only [dropSuffix?, Option.map_eq_some_iff, dropPrefix?_eq_some_iff]
  constructor
  -- The suffix of a text is the prefix of the text read backwards.
  · rintro ⟨u, hu, rfl⟩
    have := congrArg List.reverse hu
    simpa using this
  · rintro rfl
    exact ⟨rest.reverse, by simp, by simp⟩

/-! ## Search -/

/-- The result of `splitOnce?` is a decomposition of the text. -/
theorem eq_of_splitOnce? {needle t before after : Text}
    (h : splitOnce? needle t = some (before, after)) : t = before ++ needle ++ after := by
  induction t generalizing before with
  | nil =>
    simp only [splitOnce?, List.isEmpty_iff] at h
    split at h
    · next hn => simp_all
    · cases h
  | cons c t ih =>
    unfold splitOnce? at h
    split at h
    -- The needle stands at the start, so nothing is in front of it.
    · next rest hrest =>
      cases h
      simpa using (dropPrefix?_eq_some_iff).mp hrest
    · obtain ⟨⟨b, a⟩, hb, hpair⟩ := Option.map_eq_some_iff.mp h
      cases hpair
      rw [ih hb]
      simp

/-- `splitOnce?` cuts at the first occurrence: every other one starts no earlier. -/
theorem length_le_of_splitOnce? {needle t before after b a : Text}
    (h : splitOnce? needle t = some (before, after)) (ht : t = b ++ needle ++ a) :
    before.length ≤ b.length := by
  induction t generalizing before b with
  | nil =>
    simp only [splitOnce?] at h
    split at h
    · cases h; simp
    · cases h
  | cons c t ih =>
    unfold splitOnce? at h
    split at h
    · cases h; simp
    · next hnone =>
      obtain ⟨⟨b', a'⟩, hb, hpair⟩ := Option.map_eq_some_iff.mp h
      cases hpair
      -- The needle does not stand at the start, so the other occurrence is in the tail too.
      cases b with
      | nil => exact absurd ⟨a, by simpa using ht.symm⟩ ((dropPrefix?_eq_none_iff).mp hnone)
      | cons d b =>
        have htail : t = b ++ needle ++ a := by
          simpa using (List.cons.inj ht).2
        simpa using ih hb htail

theorem splitOnce?_eq_none_iff {needle t : Text} :
    splitOnce? needle t = none ↔ ¬ needle <:+: t := by
  induction t with
  | nil => simp [splitOnce?]
  | cons c t ih =>
    -- The needle stands at the start of a text or in its tail.
    rw [List.infix_cons_iff, not_or]
    unfold splitOnce?
    split
    · next rest hrest =>
      have hstarts : needle <+: c :: t := ⟨rest, ((dropPrefix?_eq_some_iff).mp hrest).symm⟩
      simp [hstarts]
    · next hnone =>
      simp only [Option.map_eq_none_iff, ih]
      exact ⟨fun h => ⟨(dropPrefix?_eq_none_iff).mp hnone, h⟩, fun h => h.2⟩

/-- `contains` asks for an infix. -/
theorem contains_iff {needle t : Text} : contains needle t = true ↔ needle <:+: t := by
  rw [← not_iff_not, ← splitOnce?_eq_none_iff]
  -- Containing a text is finding a cut.
  simp [contains]

/-- A single character is contained iff it is a member. -/
theorem contains_singleton {c : Char} {t : Text} : contains [c] t = true ↔ c ∈ t := by
  rw [contains_iff]
  constructor
  · rintro ⟨b, a, rfl⟩
    simp
  · intro h
    obtain ⟨b, a, rfl⟩ := List.append_of_mem h
    exact ⟨b, a, by simp⟩

/-- The text in front of the first occurrence of a nonempty needle holds none. -/
theorem not_infix_of_splitOnce? {needle t before after : Text} (hne : needle ≠ [])
    (h : splitOnce? needle t = some (before, after)) : ¬ needle <:+: before := by
  rintro ⟨b, a, rfl⟩
  -- An occurrence in front would be earlier than the first one.
  have hle := length_le_of_splitOnce? (b := b) (a := a ++ needle ++ after) h
    (by rw [eq_of_splitOnce? h]; simp)
  have hpos := List.length_pos_iff.mpr hne
  simp only [List.length_append] at hle
  omega

/-! ## Replacement -/

section Replacement

variable {needle new : Text}

theorem startsWith_iff {p t : Text} : startsWith p t = true ↔ p <+: t := by
  rw [← not_iff_not, ← dropPrefix?_eq_none_iff]
  simp [startsWith]

theorem replaceFrom_eq_drop (skip : Nat) (t : Text) :
    replaceFrom needle new skip t = replace needle new (t.drop skip) := by
  -- Skipping stops at the end of the text.
  induction t generalizing skip with
  | nil => cases skip <;> rfl
  | cons c t ih =>
    cases skip with
    | zero => rfl
    | succ skip => exact ih skip

/-- Where no occurrence starts, a character is kept. -/
theorem replace_cons {c : Char} {t : Text} (h : ¬ needle <+: c :: t) :
    replace needle new (c :: t) = c :: replace needle new t := by
  rw [← startsWith_iff] at h
  show replaceFrom needle new 0 (c :: t) = _
  unfold replaceFrom
  rw [if_neg h]
  rfl

/-- An occurrence is replaced as a whole. -/
theorem replace_append (hne : needle ≠ []) (t : Text) :
    replace needle new (needle ++ t) = new ++ replace needle new t := by
  obtain ⟨c, rest, rfl⟩ := List.exists_cons_of_ne_nil hne
  -- At the start of an occurrence, all its characters are skipped at once.
  have hstarts : startsWith (c :: rest) (c :: (rest ++ t)) = true :=
    startsWith_iff.mpr ⟨t, rfl⟩
  show replaceFrom (c :: rest) new 0 (c :: (rest ++ t)) = _
  unfold replaceFrom
  rw [if_pos hstarts, replaceFrom_eq_drop, List.length_cons, Nat.add_sub_cancel, List.drop_left]

end Replacement

/-! ## Runs -/

/-- The longest run of characters in `p` ends where a character outside of `p` follows. -/
theorem takeWhile_append_of_boundary {p : Char → Bool} {run rest : Text}
    (hrun : ∀ c ∈ run, p c = true) (hrest : ∀ c ∈ rest.head?, p c = false) :
    (run ++ rest).takeWhile p = run := by
  rw [List.takeWhile_append_of_pos hrun]
  -- Where the run ends, the text ends or a character outside of `p` stands.
  cases rest with
  | nil => simp
  | cons c rest => simp [hrest c rfl]

theorem dropWhile_append_of_boundary {p : Char → Bool} {run rest : Text}
    (hrun : ∀ c ∈ run, p c = true) (hrest : ∀ c ∈ rest.head?, p c = false) :
    (run ++ rest).dropWhile p = rest := by
  rw [List.dropWhile_append_of_pos hrun]
  cases rest with
  | nil => rfl
  | cons c rest => simp [hrest c rfl]

/-- A text that starts with a run and goes on outside of it is cut in one way only. -/
theorem run_append_inj {p : Char → Bool} {a b u v : Text} (h : a ++ u = b ++ v)
    (ha : ∀ c ∈ a, p c = true) (hb : ∀ c ∈ b, p c = true) (hu : ∀ c ∈ u.head?, p c = false)
    (hv : ∀ c ∈ v.head?, p c = false) : a = b ∧ u = v := by
  have hrun : a = b := by
    rw [← takeWhile_append_of_boundary ha hu, h, takeWhile_append_of_boundary hb hv]
  subst hrun
  exact ⟨rfl, List.append_cancel_left h⟩

/-- Behind its last occurrence of a character, a text is determined. -/
theorem eq_of_append_cons_eq {c : Char} {a b u v : Text} (h : a ++ c :: u = b ++ c :: v)
    (hu : c ∉ u) (hv : c ∉ v) : u = v := by
  -- What stands behind the last occurrence is the first run of the text read backwards.
  have hrun : ∀ front behind : Text, c ∉ behind →
      (front ++ c :: behind).reverse.takeWhile (· != c) = behind.reverse := by
    intro front behind hbehind
    have hreversed : (front ++ c :: behind).reverse = behind.reverse ++ c :: front.reverse := by
      simp
    rw [hreversed]
    refine takeWhile_append_of_boundary (fun d hd => ?_) fun d hd => ?_
    · simpa using ne_of_mem_of_not_mem (List.mem_reverse.mp hd) hbehind
    · cases hd
      simp
  have hreversed := hrun a u hu
  rw [h, hrun b v hv] at hreversed
  exact (List.reverse_injective hreversed).symm

/-! ## Delimiters that cannot overlap themselves -/

/-- Cutting `u ++ w` in another place: one of the first parts continues the other. -/
theorem append_cases {a b c d : Text} (h : a ++ b = c ++ d) :
    (∃ u, a = c ++ u ∧ d = u ++ b) ∨ (∃ u, c = a ++ u ∧ b = u ++ d) :=
  (List.append_eq_append_iff.mp h).symm.imp
    (fun ⟨u, h1, h2⟩ => ⟨u, h1, h2⟩) (fun ⟨u, h1, h2⟩ => ⟨u, h1, h2⟩)

/-- Of two occurrences of a delimiter whose first character does not come again in it, the later one
starts behind the earlier one. -/
theorem delimiter_after {c : Char} {tail u a after : Text} (hc : c ∉ tail) (hu : u ≠ [])
    (h : (c :: tail) ++ after = u ++ (c :: tail) ++ a) : ∃ v, u = (c :: tail) ++ v := by
  cases u with
  | nil => exact absurd rfl hu
  | cons x u =>
    simp only [List.cons_append, List.append_assoc, List.cons.injEq] at h
    obtain ⟨rfl, h⟩ := h
    -- The later delimiter starts inside the earlier one or behind it.
    rcases append_cases h with ⟨w, rfl, hw⟩ | ⟨w, rfl, -⟩
    · cases w with
      | nil => exact ⟨[], by simp⟩
      | cons y w =>
        -- The later occurrence would start inside the earlier one.
        simp only [List.cons_append, List.cons.injEq] at hw
        exact absurd (by simp [hw.1]) hc
    · exact ⟨w, rfl⟩

/-- A delimiter whose first character does not come again, behind a text without the delimiter,
is its first occurrence. -/
theorem splitOnce?_append {c : Char} {tail before : Text} (after : Text) (hc : c ∉ tail)
    (hbefore : ¬ (c :: tail) <:+: before) :
    splitOnce? (c :: tail) (before ++ (c :: tail) ++ after) = some (before, after) := by
  cases hs : splitOnce? (c :: tail) (before ++ (c :: tail) ++ after) with
  | none => exact absurd ⟨before, after, rfl⟩ ((splitOnce?_eq_none_iff).mp hs)
  | some pair =>
    obtain ⟨b, a⟩ := pair
    have heq := eq_of_splitOnce? hs
    have hle := length_le_of_splitOnce? hs (b := before) (a := after) rfl
    rw [List.append_assoc, List.append_assoc] at heq
    -- The first occurrence starts no later, so `before` continues the text in front of it.
    obtain ⟨u, rfl, hu⟩ : ∃ u, before = b ++ u ∧
        (c :: tail) ++ a = u ++ ((c :: tail) ++ after) := by
      rcases append_cases heq with ⟨u, hb, ha⟩ | ⟨u, rfl, ha⟩
      · exact ⟨u, hb, ha⟩
      · have hnil : u = [] := by
          rw [← List.length_eq_zero_iff]
          simp only [List.length_append] at hle
          omega
        subst hnil
        exact ⟨[], by simp, by simpa using ha.symm⟩
    -- The two cuts agree, or a delimiter stands in front of the first one.
    by_cases hnil : u = []
    · subst hnil
      simp_all
    · obtain ⟨v, rfl⟩ := delimiter_after hc hnil (hu.trans (List.append_assoc ..).symm)
      exact absurd ⟨b, v, by simp⟩ hbefore

/-- A delimiter whose last character does not come earlier in it, behind a text without the
delimiter, is its first occurrence. -/
theorem splitOnce?_append_of_last {front before : Text} {last : Char} (after : Text)
    (hlast : last ∉ front) (hbefore : ¬ front ++ [last] <:+: before) :
    splitOnce? (front ++ [last]) (before ++ (front ++ [last]) ++ after) = some (before, after) := by
  cases hs : splitOnce? (front ++ [last]) (before ++ (front ++ [last]) ++ after) with
  | none => exact absurd ⟨before, after, rfl⟩ ((splitOnce?_eq_none_iff).mp hs)
  | some pair =>
    obtain ⟨b, a⟩ := pair
    have heq := eq_of_splitOnce? hs
    have hle := length_le_of_splitOnce? hs (b := before) (a := after) rfl
    by_cases hsame : b.length = before.length
    · rw [List.append_assoc before, List.append_assoc b] at heq
      obtain ⟨rfl, hrest⟩ := List.append_inj heq hsame.symm
      rw [List.append_cancel_left hrest]
    · -- The first occurrence would end before the other one does: with a last character in `front`.
      exfalso
      rw [List.append_assoc before] at heq
      rcases append_cases heq with ⟨u, rfl, -⟩ | ⟨u, hu, htail⟩
      · exact hbefore ⟨b, u, rfl⟩
      · rcases List.eq_nil_or_concat' u with rfl | ⟨u, c, rfl⟩
        · exact hbefore ⟨b, [], by simpa using hu⟩
        · rw [← List.append_assoc, ← List.append_assoc] at hu
          obtain ⟨hfront, hc⟩ := List.append_inj' hu rfl
          cases hc
          have hlength := congrArg List.length hfront
          rw [List.length_append, List.length_append] at hlength
          rw [List.append_assoc, List.append_assoc] at htail
          rcases append_cases htail with ⟨w, rfl, hw⟩ | ⟨w, rfl, -⟩
          · cases w with
            | nil =>
              rw [List.append_nil] at hlength
              omega
            | cons d w =>
              obtain ⟨rfl, -⟩ := List.cons.inj hw
              exact hlast (List.mem_append_right u List.mem_cons_self)
          · rw [List.length_append] at hlength
            omega

/-! ## Sizes -/

@[simp]
theorem byteSize_nil : byteSize [] = 0 := rfl

@[simp]
theorem byteSize_cons (c : Char) (t : Text) : byteSize (c :: t) = c.utf8Size + byteSize t := rfl

@[simp]
theorem byteSize_append (a b : Text) : byteSize (a ++ b) = byteSize a + byteSize b := by
  induction a with
  | nil => simp
  | cons c a ih => simp only [List.cons_append, byteSize_cons, ih]; omega

theorem byteSize_pos {t : Text} (h : t ≠ []) : 0 < byteSize t := by
  cases t with
  | nil => exact absurd rfl h
  | cons c t =>
    have := c.utf8Size_pos
    simp only [byteSize_cons]
    omega

/-- Two prefixes of one text with the same size are the same. -/
theorem append_inj_of_byteSize {a b c d : Text} (h : a ++ b = c ++ d)
    (hsize : byteSize a = byteSize c) : a = c ∧ b = d := by
  rcases append_cases h with ⟨u, rfl, rfl⟩ | ⟨u, rfl, rfl⟩ <;>
  -- What one prefix has more than the other has no size, so it is empty.
  · rw [byteSize_append] at hsize
    have hu : u = [] := by
      by_contra hne
      have := byteSize_pos hne
      omega
    simp [hu]

/-! ## Numbers -/

theorem isDigit_of_mem_ofNat {n : Nat} {c : Char} (h : c ∈ ofNat n) : c.isDigit = true :=
  Nat.isDigit_of_mem_toDigits (by decide) (by decide) h

theorem notMem_ofNat {c : Char} (hc : c.isDigit = false) (n : Nat) : c ∉ ofNat n := by
  intro h
  rw [isDigit_of_mem_ofNat h] at hc
  cases hc

theorem digitsValue_ofNat (n : Nat) : digitsValue (ofNat n) = n :=
  Nat.ofDigitChars_ten_toDigits

theorem ofNat_injective : Function.Injective ofNat :=
  Function.LeftInverse.injective digitsValue_ofNat

/-- A number of 64 bits in decimal digits, which a plus sign may precede. -/
def SpellsWord (t : Text) (n : Nat) : Prop :=
  ∃ digits, (t = digits ∨ t = '+' :: digits) ∧ digits ≠ [] ∧ (∀ c ∈ digits, c.isDigit = true) ∧
    n = digitsValue digits ∧ n ≤ wordMax

/-- Without their optional sign, digits are left. -/
theorem dropSign_eq {t digits : Text} (hdigits : ∀ c ∈ digits, c.isDigit = true)
    (h : t = digits ∨ t = '+' :: digits) : (dropPrefix? ['+'] t).getD t = digits := by
  rcases h with rfl | rfl
  · cases hdrop : dropPrefix? ['+'] t with
    | none => rfl
    | some rest =>
      -- A plus sign is no digit.
      rw [dropPrefix?_eq_some_iff] at hdrop
      subst hdrop
      exact absurd (hdigits '+' List.mem_cons_self) (by decide)
  · rw [show '+' :: digits = ['+'] ++ digits from rfl, dropPrefix?_append]
    rfl

theorem toWord?_eq_some_iff {t : Text} {n : Nat} : toWord? t = some n ↔ SpellsWord t n := by
  have hsign : t = (dropPrefix? ['+'] t).getD t ∨
      t = '+' :: (dropPrefix? ['+'] t).getD t := by
    cases hdrop : dropPrefix? ['+'] t with
    | none => exact .inl rfl
    | some rest => exact .inr (dropPrefix?_eq_some_iff.mp hdrop)
  unfold toWord? SpellsWord
  constructor
  · intro h
    dsimp only at h
    -- Whatever the sign, the digits are what is read.
    generalize (dropPrefix? ['+'] t).getD t = digits at h hsign
    simp only [Bool.or_eq_true, List.isEmpty_iff, Bool.not_eq_true'] at h
    split at h
    · cases h
    · rename_i hdigits
      split at h
      · rename_i hle
        cases h
        rw [not_or, Bool.not_eq_false, List.all_eq_true] at hdigits
        exact ⟨digits, hsign, hdigits.1, hdigits.2, rfl, hle⟩
      · cases h
  · rintro ⟨digits, ht, hne, hdigits, rfl, hle⟩
    rw [dropSign_eq hdigits ht]
    have hall : digits.all Char.isDigit = true := List.all_eq_true.mpr hdigits
    dsimp only
    rw [if_neg (by simp [hne, hall]), if_pos hle]

end DocPage.Text
