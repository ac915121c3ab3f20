import DocPage.Outline.Slug
import DocPage.Proofs.Text.Search
import DocPage.Proofs.Text.Trim

/-!
# Headings that name their anchor

A heading names its anchor at its end, by a slug in brackets: double brackets may hold blanks around
the slug, single brackets must. `AnchoredTitle` is such a text in its parts. A text is split exactly
when it is spelled by such parts, and the parts are the only ones that spell it: read from the end,
the second character tells the brackets, and neither a blank nor a bracket can stand in a slug.

## Architecture

- **Parts**: `SlugSuffix` and `AnchoredTitle`, each with its spelling
- **Reading backwards**: `slugBackward?` and `bracketedSlug?` find the suffix when there is one
- **Splitting**: `splitAnchor` gives the parts of an anchored title, and no text has two of them
-/

namespace DocPage.Outline

open Text (Blank)

/-! ## Parts -/

/-- The brackets around an explicit slug. -/
inductive Brackets where
  | single
  | double
  deriving Repr, DecidableEq

namespace Brackets

/-- The brackets in front of the slug. -/
def opening : Brackets → Text
  | single => ['[']
  | double => ['[', '[']

/-- The brackets behind the slug. -/
def closing : Brackets → Text
  | single => [']']
  | double => [']', ']']

end Brackets

/-- A slug in brackets, with the blanks on both sides of it. -/
@[ext]
structure SlugSuffix where
  brackets : Brackets
  before : Text
  slug : Text
  after : Text
  blank_before : Blank before
  blank_after : Blank after
  /-- Single brackets need blanks on both sides. -/
  spaced : brackets = .single → before ≠ [] ∧ after ≠ []
  slug_ne_nil : slug ≠ []
  slug_plain : ∀ c ∈ slug, c ≠ '[' ∧ c ≠ ']' ∧ Unicode.isBlank c = false

def SlugSuffix.spelled (x : SlugSuffix) : Text :=
  x.brackets.opening ++ x.before ++ x.slug ++ x.after ++ x.brackets.closing

/-- A heading text that names its anchor: a title on one line, blanks, and the suffix. -/
@[ext]
structure AnchoredTitle where
  title : Text
  gap : Text
  suffix : SlugSuffix
  newline_notMem : '\n' ∉ title
  title_end : ∀ c ∈ title.getLast?, Unicode.isBlank c = false
  blank_gap : Blank gap

def AnchoredTitle.spelled (x : AnchoredTitle) : Text :=
  x.title ++ x.gap ++ x.suffix.spelled

/-! ## Reading backwards -/

theorem isSlugChar_iff {c : Char} :
    isSlugChar c = true ↔ c ≠ '[' ∧ c ≠ ']' ∧ Unicode.isBlank c = false := by
  simp [isSlugChar, and_assoc]

theorem isSlugChar_of_isBlank {c : Char} (h : Unicode.isBlank c = true) : isSlugChar c = false := by
  simp [isSlugChar, h]

/-- Each of the runs ends where the next one starts, and the last one at an opening bracket. -/
theorem slugBackward?_append {after slug before : Text} (front : Text) (hafter : Blank after)
    (hne : slug ≠ []) (hslug : ∀ c ∈ slug, isSlugChar c = true) (hbefore : Blank before) :
    slugBackward? (after ++ (slug ++ (before ++ '[' :: front))) =
      some (slug.reverse, decide (after ≠ [] ∧ before ≠ []), '[' :: front) := by
  -- The blanks in front end where the slug begins, whose characters are no blanks.
  have hfromSlug : (after ++ (slug ++ (before ++ '[' :: front))).dropWhile Unicode.isBlank =
      slug ++ (before ++ '[' :: front) := by
    refine Text.dropWhile_append_of_boundary hafter fun c hc => ?_
    obtain ⟨first, rest, rfl⟩ := List.exists_cons_of_ne_nil hne
    cases hc
    exact (isSlugChar_iff.mp (hslug _ List.mem_cons_self)).2.2
  have htake : (slug ++ (before ++ '[' :: front)).takeWhile isSlugChar = slug := by
    refine Text.takeWhile_append_of_boundary hslug fun c hc => ?_
    -- Behind the slug comes a blank or the bracket, and neither is a part of it.
    cases before with
    | nil =>
      cases hc
      rfl
    | cons b before =>
      cases hc
      exact isSlugChar_of_isBlank (hbefore _ List.mem_cons_self)
  have hrest : (before ++ '[' :: front).dropWhile Unicode.isBlank = '[' :: front := by
    refine Text.dropWhile_append_of_boundary hbefore fun c hc => ?_
    cases hc
    decide
  unfold slugBackward?
  dsimp only
  rw [hfromSlug, htake, List.drop_left, hrest, if_neg (by simpa using hne)]
  simp [List.length_pos_iff]

/-- What is read backwards stands at the start of the reversed text. -/
theorem exists_of_slugBackward? {reversed slug front : Text} {gaps : Bool}
    (h : slugBackward? reversed = some (slug, gaps, front)) : ∃ after before,
      reversed = after ++ (slug.reverse ++ (before ++ front)) ∧ Blank after ∧ Blank before ∧
        slug ≠ [] ∧ (∀ c ∈ slug, isSlugChar c = true) ∧
        (gaps = true → after ≠ [] ∧ before ≠ []) := by
  unfold slugBackward? at h
  dsimp only at h
  split at h
  · cases h
  · next hne =>
    cases h
    -- The text is cut at three places, and each piece gets a name.
    generalize hfrom : reversed.dropWhile Unicode.isBlank = fromSlug at hne ⊢
    generalize hafterSlug : fromSlug.drop (fromSlug.takeWhile isSlugChar).length = afterSlug
    -- The three runs, from the end of the text to the brackets.
    have hblanks : reversed = reversed.takeWhile Unicode.isBlank ++ fromSlug := by
      rw [← hfrom, List.takeWhile_append_dropWhile]
    have hslug : fromSlug = fromSlug.takeWhile isSlugChar ++ afterSlug := by
      rw [← hafterSlug]
      exact (List.prefix_iff_eq_append.mp (List.takeWhile_prefix _)).symm
    have hbehind : afterSlug =
        afterSlug.takeWhile Unicode.isBlank ++ afterSlug.dropWhile Unicode.isBlank :=
      List.takeWhile_append_dropWhile.symm
    refine ⟨reversed.takeWhile Unicode.isBlank, afterSlug.takeWhile Unicode.isBlank, ?_,
      fun _ hc => List.mem_takeWhile_imp hc, fun _ hc => List.mem_takeWhile_imp hc, ?_, ?_, ?_⟩
    · rw [List.reverse_reverse, ← hbehind, ← hslug, ← hblanks]
    · simpa using hne
    · exact fun c hc => List.mem_takeWhile_imp (List.mem_reverse.mp hc)
    · -- A run that is empty would not make the text shorter.
      intro hgaps
      rw [Bool.and_eq_true, decide_eq_true_eq, decide_eq_true_eq] at hgaps
      constructor
      · intro hnil
        rw [hnil, List.nil_append] at hblanks
        rw [hblanks] at hgaps
        exact absurd hgaps.1 (Nat.lt_irrefl _)
      · intro hnil
        rw [hnil, List.nil_append] at hbehind
        rw [← hbehind] at hgaps
        exact absurd hgaps.2 (Nat.lt_irrefl _)

/-- A text that ends with a slug in brackets, turned around. -/
theorem reverse_append_spelled (front : Text) (x : SlugSuffix) :
    (front ++ x.spelled).reverse = x.brackets.closing ++ (x.after.reverse ++
      (x.slug.reverse ++ (x.before.reverse ++ (x.brackets.opening ++ front.reverse)))) := by
  -- Brackets of one kind read the same from both ends.
  have hopening : x.brackets.opening.reverse = x.brackets.opening := by
    cases x.brackets <;> rfl
  have hclosing : x.brackets.closing.reverse = x.brackets.closing := by
    cases x.brackets <;> rfl
  simp only [SlugSuffix.spelled, List.reverse_append, List.append_assoc, hopening, hclosing]

/-- What is read backwards between brackets is a suffix. -/
theorem exists_suffix_of_slugBackward? (brackets : Brackets) {text reversed behind slug : Text}
    {gaps : Bool} (hread : slugBackward? reversed = some (slug, gaps, brackets.opening ++ behind))
    (htext : text.reverse = brackets.closing ++ reversed)
    (hgaps : brackets = .single → gaps = true) :
    ∃ x : SlugSuffix, text = behind.reverse ++ x.spelled ∧ x.slug = slug := by
  obtain ⟨after, before, rfl, hafter, hbefore, hne, hplain, hspaced⟩ :=
    exists_of_slugBackward? hread
  let x : SlugSuffix :=
    { brackets, before := before.reverse, slug, after := after.reverse
      blank_before := hbefore.reverse
      blank_after := hafter.reverse
      spaced := fun hsingle => by simpa [and_comm] using hspaced (hgaps hsingle)
      slug_ne_nil := hne
      slug_plain := fun c hc => isSlugChar_iff.mp (hplain c hc) }
  refine ⟨x, ?_, rfl⟩
  rw [← List.reverse_inj, reverse_append_spelled, htext]
  simp [x]

/-- **The suffix is found exactly when there is one.** -/
theorem bracketedSlug?_eq_some_iff {text front slug : Text} :
    bracketedSlug? text = some (front, slug) ↔
      ∃ x : SlugSuffix, text = front ++ x.spelled ∧ x.slug = slug := by
  constructor
  · intro h
    unfold bracketedSlug? at h
    split at h
    -- Two closing brackets are looked for first, so the single ones come second.
    · next reversed htext =>
      split at h
      · next hread =>
        cases h
        exact exists_suffix_of_slugBackward? .double hread htext nofun
      · cases h
    · next reversed _ htext =>
      split at h
      · next hread =>
        cases h
        exact exists_suffix_of_slugBackward? .single hread htext fun _ => rfl
      · cases h
    · cases h
  · rintro ⟨x, rfl, rfl⟩
    -- Turned around, the slug has the same characters.
    have hslug : ∀ c ∈ x.slug.reverse, isSlugChar c = true := fun c hc =>
      isSlugChar_iff.mpr (x.slug_plain c (List.mem_reverse.mp hc))
    have hne : x.slug.reverse ≠ [] := by simpa using x.slug_ne_nil
    have hread := fun front => slugBackward?_append front x.blank_after.reverse hne hslug
      x.blank_before.reverse
    unfold bracketedSlug?
    rw [reverse_append_spelled]
    cases hbrackets : x.brackets with
    | double => simp [Brackets.opening, Brackets.closing, hread]
    | single =>
      -- The blank behind the slug tells the single bracket from the second one of two.
      obtain ⟨hbefore, hafter⟩ := x.spaced hbrackets
      obtain ⟨blank, rest, hcons⟩ := List.exists_cons_of_ne_nil (l := x.after.reverse) (by simpa)
      have hblank : blank ≠ ']' := by
        rintro rfl
        exact absurd (x.blank_after.reverse ']' (by simp [hcons])) (by decide)
      simp only [hcons, List.cons_append] at hread ⊢
      simp [Brackets.opening, Brackets.closing, hread, hblank, hbefore]

/-! ## Splitting -/

namespace SlugSuffix

variable (x : SlugSuffix)

theorem isBlank_head?_slug (rest : Text) :
    ∀ c ∈ (x.slug ++ rest).head?, Unicode.isBlank c = false := by
  obtain ⟨first, slug, hcons⟩ := List.exists_cons_of_ne_nil x.slug_ne_nil
  intro c hc
  rw [hcons] at hc
  cases hc
  exact (x.slug_plain first (by simp [hcons])).2.2

theorem isSlugChar_head?_after :
    ∀ c ∈ (x.after ++ x.brackets.closing).head?, isSlugChar c = false := by
  have hclosing : ∀ c ∈ x.brackets.closing.head?, isSlugChar c = false := by
    cases x.brackets <;> decide
  intro c hc
  -- The first character behind the slug belongs to the blanks or to the brackets.
  cases hafter : x.after with
  | nil =>
    rw [hafter] at hc
    exact hclosing c hc
  | cons blank after =>
    rw [hafter] at hc
    cases hc
    exact isSlugChar_of_isBlank (x.blank_after c (by simp [hafter]))

/-- Behind a single bracket stands a blank. -/
theorem isDouble_iff : x.brackets = .double ↔ ['[', '['] <+: x.spelled := by
  cases hbrackets : x.brackets with
  | double => simp [spelled, hbrackets, Brackets.opening]
  | single =>
    -- A single bracket has a blank behind it, so no second bracket follows.
    obtain ⟨blank, before, hcons⟩ := List.exists_cons_of_ne_nil (x.spaced hbrackets).1
    have hblank : blank ≠ '[' := by
      rintro rfl
      exact absurd (x.blank_before '[' (by simp [hcons])) (by decide)
    simp [spelled, hbrackets, Brackets.opening, hcons, hblank.symm]

/-- A suffix is spelled in one way only. -/
theorem spelled_injective : Function.Injective spelled := by
  intro x y h
  have hbrackets : x.brackets = y.brackets := by
    -- Whether the brackets are double is told by the text, so it is the same for both.
    have hdouble : x.brackets = .double ↔ y.brackets = .double := by
      rw [isDouble_iff, isDouble_iff, h]
    cases hx : x.brackets <;> cases hy : y.brackets <;> simp_all
  -- Between the same brackets, the three runs are cut one after another.
  have hclosing : ∀ c ∈ x.brackets.closing.head?, Unicode.isBlank c = false := by
    cases x.brackets <;> decide
  have hinner : x.before ++ (x.slug ++ (x.after ++ x.brackets.closing)) =
      y.before ++ (y.slug ++ (y.after ++ y.brackets.closing)) := by
    simpa [spelled, hbrackets] using h
  obtain ⟨hbefore, hrest⟩ := Text.run_append_inj hinner x.blank_before y.blank_before
    (x.isBlank_head?_slug _) (y.isBlank_head?_slug _)
  obtain ⟨hslug, hrest⟩ := Text.run_append_inj hrest
    (fun c hc => isSlugChar_iff.mpr (x.slug_plain c hc))
    (fun c hc => isSlugChar_iff.mpr (y.slug_plain c hc))
    x.isSlugChar_head?_after y.isSlugChar_head?_after
  obtain ⟨hafter, -⟩ := Text.run_append_inj hrest x.blank_after y.blank_after hclosing
    (hbrackets ▸ hclosing)
  exact SlugSuffix.ext hbrackets hbefore hslug hafter

end SlugSuffix

namespace AnchoredTitle

variable (x : AnchoredTitle)

theorem bracketedSlug?_spelled :
    bracketedSlug? x.spelled = some (x.title ++ x.gap, x.suffix.slug) :=
  bracketedSlug?_eq_some_iff.mpr ⟨x.suffix, rfl, rfl⟩

theorem trimEnd_front : Text.trimEnd (x.title ++ x.gap) = x.title :=
  Text.dropRightWhile_eq_iff.mpr ⟨x.gap, rfl, x.blank_gap, x.title_end⟩

/-- An anchored title is spelled in one way only. -/
theorem spelled_injective : Function.Injective spelled := by
  intro x y h
  -- Both suffixes are the one that is read, so the same text stands in front of them.
  have hfront : x.title ++ x.gap = y.title ++ y.gap := by
    have hx := x.bracketedSlug?_spelled
    rw [h, y.bracketedSlug?_spelled] at hx
    exact (congrArg Prod.fst (Option.some.inj hx)).symm
  have hsuffix : x.suffix = y.suffix := by
    unfold spelled at h
    rw [hfront] at h
    exact SlugSuffix.spelled_injective (List.append_cancel_left h)
  have htitle : x.title = y.title := by
    rw [← x.trimEnd_front, hfront, y.trimEnd_front]
  rw [htitle] at hfront
  exact AnchoredTitle.ext htitle (List.append_cancel_left hfront) hsuffix

end AnchoredTitle

/-- A text without an explicit slug is its own title. -/
theorem splitAnchor_eq_of_none {text : Text} (h : (splitAnchor text).2 = none) :
    splitAnchor text = (text, none) := by
  -- With a slug the second part would be there, unless the title has a line feed.
  unfold splitAnchor at h ⊢
  split
  · next front slug hread =>
    rw [hread] at h
    dsimp only at h ⊢
    split
    · rfl
    · next hline =>
      rw [if_neg hline] at h
      cases h
  · rfl

theorem splitAnchor_eq_some_iff {text title slug : Text} :
    splitAnchor text = (title, some slug) ↔
      ∃ x : AnchoredTitle, x.spelled = text ∧ x.title = title ∧ x.suffix.slug = slug := by
  unfold splitAnchor
  constructor
  · intro h
    split at h
    · next front slug' hread =>
      obtain ⟨suffix, rfl, rfl⟩ := bracketedSlug?_eq_some_iff.mp hread
      -- What is trimmed from the front is the gap.
      obtain ⟨gap, hgap, hblank, hend⟩ :=
        Text.dropRightWhile_eq_iff.mp (rfl : Text.trimEnd front = Text.trimEnd front)
      dsimp only at h
      split at h
      · cases h
      · next hline =>
        cases h
        refine ⟨⟨_, gap, suffix, ?_, hend, hblank⟩, ?_, rfl, rfl⟩
        · simpa using hline
        · rw [AnchoredTitle.spelled, ← hgap]
    · cases h
  · rintro ⟨x, rfl, rfl, rfl⟩
    -- Reading gives the parts, and trimming the front gives the title.
    rw [x.bracketedSlug?_spelled]
    dsimp only
    rw [x.trimEnd_front, if_neg (by simpa using x.newline_notMem)]

/-- **A heading text is split exactly when it spells a title with an anchor.**

The title and the slug are those of the anchored title that the text spells; no text spells two of
them; and a text that spells none is left whole. -/
theorem splitAnchor_reads_anchored_title (text : Text) :
    (∀ title slug, splitAnchor text = (title, some slug) ↔
      ∃ x : AnchoredTitle, x.spelled = text ∧ x.title = title ∧ x.suffix.slug = slug) ∧
    (∀ x y : AnchoredTitle, x.spelled = text → y.spelled = text → x = y) ∧
    (splitAnchor text = (text, none) ↔ ∀ x : AnchoredTitle, x.spelled ≠ text) := by
  refine ⟨fun title slug => splitAnchor_eq_some_iff, fun x y hx hy => ?_, fun h x hx => ?_,
    fun h => splitAnchor_eq_of_none ?_⟩
  · exact AnchoredTitle.spelled_injective (hx.trans hy.symm)
  · have hsplit := splitAnchor_eq_some_iff.mpr ⟨x, hx, rfl, rfl⟩
    rw [h] at hsplit
    cases hsplit
  -- If the text were split, it would spell what it is split into.
  · cases hsplit : splitAnchor text with
    | mk title explicit =>
      cases explicit with
      | none => rfl
      | some slug =>
        obtain ⟨x, hx, -⟩ := splitAnchor_eq_some_iff.mp hsplit
        exact absurd hx (h x)

/-- Only the last brackets count, and blanks are those of Unicode. -/
example : splitAnchor "Use [[a]]\n[[\u00a0b ]]".toList = ("Use [[a]]".toList, some "b".toList) ∧
    splitAnchor "Use [ a]".toList = ("Use [ a]".toList, none) := by
  decide

end DocPage.Outline
