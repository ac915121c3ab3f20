import DocPage.Proofs.Document.Cleanup
import DocPage.Proofs.Text.Replace
import DocPage.Proofs.Text.Trim

/-!
# Doctests are cleaned line by line

The removal of doctest artifacts looks at one line at a time. In a line, every split marker loses
the prompt in front of it. If the line is then a prompt with code and a doctest flag behind it, the
flag goes, with all blanks and tabs around it. Since the code does not end in a blank, no line can
be cut in two ways.

## Architecture

- **Flags**: `WritesFlag` and `CutsTo` say what a flag is and what it stands behind
- **Reading backwards**: one lemma for each reader of `beforeFlag?`, and `beforeFlag?_eq_some_iff`
- **Lines**: `lineWise_cleanDoctests`, and `cleanDoctests_line` for a single line
-/

namespace DocPage.Document

/-! ## Flags -/

/-- Blanks and tabs, or nothing. -/
def IsSpacing (t : Text) : Prop := ∀ c ∈ t, c = ' ' ∨ c = '\t'

/-- A name of upper case letters and underscores. -/
def IsFlagName (t : Text) : Prop := t ≠ [] ∧ ∀ c ∈ t, ('A' ≤ c ∧ c ≤ 'Z') ∨ c = '_'

/-- A doctest flag from the gap behind the code to the end of the line. -/
inductive WritesFlag : Text → Prop where
  | intro {gap gap' name behind : Text} : gap ≠ [] → IsSpacing gap → gap' ≠ [] → IsSpacing gap' →
      IsFlagName name → IsSpacing behind →
      WritesFlag (gap ++ "# doctest:" ++ gap' ++ '+' :: name ++ behind)

/-- A prompt with code that does not end in a blank. -/
structure IsPromptCode (t : Text) : Prop where
  exists_code : ∃ code, code ≠ [] ∧ t = ">>>".toList ++ code
  last : ∀ c ∈ t.getLast?, Unicode.isBlank c = false

/-- The line is `kept` and a doctest flag behind it. -/
def CutsTo (line kept : Text) : Prop :=
  IsPromptCode kept ∧ ∃ flag, WritesFlag flag ∧ line = kept ++ flag

/-! ## Reading backwards -/

theorem isTabOrSpace_iff {c : Char} : isTabOrSpace c = true ↔ c = ' ' ∨ c = '\t' := by
  simp [isTabOrSpace]

theorem isSpacing_iff {t : Text} : IsSpacing t ↔ ∀ c ∈ t, isTabOrSpace c = true := by
  simp only [IsSpacing, isTabOrSpace_iff]

theorem isFlagChar_iff {c : Char} : isFlagChar c = true ↔ ('A' ≤ c ∧ c ≤ 'Z') ∨ c = '_' := by
  simp only [isFlagChar, Bool.or_eq_true, beq_iff_eq]
  apply or_congr_left
  show decide ('A'.val ≤ c.val ∧ c.val ≤ 'Z'.val) = true ↔ _
  rw [decide_eq_true_eq]
  rfl

theorem IsSpacing.reverse {t : Text} (h : IsSpacing t) : IsSpacing t.reverse :=
  fun c hc => h c (List.mem_reverse.mp hc)

theorem dropSpaces?_eq_some_iff {t rest : Text} : dropSpaces? t = some rest ↔
    ∃ gap, gap ≠ [] ∧ IsSpacing gap ∧ t = gap ++ rest ∧
      ∀ c ∈ rest.head?, isTabOrSpace c = false := by
  -- The gap is the longest run, so what is behind it does not start with spacing.
  constructor
  · intro h
    unfold dropSpaces? at h
    split at h
    · next c t =>
      split at h
      · next hc =>
        cases h
        refine ⟨c :: t.takeWhile isTabOrSpace, List.cons_ne_nil _ _, ?_, ?_,
          Text.head?_dropWhile_eq_false isTabOrSpace t⟩
        · exact isSpacing_iff.mpr
            (List.forall_mem_cons.mpr ⟨hc, fun d hd => List.mem_takeWhile_imp hd⟩)
        · rw [List.cons_append, List.takeWhile_append_dropWhile]
      · cases h
    · cases h
  · rintro ⟨gap, hne, hgap, rfl, hrest⟩
    obtain ⟨c, gap, rfl⟩ := List.exists_cons_of_ne_nil hne
    obtain ⟨hc, hgap⟩ := List.forall_mem_cons.mp (isSpacing_iff.mp hgap)
    show (if isTabOrSpace c then some ((gap ++ rest).dropWhile isTabOrSpace) else none) = some rest
    rw [if_pos hc, Text.dropWhile_append_of_boundary hgap hrest]

/-- Behind a character that is no blank or tab, a gap ends. -/
theorem isTabOrSpace_of_isBlank {c : Char} (h : Unicode.isBlank c = false) :
    isTabOrSpace c = false := by
  rw [← Bool.not_eq_true, isTabOrSpace_iff]
  -- Blanks and tabs are among the characters that code must not end in.
  rintro (rfl | rfl) <;> exact absurd h (by decide)

theorem isFlagChar_of_isTabOrSpace {c : Char} (h : isTabOrSpace c = true) :
    isFlagChar c = false := by
  rcases isTabOrSpace_iff.mp h with rfl | rfl <;> decide

/-- The longest run at the start of a text, and what `dropWhile` leaves behind it. -/
theorem exists_run_dropWhile (p : Char → Bool) (t : Text) :
    ∃ run, (∀ c ∈ run, p c = true) ∧ t = run ++ t.dropWhile p :=
  ⟨t.takeWhile p, fun _ hc => List.mem_takeWhile_imp hc, List.takeWhile_append_dropWhile.symm⟩

/-- A line with a flag, read from its end. -/
theorem reverse_of_flag (kept gap gap' name behind : Text) :
    (kept ++ (gap ++ "# doctest:" ++ gap' ++ '+' :: name ++ behind)).reverse =
      behind.reverse ++ (name.reverse ++ '+' :: (gap'.reverse ++
        ("# doctest:".toList.reverse ++ (gap.reverse ++ kept.reverse)))) := by
  simp

theorem cutsTo_of_beforeFlag? {line kept : Text} (h : beforeFlag? line = some kept) :
    CutsTo line kept := by
  -- Two runs are skipped before the readers start, so their texts are named first.
  obtain ⟨behind, hbehind, hline⟩ := exists_run_dropWhile isTabOrSpace line.reverse
  obtain ⟨name, hname, hreversed⟩ :=
    exists_run_dropWhile isFlagChar (line.reverse.dropWhile isTabOrSpace)
  unfold beforeFlag? at h
  simp only at h
  split at h
  · cases h
  -- Each reader that did not fail tells one part of the line.
  · next hlength =>
    obtain ⟨rest₁, h₁, h⟩ := Option.bind_eq_some_iff.mp h
    obtain ⟨rest₂, h₂, h⟩ := Option.bind_eq_some_iff.mp h
    obtain ⟨rest₃, h₃, h⟩ := Option.bind_eq_some_iff.mp h
    obtain ⟨rest₄, h₄, h⟩ := Option.bind_eq_some_iff.mp h
    obtain ⟨last, hlast, h⟩ := Option.bind_eq_some_iff.mp h
    obtain ⟨code, hcode, h⟩ := Option.bind_eq_some_iff.mp h
    split at h
    · cases h
    · next hends =>
      cases h
      rw [Bool.or_eq_true, not_or, Bool.not_eq_true, List.isEmpty_iff] at hends
      rw [Text.dropPrefix?_eq_some_iff] at h₁ h₃ hcode
      obtain ⟨gap', hne', hgap', rfl, -⟩ := dropSpaces?_eq_some_iff.mp h₂
      obtain ⟨gap, hne, hgap, rfl, -⟩ := dropSpaces?_eq_some_iff.mp h₄
      have hname' : name ≠ [] := by
        rintro rfl
        exact hlength (congrArg List.length hreversed).symm
      -- The parts that were read are the line from its end.
      have hparts : line = rest₄.reverse ++ (gap.reverse ++ "# doctest:" ++ gap'.reverse ++
          '+' :: name.reverse ++ behind.reverse) := by
        apply List.reverse_injective
        rw [reverse_of_flag, hline, hreversed, h₁, h₃]
        simp only [List.reverse_reverse, List.singleton_append]
      refine ⟨⟨⟨code, hends.2, hcode⟩, ?_⟩, _, .intro (List.reverse_ne_nil_iff.mpr hne) hgap.reverse
        (List.reverse_ne_nil_iff.mpr hne') hgap'.reverse
        ⟨List.reverse_ne_nil_iff.mpr hname', ?_⟩ (isSpacing_iff.mpr hbehind).reverse, hparts⟩
      · rw [List.getLast?_reverse, hlast]
        rintro c ⟨⟩
        exact hends.1
      · exact fun c hc => isFlagChar_iff.mp (hname c (List.mem_reverse.mp hc))

/-- The spacing at the end of a line ends at the name in front of it. -/
theorem dropWhile_spacing_append {behind name rest : Text} (hbehind : IsSpacing behind)
    (hname : IsFlagName name) :
    (behind.reverse ++ (name.reverse ++ rest)).dropWhile isTabOrSpace = name.reverse ++ rest := by
  apply Text.dropWhile_append_of_boundary (isSpacing_iff.mp hbehind.reverse)
  -- The first character of the reversed name is one of the name, and no name has spacing in it.
  obtain ⟨c, front, hfront⟩ := List.exists_cons_of_ne_nil (List.reverse_ne_nil_iff.mpr hname.1)
  have hmem : c ∈ name := List.mem_reverse.mp (hfront ▸ List.mem_cons_self)
  rw [hfront]
  rintro d ⟨⟩
  by_contra hspace
  rw [Bool.not_eq_false] at hspace
  have hnot := isFlagChar_of_isTabOrSpace hspace
  rw [isFlagChar_iff.mpr (hname.2 c hmem)] at hnot
  cases hnot

/-- The name ends at the plus sign in front of it. -/
theorem dropWhile_name_append {name : Text} (hname : IsFlagName name) (rest : Text) :
    (name.reverse ++ '+' :: rest).dropWhile isFlagChar = '+' :: rest := by
  apply Text.dropWhile_append_of_boundary
  · exact fun c hc => isFlagChar_iff.mpr (hname.2 c (List.mem_reverse.mp hc))
  · rintro c ⟨⟩
    rfl

/-- A gap ends at what is in front of it. -/
theorem dropSpaces?_gap_append {gap rest : Text} (hne : gap ≠ []) (hgap : IsSpacing gap)
    (hrest : ∀ c ∈ rest.head?, isTabOrSpace c = false) :
    dropSpaces? (gap.reverse ++ rest) = some rest :=
  dropSpaces?_eq_some_iff.mpr ⟨_, List.reverse_ne_nil_iff.mpr hne, hgap.reverse, rfl, hrest⟩

theorem beforeFlag?_of_cutsTo {line kept : Text} (h : CutsTo line kept) :
    beforeFlag? line = some kept := by
  obtain ⟨⟨⟨code, hcode, hkept⟩, hlast⟩, flag, hflag, rfl⟩ := h
  cases hflag with
  | @intro gap gap' name behind hne hgap hne' hgap' hname hbehind =>
    -- The last character of the code is what the gap is read up to.
    obtain ⟨last, front, hfront⟩ : ∃ last front, kept.reverse = last :: front := by
      apply List.exists_cons_of_ne_nil
      simp [hkept]
    have hends : Unicode.isBlank last = false := by
      apply hlast
      rw [← List.head?_reverse, hfront]
      rfl
    have hgapRead : dropSpaces? (gap.reverse ++ last :: front) = some (last :: front) := by
      refine dropSpaces?_gap_append hne hgap ?_
      rintro c ⟨⟩
      exact isTabOrSpace_of_isBlank hends
    have hgapRead' : ∀ rest, dropSpaces? (gap'.reverse ++ ("# doctest:".toList.reverse ++ rest)) =
        some ("# doctest:".toList.reverse ++ rest) := by
      intro rest
      refine dropSpaces?_gap_append hne' hgap' ?_
      rintro c ⟨⟩
      rfl
    have hcodeRead : Text.dropPrefix? ">>>" (last :: front).reverse = some code := by
      rw [← hfront, List.reverse_reverse, Text.dropPrefix?_eq_some_iff]
      exact hkept
    have hempty : ¬ (Unicode.isBlank last || code.isEmpty) = true := by
      simp [hends, hcode]
    -- The reader compares lengths to see that there was a name.
    have hlength : ∀ rest : Text, ('+' :: rest).length ≠ (name.reverse ++ '+' :: rest).length := by
      intro rest
      have hpos := List.length_pos_iff.mpr hname.1
      rw [List.length_append, List.length_reverse]
      omega
    have hplus : ∀ rest, Text.dropPrefix? ['+'] ('+' :: rest) = some rest :=
      Text.dropPrefix?_append ['+']
    -- With every reader settled, the whole function is run once.
    unfold beforeFlag?
    rw [reverse_of_flag, dropWhile_spacing_append hbehind hname, hfront]
    simp only [dropWhile_name_append hname, if_neg (hlength _), hplus, Option.bind_eq_bind,
      Option.bind_some, hgapRead', Text.dropPrefix?_append, hgapRead, List.head?_cons, hcodeRead,
      if_neg hempty]
    rw [← hfront, List.reverse_reverse]

/-- The reader of flags finds the code in front of a flag, and nothing else. -/
theorem beforeFlag?_eq_some_iff {line kept : Text} :
    beforeFlag? line = some kept ↔ CutsTo line kept :=
  ⟨cutsTo_of_beforeFlag?, beforeFlag?_of_cutsTo⟩

/-- No line can be cut in two ways. -/
theorem CutsTo.unique {line p q : Text} (hp : CutsTo line p) (hq : CutsTo line q) : p = q :=
  Option.some.inj ((beforeFlag?_of_cutsTo hp).symm.trans (beforeFlag?_of_cutsTo hq))

/-! ## Lines -/

theorem lineWise_dropFlags : Text.LineWise (Text.mapLines dropFlag) :=
  Text.lineWise_mapLines fun line hline hmem => hline ((prefix_of_dropFlag line).subset hmem)

theorem lineWise_cleanDoctests : Text.LineWise cleanDoctests :=
  lineWise_dropFlags.comp (Text.lineWise_replace (by decide) (by decide) (by decide))

/-- The text `bare` is `marked` with every marker behind a prompt replaced by the marker alone. -/
def BaresMarkers (marked bare : Text) : Prop :=
  ∃ part parts, (∀ p ∈ part :: parts, ¬ ">>> # ===PT-TF-SPLIT===".toList <:+: p) ∧
    marked = Text.join ">>> # ===PT-TF-SPLIT===" (part :: parts) ∧
    bare = Text.join "===PT-TF-SPLIT===" (part :: parts)

/-- The line with its markers bare. -/
def bareLine (line : Text) : Text :=
  Text.replace ">>> # ===PT-TF-SPLIT===" "===PT-TF-SPLIT===" line

theorem baresMarkers_bareLine (line : Text) : BaresMarkers line (bareLine line) :=
  Text.exists_parts_of_replace (by decide) _ line

theorem cleanDoctests_line {line : Text} (h : '\n' ∉ line) :
    cleanDoctests line = dropFlag (bareLine line) :=
  -- A single line is read as the text of one line, and its markers bring no line feed.
  Text.mapLines_of_notMem dropFlag
    (Text.notMem_replace (by decide : ">>> # ===PT-TF-SPLIT===".toList ≠ []) (by decide) h)

theorem dropFlag_cases (line : Text) :
    (CutsTo line (dropFlag line) ∧ ∀ q, CutsTo line q → q.length ≤ (dropFlag line).length) ∨
      (∀ p, ¬ CutsTo line p) ∧ dropFlag line = line := by
  unfold dropFlag
  cases hcut : beforeFlag? line with
  | some kept =>
    have hkept := beforeFlag?_eq_some_iff.mp hcut
    -- There is only one way to cut, so it is the longest one as well.
    exact .inl ⟨hkept, fun q hq => (congrArg List.length (hq.unique hkept)).le⟩
  | none =>
    refine .inr ⟨fun p hp => ?_, rfl⟩
    rw [beforeFlag?_of_cutsTo hp] at hcut
    cases hcut

/-- **Doctest artifacts are removed line by line.**

A line feed stays between what becomes of the texts around it, so the lines of a cleaned source are
the cleaned lines of the source. In a line, first every marker behind a prompt becomes the marker
alone. Then the line is cut to the longest prompt with code behind which a doctest flag stands, and
it is left as it is when there is none. -/
theorem doctests_cleaned_line_by_line :
    (∀ a b, cleanDoctests (a ++ '\n' :: b) = cleanDoctests a ++ '\n' :: cleanDoctests b) ∧
    (∀ t, (cleanDoctests t).count '\n' = t.count '\n' ∧
      Text.splitAll '\n' (cleanDoctests t) = (Text.splitAll '\n' t).map cleanDoctests) ∧
    ∀ line, '\n' ∉ line → BaresMarkers line (bareLine line) ∧
      ((CutsTo (bareLine line) (cleanDoctests line) ∧
          ∀ q, CutsTo (bareLine line) q → q.length ≤ (cleanDoctests line).length) ∨
        (∀ p, ¬ CutsTo (bareLine line) p) ∧ cleanDoctests line = bareLine line) := by
  refine ⟨lineWise_cleanDoctests.append, fun t => ?_, fun line hline => ?_⟩
  · exact ⟨lineWise_cleanDoctests.count_eq t, lineWise_cleanDoctests.splitAll_eq t⟩
  · rw [cleanDoctests_line hline]
    exact ⟨baresMarkers_bareLine line, dropFlag_cases (bareLine line)⟩

/-- A prompt with a marker behind its code and a flag behind the marker. -/
def flaggedLine : Text :=
  ">>> f(x) >>> # ===PT-TF-SPLIT===\t # doctest: \t+SKIP_ALL "

theorem flaggedLine_cleaned :
    '\n' ∉ flaggedLine ∧ cleanDoctests flaggedLine = ">>> f(x) ===PT-TF-SPLIT===".toList ∧
    CutsTo (bareLine flaggedLine) ">>> f(x) ===PT-TF-SPLIT===" := by
  have hcleaned : cleanDoctests flaggedLine = ">>> f(x) ===PT-TF-SPLIT===".toList := by
    decide +kernel
  obtain ⟨-, -, hline⟩ := doctests_cleaned_line_by_line
  obtain ⟨-, ⟨hcut, -⟩ | ⟨hnone, hsame⟩⟩ := hline flaggedLine (by decide)
  · rw [hcleaned] at hcut
    exact ⟨by decide, hcleaned, hcut⟩
  · -- The line was not left as it is.
    rw [hcleaned] at hsame
    exact absurd hsame (by decide +kernel)

end DocPage.Document
