import DocPage.Proofs.Text.Search

/-!
# Laws of lines

A line ends with its only line feed; the last line of a text may have none. This determines the
lines of a text, and proofs about lines go by `lines_induction`, which follows a text from line to
line. Texts without line feeds that are joined by them come back as they were.

## Architecture

- **Lines with their ends**: `InLines`, and `linesKeepEnds` as the lines of a text
- **Joined lines**: `splitAll` undoes `join`
- **Line by line**: `LineWise`, for functions that take the lines of a text one by one
-/

namespace DocPage.Text

/-! ## Lines with their ends -/

/-- The text is these lines in a row. Each ends with its only line feed, but the last one may have
none. -/
inductive InLines : Text → List Text → Prop where
  | nil : InLines [] []
  | last {line : Text} : line ≠ [] → '\n' ∉ line → InLines line [line]
  | cons {line t : Text} {ls : List Text} : '\n' ∉ line → InLines t ls →
      InLines (line ++ '\n' :: t) ((line ++ ['\n']) :: ls)

/-- Induction from line to line. -/
theorem lines_induction {motive : Text → Prop} (nil : motive [])
    (last : ∀ line, line ≠ [] → '\n' ∉ line → motive line)
    (cons : ∀ line t, '\n' ∉ line → motive t → motive (line ++ '\n' :: t)) (t : Text) :
    motive t := by
  -- The rest behind a line feed is shorter, so the induction is on the length.
  induction hlength : t.length using Nat.strong_induction_on generalizing t with
  | _ n ih =>
    subst hlength
    by_cases hfeed : '\n' ∈ t
    · obtain ⟨line, rest, rfl, hline⟩ := List.eq_append_cons_of_mem hfeed
      refine cons line rest hline (ih rest.length ?_ rest rfl)
      simp only [List.length_append, List.length_cons]
      omega
    · by_cases hne : t = []
      · rw [hne]
        exact nil
      · exact last t hne hfeed

theorem linesKeepEnds_of_notMem {line : Text} (hne : line ≠ []) (hline : '\n' ∉ line) :
    linesKeepEnds line = [line] := by
  -- No character on the way is a line feed.
  induction line with
  | nil => exact absurd rfl hne
  | cons c line ih =>
    obtain ⟨hc, hrest⟩ := List.ne_and_not_mem_of_not_mem_cons hline
    rw [linesKeepEnds, if_neg (Ne.symm hc)]
    cases line with
    | nil => rfl
    | cons d line => rw [ih (List.cons_ne_nil d line) hrest]

theorem linesKeepEnds_append {line : Text} (hline : '\n' ∉ line) (t : Text) :
    linesKeepEnds (line ++ '\n' :: t) = (line ++ ['\n']) :: linesKeepEnds t := by
  -- Up to the line feed, each character goes to the first line.
  induction line with
  | nil => rfl
  | cons c line ih =>
    obtain ⟨hc, hrest⟩ := List.ne_and_not_mem_of_not_mem_cons hline
    rw [List.cons_append, linesKeepEnds, if_neg (Ne.symm hc), ih hrest]
    rfl

theorem inLines_linesKeepEnds (t : Text) : InLines t (linesKeepEnds t) := by
  induction t using lines_induction with
  | nil => exact .nil
  | last line hne hline =>
    rw [linesKeepEnds_of_notMem hne hline]
    exact .last hne hline
  | cons line t hline ih =>
    rw [linesKeepEnds_append hline]
    exact .cons hline ih

/-- A line has no line feed but the one that ends it. -/
theorem InLines.notMem_dropLast {t : Text} {ls : List Text} (h : InLines t ls) :
    ∀ line ∈ ls, '\n' ∉ line.dropLast := by
  induction h with
  | nil => exact fun _ hmem => nomatch hmem
  | last _ hline =>
    intro line hmem
    rw [List.mem_singleton.mp hmem]
    exact fun hfeed => hline (List.mem_of_mem_dropLast hfeed)
  | cons hline _ ih =>
    refine List.forall_mem_cons.mpr ⟨?_, ih⟩
    rwa [List.dropLast_concat]

theorem newline_notMem_dropLineEnd {line : Text} (h : '\n' ∉ line.dropLast) :
    '\n' ∉ dropLineEnd line := by
  unfold dropLineEnd
  split
  · next body hfeed =>
    -- The line ends with a feed, and a return in front of it goes as well.
    rw [dropSuffix?_eq_some_iff] at hfeed
    rw [hfeed, List.dropLast_concat] at h
    cases hreturn : dropSuffix? ['\r'] body with
    | none => exact h
    | some front =>
      rw [dropSuffix?_eq_some_iff] at hreturn
      exact fun hmem => h (hreturn ▸ List.mem_append_left _ hmem)
  · next hnone =>
    -- A line feed would be the last character, and end the line.
    intro hmem
    have hne : line ≠ [] := List.ne_nil_of_mem hmem
    rw [← List.dropLast_concat_getLast hne, List.mem_append, List.mem_singleton] at hmem
    have hlast := hmem.resolve_left h
    have hsome : dropSuffix? ['\n'] line = some line.dropLast := by
      rw [dropSuffix?_eq_some_iff, hlast, List.dropLast_concat_getLast hne]
    rw [hnone] at hsome
    cases hsome

/-- A line without its end has no line feed. -/
theorem newline_notMem_of_mem_lines {t line : Text} (h : line ∈ lines t) : '\n' ∉ line := by
  -- A line is one that kept its end, without that end.
  obtain ⟨kept, hkept, rfl⟩ := List.mem_map.mp h
  exact newline_notMem_dropLineEnd ((inLines_linesKeepEnds t).notMem_dropLast kept hkept)

/-! ## Joined lines -/

theorem splitAll_of_notMem {sep : Char} {t : Text} (h : sep ∉ t) : splitAll sep t = [t] := by
  induction t with
  | nil => rfl
  | cons c t ih =>
    obtain ⟨hc, hrest⟩ := List.ne_and_not_mem_of_not_mem_cons h
    rw [splitAll, if_neg (Ne.symm hc), ih hrest]

theorem splitAll_append {sep : Char} {part : Text} (h : sep ∉ part) (t : Text) :
    splitAll sep (part ++ sep :: t) = part :: splitAll sep t := by
  induction part with
  | nil => rw [List.nil_append, splitAll, if_pos rfl]
  | cons c part ih =>
    obtain ⟨hc, hrest⟩ := List.ne_and_not_mem_of_not_mem_cons h
    rw [List.cons_append, splitAll, if_neg (Ne.symm hc), ih hrest]

theorem join_cons_cons (sep part next : Text) (rest : List Text) :
    join sep (part :: next :: rest) = part ++ sep ++ join sep (next :: rest) := rfl

/-- Parts without the separator come back from the text in which it joins them. -/
theorem splitAll_join {sep : Char} {parts : List Text} (hne : parts ≠ [])
    (h : ∀ part ∈ parts, sep ∉ part) : splitAll sep (join [sep] parts) = parts := by
  -- Each separator is put back by the text behind it.
  induction parts with
  | nil => exact absurd rfl hne
  | cons part parts ih =>
    obtain ⟨hpart, hrest⟩ := List.forall_mem_cons.mp h
    cases parts with
    | nil => exact splitAll_of_notMem hpart
    | cons next rest =>
      rw [join_cons_cons, List.append_assoc, List.singleton_append, splitAll_append hpart,
        ih (List.cons_ne_nil next rest) hrest]

/-! ## Line by line -/

theorem splitAll_ne_nil (sep : Char) (t : Text) : splitAll sep t ≠ [] := by
  cases t with
  | nil => exact List.cons_ne_nil [] []
  | cons c t =>
    unfold splitAll
    split
    · exact List.cons_ne_nil _ _
    · split <;> exact List.cons_ne_nil _ _

theorem splitAll_append_cons (sep : Char) (a b : Text) :
    splitAll sep (a ++ sep :: b) = splitAll sep a ++ splitAll sep b := by
  induction a with
  | nil => exact splitAll_append List.not_mem_nil b
  -- The first part of the text grows character by character, and the rest is the same.
  | cons c a ih =>
    obtain ⟨part, rest, ha⟩ := List.exists_cons_of_ne_nil (splitAll_ne_nil sep a)
    rw [List.cons_append, splitAll, splitAll, ih, ha]
    split <;> rfl

theorem notMem_of_mem_splitAll {sep : Char} {t part : Text} (h : part ∈ splitAll sep t) :
    sep ∉ part := by
  induction t generalizing part with
  | nil => simp_all [splitAll]
  -- The first part in the text behind takes the next character, unless it is the separator.
  | cons c t ih =>
    obtain ⟨first, rest, ht⟩ := List.exists_cons_of_ne_nil (splitAll_ne_nil sep t)
    rw [ht] at ih
    obtain ⟨hfirst, hrest⟩ := List.forall_mem_cons.mp fun p (hp : p ∈ first :: rest) => ih hp
    rw [splitAll, ht] at h
    split at h
    · rcases List.mem_cons.mp h with rfl | hmem
      · exact List.not_mem_nil
      · exact ih hmem
    · next hc =>
      rcases List.mem_cons.mp h with rfl | hmem
      · exact List.not_mem_cons_of_ne_of_not_mem (Ne.symm hc) hfirst
      · exact hrest part hmem

/-- The parts between separators stand in the text, and the first one at its start. -/
theorem infix_of_mem_splitAll {sep : Char} {t : Text} :
    (∀ part ∈ (splitAll sep t).head?, part <+: t) ∧
      ∀ part ∈ splitAll sep t, part <:+: t := by
  induction t with
  | nil => simp [splitAll]
  | cons c t ih =>
    obtain ⟨hfirst, hparts⟩ := ih
    have hlater : ∀ part, part <:+: t → part <:+: c :: t :=
      fun part h => h.trans (List.suffix_cons c t).isInfix
    unfold splitAll
    split
    -- A separator starts a new part, which is empty.
    · simpa using fun part hpart => hlater part (hparts part hpart)
    · cases hsplit : splitAll sep t with
      | nil =>
        have hsingle : [c] <+: c :: t := List.cons_prefix_cons.mpr ⟨rfl, List.nil_prefix⟩
        simpa using hsingle.isInfix
      | cons part rest =>
        rw [hsplit] at hfirst hparts
        -- The first part is longer by one character, and it still starts the text.
        have hextended : c :: part <+: c :: t := List.cons_prefix_cons.mpr ⟨rfl, hfirst part rfl⟩
        refine ⟨by simpa using hextended, List.forall_mem_cons.mpr ⟨hextended.isInfix, ?_⟩⟩
        exact fun part' h => hlater part' (hparts part' (List.mem_cons_of_mem part h))

theorem join_append (sep : Text) {xs ys : List Text} (hxs : xs ≠ []) (hys : ys ≠ []) :
    join sep (xs ++ ys) = join sep xs ++ sep ++ join sep ys := by
  -- By induction on the first list, up to its last part.
  induction xs with
  | nil => exact absurd rfl hxs
  | cons x xs ih =>
    obtain ⟨y, ys, rfl⟩ := List.exists_cons_of_ne_nil hys
    cases xs with
    | nil => rfl
    | cons x' xs =>
      have hrest := ih (List.cons_ne_nil x' xs)
      rw [List.cons_append] at hrest
      rw [List.cons_append, List.cons_append, join_cons_cons, hrest, join_cons_cons]
      simp only [List.append_assoc]

/-- The function takes the lines of a text one by one: a line feed stays between what becomes of the
texts around it, and no line becomes two. -/
structure LineWise (f : Text → Text) : Prop where
  append : ∀ a b, f (a ++ '\n' :: b) = f a ++ '\n' :: f b
  notMem : ∀ line, '\n' ∉ line → '\n' ∉ f line

namespace LineWise

variable {f g : Text → Text}

theorem comp (hg : LineWise g) (hf : LineWise f) : LineWise (g ∘ f) where
  append a b := by simp only [Function.comp_apply, hf.append, hg.append]
  notMem line hline := hg.notMem _ (hf.notMem line hline)

/-- The lines of what becomes of a text are what becomes of its lines. -/
theorem splitAll_eq (h : LineWise f) (t : Text) :
    splitAll '\n' (f t) = (splitAll '\n' t).map f := by
  -- Within a line there is nothing to split, before and after.
  have hline : ∀ line, '\n' ∉ line → splitAll '\n' (f line) = (splitAll '\n' line).map f := by
    intro line hline
    rw [splitAll_of_notMem hline, splitAll_of_notMem (h.notMem line hline)]
    rfl
  induction t using lines_induction with
  | nil => exact hline [] List.not_mem_nil
  | last line _ hnotMem => exact hline line hnotMem
  | cons line t hnotMem ih =>
    rw [h.append, splitAll_append hnotMem, splitAll_append (h.notMem line hnotMem), ih]
    rfl

theorem count_eq (h : LineWise f) (t : Text) : (f t).count '\n' = t.count '\n' := by
  -- A line has no feed, and what becomes of it has none.
  have hline : ∀ line, '\n' ∉ line → (f line).count '\n' = line.count '\n' := by
    intro line hline
    rw [List.count_eq_zero_of_not_mem hline, List.count_eq_zero_of_not_mem (h.notMem line hline)]
  induction t using lines_induction with
  | nil => exact hline [] List.not_mem_nil
  | last line _ hnotMem => exact hline line hnotMem
  | cons line t hnotMem ih =>
    rw [h.append, List.count_append, List.count_append, List.count_cons, List.count_cons,
      hline line hnotMem, ih]

end LineWise

theorem mapLines_of_notMem (f : Text → Text) {line : Text} (h : '\n' ∉ line) :
    mapLines f line = f line := by
  unfold mapLines
  rw [splitAll_of_notMem h]
  rfl

theorem lineWise_mapLines {f : Text → Text} (h : ∀ line, '\n' ∉ line → '\n' ∉ f line) :
    LineWise (mapLines f) where
  append a b := by
    -- Splitting gives at least one part, so the two lists can be joined.
    have hne : ∀ t, (splitAll '\n' t).map f ≠ [] :=
      fun t => mt List.map_eq_nil_iff.mp (splitAll_ne_nil '\n' t)
    unfold mapLines
    rw [splitAll_append_cons, List.map_append, join_append ['\n'] (hne a) (hne b),
      List.append_assoc, List.singleton_append]
  notMem line hline := by
    rw [mapLines_of_notMem f hline]
    exact h line hline

end DocPage.Text
