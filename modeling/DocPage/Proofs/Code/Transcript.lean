import DocPage.Code.Prompt
import DocPage.Proofs.Text.Lines

/-!
# What is copied from a transcript

An input line of a transcript starts with a prompt, and what is typed stands behind the prompt and
one blank; every other line is output. The copy of a transcript has one line for each input line, in
order, and no other line. Code in which no line starts with the prompt is copied as it is.

## Architecture

- **Lines**: `IsInput` and `IsOutput`, which `typed?` tells apart
- **Transcripts**: `Copies`, line by line, and `IsCopy`, for the text that is copied
-/

namespace DocPage.Code

/-! ## Lines -/

/-- The line is input: what is typed stands behind a prompt and at most one blank. -/
def IsInput (line typed : Text) : Prop :=
  ∃ mark ∈ [prompt, continuation],
    line = mark ++ ' ' :: typed ∨ (line = mark ++ typed ∧ typed.head? ≠ some ' ')

def IsOutput (line : Text) : Prop := ∀ mark ∈ [prompt, continuation], ¬ mark <+: line

/-- One blank behind a prompt does not belong to what is typed. -/
theorem dropBlank_eq_iff {rest typed : Text} :
    (Text.dropPrefix? " " rest).getD rest = typed ↔
      rest = ' ' :: typed ∨ (rest = typed ∧ typed.head? ≠ some ' ') := by
  -- Whether a blank follows the prompt decides how the rest was written.
  by_cases hblank : rest.head? = some ' '
  · obtain ⟨rest, rfl⟩ : ∃ tail, rest = ' ' :: tail := List.head?_eq_some_iff.mp hblank
    have hdropped : Text.dropPrefix? " " (' ' :: rest) = some rest :=
      Text.dropPrefix?_append [' '] rest
    rw [hdropped]
    constructor
    · rintro rfl
      exact .inl rfl
    · rintro (h | ⟨rfl, h⟩)
      · exact (List.cons.inj h).2
      · exact absurd rfl h
  · have hnone : Text.dropPrefix? " " rest = none := by
      rw [Text.dropPrefix?_eq_none_iff]
      rintro ⟨tail, rfl⟩
      exact hblank rfl
    rw [hnone]
    constructor
    · rintro rfl
      exact .inr ⟨rfl, hblank⟩
    · rintro (rfl | ⟨rfl, -⟩)
      · exact absurd rfl hblank
      · rfl

theorem typed?_append {mark : Text} (hmark : mark ∈ [prompt, continuation]) (rest : Text) :
    typed? (mark ++ rest) = some ((Text.dropPrefix? " " rest).getD rest) := by
  unfold typed?
  rcases List.mem_pair.mp hmark with rfl | rfl
  · rw [Text.dropPrefix?_append]
    rfl
  -- The second prompt does not begin as the first one does.
  · have hnone : Text.dropPrefix? prompt (continuation ++ rest) = none := rfl
    rw [hnone, Text.dropPrefix?_append]
    rfl

theorem typed?_of_isOutput {line : Text} (h : IsOutput line) : typed? line = none := by
  unfold typed?
  rw [Text.dropPrefix?_eq_none_iff.mpr (h prompt (by simp)),
    Text.dropPrefix?_eq_none_iff.mpr (h continuation (by simp))]
  rfl

theorem isOutput_or_exists_mark (line : Text) :
    IsOutput line ∨ ∃ mark ∈ [prompt, continuation], ∃ rest, line = mark ++ rest := by
  rw [or_iff_not_imp_left]
  -- Some prompt starts the line, and it can be named.
  intro h
  unfold IsOutput at h
  push Not at h
  obtain ⟨mark, hmark, rest, hline⟩ := h
  exact ⟨mark, hmark, rest, hline.symm⟩

theorem typed?_eq_some_iff {line typed : Text} : typed? line = some typed ↔ IsInput line typed := by
  constructor
  · intro h
    rcases isOutput_or_exists_mark line with houtput | ⟨mark, hmark, rest, rfl⟩
    · rw [typed?_of_isOutput houtput] at h
      cases h
    -- Both sides start with the same prompt, so only what is behind it is compared.
    · rw [typed?_append hmark, Option.some.injEq, dropBlank_eq_iff] at h
      refine ⟨mark, hmark, h.imp ?_ ?_⟩
      · rintro rfl
        rfl
      · rintro ⟨rfl, hhead⟩
        exact ⟨rfl, hhead⟩
  · rintro ⟨mark, hmark, rfl | ⟨rfl, hhead⟩⟩
    · rw [typed?_append hmark, dropBlank_eq_iff.mpr (.inl rfl)]
    · rw [typed?_append hmark, dropBlank_eq_iff.mpr (.inr ⟨rfl, hhead⟩)]

theorem typed?_eq_none_iff {line : Text} : typed? line = none ↔ IsOutput line := by
  refine ⟨fun h => ?_, typed?_of_isOutput⟩
  rcases isOutput_or_exists_mark line with houtput | ⟨mark, hmark, rest, rfl⟩
  · exact houtput
  · rw [typed?_append hmark] at h
    cases h

/-! ## Transcripts -/

/-- The second list has what is typed in the input lines of the first one, in order. -/
inductive Copies : List Text → List Text → Prop where
  | nil : Copies [] []
  | input {line typed : Text} {lines copied : List Text} :
      IsInput line typed → Copies lines copied → Copies (line :: lines) (typed :: copied)
  | output {line : Text} {lines copied : List Text} :
      IsOutput line → Copies lines copied → Copies (line :: lines) copied

theorem copies_filterMap (lines : List Text) : Copies lines (lines.filterMap typed?) := by
  induction lines with
  | nil => exact .nil
  | cons line lines ih =>
    -- Each line is input or output, and the reader tells which.
    cases htyped : typed? line with
    | none =>
      rw [List.filterMap_cons_none htyped]
      exact .output (typed?_eq_none_iff.mp htyped) ih
    | some typed =>
      rw [List.filterMap_cons_some htyped]
      exact .input (typed?_eq_some_iff.mp htyped) ih

/-- What is typed in a line stands in it. -/
theorem IsInput.suffix {line typed : Text} (h : IsInput line typed) : typed <:+ line := by
  obtain ⟨mark, -, rfl | ⟨rfl, -⟩⟩ := h
  · exact ⟨mark ++ [' '], by simp⟩
  · exact List.suffix_append mark typed

theorem Copies.notMem {c : Char} {lines copied : List Text} (h : Copies lines copied)
    (hlines : ∀ line ∈ lines, c ∉ line) : ∀ typed ∈ copied, c ∉ typed := by
  induction h with
  | nil => exact hlines
  | input hinput _ ih =>
    obtain ⟨hline, hrest⟩ := List.forall_mem_cons.mp hlines
    exact List.forall_mem_cons.mpr ⟨fun hmem => hline (hinput.suffix.subset hmem), ih hrest⟩
  | output _ _ ih => exact ih (List.forall_mem_cons.mp hlines).2

/-- A line that starts with the prompt is copied. -/
theorem Copies.ne_nil {line : Text} {lines copied : List Text} (h : Copies lines copied)
    (hmem : line ∈ lines) (hprompt : prompt <+: line) : copied ≠ [] := by
  -- The prompt is in one of the lines, and no line that is output starts with it.
  induction h with
  | nil => cases hmem
  | input => exact List.cons_ne_nil _ _
  | output houtput _ ih =>
    rcases List.mem_cons.mp hmem with rfl | hmem
    · exact absurd hprompt (houtput prompt (by simp))
    · exact ih hmem

/-- What is copied of code: all of it when no line starts with the prompt. Otherwise it is what is
typed in the input lines, in order, each on a line of its own, and no other line. -/
def IsCopy (code copied : Text) : Prop :=
  ((∀ line ∈ Text.lines code, ¬ prompt <+: line) ∧ copied = code) ∨
  ((∃ line ∈ Text.lines code, prompt <+: line) ∧ ∃ typed, Copies (Text.lines code) typed ∧
    copied = Text.join ['\n'] typed ∧ Text.splitAll '\n' copied = typed)

theorem isCopy_typedInput (code : Text) : IsCopy code (typedInput code) := by
  unfold typedInput
  -- One prompt anywhere makes the code a transcript.
  by_cases hprompt : (Text.lines code).any (Text.startsWith prompt) = true
  · have hlines := copies_filterMap (Text.lines code)
    rw [if_pos hprompt]
    obtain ⟨line, hmem, hline⟩ := List.any_eq_true.mp hprompt
    rw [Text.startsWith_iff] at hline
    refine .inr ⟨⟨line, hmem, hline⟩, _, hlines, rfl, ?_⟩
    -- The typed lines hold no line feed, so they are the lines of the joined text.
    exact Text.splitAll_join (hlines.ne_nil hmem hline)
      (hlines.notMem fun _ h => Text.newline_notMem_of_mem_lines h)
  · rw [if_neg hprompt]
    refine .inl ⟨fun line hmem hline => hprompt ?_, rfl⟩
    exact List.any_eq_true.mpr ⟨line, hmem, Text.startsWith_iff.mpr hline⟩

/-- Behind the prompt only one blank is dropped, and the output is not copied. -/
example : typedInput ">>> f(\n...   x)\n1\n>>>y".toList = "f(\n  x)\ny".toList := by
  decide +kernel

end DocPage.Code
