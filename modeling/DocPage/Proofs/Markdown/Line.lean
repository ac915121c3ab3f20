import DocPage.Markdown.Lexical
import DocPage.Proofs.Text.Search
import Mathlib.Data.List.TakeWhile

/-!
# Laws of Markdown lines

A line of Markdown ends with a line feed, a carriage return, or both. `linesOf` gives the lines of a
text without their ends; proofs follow a text from line to line by `linesOf_induction`, as the
reader does with `splitLine`.

## Architecture

- **Line ends**: `LineEnding`, in front of any text
- **Lines**: `linesOf` and its induction principle
- **Reading a line**: `splitLine` and `normalizeLineEnd`
-/

namespace DocPage.Markdown

/-! ## Line ends -/

/-- No character of the text ends a line. -/
def OneLine (line : Text) : Prop := ∀ c ∈ line, isLineEnd c = false

/-- The first text ends a line in front of the second one. A carriage return takes the line feed
behind it along. -/
inductive LineEnding : (ending t : Text) → Prop where
  | feed {t : Text} : LineEnding ['\n'] t
  | both {t : Text} : LineEnding ['\r', '\n'] t
  | carriage {t : Text} : t.head? ≠ some '\n' → LineEnding ['\r'] t

variable {line ending t : Text}

theorem isLineEnd_eq_false_iff {c : Char} : isLineEnd c = false ↔ c ≠ '\n' ∧ c ≠ '\r' := by
  unfold isLineEnd
  rw [Bool.or_eq_false_iff, beq_eq_false_iff_ne, beq_eq_false_iff_ne]

/-- The text behind a line starts with its end. -/
theorem LineEnding.exists_cons (h : LineEnding ending t) :
    ∃ c behind, ending ++ t = c :: behind ∧ isLineEnd c = true := by
  cases h with
  | feed => exact ⟨'\n', t, rfl, rfl⟩
  | both => exact ⟨'\r', '\n' :: t, rfl, rfl⟩
  | carriage _ => exact ⟨'\r', t, rfl, rfl⟩

theorem lineEnd?_append (h : LineEnding ending t) :
    lineEnd? (ending ++ t) = some (ending.length, t) := by
  cases h with
  | feed => rfl
  | both => rfl
  | carriage hhead =>
    cases t with
    -- Nothing behind the carriage return, or a character that is no line feed.
    | nil => rfl
    | cons c t =>
      have hc : c ≠ '\n' := fun hc => hhead (congrArg some hc)
      simp [lineEnd?, hc]

/-- A line end stays one when the text behind it goes on. -/
theorem LineEnding.append (h : LineEnding ending t) (hlast : (ending ++ t).getLast? ≠ some '\r')
    (behind : Text) : LineEnding ending (t ++ behind) := by
  cases h with
  | feed => exact .feed
  | both => exact .both
  | carriage hhead =>
    cases t with
    -- With nothing behind it, the carriage return would be the last character of the whole.
    | nil => exact absurd rfl hlast
    | cons c t => exact .carriage hhead

theorem getLast?_ne_of_append {c : Char} {front t : Text} (h : (front ++ t).getLast? ≠ some c) :
    t.getLast? ≠ some c :=
  fun ht => h (by rw [List.getLast?_append, ht, Option.some_or])

theorem LineEnding.length_pos (h : LineEnding ending t) : 0 < ending.length := by
  cases h <;> exact Nat.zero_lt_succ _

/-- Every text is one line, or a line with its end and a shorter text. -/
theorem oneLine_or_exists_ending (t : Text) : OneLine t ∨
    ∃ line ending rest, t = line ++ (ending ++ rest) ∧ OneLine line ∧ LineEnding ending rest := by
  have hline : OneLine (t.takeWhile (!isLineEnd ·)) := fun c hc => by
    simpa using List.mem_takeWhile_imp hc
  have ht : t = t.takeWhile (!isLineEnd ·) ++ t.dropWhile (!isLineEnd ·) :=
    List.takeWhile_append_dropWhile.symm
  -- Either no character ends the line, or the first one that does is met.
  cases hrest : t.dropWhile (!isLineEnd ·) with
  | nil =>
    rw [hrest, List.append_nil] at ht
    rw [ht]
    exact .inl hline
  | cons c rest =>
    have hc : isLineEnd c = true := by
      have hhead := List.head?_dropWhile_not (!isLineEnd ·) t
      rw [hrest] at hhead
      simpa using hhead
    rw [hrest] at ht
    refine .inr ?_
    simp only [isLineEnd, Bool.or_eq_true, beq_iff_eq] at hc
    rcases hc with rfl | rfl
    · exact ⟨_, ['\n'], rest, ht, hline, .feed⟩
    -- A line feed behind the carriage return belongs to the same line end.
    · by_cases hfeed : rest.head? = some '\n'
      · obtain ⟨rest, rfl⟩ := List.head?_eq_some_iff.mp hfeed
        exact ⟨_, ['\r', '\n'], rest, ht, hline, .both⟩
      · exact ⟨_, ['\r'], rest, ht, hline, .carriage hfeed⟩

/-! ## Lines -/

/-- The lines of a text without their ends. Behind the last line end there is one more line, which
may be empty. -/
def linesOf : Text → List Text
  | [] => [[]]
  | '\r' :: '\n' :: t => [] :: linesOf t
  | c :: t =>
    if isLineEnd c then [] :: linesOf t
    else
      match linesOf t with
      | [] => [[c]]
      | line :: rest => (c :: line) :: rest

/-- Induction from line to line. -/
theorem linesOf_induction {motive : Text → Prop} (last : ∀ line, OneLine line → motive line)
    (cons : ∀ line ending t, OneLine line → LineEnding ending t → motive t →
      motive (line ++ (ending ++ t))) (t : Text) : motive t := by
  -- Each step takes a line with its end, so the induction is on the length.
  induction hlength : t.length using Nat.strong_induction_on generalizing t with
  | _ n ih =>
    subst hlength
    rcases oneLine_or_exists_ending t with hline | ⟨line, ending, rest, rfl, hline, hending⟩
    · exact last t hline
    · refine cons line ending rest hline hending (ih rest.length ?_ rest rfl)
      have hpos := hending.length_pos
      rw [List.length_append, List.length_append]
      omega

theorem linesOf_ne_nil (t : Text) : linesOf t ≠ [] := by
  fun_cases linesOf t <;> simp

/-- Characters in front of a text belong to its first line. -/
theorem linesOf_oneLine_append (hline : OneLine line) (t : Text) :
    linesOf (line ++ t) = (linesOf t).modifyHead (line ++ ·) := by
  -- There is always a first line to put the characters into.
  obtain ⟨first, lines, hlines⟩ := List.exists_cons_of_ne_nil (linesOf_ne_nil t)
  induction line with
  | nil =>
    rw [List.nil_append, hlines]
    rfl
  | cons c line ih =>
    obtain ⟨hc, hrest⟩ := List.forall_mem_cons.mp hline
    have hreturn : c ≠ '\r' := (isLineEnd_eq_false_iff.mp hc).2
    have hstep : linesOf (c :: (line ++ t)) = (linesOf (line ++ t)).modifyHead (c :: ·) := by
      rw [linesOf, if_neg (by rw [hc]; decide), ih hrest, hlines]
      · rfl
      · exact fun _ hfeed => absurd hfeed hreturn
    rw [List.cons_append, hstep, ih hrest, hlines]
    rfl

theorem linesOf_of_oneLine (hline : OneLine line) : linesOf line = [line] := by
  have h := linesOf_oneLine_append hline []
  rw [List.append_nil] at h
  rw [h]
  simp [linesOf]

theorem linesOf_append (hline : OneLine line) (h : LineEnding ending t) :
    linesOf (line ++ (ending ++ t)) = line :: linesOf t := by
  have hending : linesOf (ending ++ t) = [] :: linesOf t := by
    cases h with
    | feed => rfl
    | both => rfl
    | carriage hhead =>
      cases t with
      | nil => rfl
      -- A carriage return in front of another character ends a line by itself.
      | cons c t =>
        rw [List.singleton_append, linesOf, if_pos (show isLineEnd '\r' = true from rfl)]
        simpa using hhead
  rw [linesOf_oneLine_append hline, hending, List.modifyHead_cons, List.append_nil]

theorem length_linesOf_le (t : Text) : (linesOf t).length ≤ t.length + 1 := by
  induction t using linesOf_induction with
  | last line hline =>
    rw [linesOf_of_oneLine hline]
    exact Nat.le_add_left 1 line.length
  | cons line ending t hline hending ih =>
    have hpos := hending.length_pos
    rw [linesOf_append hline hending, List.length_cons, List.length_append, List.length_append]
    omega

/-- The lines on both sides of a line feed. -/
theorem linesOf_append_feed (hlast : t.getLast? ≠ some '\r') (behind : Text) :
    linesOf (t ++ '\n' :: behind) = linesOf t ++ linesOf behind := by
  induction t using linesOf_induction with
  | last line hline =>
    rw [linesOf_of_oneLine hline]
    exact linesOf_append hline .feed
  | cons line ending t hline hending ih =>
    -- What is known of the last character holds of what is left of the text as well.
    have hbehind : (ending ++ t).getLast? ≠ some '\r' := getLast?_ne_of_append hlast
    have hrest : t.getLast? ≠ some '\r' := getLast?_ne_of_append hbehind
    rw [List.append_assoc, List.append_assoc, linesOf_append hline hending,
      linesOf_append hline (hending.append hbehind _), ih hrest]
    rfl

/-! ## Reading a line -/

theorem lineBody_append (hline : OneLine line) (h : LineEnding ending t) :
    lineBody (line ++ (ending ++ t)) = line := by
  obtain ⟨c, behind, hbehind, hc⟩ := h.exists_cons
  refine Text.takeWhile_append_of_boundary (fun d hd => ?_) fun d hd => ?_
  · rw [hline d hd]
    rfl
  · rw [hbehind] at hd
    cases hd
    rw [hc]
    rfl

theorem splitLine_append (hline : OneLine line) (h : LineEnding ending t) :
    splitLine (line ++ (ending ++ t)) = (line ++ ending, t) := by
  unfold splitLine
  dsimp only
  rw [lineBody_append hline h, List.drop_left, lineEnd?_append h]
  dsimp only
  rw [← List.append_assoc, ← List.length_append, List.take_left]

/-- A line without a carriage return in front of its line feed is left alone. -/
theorem normalizeLineEnd_eq_self (h : ∀ body, t ≠ body ++ ['\r', '\n']) :
    normalizeLineEnd t = t := by
  unfold normalizeLineEnd
  split
  · next body hreverse =>
    have ht := congrArg List.reverse hreverse
    rw [List.reverse_reverse] at ht
    exact absurd (by simpa using ht) (h body.reverse)
  · rfl

theorem normalizeLineEnd_append_both (line : Text) :
    normalizeLineEnd (line ++ ['\r', '\n']) = line ++ ['\n'] := by
  simp [normalizeLineEnd]

/-- Where it is not in front of a line feed, a carriage return stays. -/
theorem normalizeLineEnd_append (hline : OneLine line) (h : LineEnding ending t) :
    normalizeLineEnd (line ++ ending) =
      line ++ if ending = ['\r', '\n'] then ['\n'] else ending := by
  cases h with
  | feed =>
    refine normalizeLineEnd_eq_self fun body hbody => ?_
    -- The character in front of the line feed would be a carriage return in the line.
    have hline' : line = body ++ ['\r'] := by
      have hinit := congrArg List.dropLast hbody
      simpa using hinit
    have hreturn := hline '\r' (by rw [hline']; simp)
    cases hreturn
  | both => exact normalizeLineEnd_append_both line
  | carriage _ =>
    refine normalizeLineEnd_eq_self fun body hbody => ?_
    have hlast := congrArg List.getLast? hbody
    simp at hlast

/-- Putting single line feeds in place of carriage returns with line feeds goes line by line. -/
theorem replace_lineEnds_append (hline : OneLine line) (h : LineEnding ending t) :
    Text.replace "\r\n" "\n" (line ++ (ending ++ t)) =
      normalizeLineEnd (line ++ ending) ++ Text.replace "\r\n" "\n" t := by
  -- Only a carriage return with a line feed behind it is replaced.
  have hcons : ∀ (c : Char) (rest : Text), (c = '\r' → rest.head? ≠ some '\n') →
      Text.replace "\r\n" "\n" (c :: rest) = c :: Text.replace "\r\n" "\n" rest := by
    intro c rest hnot
    refine Text.replace_cons ?_
    rintro ⟨tail, htail⟩
    obtain ⟨rfl, hrest⟩ := List.cons.inj (show '\r' :: '\n' :: tail = c :: rest from htail)
    exact hnot rfl (by rw [← hrest]; rfl)
  have hfront : Text.replace "\r\n" "\n" (line ++ (ending ++ t)) =
      line ++ Text.replace "\r\n" "\n" (ending ++ t) := by
    -- Only that the line has no carriage return matters, so what follows can be anything.
    generalize ending ++ t = rest
    induction line with
    | nil => rfl
    | cons c line ih =>
      obtain ⟨hc, hrest⟩ := List.forall_mem_cons.mp hline
      have hne : c ≠ '\r' := (isLineEnd_eq_false_iff.mp hc).2
      rw [List.cons_append, hcons c _ fun heq => absurd heq hne, ih hrest]
      rfl
  rw [hfront, normalizeLineEnd_append hline h, List.append_assoc]
  apply congrArg (line ++ ·)
  -- At its end a line has one of three ends, and only one of them is replaced.
  cases h with
  | feed => exact hcons '\n' t fun heq => absurd heq (by decide)
  | both => exact Text.replace_append (by decide) t
  | carriage hhead => exact hcons '\r' t fun _ => hhead

end DocPage.Markdown
