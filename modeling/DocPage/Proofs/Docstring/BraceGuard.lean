import DocPage.Document.DocstringTag
import DocPage.Proofs.Document.Cleanup

/-!
# Closing braces in parameter lists

Before a parameter list is rendered, a separator is put between neighbouring closing braces. The
braces are taken in pairs from the left, so two braces are kept apart, but a third one in a row
still meets the brace in front of it. The guarded text never has three in a row, and it has two
exactly if the text had three. Without the separators it is the text again.

## Architecture

- **Pairs**: one equation for each way in which the guard goes on, and the induction over them
- **Rows of braces**: `HasBraces`, and which rows are left
- **Separators**: without them the text is as it was
-/

namespace DocPage.Docstring

open Document (Assemble DocstringScope Fragment)

/-! ## Pairs -/

/-- What is put between two closing braces. -/
def braceSeparator : Text := "&zwnj;".toList

@[simp]
theorem guardBraces_nil : guardBraces [] = [] := rfl

theorem guardBraces_pair (t : Text) :
    guardBraces ('}' :: '}' :: t) = '}' :: (braceSeparator ++ '}' :: guardBraces t) :=
  Text.replace_append (by simp) t

theorem guardBraces_of_head_ne {c : Char} {t : Text} (h : c ≠ '}' ∨ t.head? ≠ some '}') :
    guardBraces (c :: t) = c :: guardBraces t := by
  apply Text.replace_cons
  -- A pair at this place would be the two braces.
  intro hpair
  obtain ⟨hc, hrest⟩ := List.cons_prefix_cons.mp hpair
  cases t with
  | nil => simp at hrest
  | cons d t =>
    obtain ⟨hd, -⟩ := List.cons_prefix_cons.mp hrest
    rcases h with h | h
    · exact h hc.symm
    · exact h (by rw [← hd]; rfl)

/-- Induction along the guard: a pair of braces at once, or a character that starts no pair. -/
theorem guardBraces_induction {motive : Text → Prop} (nil : motive [])
    (pair : ∀ t, motive t → motive ('}' :: '}' :: t))
    (char : ∀ c t, c ≠ '}' ∨ t.head? ≠ some '}' → motive t → motive (c :: t)) (t : Text) :
    motive t := by
  -- A pair takes two characters at once, so the induction is on the length.
  induction hlength : t.length using Nat.strong_induction_on generalizing t with
  | _ n ih =>
    subst hlength
    cases t with
    | nil => exact nil
    | cons c t =>
      -- Whether a pair starts here is told by two characters.
      by_cases hchar : c ≠ '}' ∨ t.head? ≠ some '}'
      · exact char c t hchar (ih t.length (Nat.lt_succ_self _) t rfl)
      · obtain ⟨rfl, hhead⟩ : c = '}' ∧ t.head? = some '}' := by simpa [not_or] using hchar
        obtain ⟨t, rfl⟩ := List.head?_eq_some_iff.mp hhead
        have hshorter : t.length < ('}' :: '}' :: t).length := by
          rw [List.length_cons, List.length_cons]
          omega
        exact pair t (ih t.length hshorter t rfl)

/-! ## Rows of braces -/

/-- The text has `n` closing braces in a row. -/
def HasBraces (n : Nat) (t : Text) : Prop :=
  List.replicate n '}' <:+: t

theorem head?_guardBraces (t : Text) : (guardBraces t).head? = t.head? := by
  induction t using guardBraces_induction with
  | nil => rfl
  | pair t => rw [guardBraces_pair]; rfl
  | char c t hchar => rw [guardBraces_of_head_ne hchar]; rfl

theorem replicate_succ_prefix_cons {n : Nat} {c : Char} {t : Text} :
    List.replicate (n + 1) '}' <+: c :: t ↔ c = '}' ∧ List.replicate n '}' <+: t := by
  rw [List.replicate_succ, List.cons_prefix_cons, eq_comm]

theorem replicate_one_prefix_iff {t : Text} :
    List.replicate 1 '}' <+: t ↔ t.head? = some '}' := by
  cases t with
  | nil => simp
  | cons c t => simp [eq_comm]

theorem hasBraces_succ_cons {n : Nat} {c : Char} {t : Text} :
    HasBraces (n + 1) (c :: t) ↔
      (c = '}' ∧ List.replicate n '}' <+: t) ∨ HasBraces (n + 1) t := by
  unfold HasBraces
  rw [List.infix_cons_iff, replicate_succ_prefix_cons]

@[simp]
theorem not_hasBraces_succ_nil (n : Nat) : ¬ HasBraces (n + 1) [] := by
  simp [HasBraces]

/-- No row of braces starts in the separator. -/
theorem hasBraces_succ_separator {n : Nat} (t : Text) :
    HasBraces (n + 1) (braceSeparator ++ t) ↔ HasBraces (n + 1) t := by
  have hchars : ∀ c ∈ braceSeparator, c ≠ '}' := by decide
  generalize braceSeparator = separator at hchars
  -- The separator is passed character by character, whatever it is.
  induction separator with
  | nil => rfl
  | cons c separator ih =>
    obtain ⟨hc, hrest⟩ := List.forall_mem_cons.mp hchars
    rw [List.cons_append, hasBraces_succ_cons]
    simpa [hc] using ih hrest

/-- The guarded text does not start with two braces. -/
theorem not_pair_prefix_guardBraces (t : Text) : ¬ List.replicate 2 '}' <+: guardBraces t := by
  intro h
  induction t using guardBraces_induction with
  | nil => simp at h
  -- Behind the first brace of a pair comes the separator.
  | pair t =>
    rw [guardBraces_pair, replicate_succ_prefix_cons, replicate_one_prefix_iff] at h
    exact absurd h.2 (by simp [braceSeparator])
  | char c t hchar =>
    rw [guardBraces_of_head_ne hchar, replicate_succ_prefix_cons, replicate_one_prefix_iff,
      head?_guardBraces] at h
    rcases hchar with hc | hhead
    · exact hc h.1
    · exact hhead h.2

/-- Two braces are left in a row exactly where there were three. -/
theorem hasBraces_guardBraces_iff (t : Text) :
    HasBraces 2 (guardBraces t) ↔ HasBraces 3 t := by
  -- Along the guard, since what is guarded depends on how the braces pair up.
  induction t using guardBraces_induction with
  | nil => simp
  | pair t ih =>
    -- In the text the pair meets a third brace at the start of `t`, and so does its second brace in
    -- the guarded text, where the first one meets the separator.
    have hpair : List.replicate 2 '}' <+: t → t.head? = some '}' := by
      intro h
      obtain ⟨rest, rfl⟩ := h
      rfl
    have hseparated : (braceSeparator ++ '}' :: guardBraces t).head? ≠ some '}' := by
      simp [braceSeparator]
    rw [guardBraces_pair, hasBraces_succ_cons, hasBraces_succ_separator, hasBraces_succ_cons,
      hasBraces_succ_cons, hasBraces_succ_cons, ih, replicate_one_prefix_iff,
      replicate_one_prefix_iff, head?_guardBraces, replicate_succ_prefix_cons,
      replicate_one_prefix_iff]
    simp only [true_and, hseparated, false_or]
    tauto
  | char c t hchar ih =>
    -- A character that starts no pair starts no row of three either.
    have hstart : ¬ (c = '}' ∧ t.head? = some '}') := by tauto
    have hpair : ¬ (c = '}' ∧ List.replicate 2 '}' <+: t) := by
      rintro ⟨hc, rest, rfl⟩
      exact hstart ⟨hc, rfl⟩
    rw [guardBraces_of_head_ne hchar, hasBraces_succ_cons, hasBraces_succ_cons, ih,
      replicate_one_prefix_iff, head?_guardBraces]
    tauto

theorem not_hasBraces_three_guardBraces (t : Text) : ¬ HasBraces 3 (guardBraces t) := by
  -- A row of three would have a pair in it that starts at the second brace.
  induction t using guardBraces_induction with
  | nil => simp
  | pair t ih =>
    have hseparated : ¬ List.replicate 2 '}' <+: braceSeparator ++ '}' :: guardBraces t := by
      simp [braceSeparator, List.replicate]
    rw [guardBraces_pair, hasBraces_succ_cons, hasBraces_succ_separator, hasBraces_succ_cons]
    have hnext := not_pair_prefix_guardBraces t
    tauto
  | char c t hchar ih =>
    rw [guardBraces_of_head_ne hchar, hasBraces_succ_cons]
    have hnext := not_pair_prefix_guardBraces t
    tauto

/-! ## Separators -/

/-- The guard brings no separator that starts elsewhere than between two braces. -/
theorem replace_guardBraces {t : Text} (h : ¬ braceSeparator <:+: t) :
    Text.replace braceSeparator [] (guardBraces t) = t := by
  -- The separator begins with another character than a brace.
  have hbrace : ∀ rest : Text, ¬ braceSeparator <+: '}' :: rest := by
    intro rest hstarts
    exact absurd (List.cons_prefix_cons.mp hstarts).1 (by decide)
  induction t using guardBraces_induction with
  | nil => rfl
  | pair t ih =>
    -- The text behind the pair is part of the text.
    have hrest : ¬ braceSeparator <:+: t := fun hoccurs =>
      h (hoccurs.trans ⟨['}', '}'], [], by simp⟩)
    rw [guardBraces_pair, Text.replace_cons (hbrace _), Text.replace_append (by decide),
      List.nil_append, Text.replace_cons (hbrace _), ih hrest]
  | char c t hchar ih =>
    have hrest : ¬ braceSeparator <:+: t := fun hoccurs =>
      h (hoccurs.trans (List.suffix_cons c t).isInfix)
    -- A separator at the start of the guarded text is one of the text.
    have hstarts : ¬ braceSeparator <+: c :: guardBraces t := by
      rw [← guardBraces_of_head_ne hchar]
      intro hstarts
      have hfirst := Document.prefix_of_prefix_replaceFrom (by decide) hstarts
      exact h hfirst.isInfix
    rw [guardBraces_of_head_ne hchar, Text.replace_cons hstarts, ih hrest]

/-- The text that a parameter list is rendered from, which is all that is rendered for it, has two
closing braces in a row exactly if the list has three, and never three itself. Without the
separators it is the text of the list, unless there were separators in that. -/
theorem guarded_list_has_pair_iff (anchor t : Text) :
    (∃ finish : Fragment → Assemble (List Parameter), ∀ nested region,
      (DocstringScope.mk nested region anchor).parameters t =
        nested (guardBraces t) region >>= finish) ∧
    (HasBraces 2 (guardBraces t) ↔ HasBraces 3 t) ∧ ¬ HasBraces 3 (guardBraces t) ∧
    (¬ braceSeparator <:+: t → Text.replace braceSeparator [] (guardBraces t) = t) := by
  refine ⟨?_, hasBraces_guardBraces_iff t, not_hasBraces_three_guardBraces t,
    replace_guardBraces⟩
  -- What is made of the rendered list does not depend on how it was rendered.
  let given (fragment : Fragment) : DocstringScope := ⟨fun _ _ => pure fragment, .before, anchor⟩
  refine ⟨fun fragment => (given fragment).parameters t, fun nested region => ?_⟩
  simp only [given, DocstringScope.parameters, DocstringScope.render, bind_assoc, pure_bind]

/-- A list with an expression of a template. -/
def expressionList : Text := "- **x** -- \x7b\x7ba\x7d\x7d or \x7bb\x7d".toList

/-- Its two closing braces are kept apart, and without the separator they meet again. -/
theorem expressionList_kept_apart :
    ¬ braceSeparator <:+: expressionList ∧ ¬ HasBraces 2 (guardBraces expressionList) ∧
      Text.replace braceSeparator [] (guardBraces expressionList) = expressionList := by
  have hseparator : ¬ braceSeparator <:+: expressionList := by decide +kernel
  -- The list has two braces in a row, and no third one next to them.
  have hthree : ¬ HasBraces 3 expressionList := by
    unfold HasBraces
    decide +kernel
  obtain ⟨-, hpair, -, hreplace⟩ := guarded_list_has_pair_iff "m.f" expressionList
  exact ⟨hseparator, fun h => hthree (hpair.mp h), hreplace hseparator⟩

/-- A list with three closing braces in a row. -/
def threeBraces : Text := "- **x** -- a\x7d\x7d\x7db".toList

/-- The second brace is kept apart from the first one, and the third one meets it. -/
theorem third_brace_meets_second :
    guardBraces threeBraces = "- **x** -- a\x7d&zwnj;\x7d\x7db".toList ∧
      ¬ ∀ t, ¬ HasBraces 2 (guardBraces t) := by
  have hpair : HasBraces 2 (guardBraces threeBraces) := by
    unfold HasBraces
    decide +kernel
  exact ⟨by decide +kernel, fun h => h threeBraces hpair⟩

end DocPage.Docstring
