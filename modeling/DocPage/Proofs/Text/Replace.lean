import DocPage.Proofs.Text.Lines

/-!
# Laws of replacement

The occurrences of a text cut another text into parts without an occurrence, and replacing them
joins the same parts with something else. A character that the occurrences do not hold separates
them, so that the texts on its two sides are replaced one by one. Proofs go by `replace_induction`,
which follows the replacement from occurrence to occurrence.

## Architecture

- **Induction**: `replace_induction`
- **Parts**: `exists_parts_of_replace`
- **Separators**: `replace_append_cons`, so that replacement takes a text line by line
-/

namespace DocPage.Text

variable {needle new : Text}

/-! ## Induction -/

/-- Induction along a replacement: a character where no occurrence starts, or an occurrence. -/
theorem replace_induction (hne : needle ≠ []) {motive : Text → Prop} (nil : motive [])
    (plain : ∀ c t, ¬ needle <+: c :: t → motive t → motive (c :: t))
    (hit : ∀ t, motive t → motive (needle ++ t)) (t : Text) : motive t := by
  induction hlength : t.length using Nat.strong_induction_on generalizing t with
  | _ n ih =>
    subst hlength
    cases t with
    | nil => exact nil
    | cons c t =>
      by_cases hstarts : needle <+: c :: t
      · obtain ⟨rest, hrest⟩ := hstarts
        rw [← hrest] at ih ⊢
        refine hit rest (ih rest.length ?_ rest rfl)
        -- Behind an occurrence the text is shorter, since the occurrence is not empty.
        have hpos := List.length_pos_iff.mpr hne
        rw [List.length_append]
        omega
      · exact plain c t hstarts (ih t.length (Nat.lt_succ_self _) t rfl)

/-! ## Parts -/

theorem prefix_join (sep part : Text) (rest : List Text) : part <+: join sep (part :: rest) := by
  cases rest with
  | nil => exact List.prefix_rfl
  | cons next rest =>
    rw [join_cons_cons, List.append_assoc]
    exact List.prefix_append part _

theorem join_cons_head (sep : Text) (c : Char) (part : Text) (rest : List Text) :
    join sep ((c :: part) :: rest) = c :: join sep (part :: rest) := by
  cases rest with
  | nil => rfl
  | cons next rest => rfl

theorem join_nil_cons (sep part : Text) (rest : List Text) :
    join sep ([] :: part :: rest) = sep ++ join sep (part :: rest) := rfl

/-- Replacement joins with `new` the parts that the occurrences of `needle` cut the text into. -/
theorem exists_parts_of_replace (hne : needle ≠ []) (new t : Text) :
    ∃ part rest, (∀ p ∈ part :: rest, ¬ needle <:+: p) ∧ t = join needle (part :: rest) ∧
      replace needle new t = join new (part :: rest) := by
  have hempty : ¬ needle <:+: [] := fun h => hne (List.infix_nil.mp h)
  induction t using replace_induction hne with
  | nil => exact ⟨[], [], List.forall_mem_singleton.mpr hempty, rfl, rfl⟩
  | plain c t hstarts ih =>
    obtain ⟨part, rest, hparts, ht, hreplaced⟩ := ih
    obtain ⟨hpart, hrest⟩ := List.forall_mem_cons.mp hparts
    refine ⟨c :: part, rest, List.forall_mem_cons.mpr ⟨?_, hrest⟩, ?_, ?_⟩
    · -- An occurrence at the start of the part would be one at the start of the text.
      rw [List.infix_cons_iff, not_or]
      refine ⟨fun h => hstarts (h.trans ?_), hpart⟩
      rw [List.cons_prefix_cons, ht]
      exact ⟨rfl, prefix_join needle part rest⟩
    · rw [join_cons_head, ← ht]
    · rw [replace_cons hstarts, join_cons_head, hreplaced]
  -- An occurrence ends the part in front of it, which is empty so far.
  | hit t ih =>
    obtain ⟨part, rest, hparts, ht, hreplaced⟩ := ih
    refine ⟨[], part :: rest, List.forall_mem_cons.mpr ⟨hempty, hparts⟩, ?_, ?_⟩
    · rw [join_nil_cons, ← ht]
    · rw [replace_append hne, join_nil_cons, hreplaced]

/-! ## Separators -/

/-- Where a text without `c` starts is decided in front of `c`. -/
theorem prefix_of_prefix_append_cons {c : Char} (hc : c ∉ needle) {a b : Text}
    (h : needle <+: a ++ c :: b) : needle <+: a := by
  obtain ⟨rest, hrest⟩ := h
  -- An occurrence that reached `c` would hold it.
  rcases append_cases hrest.symm with ⟨u, rfl, -⟩ | ⟨u, rfl, hu⟩
  · exact List.prefix_append needle u
  · cases u with
    | nil => simp
    | cons d u =>
      obtain ⟨rfl, -⟩ := List.cons.inj hu
      exact absurd (List.mem_append_right a List.mem_cons_self) hc

/-- The texts on the two sides of a character that no occurrence holds are replaced one by one. -/
theorem replace_append_cons {c : Char} (hne : needle ≠ []) (hc : c ∉ needle) (a b : Text) :
    replace needle new (a ++ c :: b) = replace needle new a ++ c :: replace needle new b := by
  induction a using replace_induction hne with
  | nil =>
    -- At the end of the first text only an occurrence with `c` could start.
    have hstarts : ¬ needle <+: c :: b := by
      intro h
      have hnil : needle <+: [] := prefix_of_prefix_append_cons hc h
      exact hne (List.prefix_nil.mp hnil)
    rw [List.nil_append, replace_cons hstarts]
    rfl
  | plain d a hstarts ih =>
    -- An occurrence that starts in the first text ends in it.
    have hstarts' : ¬ needle <+: d :: (a ++ c :: b) :=
      fun h => hstarts (prefix_of_prefix_append_cons hc h)
    rw [List.cons_append, replace_cons hstarts', replace_cons hstarts, ih, List.cons_append]
  | hit a ih =>
    rw [List.append_assoc, replace_append hne, replace_append hne, ih, List.append_assoc]

/-- Replacement brings no character that `new` does not hold. -/
theorem notMem_replace {c : Char} (hne : needle ≠ []) (hnew : c ∉ new) {t : Text} (ht : c ∉ t) :
    c ∉ replace needle new t := by
  -- Along the replacement: a character is kept or an occurrence gives way.
  induction t using replace_induction hne with
  | nil => exact ht
  | plain d t hstarts ih =>
    obtain ⟨hd, hrest⟩ := List.ne_and_not_mem_of_not_mem_cons ht
    rw [replace_cons hstarts]
    exact List.not_mem_cons_of_ne_of_not_mem hd (ih hrest)
  | hit t ih =>
    rw [replace_append hne, List.mem_append, not_or]
    exact ⟨hnew, ih fun h => ht (List.mem_append_right needle h)⟩

theorem lineWise_replace (hne : needle ≠ []) (hneedle : '\n' ∉ needle) (hnew : '\n' ∉ new) :
    LineWise (replace needle new) where
  append := replace_append_cons hne hneedle
  notMem _ hline := notMem_replace hne hnew hline

end DocPage.Text
