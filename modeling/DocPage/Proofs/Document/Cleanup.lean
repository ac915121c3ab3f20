import DocPage.Document.Cleanup
import DocPage.Proofs.Text.Lines

/-!
# What cleaning leaves of a source

The removal of doctest artifacts only takes text away in front of a split marker or at the end of a
line. A word of one line that the marker cannot touch therefore stands in the cleaned source only
where it stood before.

## Architecture

- **Replacement**: `infix_of_infix_replace`
- **Lines**: `infix_of_infix_mapLines`
- **Doctests**: `infix_of_infix_cleanDoctests`
-/

namespace DocPage.Document

/-! ## Replacement -/

section Replacement

variable {needle new : Text} {n d : Char} {word : Text}

/-- A word whose first character does not stand in `new` begins behind it. -/
theorem infix_of_infix_append (hd : d ∉ new) {t : Text} (h : d :: word <:+: new ++ t) :
    d :: word <:+: t := by
  induction new with
  | nil => exact h
  | cons c new ih =>
    -- The word starts with a character that `new` does not have, so it cannot start inside of it.
    rcases List.infix_cons_iff.mp h with hstarts | hoccurs
    · obtain ⟨rfl, -⟩ := List.cons_prefix_cons.mp hstarts
      exact absurd List.mem_cons_self hd
    · exact ih (fun hmem => hd (List.mem_cons_of_mem c hmem)) hoccurs

/-- A word without the first character of what is put in ends in front of it. -/
theorem prefix_of_prefix_replaceFrom (hn : n ∉ word) {skip : Nat} {t : Text}
    (h : word <+: Text.replaceFrom needle (n :: new) skip t) : word <+: t.drop skip := by
  -- A replacement writes `n` first, which the word does not have, so the word is read before any of
  -- them.
  induction t generalizing word skip with
  | nil =>
    cases skip
    all_goals simpa [Text.replaceFrom] using h
  | cons c t ih =>
    cases skip with
    | succ skip => exact ih hn h
    | zero =>
      cases word with
      | nil => exact List.nil_prefix
      | cons d word =>
        unfold Text.replaceFrom at h
        split at h
        · obtain ⟨rfl, -⟩ := List.cons_prefix_cons.mp h
          exact absurd List.mem_cons_self hn
        · obtain ⟨rfl, hrest⟩ := List.cons_prefix_cons.mp h
          have := ih (fun hmem => hn (List.mem_cons_of_mem _ hmem)) hrest
          exact List.cons_prefix_cons.mpr ⟨rfl, this⟩

/-- Replacement brings no word that what is put in cannot touch. -/
theorem infix_of_infix_replaceFrom (hn : n ∉ d :: word) (hd : d ∉ n :: new) {skip : Nat} {t : Text}
    (h : d :: word <:+: Text.replaceFrom needle (n :: new) skip t) : d :: word <:+: t.drop skip := by
  -- The word stands either behind this place, where the induction applies, or here, and then it is
  -- read from the source.
  induction t generalizing skip with
  | nil =>
    cases skip
    all_goals simp [Text.replaceFrom] at h
  | cons c t ih =>
    cases skip with
    | succ skip => exact ih h
    | zero =>
      unfold Text.replaceFrom at h
      split at h
      · have hrest := ih (infix_of_infix_append hd h)
        exact (hrest.trans (List.drop_suffix _ t).isInfix).trans (List.suffix_cons c t).isInfix
      · rcases List.infix_cons_iff.mp h with hstarts | hoccurs
        · obtain ⟨rfl, hrest⟩ := List.cons_prefix_cons.mp hstarts
          have := prefix_of_prefix_replaceFrom (fun hmem => hn (List.mem_cons_of_mem _ hmem)) hrest
          exact (List.cons_prefix_cons.mpr ⟨rfl, this⟩).isInfix
        · exact (ih hoccurs).trans (List.suffix_cons c t).isInfix

end Replacement

/-! ## Lines -/

section Lines

variable {sep : Char} {word : Text}

/-- A word without the separator stands on one side of it. -/
theorem infix_or_infix_of_notMem (hne : word ≠ []) (hsep : sep ∉ word) {t u : Text}
    (h : word <:+: t ++ sep :: u) : word <:+: t ∨ word <:+: u := by
  -- The seam of the two texts is the separator.
  rcases List.infix_append_iff_ne_nil.mp h with hfront | hback | ⟨a, b, -, hb, rfl, -, hbu⟩
  · exact .inl hfront
  · rcases List.infix_cons_iff.mp hback with hstarts | hinside
    · obtain ⟨d, word, rfl⟩ := List.exists_cons_of_ne_nil hne
      obtain ⟨rfl, -⟩ := List.cons_prefix_cons.mp hstarts
      exact absurd List.mem_cons_self hsep
    · exact .inr hinside
  · -- A word across the seam would hold the separator.
    obtain ⟨d, b, rfl⟩ := List.exists_cons_of_ne_nil hb
    obtain ⟨rfl, -⟩ := List.cons_prefix_cons.mp hbu
    exact absurd (List.mem_append_right a List.mem_cons_self) hsep

theorem exists_infix_of_infix_join (hne : word ≠ []) (hsep : sep ∉ word) {parts : List Text}
    (h : word <:+: Text.join [sep] parts) : ∃ part ∈ parts, word <:+: part := by
  induction parts with
  | nil => exact absurd (List.infix_nil.mp h) hne
  -- The parts are joined from the front, so either the first part has the word or what is behind
  -- it.
  | cons part parts ih =>
    cases parts with
    | nil => exact ⟨part, List.mem_cons_self, h⟩
    | cons second parts =>
      unfold Text.join at h
      rw [List.append_assoc] at h
      rcases infix_or_infix_of_notMem hne hsep h with hhere | hrest
      · exact ⟨part, List.mem_cons_self, hhere⟩
      · obtain ⟨part', hmem, hoccurs⟩ := ih hrest
        exact ⟨part', List.mem_cons_of_mem part hmem, hoccurs⟩

/-- A function that only shortens lines brings no word of one line. -/
theorem infix_of_infix_mapLines {f : Text → Text} (hf : ∀ line, f line <+: line) (hne : word ≠ [])
    (hline : '\n' ∉ word) {t : Text} (h : word <:+: Text.mapLines f t) : word <:+: t := by
  -- The lines are cut at line feeds, of which the word has none.
  obtain ⟨part, hpart, hoccurs⟩ := exists_infix_of_infix_join hne hline h
  obtain ⟨line, hmem, rfl⟩ := List.mem_map.mp hpart
  exact (hoccurs.trans (hf line).isInfix).trans (Text.infix_of_mem_splitAll.2 line hmem)

end Lines

/-! ## Doctests -/

theorem suffix_of_dropSpaces? {t rest : Text} (h : dropSpaces? t = some rest) : rest <:+ t := by
  unfold dropSpaces? at h
  split at h
  · next c t =>
    split at h
    · cases h
      exact (List.dropWhile_suffix _).trans (List.suffix_cons c t)
    · cases h
  · cases h

theorem suffix_of_dropPrefix? {p t rest : Text} (h : Text.dropPrefix? p t = some rest) :
    rest <:+ t :=
  ⟨p, ((Text.dropPrefix?_eq_some_iff).mp h).symm⟩

/-- Dropping a doctest flag shortens the line at its end. -/
theorem prefix_of_dropFlag (line : Text) : dropFlag line <+: line := by
  unfold dropFlag
  cases h : beforeFlag? line with
  | none => exact List.prefix_refl line
  | some front =>
    -- The flag is read from the end of the line, and every reader on the way has to succeed.
    unfold beforeFlag? at h
    simp only at h
    split at h
    · cases h
    · obtain ⟨rest₁, h₁, h⟩ := Option.bind_eq_some_iff.mp h
      obtain ⟨rest₂, h₂, h⟩ := Option.bind_eq_some_iff.mp h
      obtain ⟨rest₃, h₃, h⟩ := Option.bind_eq_some_iff.mp h
      obtain ⟨rest₄, h₄, h⟩ := Option.bind_eq_some_iff.mp h
      obtain ⟨last, -, h⟩ := Option.bind_eq_some_iff.mp h
      obtain ⟨code, -, h⟩ := Option.bind_eq_some_iff.mp h
      split at h
      · cases h
      · cases h
        -- Each reader drops something at the start of the reversed line.
        have hflag : rest₄ <:+ line.reverse :=
          (suffix_of_dropSpaces? h₄).trans <| (suffix_of_dropPrefix? h₃).trans <|
            (suffix_of_dropSpaces? h₂).trans <| (suffix_of_dropPrefix? h₁).trans <|
              (List.dropWhile_suffix _).trans (List.dropWhile_suffix _)
        simpa using List.reverse_prefix.mpr hflag

/-- The removal of doctest artifacts brings no word that the split marker cannot touch. -/
theorem infix_of_infix_cleanDoctests {d : Char} {word : Text} (hline : '\n' ∉ d :: word)
    (hmarker : '=' ∉ d :: word) (hd : d ∉ Code.Marker.frameworks.literal) {source : Text}
    (h : d :: word <:+: cleanDoctests source) : d :: word <:+: source :=
  infix_of_infix_replaceFrom hmarker hd
    (infix_of_infix_mapLines prefix_of_dropFlag (List.cons_ne_nil d word) hline h)

end DocPage.Document
