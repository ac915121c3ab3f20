import DocPage.Proofs.Tag.Opening
import Mathlib.Data.List.Nodup

/-!
# Names of tags

Many names of tags extend each other: `paramsdesc`, `paramsdesc1`, `paramsdesc12` and
`paramsdesc1title` are four of them. Still a name belongs to one kind only, and where an opening tag
stands in a text, its name ends at the first character that is no letter and no digit. So at one
place of a text there is an opening tag of one kind at most.

## Architecture

- **Numbers**: the digits of a name are the number of its kind
- **Names**: `Kind.tagName_injective`
- **Places**: `IsOpening.kind_unique`
- **Searches**: `Pattern.FindsAt`, for the places where the search of a pattern stops
-/

namespace DocPage.Tag

/-! ## Numbers -/

def Kind.number? : Kind → Option Nat
  | .paramGroupTitle n | .paramGroupDesc n => some n
  | _ => none

def Kind.unnumbered : List Kind :=
  [.docstring, .name, .anchor, .parameters, .paramsDesc, .paramGroups, .retDesc, .retType,
    .yieldDesc, .yieldType, .raises, .raisedErrors, .source, .isGetSetDescriptor,
    .frameworkContent, .pt, .tf, .jax, .hfOptions, .hfOption, .inferenceSnippet, .python, .js,
    .curl, .tokenizersLangContent, .rust, .node, .literalInclude]

theorem Kind.mem_unnumbered_iff {k : Kind} : k ∈ unnumbered ↔ k.number? = none := by
  cases k <;> simp [unnumbered, number?]

theorem filter_isDigit_ofNat (n : Nat) : (Text.ofNat n).filter Char.isDigit = Text.ofNat n :=
  List.filter_eq_self.mpr fun _ hc => Text.isDigit_of_mem_ofNat hc

/-- The digits of a name spell the number of its kind. -/
theorem Kind.filter_isDigit_tagName (k : Kind) :
    k.tagName.filter Char.isDigit = (k.number?.map Text.ofNat).getD [] := by
  -- The words around the number have no digit of their own.
  have hdesc : "paramsdesc".toList.filter Char.isDigit = [] := rfl
  have htitle : "title".toList.filter Char.isDigit = [] := rfl
  cases k with
  | paramGroupTitle n =>
    show ("paramsdesc".toList ++ Text.ofNat n ++ "title".toList).filter Char.isDigit = _
    rw [List.filter_append, List.filter_append, hdesc, htitle, filter_isDigit_ofNat]
    simp [number?]
  | paramGroupDesc n =>
    show ("paramsdesc".toList ++ Text.ofNat n).filter Char.isDigit = _
    rw [List.filter_append, hdesc, filter_isDigit_ofNat]
    simp [number?]
  | _ => rfl

/-- Kinds of one name carry the same number, or none. -/
theorem Kind.number?_eq_of_tagName_eq {k k' : Kind} (h : k.tagName = k'.tagName) :
    k.number? = k'.number? := by
  have hdigits := congrArg (List.filter Char.isDigit) h
  rw [filter_isDigit_tagName, filter_isDigit_tagName] at hdigits
  have hne : ∀ n, Text.ofNat n ≠ [] := fun _ => Nat.toDigits_ne_nil
  -- The digits of the two names agree, and a name has digits exactly when its kind has a number.
  cases hk : k.number? with
  | none =>
    cases hk' : k'.number? with
    | none => rfl
    | some n' =>
      -- A number has a digit.
      rw [hk, hk'] at hdigits
      exact absurd hdigits.symm (hne n')
  | some n =>
    cases hk' : k'.number? with
    | none =>
      rw [hk, hk'] at hdigits
      exact absurd hdigits (hne n)
    | some n' =>
      rw [hk, hk'] at hdigits
      exact congrArg some (Text.ofNat_injective hdigits)

/-! ## Names -/

theorem Kind.eq_of_number? {k : Kind} {n : Nat} (h : k.number? = some n) :
    k = .paramGroupTitle n ∨ k = .paramGroupDesc n := by
  cases k with
  | paramGroupTitle m => exact .inl (congrArg _ (Option.some.inj h))
  | paramGroupDesc m => exact .inr (congrArg _ (Option.some.inj h))
  | _ => cases h

/-- The name of the title of a group is longer than that of the group. -/
theorem Kind.tagName_title_ne (n : Nat) :
    (Kind.paramGroupTitle n).tagName ≠ (Kind.paramGroupDesc n).tagName := by
  intro h
  -- Both names start alike, so the lengths differ by that of the word behind the number.
  have hlength : ("paramsdesc".toList ++ Text.ofNat n ++ "title".toList).length =
      ("paramsdesc".toList ++ Text.ofNat n).length := congrArg List.length h
  rw [List.length_append] at hlength
  exact absurd (Nat.add_left_cancel (k := 0) hlength) (by decide)

/-- **A name belongs to one kind.** -/
theorem Kind.tagName_injective : Function.Injective Kind.tagName := by
  intro k k' h
  have hnumber := number?_eq_of_tagName_eq h
  cases hk : k.number? with
  | none =>
    -- Finitely many names are left, and they are different.
    have hnodup : (unnumbered.map tagName).Nodup := by decide +kernel
    rw [hk] at hnumber
    apply List.inj_on_of_nodup_map hnodup
    · exact mem_unnumbered_iff.mpr hk
    · exact mem_unnumbered_iff.mpr hnumber.symm
    · exact h
  | some n =>
    rw [hk] at hnumber
    -- With a number, two kinds of names are left for it.
    rcases eq_of_number? hk with rfl | rfl
    · rcases eq_of_number? hnumber.symm with rfl | rfl
      · rfl
      · exact absurd h (tagName_title_ne n)
    · rcases eq_of_number? hnumber.symm with rfl | rfl
      · exact absurd h.symm (tagName_title_ne n)
      · rfl

/-! ## Places -/

/-- A blank is no letter and no digit. -/
theorem isAlphanum_of_isBlank {c : Char} (h : Unicode.isBlank c = true) : c.isAlphanum = false := by
  rw [Char.isAlphanum, Bool.or_eq_false_iff]
  constructor
  · -- Letters are no blanks.
    apply Bool.eq_false_iff.mpr
    intro halpha
    rw [Text.isBlank_of_isAlpha halpha] at h
    cases h
  -- The digits are the characters from 48 to 57, none of which is a blank.
  · apply Bool.eq_false_iff.mpr
    intro hdigit
    simp only [Char.isDigit, Bool.and_eq_true, decide_eq_true_eq] at hdigit
    obtain ⟨hlow, hhigh⟩ : 48 ≤ c.toNat ∧ c.toNat ≤ 57 := hdigit
    rw [Text.isBlank_of_toNat (by omega) (by omega)] at h
    cases h

/-- The name of an opening tag is read off the text: it ends in front of the first character that is
no letter and no digit. -/
theorem IsOpening.takeWhile_isAlphanum {k : Kind} {markup : Text} (h : IsOpening k.tagName markup)
    (rest : Text) : (markup ++ rest).tail.takeWhile Char.isAlphanum = k.tagName := by
  -- The name is cut off in front of the attributes, if there are any, or of the bracket.
  obtain ⟨attrs, ⟨-, hblank⟩, rfl⟩ := h
  have hcut : ('<' :: k.tagName ++ attrs ++ ['>'] ++ rest).tail =
      k.tagName ++ (attrs ++ '>' :: rest) := by simp
  rw [hcut]
  apply Text.takeWhile_append_of_boundary k.isAlphanum_of_mem_tagName
  intro c hc
  cases attrs with
  | nil =>
    cases hc
    rfl
  | cons a attrs => exact isAlphanum_of_isBlank (hblank c hc)

/-- **At one place of a text there is an opening tag of one kind at most.** -/
theorem IsOpening.kind_unique {k k' : Kind} {markup markup' rest rest' : Text}
    (h : IsOpening k.tagName markup) (h' : IsOpening k'.tagName markup')
    (htext : markup ++ rest = markup' ++ rest') : k = k' := by
  -- The name is read off the text, and the text is the same for both.
  apply Kind.tagName_injective
  rw [← h.takeWhile_isAlphanum rest, ← h'.takeWhile_isAlphanum rest', htext]

/-! ## Searches -/

/-- The search of a pattern, begun somewhere in the text, stops at an opening tag that starts at the
byte. Whether the pattern accepts what the tag carries is left open. -/
def Pattern.FindsAt (p : Pattern) (t : Text) (offset : Nat) : Prop :=
  ∃ skipped searched before opening, t = skipped ++ searched ∧
    firstOpening? p.name searched = some (before, opening) ∧
    Text.byteSize (skipped ++ before) = offset

/-- An opening tag at the start of a text is the first one. -/
theorem IsOpening.firstOpening?_append {name markup : Text} (h : IsOpening name markup)
    (rest : Text) : ∃ attributes,
      firstOpening? name (markup ++ rest) = some ([], ⟨markup, attributes, rest⟩) := by
  obtain ⟨attributes, hread⟩ := openingAt?_append h rest
  -- The search starts at the tag and reads it at once.
  obtain ⟨c, u, rfl⟩ := List.exists_cons_of_ne_nil h.ne_nil
  refine ⟨attributes, ?_⟩
  rw [List.cons_append] at hread ⊢
  simp [firstOpening?, hread]

/-- The searches of a pattern stop where an opening tag of its name is written, and only there. -/
theorem Pattern.findsAt_iff {p : Pattern} {t : Text} {offset : Nat} : p.FindsAt t offset ↔
    ∃ before markup rest, t = before ++ (markup ++ rest) ∧ IsOpening p.name markup ∧
      Text.byteSize before = offset := by
  constructor
  -- The search reads the tag, so its name is written there.
  · rintro ⟨skipped, searched, before, opening, rfl, hfirst, hoffset⟩
    obtain ⟨hread, rfl, -⟩ := firstOpening?_eq_some hfirst
    obtain ⟨attrs, hattrs, hmarkup, -, -⟩ := openingAt?_eq_some_iff.mp hread
    exact ⟨skipped ++ before, opening.markup, opening.rest, by simp, ⟨attrs, hattrs, hmarkup⟩,
      hoffset⟩
  · rintro ⟨before, markup, rest, rfl, hopening, hoffset⟩
    -- A search that begins at the tag stops there.
    obtain ⟨attributes, hfirst⟩ := hopening.firstOpening?_append rest
    refine ⟨before, markup ++ rest, [], _, rfl, hfirst, ?_⟩
    rw [List.append_nil]
    exact hoffset

/-- **Kinds of tags do not shadow each other.** Distinct kinds have distinct names, and patterns
whose searches stop at the same byte of a text look for the same kind. -/
theorem Pattern.kind_eq_of_findsAt :
    Function.Injective Kind.tagName ∧
      ∀ (t : Text) (offset : Nat) (p p' : Pattern),
        p.FindsAt t offset → p'.FindsAt t offset → p.kind = p'.kind := by
  refine ⟨Kind.tagName_injective, fun t offset p p' h h' => ?_⟩
  obtain ⟨before, markup, rest, htext, hopening, hoffset⟩ := findsAt_iff.mp h
  obtain ⟨before', markup', rest', htext', hopening', hoffset'⟩ := findsAt_iff.mp h'
  -- One byte is one place, so the two tags are read off the same text.
  rw [htext] at htext'
  obtain ⟨-, hsame⟩ := Text.append_inj_of_byteSize htext' (hoffset.trans hoffset'.symm)
  exact hopening.kind_unique hopening' hsame

/-- Behind a character of two bytes stands the title of the twelfth group of parameters, which is no
tag of the names that its own name continues. -/
theorem Pattern.numbered_title_found_alone :
    let text : Text := "é<paramsdesc12title>Groups</paramsdesc12title>"
    (plain (.paramGroupTitle 12)).FindsAt text 2 ∧
      ∀ p : Pattern, p.kind = .paramsDesc ∨ p.kind = .paramGroupDesc 1 ∨
        p.kind = .paramGroupDesc 12 → ¬ p.FindsAt text 2 := by
  intro text
  have hopening : IsOpening (plain (.paramGroupTitle 12)).name "<paramsdesc12title>" :=
    ⟨[], ⟨List.not_mem_nil, nofun⟩, rfl⟩
  have htext : text = "é".toList ++ ("<paramsdesc12title>".toList ++
      "Groups</paramsdesc12title>".toList) := by simp [text]
  have hfinds : (plain (.paramGroupTitle 12)).FindsAt text 2 :=
    findsAt_iff.mpr ⟨_, _, _, htext, hopening, rfl⟩
  refine ⟨hfinds, fun p hkind hp => ?_⟩
  have hsame := kind_eq_of_findsAt.2 _ _ _ _ hfinds hp
  rcases hkind with hkind | hkind | hkind <;> simp [hkind, plain] at hsame

end DocPage.Tag
