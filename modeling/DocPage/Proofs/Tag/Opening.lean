import DocPage.Tag.Pattern
import DocPage.Proofs.Text.Search
import DocPage.Proofs.Text.Trim

/-!
# The grammar of opening tags

What an opening tag looks like is said here without the reader: the name, and up to the first `>` a
text that is empty or starts with a blank. `openingAt?` reads exactly this grammar, `firstOpening?`
finds its first sentence in a text, and `Pattern.accept?` accepts exactly the tags that are bare or
carry one `id`.

## Architecture

- **Names**: letters and digits only, so that no delimiter of tags stands in a name
- **Grammar**: `IsOpening` for any opening tag, `Pattern.Opens` for those that a pattern accepts
- **Readers**: `openingAt?` and `firstOpening?` against the grammar
-/

namespace DocPage.Tag

open Text (Blank)

/-! ## Names -/

theorem isAlphanum_of_mem_ofNat {n : Nat} {c : Char} (hc : c ∈ Text.ofNat n) :
    c.isAlphanum = true := by
  simp [Char.isAlphanum, Text.isDigit_of_mem_ofNat hc]

/-- Names of tags consist of letters and digits. -/
theorem Kind.isAlphanum_of_mem_tagName (k : Kind) : ∀ c ∈ k.tagName, c.isAlphanum = true := by
  have hdesc : ∀ c ∈ "paramsdesc".toList, c.isAlphanum = true := List.all_eq_true.mp rfl
  have htitle : ∀ c ∈ "title".toList, c.isAlphanum = true := List.all_eq_true.mp rfl
  -- Only the numbered names are not fixed; their digits stand between fixed words.
  cases k with
  | paramGroupTitle n =>
    intro c hc
    rcases List.mem_append.mp hc with hc | hc
    · rcases List.mem_append.mp hc with hc | hc
      · exact hdesc c hc
      · exact isAlphanum_of_mem_ofNat hc
    · exact htitle c hc
  | paramGroupDesc n =>
    intro c hc
    rcases List.mem_append.mp hc with hc | hc
    · exact hdesc c hc
    · exact isAlphanum_of_mem_ofNat hc
  | _ => exact List.all_eq_true.mp rfl

theorem Pattern.not_mem_name (p : Pattern) {c : Char} (hc : c.isAlphanum = false) :
    c ∉ p.name := by
  intro h
  have := p.kind.isAlphanum_of_mem_tagName c h
  rw [hc] at this
  cases this

/-! ## Grammar -/

/-- What may stand between the name and the `>` of an opening tag: nothing, or a blank and any text
up to the first `>`. -/
structure AttributeText (attrs : Text) : Prop where
  noEnd : '>' ∉ attrs
  blank_head : ∀ c, attrs.head? = some c → Unicode.isBlank c = true

/-- An opening tag of the name, as written. -/
def IsOpening (name markup : Text) : Prop :=
  ∃ attrs, AttributeText attrs ∧ markup = '<' :: name ++ attrs ++ ['>']

/-- The attribute texts that spell no attribute, or exactly one `id`. -/
inductive Spells : Text → Option Text → Prop where
  | bare {blanks : Text} : Blank blanks → Spells blanks none
  | id {before left right value after : Text} :
      Blank before → Blank left → Blank right → Blank after → '"' ∉ value →
      Spells (before ++ ("id" ++ left ++ "=" ++ right ++ "\"" ++ value ++ "\"") ++ after)
        (some value)

/-- The opening tags that the pattern accepts, with their `id`. -/
def Pattern.Opens (p : Pattern) (markup : Text) (id : Option Text) : Prop :=
  ∃ attrs, AttributeText attrs ∧ markup = '<' :: p.name ++ attrs ++ ['>'] ∧ Spells attrs id ∧
    (p.requiresId = true → id.isSome = true)

theorem Pattern.Opens.isOpening {p : Pattern} {markup : Text} {id : Option Text}
    (h : p.Opens markup id) : IsOpening p.name markup := by
  obtain ⟨attrs, ha, hm, -⟩ := h
  exact ⟨attrs, ha, hm⟩

theorem IsOpening.ne_nil {name markup : Text} (h : IsOpening name markup) : markup ≠ [] := by
  obtain ⟨attrs, -, rfl⟩ := h
  simp

/-! ## Attributes -/

/-- The value of an `id` is read exactly off the lists that are one `id="value"`. -/
theorem idValue?_eq_some_iff {trimmed value : Text} :
    idValue? trimmed = some value ↔
      ∃ left right, Blank left ∧ Blank right ∧ '"' ∉ value ∧
        trimmed = "id" ++ left ++ "=" ++ right ++ "\"" ++ value ++ "\"" := by
  simp only [idValue?, Option.bind_eq_bind, Option.bind_eq_some_iff,
    Text.dropPrefix?_eq_some_iff, Text.dropSuffix?_eq_some_iff]
  constructor
  -- Each step of the reader takes one part of the attribute off the front.
  · rintro ⟨r1, rfl, r2, h2, r3, h3, v, rfl, hv⟩
    split at hv
    · cases hv
    · next hquote =>
      cases hv
      obtain ⟨left, hleft, hl⟩ := Text.exists_blank_trimStart r1
      obtain ⟨right, hright, hr⟩ := Text.exists_blank_trimStart r2
      refine ⟨left, right, hleft, hright, fun hmem => hquote ?_, ?_⟩
      · exact (Text.contains_singleton).mpr hmem
      · rw [hl, h2, hr, h3]
        simp
  -- Conversely, no blank starts what stands behind the blanks, so each step takes as much.
  · rintro ⟨left, right, hleft, hright, hv, rfl⟩
    refine ⟨left ++ "=" ++ right ++ "\"" ++ value ++ "\"", by simp,
      right ++ "\"" ++ value ++ "\"", ?_, value ++ "\"", ?_, value, rfl, ?_⟩
    · simp only [List.append_assoc, Text.trimStart_append_of_blank hleft]
      exact Text.trimStart_eq_self (fun c hc => by cases hc; decide)
    · simp only [List.append_assoc, Text.trimStart_append_of_blank hright]
      exact Text.trimStart_eq_self (fun c hc => by cases hc; decide)
    · exact if_neg fun h => hv ((Text.contains_singleton).mp h)

theorem Attributes.read_eq_bare_iff {attrs : Text} : read attrs = bare ↔ Blank attrs := by
  rw [← Text.trim_eq_nil_iff]
  unfold read
  split
  -- Nothing but blanks is left out of both readings.
  · next h => simp [h]
  · next hne =>
    have hne' : ¬ Text.trim attrs = [] := hne
    split <;> simp [hne']

theorem Attributes.read_eq_id_iff {attrs value : Text} :
    read attrs = .id value ↔ idValue? (Text.trim attrs) = some value := by
  unfold read
  split
  · next h =>
    have hnone : idValue? [] = none := rfl
    simp [h, hnone]
  · split
    · next v hv => simp [hv]
    · next hv => simp [hv]

theorem spells_none_iff {attrs : Text} : Spells attrs none ↔ Blank attrs :=
  ⟨fun h => by cases h; assumption, Spells.bare⟩

/-- An attribute text spells an `id` iff it is one between blanks. -/
theorem spells_some_iff {attrs value : Text} :
    Spells attrs (some value) ↔ idValue? (Text.trim attrs) = some value := by
  rw [idValue?_eq_some_iff]
  constructor
  -- The attribute starts with a letter and ends with a quote, so trimming takes the blanks alone.
  · intro h
    cases h with
    | @id before left right value after hb hl hr ha hv =>
      refine ⟨left, right, hl, hr, hv, Text.trim_eq_core hb ha ?_ ?_⟩
      · intro c hc
        cases hc
        decide
      · intro c hc
        rw [List.getLast?_append_of_ne_nil _ (by decide)] at hc
        cases hc
        decide
  · rintro ⟨left, right, hl, hr, hv, htrim⟩
    obtain ⟨before, after, hb, ha, hattrs⟩ := Text.exists_blank_trim attrs
    rw [hattrs, htrim]
    exact Spells.id hb hl hr ha hv

/-- Reading an attribute text and asking a pattern gives the `id` that the text spells. -/
theorem Pattern.accept?_read_eq_some_iff {p : Pattern} {attrs : Text} {id : Option Text} :
    p.accept? (.read attrs) = some id ↔
      Spells attrs id ∧ (p.requiresId = true → id.isSome = true) := by
  -- Whether there is an attribute decides which of the two readings applies.
  cases id with
  | none =>
    rw [spells_none_iff, ← Attributes.read_eq_bare_iff]
    cases hr : Attributes.read attrs <;> simp [accept?]
  | some value =>
    rw [spells_some_iff, ← Attributes.read_eq_id_iff]
    cases hr : Attributes.read attrs <;> simp [accept?]

/-! ## Readers -/

/-- `openingAt?` reads exactly the opening tags at the start of a text. -/
theorem openingAt?_eq_some_iff {name t : Text} {o : Opening} :
    openingAt? name t = some o ↔
      ∃ attrs, AttributeText attrs ∧ o.markup = '<' :: name ++ attrs ++ ['>'] ∧
        o.attributes = .read attrs ∧ t = o.markup ++ o.rest := by
  constructor
  · intro h
    unfold openingAt? at h
    split at h
    · next c rest hp =>
      split at h
      · next hc =>
        -- The tag goes up to the first bracket, so its attributes have none.
        split at h
        · next attrs after hs =>
          cases h
          have hrest := Text.eq_of_splitOnce? hs
          have hnoEnd : '>' ∉ attrs := by
            have := Text.not_infix_of_splitOnce? (by simp) hs
            rwa [← Text.contains_iff, Text.contains_singleton] at this
          refine ⟨attrs, ⟨hnoEnd, ?_⟩, rfl, rfl, ?_⟩
          · -- The reader has looked at the first character behind the name.
            intro d hd
            cases attrs with
            | nil => cases hd
            | cons a attrs =>
              cases hd
              simp only [List.cons_append, List.cons.injEq] at hrest
              rcases hc with rfl | hblank
              · exact absurd (hrest.1 ▸ List.mem_cons_self) hnoEnd
              · exact hrest.1 ▸ hblank
          · rw [(Text.dropPrefix?_eq_some_iff).mp hp, hrest]
            simp
        · cases h
      · cases h
    · cases h
  · rintro ⟨attrs, ⟨hnoEnd, hhead⟩, hmarkup, hattrs, rfl⟩
    obtain ⟨markup, attributes, rest⟩ := o
    obtain rfl : markup = _ := hmarkup
    obtain rfl : attributes = _ := hattrs
    -- No bracket stands in the attributes, so the text is cut behind them.
    have hsplit : Text.splitOnce? ['>'] (attrs ++ ['>'] ++ rest) = some (attrs, rest) := by
      refine Text.splitOnce?_append rest (by simp) ?_
      rwa [← Text.contains_iff, Text.contains_singleton]
    have hdrop : Text.dropPrefix? ('<' :: name) ('<' :: name ++ attrs ++ ['>'] ++ rest) =
        some (attrs ++ ['>'] ++ rest) := by
      rw [Text.dropPrefix?_eq_some_iff]
      simp
    -- The character behind the name is `>` when there are no attributes, and else a blank.
    obtain ⟨c, u, hcu, hc⟩ : ∃ c u, attrs ++ ['>'] ++ rest = c :: u ∧
        (c = '>' ∨ Unicode.isBlank c = true) := by
      cases attrs with
      | nil => exact ⟨'>', rest, rfl, .inl rfl⟩
      | cons a attrs => exact ⟨a, attrs ++ ['>'] ++ rest, rfl, .inr (hhead a rfl)⟩
    rw [hcu] at hsplit hdrop
    simp only [openingAt?, hdrop, if_pos hc, hsplit]

theorem openingAt?_append {name markup : Text} (h : IsOpening name markup) (rest : Text) :
    ∃ attributes, openingAt? name (markup ++ rest) = some ⟨markup, attributes, rest⟩ := by
  obtain ⟨attrs, ha, hm⟩ := h
  exact ⟨_, (openingAt?_eq_some_iff).mpr ⟨attrs, ha, hm, rfl, rfl⟩⟩

/-- At one place of a text stands at most one opening tag of a name. -/
theorem IsOpening.eq_of_append_eq {name m₁ m₂ r₁ r₂ : Text} (h₁ : IsOpening name m₁)
    (h₂ : IsOpening name m₂) (h : m₁ ++ r₁ = m₂ ++ r₂) : m₁ = m₂ ∧ r₁ = r₂ := by
  obtain ⟨a₁, ho₁⟩ := openingAt?_append h₁ r₁
  obtain ⟨a₂, ho₂⟩ := openingAt?_append h₂ r₂
  rw [h, ho₂] at ho₁
  cases ho₁
  exact ⟨rfl, rfl⟩

/-- A pattern accepts an opening tag that was read iff the grammar lets it open with that `id`. -/
theorem Pattern.accept?_eq_some_iff {p : Pattern} {t : Text} {o : Opening} {id : Option Text}
    (ho : openingAt? p.name t = some o) :
    p.accept? o.attributes = some id ↔ p.Opens o.markup id := by
  -- The text behind the tag does not matter for what the pattern makes of it.
  obtain ⟨attrs, ha, hm, hattrs, -⟩ := (openingAt?_eq_some_iff).mp ho
  rw [hattrs, accept?_read_eq_some_iff]
  constructor
  · intro h
    exact ⟨attrs, ha, hm, h⟩
  · rintro ⟨attrs', -, hm', h⟩
    have : attrs' = attrs := by
      have := hm'.symm.trans hm
      simpa using this
    exact this ▸ h

/-! ## The first opening tag -/

/-- No opening tag is found iff the text holds none. -/
theorem firstOpening?_eq_none_iff {name t : Text} :
    firstOpening? name t = none ↔ ∀ markup, IsOpening name markup → ¬ markup <:+: t := by
  induction t with
  | nil =>
    simp only [firstOpening?, true_iff]
    intro markup hm hinfix
    exact hm.ne_nil (List.infix_nil.mp hinfix)
  | cons c t ih =>
    unfold firstOpening?
    split
    · next o ho =>
      obtain ⟨attrs, ha, hm, -, ht⟩ := (openingAt?_eq_some_iff).mp ho
      -- A tag stands right here, so neither side holds.
      refine iff_of_false (by simp) fun h => h o.markup ⟨attrs, ha, hm⟩ ?_
      exact ⟨[], o.rest, by simpa using ht.symm⟩
    -- No tag stands right here, so both sides are about the rest of the text.
    · next hnone =>
      rw [Option.map_eq_none_iff, ih]
      refine forall₂_congr fun markup hm => ?_
      rw [List.infix_cons_iff, not_or]
      refine ⟨fun h => ⟨?_, h⟩, fun h => h.2⟩
      rintro ⟨rest, hrest⟩
      obtain ⟨a, ho⟩ := openingAt?_append hm rest
      rw [hrest, hnone] at ho
      cases ho

/-- The opening tag that is found stands in the text, and every other one starts no earlier. -/
theorem firstOpening?_eq_some {name t before : Text} {o : Opening}
    (h : firstOpening? name t = some (before, o)) :
    openingAt? name (o.markup ++ o.rest) = some o ∧ t = before ++ o.markup ++ o.rest ∧
      ∀ b markup rest, IsOpening name markup → t = b ++ markup ++ rest →
        before.length ≤ b.length := by
  induction t generalizing before with
  | nil => cases h
  | cons c t ih =>
    unfold firstOpening? at h
    split at h
    -- The tag at the first character is the first one.
    · next o' ho =>
      cases h
      obtain ⟨attrs, -, -, -, ht⟩ := (openingAt?_eq_some_iff).mp ho
      exact ⟨ht ▸ ho, by simpa using ht, fun _ _ _ _ _ => Nat.zero_le _⟩
    · next hnone =>
      obtain ⟨⟨before', o'⟩, hfirst, hpair⟩ := Option.map_eq_some_iff.mp h
      cases hpair
      obtain ⟨ho, ht, hmin⟩ := ih hfirst
      refine ⟨ho, by simp [ht], fun b markup rest hm hb => ?_⟩
      -- No tag stands at the first character, so the other tag is in the tail too.
      cases b with
      | nil =>
        obtain ⟨a, ho'⟩ := openingAt?_append hm rest
        rw [show markup ++ rest = c :: t by simpa using hb.symm, hnone] at ho'
        cases ho'
      | cons d b =>
        have htail : t = b ++ markup ++ rest := by simpa using (List.cons.inj hb).2
        simpa using hmin b markup rest hm htail

end DocPage.Tag
