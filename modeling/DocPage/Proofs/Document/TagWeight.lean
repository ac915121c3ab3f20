import DocPage.Document.Convert
import DocPage.Proofs.Document.Cleanup
import DocPage.Proofs.Document.Placeholder
import DocPage.Proofs.Tag.Residue
import DocPage.Proofs.Text.Trim
import DocPage.Proofs.Text.Words

/-!
# The weight of a text

The weight of a text counts the angle brackets that open in it, those that a docstring hides as
references included. A hidden bracket cannot overlap another one, so the weight is a sum over the
positions of the text. Nothing that happens to a text on its way into the recursion makes it
heavier: trimming, putting hidden characters back, keeping braces apart, and placeholders in place
of matches. The body of a match is lighter than the text, since the brackets of its tags are left
behind.

## Architecture

- **Positions**: `tagWeight_cons`, and what follows for parts of a text
- **Replacement**: `tagWeight_replace_le`, for the two replacements in docstrings
- **Matches**: `tagWeight_body_lt`, and `tagWeight_le_of_substituted` for a pass
-/

namespace DocPage.Document

open Tag (Span Segment)
open Text (Bracketed)

/-! ## Positions -/

/-- What follows the ampersand of a hidden bracket. -/
def hiddenTail : Text := ['a', 'm', 'p', ';', 'l', 't', ';']

/-- An opening angle bracket as the extractor hides it. -/
def hiddenBracket : Text := '&' :: hiddenTail

/-- The matcher behind the weight. -/
def hiddenMatcher : Matcher Unit := fun t =>
  if Text.startsWith hiddenBracket t then some (hiddenBracket.length, ()) else none

theorem tagWeight_eq (t : Text) :
    tagWeight t = t.count '<' + (Text.values hiddenMatcher t).length :=
  rfl

theorem hiddenBracket_prefix_cons {c : Char} {t : Text} :
    hiddenBracket <+: c :: t ↔ c = '&' ∧ hiddenTail <+: t :=
  List.cons_prefix_cons.trans (and_congr_left' eq_comm)

theorem spells_hiddenBracket : hiddenMatcher.Spells [(hiddenBracket, ())] := by
  have hword : hiddenMatcher = wordMatcher [(hiddenBracket, ())] := by
    funext t
    -- A list of one word is tried at every position, as the word itself is.
    exact List.findSome?_singleton.symm
  rw [hword]
  exact spells_wordMatcher (by decide) (by decide)

theorem hiddenMatcher_append (after : Text) :
    hiddenMatcher (hiddenBracket ++ after) = some (hiddenBracket.length, ()) :=
  spells_hiddenBracket.found List.mem_cons_self after

theorem hiddenMatcher_eq_none {t : Text} (h : ¬ hiddenBracket <+: t) : hiddenMatcher t = none :=
  spells_hiddenBracket.eq_none_iff.mpr (List.forall_mem_singleton.mpr h)

theorem eq_hiddenBracket_of_accepts {span : Text} (h : hiddenMatcher.Accepts span) :
    span = hiddenBracket := by
  obtain ⟨value, hmem⟩ := spells_hiddenBracket.accepts_iff.mp h
  cases List.mem_singleton.mp hmem
  rfl

/-- No hidden bracket starts in a text without an ampersand. -/
theorem values_hiddenMatcher_append {t : Text} (h : '&' ∉ t) (u : Text) :
    Text.values hiddenMatcher (t ++ u) = Text.values hiddenMatcher u := by
  -- Character by character: no match starts at any of them.
  induction t with
  | nil => rfl
  | cons c t ih =>
    have hnone : hiddenMatcher (c :: (t ++ u)) = none := by
      apply hiddenMatcher_eq_none
      rw [hiddenBracket_prefix_cons]
      rintro ⟨rfl, -⟩
      exact h List.mem_cons_self
    rw [List.cons_append, Text.values, Text.pieces_cons_of_none hnone]
    exact ih fun hmem => h (List.mem_cons_of_mem c hmem)

theorem tagWeight_nil : tagWeight [] = 0 := rfl

/-- The weight counts the positions at which a bracket, or a hidden one, stands. -/
theorem tagWeight_cons (c : Char) (t : Text) :
    tagWeight (c :: t) = tagWeight t + (if c = '<' then 1 else 0) +
      (if hiddenBracket <+: c :: t then 1 else 0) := by
  have hcount : (c :: t).count '<' = t.count '<' + if c = '<' then 1 else 0 := by
    simp only [List.count_cons, beq_iff_eq]
  have hvalues : (Text.values hiddenMatcher (c :: t)).length =
      (Text.values hiddenMatcher t).length + if hiddenBracket <+: c :: t then 1 else 0 := by
    -- Whether a hidden bracket starts at this character decides what the scan does next.
    by_cases h : hiddenBracket <+: c :: t
    · -- The rest of a hidden bracket has no ampersand, so the scan goes on where it ends.
      rw [if_pos h]
      obtain ⟨rfl, after, rfl⟩ := (hiddenBracket_prefix_cons).mp h
      rw [values_hiddenMatcher_append (by decide) after]
      have hhit := Text.pieces_append_of_match (List.cons_ne_nil _ _) (hiddenMatcher_append after)
      exact congrArg (fun ps => (List.filterMap Piece.value? ps).length) hhit
    · rw [if_neg h, Text.values, Text.pieces_cons_of_none (hiddenMatcher_eq_none h)]
      rfl
  rw [tagWeight_eq, tagWeight_eq, hcount, hvalues]
  omega

theorem tagWeight_cons_of_ne {c : Char} (hc : c ≠ '&') (t : Text) :
    tagWeight (c :: t) = tagWeight t + if c = '<' then 1 else 0 := by
  have hnone : ¬ hiddenBracket <+: c :: t := fun h => hc (hiddenBracket_prefix_cons.mp h).1
  rw [tagWeight_cons, if_neg hnone, Nat.add_zero]

theorem tagWeight_of_notMem {t : Text} (h : '&' ∉ t) : tagWeight t = t.count '<' := by
  have hvalues := values_hiddenMatcher_append h []
  rw [List.append_nil] at hvalues
  rw [tagWeight_eq, hvalues]
  rfl

/-- A bracket that is hidden across the seam adds to the weights of the parts. -/
theorem tagWeight_append_le (t u : Text) : tagWeight t + tagWeight u ≤ tagWeight (t ++ u) := by
  -- By induction on the first text. A bracket that starts in it and is whole stays so.
  induction t with
  | nil => simp [tagWeight_nil]
  | cons c t ih =>
    have hstart : hiddenBracket <+: c :: t → hiddenBracket <+: c :: (t ++ u) := fun h =>
      h.trans (List.prefix_append (c :: t) u)
    rw [List.cons_append, tagWeight_cons, tagWeight_cons]
    split_ifs <;> first | omega | exact absurd (hstart ‹_›) ‹_›

theorem tagWeight_le_of_infix {t u : Text} (h : t <:+: u) : tagWeight t ≤ tagWeight u := by
  obtain ⟨before, after, rfl⟩ := h
  have hfront := tagWeight_append_le before t
  have hback := tagWeight_append_le (before ++ t) after
  omega

theorem tagWeight_trim_le (t : Text) : tagWeight (Text.trim t) ≤ tagWeight t := by
  obtain ⟨b, a, -, -, ht⟩ := Text.exists_blank_trim t
  exact tagWeight_le_of_infix ⟨b, a, ht.symm⟩

/-- A text between angle brackets is weighed by itself. -/
theorem tagWeight_around {x : Text} (hx : Bracketed x) (t u : Text) :
    tagWeight (t ++ x ++ u) = tagWeight t + tagWeight x + tagWeight u := by
  have hvalues := Text.values_around spells_hiddenBracket.isLocal
    (fun span hspan => by rw [eq_hiddenBracket_of_accepts hspan]; decide)
    (fun span hspan => by rw [eq_hiddenBracket_of_accepts hspan]; decide) hx t u
  simp only [tagWeight_eq, hvalues, List.count_append, List.length_append]
  omega

theorem tagWeight_pos_of_bracketed {x : Text} (hx : Bracketed x) : 0 < tagWeight x := by
  obtain ⟨inner, rfl⟩ := hx
  rw [List.cons_append, tagWeight_cons_of_ne (by decide), if_pos rfl]
  exact Nat.succ_pos _

/-! ## Replacement -/

section Replacement

variable {needle new : Text} {n : Char}

/-- What is put in weighs no more than what it is put in for, wherever it stands, and no hidden
bracket reaches into it. -/
theorem tagWeight_replaceFrom_le (hneedle : needle ≠ []) (hn : n ∉ hiddenBracket)
    (hnew : ∀ behind, tagWeight (n :: new ++ behind) ≤ tagWeight needle + tagWeight behind)
    (skip : Nat) (t : Text) :
    tagWeight (Text.replaceFrom needle (n :: new) skip t) ≤ tagWeight (t.drop skip) := by
  -- Along the text, as the replacement goes. The skipped characters belong to an occurrence.
  induction t generalizing skip with
  | nil => cases skip <;> exact Nat.zero_le _
  | cons c t ih =>
    cases skip with
    | succ skip => exact ih skip
    | zero =>
      unfold Text.replaceFrom
      split
      · next hstarts =>
        obtain ⟨rest, hrest⟩ := Option.isSome_iff_exists.mp hstarts
        have heq := (Text.dropPrefix?_eq_some_iff).mp hrest
        obtain ⟨d, needle, rfl⟩ := List.exists_cons_of_ne_nil hneedle
        rw [List.cons_append] at heq
        obtain ⟨rfl, rfl⟩ := List.cons.inj heq
        have htail := ih needle.length
        rw [List.drop_left] at htail
        -- The occurrence goes, and its weight pays for what is put in.
        calc tagWeight (n :: new ++ Text.replaceFrom (c :: needle) (n :: new) needle.length
                (needle ++ rest))
            ≤ tagWeight (c :: needle) + tagWeight rest := (hnew _).trans (by omega)
          _ ≤ tagWeight (c :: needle ++ rest) := tagWeight_append_le _ _
      · -- A hidden bracket that starts here ends in front of the next replacement.
        have hstart : hiddenBracket <+: c :: Text.replaceFrom needle (n :: new) 0 t →
            hiddenBracket <+: c :: t := by
          intro h
          rw [hiddenBracket_prefix_cons] at h ⊢
          refine ⟨h.1, prefix_of_prefix_replaceFrom (fun hmem => ?_) h.2⟩
          exact hn (List.mem_cons_of_mem _ hmem)
        have hrest := ih 0
        rw [List.drop_zero] at hrest ⊢
        rw [tagWeight_cons, tagWeight_cons]
        split_ifs <;> first | omega | exact absurd (hstart ‹_›) ‹_›

theorem tagWeight_replace_le (hneedle : needle ≠ []) (hn : n ∉ hiddenBracket)
    (hnew : ∀ behind, tagWeight (n :: new ++ behind) ≤ tagWeight needle + tagWeight behind)
    (t : Text) : tagWeight (Text.replace needle (n :: new) t) ≤ tagWeight t :=
  tagWeight_replaceFrom_le hneedle hn hnew 0 t

end Replacement

/-- A hidden bracket that is put back still counts once. -/
theorem tagWeight_revealHidden_le (body : Text) :
    tagWeight (Docstring.revealHidden body) ≤ tagWeight body := by
  have hbraces : ∀ t, tagWeight (Text.replace "&amp;lcub;" ['\x7b'] t) ≤ tagWeight t := by
    -- A brace weighs nothing, so the bracket's worth of the reference is not used.
    refine tagWeight_replace_le (by decide) (by decide) fun behind => ?_
    rw [List.singleton_append, tagWeight_cons_of_ne (by decide), if_neg (by decide)]
    omega
  have hbrackets : ∀ t, tagWeight (Text.replace "&amp;lt;" ['<'] t) ≤ tagWeight t := by
    refine tagWeight_replace_le (by decide) (by decide) fun behind => ?_
    -- A hidden bracket weighs as much as the bracket that it stands for.
    have hone : tagWeight "&amp;lt;".toList = 1 := by decide
    rw [List.singleton_append, tagWeight_cons_of_ne (by decide), if_pos rfl, hone]
    omega
  exact (hbrackets _).trans (hbraces body)

/-- Braces that are kept apart bring characters, but no bracket. -/
theorem tagWeight_guardBraces_le (t : Text) :
    tagWeight (Docstring.guardBraces t) ≤ tagWeight t := by
  have hguard : ∀ behind : Text, tagWeight ('\x7d' :: "&zwnj;\x7d".toList ++ behind) ≤
      tagWeight "\x7d\x7d".toList + tagWeight behind := by
    intro behind
    simp [tagWeight_cons, hiddenBracket_prefix_cons, hiddenTail]
  exact tagWeight_replace_le (by decide) (by decide) hguard t

/-! ## Matches -/

/-- The body of a match leaves the brackets of its tags behind. -/
theorem tagWeight_body_lt {p : Tag.Pattern} {t : Text} {found : Text × Span}
    (h : found ∈ p.spans t) : tagWeight found.2.body < tagWeight t := by
  obtain ⟨hmatches, after, ht⟩ := (p.scan_segments t).sound h
  obtain ⟨attrs, -, hopening⟩ := hmatches.opens.isOpening
  have hbracket : 0 < tagWeight found.2.opening := by
    rw [hopening]
    exact tagWeight_pos_of_bracketed ⟨p.name ++ attrs, by simp⟩
  have hbody : tagWeight found.2.opening + tagWeight found.2.body ≤
      tagWeight (found.2.opening ++ found.2.body) :=
    tagWeight_append_le _ _
  -- The closing tag is not needed, so the body is weighed with its opening tag only.
  have hpart : found.2.opening ++ found.2.body <:+: t :=
    ⟨found.1, found.2.closing ++ after, by rw [ht, Span.source]; simp⟩
  have hle := tagWeight_le_of_infix hpart
  omega

theorem spans_eq_nil_of_tagWeight {t : Text} (h : tagWeight t = 0) (p : Tag.Pattern) :
    p.spans t = [] := by
  rw [List.eq_nil_iff_forall_not_mem]
  intro found hfound
  have := tagWeight_body_lt hfound
  omega

theorem tagWeight_placeholder (index : Nat) : tagWeight (placeholder index) = 1 := by
  have hampersand : '&' ∉ placeholder index := by
    intro hmem
    rcases List.mem_append.mp hmem with hmem | hclose
    · rcases List.mem_append.mp hmem with hstart | hdigit
      · exact absurd hstart (by decide)
      · exact Text.notMem_ofNat (by decide) index hdigit
    · exact absurd hclose (by decide)
  rw [tagWeight_of_notMem hampersand]
  obtain ⟨tail, htail, hbracket⟩ := (IsPlaceholder.of_index index).exists_tail
  rw [htail, List.count_cons_self, List.count_eq_zero_of_not_mem hbracket]

/-- Where placeholders stand for the matches, a text has not become heavier. What stands in front of
both texts takes part, since a hidden bracket may begin there. -/
theorem tagWeight_le_of_substituted {before t' : Text} {segments : List Segment}
    (h : Tag.Substituted (fun new => ∃ index, new = placeholder index) segments t')
    (hmatches : ∀ m ∈ Tag.located before segments, Bracketed m.2.source) (u : Text) :
    tagWeight (u ++ t') ≤ tagWeight (u ++ segments.flatMap Segment.source) := by
  -- Along the segments, with all that stands in front of them.
  induction h generalizing before u with
  | nil => exact Nat.le_refl _
  | @gap text rest segments _ ih =>
    have hrest := ih hmatches (u ++ text)
    rwa [List.append_assoc, List.append_assoc] at hrest
  | @span s new rest segments hnew _ ih =>
    obtain ⟨index, rfl⟩ := hnew
    -- Both the match and its placeholder are weighed by themselves, and the match is no lighter.
    have hsource : Bracketed s.source := hmatches _ List.mem_cons_self
    have hpos := tagWeight_pos_of_bracketed hsource
    have hrest := ih (fun m hm => hmatches m (List.mem_cons_of_mem _ hm)) []
    rw [List.nil_append, List.nil_append] at hrest
    rw [List.flatMap_cons, ← List.append_assoc, ← List.append_assoc,
      tagWeight_around (bracketed_placeholder index), tagWeight_placeholder]
    rw [show Segment.source (.span s) = s.source from rfl, tagWeight_around hsource]
    omega

/-- The content of a field is the body of a match. -/
theorem tagWeight_field_lt {kind : Tag.Kind} {body t : Text}
    (h : Docstring.field? kind body = some t) : tagWeight t < tagWeight body := by
  obtain ⟨found, hfound, rfl⟩ := Option.map_eq_some_iff.mp h
  have hbody := tagWeight_body_lt (List.mem_of_mem_head? hfound)
  exact Nat.lt_of_le_of_lt (tagWeight_trim_le found.2.body) hbody

end DocPage.Document
