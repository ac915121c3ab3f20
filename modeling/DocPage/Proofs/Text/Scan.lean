import DocPage.Proofs.Text.Search
import DocPage.Text.Scan

/-!
# Laws of scanning

When no match starts inside another one, `pieces` finds every match of a text, and the text is the
pieces joined. Proofs about scans go by `pieces_induction`, which follows the scan from match to
match.

## Architecture

- **Separate matchers**: `Matcher.Separate`
- **Pieces**: one equation for each way in which a scan goes on, and the induction over them
- **Joined texts**: a scan of two texts in one is a scan of each, unless a match straddles the seam
- **Positions**: `hits` lists the matches with their byte offsets; by `mem_hits_iff` these are all
  matches of the text
-/

namespace DocPage

variable {α : Type} {m : Matcher α}

/-- Matches are not empty and part of the text. -/
def Matcher.Proper (m : Matcher α) : Prop :=
  ∀ t n value, m t = some (n, value) → ∃ span after, t = span ++ after ∧ span ≠ [] ∧ n = span.length

/-- Matches are not empty and part of the text, and no match starts inside another one. -/
structure Matcher.Separate (m : Matcher α) : Prop where
  exists_append {t : Text} {n : Nat} {value : α} :
    m t = some (n, value) → ∃ span after, t = span ++ after ∧ span ≠ [] ∧ n = span.length
  apart {span inner after : Text} {value : α} : span ≠ [] → inner ≠ [] →
    m (span ++ inner ++ after) = some ((span ++ inner).length, value) → m (inner ++ after) = none

theorem Matcher.Separate.proper (h : m.Separate) : m.Proper :=
  fun _ _ _ => h.exists_append

/-- The text as a whole is a match. -/
def Matcher.Accepts (m : Matcher α) (span : Text) : Prop :=
  ∃ value, m span = some (span.length, value)

/-- Matches are not empty and part of the text, and each of them is a match whatever follows it. -/
def Matcher.Local (m : Matcher α) : Prop :=
  ∀ t n value, m t = some (n, value) → ∃ span after, t = span ++ after ∧ span ≠ [] ∧
    n = span.length ∧ ∀ behind, m (span ++ behind) = some (span.length, value)

theorem Matcher.Local.proper (h : m.Local) : m.Proper := by
  intro t n value hmatch
  obtain ⟨span, after, ht, hne, hn, -⟩ := h t n value hmatch
  exact ⟨span, after, ht, hne, hn⟩

/-- What follows a text cannot take a match from it. -/
theorem Matcher.Local.eq_none_of_append (h : m.Local) {t u : Text} (hnone : m (t ++ u) = none) :
    m t = none := by
  rw [Option.eq_none_iff_forall_ne_some]
  rintro ⟨n, value⟩ hmatch
  obtain ⟨span, after, rfl, -, -, hlocal⟩ := h t n value hmatch
  -- The match would be there with `u` behind it as well.
  rw [List.append_assoc, hlocal] at hnone
  cases hnone

/-- A match starts in the first text and ends in the second one. -/
def Matcher.Straddles (m : Matcher α) (t u : Text) : Prop :=
  ∃ a b, a ≠ [] ∧ b ≠ [] ∧ a <:+ t ∧ b <+: u ∧ m.Accepts (a ++ b)

namespace Text

/-! ## Pieces -/

theorem piecesFrom_eq_drop (m : Matcher α) (skip : Nat) (t : Text) :
    piecesFrom m skip t = pieces m (t.drop skip) := by
  induction t generalizing skip with
  | nil => cases skip <;> rfl
  | cons c t ih =>
    cases skip with
    | zero => rfl
    | succ skip => exact ih skip

theorem pieces_cons_of_none {c : Char} {t : Text} (h : m (c :: t) = none) :
    pieces m (c :: t) = .plain c :: pieces m t := by
  show piecesFrom m 0 (c :: t) = _
  unfold piecesFrom
  rw [h]
  rfl

theorem pieces_append_of_match {span after : Text} {value : α} (hne : span ≠ [])
    (h : m (span ++ after) = some (span.length, value)) :
    pieces m (span ++ after) = .hit span value :: pieces m after := by
  -- The first character starts the match, and the others are skipped.
  cases span with
  | nil => exact absurd rfl hne
  | cons c span =>
    rw [List.cons_append] at h ⊢
    show piecesFrom m 0 (c :: (span ++ after)) = _
    unfold piecesFrom
    rw [h]
    show .hit (c :: (span ++ after).take span.length) value ::
      piecesFrom m span.length (span ++ after) = _
    rw [List.take_left, piecesFrom_eq_drop, List.drop_left]

/-- Induction along a scan: a character that starts no match, or a whole match at once. -/
theorem pieces_induction (hm : m.Proper) {motive : Text → Prop} (nil : motive [])
    (plain : ∀ c t, m (c :: t) = none → motive t → motive (c :: t))
    (hit : ∀ span after value, span ≠ [] → m (span ++ after) = some (span.length, value) →
      motive after → motive (span ++ after)) (t : Text) : motive t := by
  induction hlength : t.length using Nat.strong_induction_on generalizing t with
  | _ n ih =>
    subst hlength
    cases t with
    | nil => exact nil
    | cons c t =>
      cases hmatch : m (c :: t) with
      | none => exact plain c t hmatch (ih t.length (Nat.lt_succ_self _) t rfl)
      | some found =>
        obtain ⟨k, value⟩ := found
        obtain ⟨span, after, ht, hne, rfl⟩ := hm _ _ _ hmatch
        have hpos := List.length_pos_iff.mpr hne
        -- The rest behind a match is shorter, since a match is not empty.
        rw [ht] at hmatch ih ⊢
        refine hit span after value hne hmatch (ih after.length ?_ after rfl)
        rw [List.length_append]
        omega

theorem flatMap_source_pieces (hm : m.Proper) (t : Text) :
    (pieces m t).flatMap Piece.source = t := by
  -- Characters and matches are copied, and nothing stands between them.
  induction t using pieces_induction hm with
  | nil => rfl
  | plain c t hnone ih =>
    rw [pieces_cons_of_none hnone, List.flatMap_cons, ih]
    rfl
  | hit span after value hne hhit ih =>
    rw [pieces_append_of_match hne hhit, List.flatMap_cons, ih]
    rfl

/-! ## Joined texts -/

theorem pieces_append (hm : m.Local) {t u : Text} (h : ¬ m.Straddles t u) :
    pieces m (t ++ u) = pieces m t ++ pieces m u := by
  induction t using pieces_induction hm.proper with
  | nil => rfl
  | plain c t hnone ih =>
    -- A match over the seam that starts later in the first text is one of the whole.
    have hrest : ¬ m.Straddles t u := by
      rintro ⟨a, b, ha, hb, hat, hbu, haccepts⟩
      exact h ⟨a, b, ha, hb, hat.trans (List.suffix_cons c t), hbu, haccepts⟩
    have hnone' : m (c :: (t ++ u)) = none := by
      rw [Option.eq_none_iff_forall_ne_some]
      rintro ⟨n, value⟩ hmatch
      obtain ⟨span, after, heq, hne, -, hlocal⟩ := hm _ _ _ hmatch
      rw [← List.cons_append] at heq
      rcases append_cases heq with ⟨inner, hinner, -⟩ | ⟨b, rfl, hu⟩
      · -- A match that ends in the first text would have been there before.
        rw [hinner, hlocal] at hnone
        cases hnone
      · by_cases hb : b = []
        · rw [hb, List.append_nil] at hlocal
          have hmatch := hlocal []
          rw [List.append_nil, hnone] at hmatch
          cases hmatch
        · refine h ⟨c :: t, b, List.cons_ne_nil c t, hb, List.suffix_refl _, ⟨after, hu.symm⟩,
            value, ?_⟩
          simpa using hlocal []
    rw [List.cons_append, pieces_cons_of_none hnone', ih hrest, pieces_cons_of_none hnone,
      List.cons_append]
  | hit span after value hne hhit ih =>
    have hrest : ¬ m.Straddles after u := by
      rintro ⟨a, b, ha, hb, hat, hbu, haccepts⟩
      exact h ⟨a, b, ha, hb, hat.trans (List.suffix_append span after), hbu, haccepts⟩
    -- The match is the same with `u` behind it.
    obtain ⟨span', after', heq, -, hlength, hlocal⟩ := hm _ _ _ hhit
    obtain ⟨rfl, rfl⟩ := List.append_inj heq hlength
    rw [List.append_assoc, pieces_append_of_match hne (hlocal _), ih hrest,
      pieces_append_of_match hne hhit, List.cons_append]

theorem values_append (hm : m.Local) {t u : Text} (h : ¬ m.Straddles t u) :
    values m (t ++ u) = values m t ++ values m u := by
  unfold values
  rw [pieces_append hm h, List.filterMap_append]

theorem mapMatches_append (hm : m.Local) (f : Text → α → Text) {t u : Text}
    (h : ¬ m.Straddles t u) : mapMatches m f (t ++ u) = mapMatches m f t ++ mapMatches m f u := by
  unfold mapMatches
  rw [pieces_append hm h, List.flatMap_append]

/-- A character that stands only at the start of matches starts no second part of one. -/
theorem not_straddles_of_head {c : Char} (hc : ∀ span, m.Accepts span → c ∉ span.tail)
    (t u : Text) : ¬ m.Straddles t (c :: u) := by
  -- The second part would start with `c` inside the match.
  rintro ⟨a, b, ha, hb, -, ⟨rest, hb'⟩, haccepts⟩
  obtain ⟨d, a, rfl⟩ := List.exists_cons_of_ne_nil ha
  obtain ⟨e, b, rfl⟩ := List.exists_cons_of_ne_nil hb
  obtain ⟨rfl, -⟩ := List.cons.inj hb'
  exact hc _ haccepts (List.mem_append_right a List.mem_cons_self)

/-- A character that stands only at the end of matches ends no first part of one. -/
theorem not_straddles_of_last {c : Char} (hc : ∀ span, m.Accepts span → c ∉ span.dropLast)
    (t u : Text) : ¬ m.Straddles (t ++ [c]) u := by
  -- The first part would end with `c` inside the match.
  rintro ⟨a, b, ha, hb, ⟨front, ha'⟩, -, haccepts⟩
  obtain ⟨a, d, rfl⟩ := List.eq_nil_or_concat'  a |>.resolve_left ha
  rw [← List.append_assoc] at ha'
  obtain ⟨-, hd⟩ := List.append_inj' ha' rfl
  cases hd
  refine hc _ haccepts ?_
  rw [List.dropLast_append_of_ne_nil hb]
  simp

/-- The text starts with an opening angle bracket and ends with a closing one. -/
def Bracketed (t : Text) : Prop := ∃ inner, t = '<' :: inner ++ ['>']

/-- Where such brackets stand only at the ends of matches, no match straddles an end of a text
between two of them. -/
theorem Bracketed.not_straddles (hopens : ∀ span, m.Accepts span → '<' ∉ span.tail)
    (hcloses : ∀ span, m.Accepts span → '>' ∉ span.dropLast) {x : Text} (hx : Bracketed x)
    (t u : Text) : ¬ m.Straddles t x ∧ ¬ m.Straddles (t ++ x) u := by
  obtain ⟨inner, rfl⟩ := hx
  refine ⟨not_straddles_of_head hopens t (inner ++ ['>']), ?_⟩
  rw [← List.append_assoc]
  exact not_straddles_of_last hcloses _ u

/-- So it is scanned by itself. -/
theorem values_around (hm : m.Local) (hopens : ∀ span, m.Accepts span → '<' ∉ span.tail)
    (hcloses : ∀ span, m.Accepts span → '>' ∉ span.dropLast) {x : Text} (hx : Bracketed x)
    (t u : Text) : values m (t ++ x ++ u) = values m t ++ values m x ++ values m u := by
  -- No match straddles either end of the text between brackets.
  obtain ⟨hfront, hback⟩ := hx.not_straddles hopens hcloses t u
  rw [values_append hm hback, values_append hm hfront]

theorem mapMatches_around (hm : m.Local) (hopens : ∀ span, m.Accepts span → '<' ∉ span.tail)
    (hcloses : ∀ span, m.Accepts span → '>' ∉ span.dropLast) (f : Text → α → Text) {x : Text}
    (hx : Bracketed x) (t u : Text) :
    mapMatches m f (t ++ x ++ u) = mapMatches m f t ++ mapMatches m f x ++ mapMatches m f u := by
  obtain ⟨hfront, hback⟩ := hx.not_straddles hopens hcloses t u
  rw [mapMatches_append hm f hback, mapMatches_append hm f hfront]

/-- A text without the character that starts every match holds no match, and starts none. -/
theorem pieces_of_notMem {c : Char} (hm : m.Proper)
    (hc : ∀ t n value, m t = some (n, value) → t.head? = some c) {t : Text} (ht : c ∉ t) :
    pieces m t = t.map Piece.plain := by
  induction t using pieces_induction hm with
  | nil => rfl
  | plain d t hnone ih =>
    rw [pieces_cons_of_none hnone, ih fun hmem => ht (List.mem_cons_of_mem d hmem)]
    rfl
  | hit span after value hne hhit ih =>
    -- A match starts with the character, which the text does not have.
    have hhead := hc _ _ _ hhit
    exact absurd (List.mem_of_mem_head? hhead) ht

/-! ## Positions -/

/-- The scan of the text finds the match `span` with its value behind `front`. -/
def FoundBehind (m : Matcher α) (t front span : Text) (value : α) : Prop :=
  ∃ left right, pieces m t = left ++ .hit span value :: right ∧ left.flatMap Piece.source = front

/-- Every character of a text made of parts stands in one of the parts. -/
theorem exists_part_of_flatMap_eq {β : Type} {f : β → Text} {parts : List β} {before after : Text}
    {c : Char} (h : parts.flatMap f = before ++ c :: after) :
    ∃ left part right u v, parts = left ++ part :: right ∧ f part = u ++ c :: v ∧
      before = left.flatMap f ++ u ∧ after = v ++ right.flatMap f := by
  induction parts generalizing before with
  | nil => exact absurd h.symm (List.append_ne_nil_of_right_ne_nil before (List.cons_ne_nil c after))
  | cons first rest ih =>
    rw [List.flatMap_cons] at h
    -- The character stands in the first part or behind it.
    rcases append_cases h with ⟨u, hfirst, hrest⟩ | ⟨u, rfl, hrest⟩
    · cases u with
      | nil =>
        -- The character is the first one behind the first part.
        obtain ⟨left, part, right, u, v, hparts, hpart, hbefore, hafter⟩ :=
          @ih [] (by simpa using hrest.symm)
        obtain ⟨hleft, rfl⟩ := List.append_eq_nil_iff.mp hbefore.symm
        refine ⟨first :: left, part, right, [], v, by rw [hparts]; rfl, hpart, ?_, hafter⟩
        rw [List.flatMap_cons, hleft, hfirst]
        simp
      | cons d u =>
        obtain ⟨rfl, rfl⟩ := List.cons.inj hrest
        exact ⟨[], first, rest, before, u, rfl, hfirst, rfl, rfl⟩
    · obtain ⟨left, part, right, u', v, hparts, hpart, rfl, hafter⟩ := ih hrest
      refine ⟨first :: left, part, right, u', v, by rw [hparts]; rfl, hpart, ?_, hafter⟩
      rw [List.flatMap_cons, List.append_assoc]

/-- The matches among the pieces of a text that starts at the byte `offset`, each with the byte
offset at which it starts. -/
def hits : (offset : Nat) → List (Piece α) → List (Nat × α)
  | _, [] => []
  | offset, .plain c :: rest => hits (offset + c.utf8Size) rest
  | offset, .hit span value :: rest => (offset, value) :: hits (offset + byteSize span) rest

theorem map_snd_hits (offset : Nat) (ps : List (Piece α)) :
    (hits offset ps).map Prod.snd = ps.filterMap Piece.value? := by
  -- The offsets play no part in which matches there are.
  induction ps generalizing offset with
  | nil => rfl
  | cons piece ps ih =>
    cases piece with
    | plain c => exact ih _
    | hit span value => exact congrArg (value :: ·) (ih _)

/-- The matches of a text are those that the scan finds. -/
theorem mem_hits_iff (hm : m.Separate) {start offset : Nat} {value : α} {t : Text} :
    (offset, value) ∈ hits start (pieces m t) ↔ ∃ before rest n,
      t = before ++ rest ∧ m rest = some (n, value) ∧ start + byteSize before = offset := by
  -- Along the scan: a match starts here, inside the match found, or further on.
  induction t using pieces_induction hm.proper generalizing start with
  | nil =>
    constructor
    · exact fun h => nomatch h
    · rintro ⟨before, rest, n, ht, hmatch, -⟩
      obtain ⟨rfl, rfl⟩ := List.nil_eq_append_iff.mp ht
      obtain ⟨span, after, ht, hne, -⟩ := hm.exists_append hmatch
      exact absurd (List.nil_eq_append_iff.mp ht).1 hne
  | plain c t hnone ih =>
    rw [pieces_cons_of_none hnone, hits, ih]
    -- A match further on is one of the rest, and none starts here.
    constructor
    · rintro ⟨before, rest, n, rfl, hmatch, rfl⟩
      exact ⟨c :: before, rest, n, rfl, hmatch, by rw [byteSize_cons, Nat.add_assoc]⟩
    · rintro ⟨before, rest, n, ht, hmatch, rfl⟩
      cases before with
      | nil =>
        rw [List.nil_append] at ht
        rw [← ht, hnone] at hmatch
        cases hmatch
      | cons d before =>
        obtain ⟨rfl, rfl⟩ := List.cons.inj ht
        exact ⟨before, rest, n, rfl, hmatch, by rw [byteSize_cons, Nat.add_assoc]⟩
  | hit span after found hne hhit ih =>
    rw [pieces_append_of_match hne hhit, hits, List.mem_cons, ih]
    constructor
    · rintro (hhere | ⟨before, rest, n, rfl, hmatch, rfl⟩)
      · cases hhere
        exact ⟨[], span ++ after, span.length, rfl, hhit, rfl⟩
      · refine ⟨span ++ before, rest, n, (List.append_assoc ..).symm, hmatch, ?_⟩
        rw [byteSize_append, Nat.add_assoc]
    · rintro ⟨before, rest, n, ht, hmatch, rfl⟩
      rcases append_cases ht with ⟨inner, rfl, hinner⟩ | ⟨behind, rfl, rfl⟩
      · by_cases hbefore : before = []
        · subst hbefore
          rw [hinner] at hmatch
          cases hhit.symm.trans hmatch
          exact .inl rfl
        · by_cases hnil : inner = []
          · subst hnil
            refine .inr ⟨[], rest, n, hinner.symm, hmatch, ?_⟩
            simp
          · -- The match would start inside the one that the scan found.
            rw [hinner, hm.apart hbefore hnil hhit] at hmatch
            cases hmatch
      · refine .inr ⟨behind, rest, n, rfl, hmatch, ?_⟩
        rw [byteSize_append, Nat.add_assoc]

theorem le_of_mem_hits {start : Nat} {ps : List (Piece α)} {found : Nat × α}
    (h : found ∈ hits start ps) : start ≤ found.1 := by
  induction ps generalizing start with
  | nil => cases h
  -- Each match stands behind the pieces in front of it.
  | cons piece ps ih =>
    cases piece with
    | plain c =>
      have := ih h
      omega
    | hit span value =>
      rcases List.mem_cons.mp h with rfl | h
      · exact Nat.le_refl start
      · have := ih h
        omega

/-- The scan finds the matches in the order in which they stand in the text. -/
theorem pairwise_hits (hm : m.Separate) (start : Nat) (t : Text) :
    (hits start (pieces m t)).Pairwise fun a b => a.1 < b.1 := by
  induction t using pieces_induction hm.proper generalizing start with
  | nil => exact List.Pairwise.nil
  | plain c t hnone ih =>
    rw [pieces_cons_of_none hnone, hits]
    exact ih _
  | hit span after value hne hhit ih =>
    rw [pieces_append_of_match hne hhit, hits]
    -- The later ones start behind the end of this one, and it is not empty.
    refine List.pairwise_cons.mpr ⟨fun later hlater => ?_, ih _⟩
    have hle := le_of_mem_hits hlater
    have hpos := byteSize_pos hne
    omega

end Text

end DocPage
