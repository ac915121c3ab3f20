import DocPage.Body.RawMarkup
import DocPage.Proofs.Text.Scan
import DocPage.Proofs.Text.Trim

/-!
# Raw markup is escaped once and for all

What counts as markup in a raw chunk is said here without the matcher: a comment up to its first
`-->`, or a tag with a name, which ends at its first `>`. Whether markup stands at a place depends on
nothing behind it, and it starts with an angle bracket. So escaping the loose characters of a chunk
neither makes nor breaks markup, and what it leaves is left by escaping again.

## Architecture

- **Grammar**: `IsMarkup`, for comments and tags
- **Matching**: `markupMatcher` accepts exactly the sentences of the grammar
- **Settled scans**: no loose bracket or brace, and no unknown tag; escaping gives a text with such a
  scan, and keeps every text with such a scan
-/

namespace DocPage.Body

/-! ## Names -/

/-- A character of a name is no blank. -/
theorem isBlank_of_isTagNameChar {c : Char} (h : isTagNameChar c = true) :
    Unicode.isBlank c = false := by
  simp only [isTagNameChar, Char.isAlphanum, Bool.or_eq_true, beq_iff_eq] at h
  -- The letters come first among the characters of a name, and the digits have a range of their
  -- own.
  rcases h with ((((halpha | hdigit) | rfl) | rfl) | rfl) | rfl
  · exact Text.isBlank_of_isAlpha halpha
  · simp only [Char.isDigit, Bool.and_eq_true, decide_eq_true_eq, UInt32.le_iff_toNat_le,
      ge_iff_le] at hdigit
    change 48 ≤ c.toNat ∧ c.toNat ≤ 57 at hdigit
    exact Text.isBlank_of_toNat (by omega) (by omega)
  all_goals decide

theorem isTagNameChar_of_isAlpha {c : Char} (h : c.isAlpha = true) : isTagNameChar c = true := by
  simp [isTagNameChar, Char.isAlphanum, h]

/-! ## Grammar -/

/-- What may stand behind the name of a tag, with the `>` that ends the tag. -/
inductive IsTagEnd : Text → Prop where
  | bare : IsTagEnd ['>']
  | slash : IsTagEnd ['/', '>']
  | attributes {blank : Char} {attributes : Text} : Unicode.isBlank blank = true →
      (∀ c ∈ attributes, c ≠ '<' ∧ c ≠ '>') → IsTagEnd (blank :: attributes ++ ['>'])

/-- The text is a piece of markup: a comment, or an opening or closing tag with its name. -/
inductive IsMarkup : Text → Option Text → Prop where
  | comment {content : Text} : ¬ "-->".toList <:+: content →
      IsMarkup ("<!--".toList ++ content ++ "-->".toList) none
  | tag {slash : Text} {first : Char} {name finish : Text} : slash = [] ∨ slash = ['/'] →
      first.isAlpha = true → (∀ c ∈ name, isTagNameChar c = true) → IsTagEnd finish →
      IsMarkup ('<' :: slash ++ first :: name ++ finish) (some (first :: name))

theorem IsMarkup.exists_cons {span : Text} {value : Option Text} (h : IsMarkup span value) :
    ∃ rest, span = '<' :: rest := by
  cases h with
  | comment => exact ⟨_, rfl⟩
  | tag => exact ⟨_, rfl⟩

theorem IsTagEnd.exists_cons {finish : Text} (h : IsTagEnd finish) :
    ∃ c rest, finish = c :: rest ∧ isTagNameChar c = false := by
  cases h with
  | bare => exact ⟨_, _, rfl, by decide⟩
  | slash => exact ⟨_, _, rfl, by decide⟩
  | @attributes blank _ hblank _ =>
    refine ⟨blank, _, rfl, ?_⟩
    -- If the blank were part of the name, the name would not have ended.
    rw [Bool.eq_false_iff]
    intro hname
    rw [isBlank_of_isTagNameChar hname] at hblank
    cases hblank

/-! ## Matching -/

theorem commentLength?_eq_some_iff {t : Text} {n : Nat} :
    commentLength? t = some n ↔ ∃ content after, ¬ "-->".toList <:+: content ∧
      t = "<!--".toList ++ content ++ "-->".toList ++ after ∧ n = 4 + content.length + 3 := by
  constructor
  · intro h
    obtain ⟨rest, hrest, h⟩ := Option.bind_eq_some_iff.mp h
    obtain rfl := (Text.dropPrefix?_eq_some_iff).mp hrest
    obtain ⟨⟨content, after⟩, hcut, h⟩ := Option.bind_eq_some_iff.mp h
    cases h
    -- The first `-->` ends the comment, so its content has none.
    have hnone : ¬ "-->".toList <:+: content := Text.not_infix_of_splitOnce? (by decide) hcut
    obtain rfl := Text.eq_of_splitOnce? hcut
    exact ⟨content, after, hnone, by simp only [List.append_assoc], rfl⟩
  · rintro ⟨content, after, hcontent, rfl, rfl⟩
    have hcut : Text.splitOnce? "-->" (content ++ "-->".toList ++ after) = some (content, after) :=
      Text.splitOnce?_append_of_last after (by decide : '>' ∉ ['-', '-']) hcontent
    unfold commentLength?
    rw [List.append_assoc, List.append_assoc, Text.dropPrefix?_append, ← List.append_assoc content]
    simp only [Option.bind_eq_bind, Option.bind_some, hcut]

/-- The attributes end where the tag does. -/
theorem takeWhile_attributes_append {attributes : Text}
    (h : ∀ c ∈ attributes, c ≠ '<' ∧ c ≠ '>') (after : Text) :
    (attributes ++ '>' :: after).takeWhile (fun d => d != '<' && d != '>') = attributes := by
  refine Text.takeWhile_append_of_boundary (fun c hc => by simpa using h c hc) fun c hc => ?_
  cases hc
  decide

/-- What is found is the end of a tag. -/
theorem exists_isTagEnd_of_tagEndLength? {t : Text} {n : Nat} (h : tagEndLength? t = some n) :
    ∃ finish after, IsTagEnd finish ∧ t = finish ++ after ∧ n = finish.length := by
  unfold tagEndLength? at h
  -- The cases of the code are the ways in which a tag can end, in the same order.
  split at h
  · cases h
    exact ⟨['>'], _, .bare, rfl, rfl⟩
  · cases h
    exact ⟨['/', '>'], _, .slash, rfl, rfl⟩
  · next c t _ _ =>
    split at h
    · next hblank =>
      obtain ⟨rest, hrest⟩ := List.takeWhile_prefix (l := t) fun d => d != '<' && d != '>'
      have hall : ∀ d ∈ t.takeWhile fun d => d != '<' && d != '>', d ≠ '<' ∧ d ≠ '>' :=
        fun d hd => by simpa using List.mem_takeWhile_imp hd
      -- The attributes are named, since what stands behind them decides whether the tag ends.
      generalize t.takeWhile (fun d => d != '<' && d != '>') = attributes at *
      subst hrest
      dsimp only at h
      rw [List.drop_left] at h
      split at h
      · cases h
        refine ⟨c :: attributes ++ ['>'], _, .attributes hblank hall, by simp; rfl, ?_⟩
        simp only [List.length_append, List.length_cons, List.length_nil]
        omega
      · cases h
    · cases h
  · cases h

/-- The end of a tag is found, whatever stands behind it. -/
theorem tagEndLength?_append {finish : Text} (h : IsTagEnd finish) (after : Text) :
    tagEndLength? (finish ++ after) = some finish.length := by
  cases h with
  | bare => rfl
  | slash => rfl
  | @attributes blank attributes hblank hall =>
    have hcut : blank :: attributes ++ ['>'] ++ after = blank :: (attributes ++ '>' :: after) := by
      simp
    rw [hcut]
    unfold tagEndLength?
    -- A blank is neither the bracket nor the slash of the two shorter ends.
    split
    · next heq =>
      obtain ⟨rfl, -⟩ := List.cons.inj heq
      exact absurd hblank (by decide)
    · next heq =>
      obtain ⟨rfl, -⟩ := List.cons.inj heq
      exact absurd hblank (by decide)
    · next heq =>
      cases heq
      dsimp only
      rw [if_pos hblank, takeWhile_attributes_append hall, List.drop_left]
      simp
      omega
    · next heq => cases heq

/-- The name ends where what may follow a name begins. -/
theorem takeWhile_isTagNameChar_append {name finish : Text}
    (h : ∀ c ∈ name, isTagNameChar c = true) (hfinish : IsTagEnd finish) (after : Text) :
    (name ++ (finish ++ after)).takeWhile isTagNameChar = name := by
  obtain ⟨c, rest, rfl, hc⟩ := hfinish.exists_cons
  refine Text.takeWhile_append_of_boundary h fun d hd => ?_
  cases hd
  exact hc

/-- What is found is a tag. -/
theorem exists_isMarkup_of_tagMatcher {t name : Text} {n : Nat}
    (h : tagMatcher t = some (n, name)) :
    ∃ span after, IsMarkup span (some name) ∧ t = span ++ after ∧ n = span.length := by
  obtain ⟨rest, hrest, h⟩ := Option.bind_eq_some_iff.mp h
  obtain rfl := (Text.dropPrefix?_eq_some_iff).mp hrest
  -- With or without a slash, the rest of the work is the same.
  obtain ⟨slash, body, hslash, rfl, hbody⟩ : ∃ slash body, (slash = [] ∨ slash = ['/']) ∧
      rest = slash ++ body ∧ (Text.dropPrefix? ['/'] rest).getD rest = body := by
    -- A slash is dropped once; without one, the name starts right behind the bracket.
    cases hdrop : Text.dropPrefix? ['/'] rest with
    | none => exact ⟨[], rest, .inl rfl, rfl, rfl⟩
    | some body => exact ⟨['/'], body, .inr rfl, (Text.dropPrefix?_eq_some_iff).mp hdrop, rfl⟩
  dsimp only at h
  rw [hbody] at h
  obtain ⟨first, hfirst, h⟩ := Option.bind_eq_some_iff.mp h
  split at h
  · cases h
  · next halpha =>
    obtain ⟨finishLength, hend, h⟩ := Option.bind_eq_some_iff.mp h
    obtain ⟨more, rfl⟩ := List.head?_eq_some_iff.mp hfirst
    have halpha : first.isAlpha = true := by simpa using halpha
    obtain ⟨behind, hbehind⟩ := List.takeWhile_prefix (l := more) isTagNameChar
    have hname : ∀ c ∈ more.takeWhile isTagNameChar, isTagNameChar c = true :=
      fun c hc => List.mem_takeWhile_imp hc
    rw [List.takeWhile_cons_of_pos (isTagNameChar_of_isAlpha halpha)] at hend h
    -- The name is as long as it can be, so what follows is no part of it.
    generalize more.takeWhile isTagNameChar = tail at *
    subst hbehind
    rw [← List.cons_append, List.drop_left] at hend
    obtain ⟨finish, after, hfinish, rfl, rfl⟩ := exists_isTagEnd_of_tagEndLength? hend
    cases h
    refine ⟨_, after, .tag hslash halpha hname hfinish, by simp, ?_⟩
    simp only [List.length_append, List.length_cons, List.length_nil]
    omega

/-- A tag is found, whatever stands behind it. -/
theorem tagMatcher_append {span name : Text} (h : IsMarkup span (some name)) (after : Text) :
    tagMatcher (span ++ after) = some (span.length, name) := by
  cases h with
  | @tag slash first name finish hslash halpha hname hfinish =>
    -- A letter is no slash, so only the slash of the tag is dropped.
    have hbody : (Text.dropPrefix? ['/'] (slash ++ (first :: name ++ (finish ++ after)))).getD
        (slash ++ (first :: name ++ (finish ++ after))) = first :: name ++ (finish ++ after) := by
      rcases hslash with rfl | rfl
      · have hne : '/' ≠ first := by
          rintro rfl
          exact absurd halpha (by decide)
        simp [Text.dropPrefix?, hne]
      · rfl
    have hsplit : '<' :: slash ++ first :: name ++ finish ++ after =
        ['<'] ++ (slash ++ (first :: name ++ (finish ++ after))) := by
      simp
    -- The first letter is a character of a name like the others.
    have hall : ∀ c ∈ first :: name, isTagNameChar c = true := by
      intro c hc
      rcases List.mem_cons.mp hc with rfl | hc
      · exact isTagNameChar_of_isAlpha halpha
      · exact hname c hc
    unfold tagMatcher
    rw [hsplit, Text.dropPrefix?_append]
    simp only [Option.bind_eq_bind, Option.bind_some, hbody]
    rw [takeWhile_isTagNameChar_append hall hfinish, List.drop_left, tagEndLength?_append hfinish]
    simp [halpha]
    omega

/-- No comment starts where a tag does. -/
theorem commentLength?_of_isMarkup {span name : Text} (h : IsMarkup span (some name))
    (after : Text) : commentLength? (span ++ after) = none := by
  -- A comment that starts here would be cut from the same text as the tag.
  rw [Option.eq_none_iff_forall_ne_some]
  intro n hn
  obtain ⟨content, behind, -, heq, -⟩ := (commentLength?_eq_some_iff).mp hn
  cases h with
  | @tag slash first name finish hslash halpha =>
    -- Behind its bracket, a comment has an exclamation mark, and a tag a slash or a letter.
    have hsecond := (List.cons.inj heq).2
    rcases hslash with rfl | rfl
    · obtain ⟨rfl, -⟩ := List.cons.inj hsecond
      exact absurd halpha (by decide)
    · exact absurd (List.cons.inj hsecond).1 (by decide)

/-- The matcher accepts exactly the markup at the start of a text, whatever follows it. -/
theorem markupMatcher_eq_some_iff {t : Text} {n : Nat} {value : Option Text} :
    markupMatcher t = some (n, value) ↔
      ∃ span after, IsMarkup span value ∧ t = span ++ after ∧ n = span.length := by
  unfold markupMatcher
  constructor
  · intro h
    -- A comment is looked for first, and a tag where there is none.
    split at h
    · next length hlength =>
      cases h
      obtain ⟨content, after, hcontent, rfl, rfl⟩ := (commentLength?_eq_some_iff).mp hlength
      refine ⟨_, after, .comment hcontent, rfl, ?_⟩
      simp only [List.length_append]
      rfl
    · obtain ⟨⟨length, name⟩, hlength, h⟩ := Option.map_eq_some_iff.mp h
      cases h
      exact exists_isMarkup_of_tagMatcher hlength
  · rintro ⟨span, after, hspan, rfl, rfl⟩
    -- The value tells which kind of markup it is.
    cases value with
    | none =>
      cases hspan with
      | @comment content hcontent =>
        have hlength := (commentLength?_eq_some_iff).mpr ⟨content, after, hcontent, rfl, rfl⟩
        rw [hlength]
        simp only [List.length_append]
        rfl
    | some name =>
      rw [commentLength?_of_isMarkup hspan after, tagMatcher_append hspan after]
      rfl

theorem markupMatcher_append {span : Text} {value : Option Text} (h : IsMarkup span value)
    (after : Text) : markupMatcher (span ++ after) = some (span.length, value) :=
  (markupMatcher_eq_some_iff).mpr ⟨span, after, h, rfl, rfl⟩

theorem markupMatcher_of_ne {c : Char} (hc : c ≠ '<') (t : Text) : markupMatcher (c :: t) = none := by
  rw [Option.eq_none_iff_forall_ne_some]
  rintro ⟨n, value⟩ h
  obtain ⟨span, after, hspan, heq, -⟩ := (markupMatcher_eq_some_iff).mp h
  obtain ⟨rest, rfl⟩ := hspan.exists_cons
  exact hc (List.cons.inj heq).1

theorem markupMatcher_proper : Matcher.Proper markupMatcher := by
  intro t n value h
  -- What the matcher accepts is markup, which is never empty.
  obtain ⟨span, after, hspan, rfl, rfl⟩ := (markupMatcher_eq_some_iff).mp h
  obtain ⟨rest, rfl⟩ := hspan.exists_cons
  exact ⟨'<' :: rest, after, rfl, List.cons_ne_nil _ _, rfl⟩

/-! ## Settled scans -/

/-- A piece that escaping leaves alone: a character that starts neither markup nor an expression, a
comment, or a tag with a known name. -/
def IsSettled (known : Vocabulary) : Piece (Option Text) → Prop
  | .plain c => c ≠ '<' ∧ c ≠ '{'
  | .hit span value => IsMarkup span value ∧ ∀ name, value = some name → known.contains name = true

/-- A text without opening brackets holds no markup, whatever follows it. -/
theorem pieces_append_of_forall_ne {t : Text} (h : ∀ c ∈ t, c ≠ '<') (after : Text) :
    Text.pieces markupMatcher (t ++ after) =
      t.map Piece.plain ++ Text.pieces markupMatcher after := by
  induction t with
  | nil => rfl
  | cons c t ih =>
    rw [List.cons_append, Text.pieces_cons_of_none (markupMatcher_of_ne (h c List.mem_cons_self) _),
      ih fun d hd => h d (List.mem_cons_of_mem c hd)]
    rfl

theorem ne_of_mem_escapeLooseChar {c d : Char} (h : d ∈ Html.escapeLooseChar c) :
    d ≠ '<' ∧ d ≠ '{' := by
  unfold Html.escapeLooseChar at h
  split at h
  -- An escaped character is a short text, so the cases are checked one by one.
  · revert d
    decide
  · revert d
    decide
  · next h1 h2 =>
    obtain rfl := List.mem_singleton.mp h
    exact ⟨h1, h2⟩

theorem escapeLooseChar_of_ne {c : Char} (h1 : c ≠ '<') (h2 : c ≠ '{') :
    Html.escapeLooseChar c = [c] := by
  unfold Html.escapeLooseChar
  split
  · exact absurd rfl h1
  · exact absurd rfl h2
  · rfl

/-- Characters that start neither markup nor an expression are settled, whatever follows them. -/
theorem settled_append {known : Vocabulary} {t after : Text} (ht : ∀ c ∈ t, c ≠ '<' ∧ c ≠ '{')
    (hafter : ∀ piece ∈ Text.pieces markupMatcher after, IsSettled known piece) :
    ∀ piece ∈ Text.pieces markupMatcher (t ++ after), IsSettled known piece := by
  intro piece hpiece
  -- The text in front has no bracket, so its characters are pieces of their own.
  rw [pieces_append_of_forall_ne (fun c hc => (ht c hc).1)] at hpiece
  rcases List.mem_append.mp hpiece with hpiece | hpiece
  · obtain ⟨c, hc, rfl⟩ := List.mem_map.mp hpiece
    exact ht c hc
  · exact hafter piece hpiece

/-- What stands for a piece of a chunk whose tags are known. -/
def keep : Piece (Option Text) → Text
  | .plain c => Html.escapeLooseChar c
  | .hit span _ => span

theorem escapeChunk_of_known {known : Vocabulary} {chunk : Text}
    (h : allTagsKnown known chunk = true) :
    escapeChunk known chunk = (Text.pieces markupMatcher chunk).flatMap keep := by
  unfold escapeChunk
  rw [if_pos h]
  -- The choice between escaping and keeping is made for the whole chunk and is the same for every
  -- piece.
  apply List.flatMap_congr
  intro piece _
  cases piece <;> rfl

/-- A chunk whose tags are known is settled by escaping: its markup stays, and no new one arises. -/
theorem settled_keep {known : Vocabulary} {chunk : Text}
    (h : ∀ span name, .hit span (some name) ∈ Text.pieces markupMatcher chunk →
      known.contains name = true) :
    ∀ piece ∈ Text.pieces markupMatcher ((Text.pieces markupMatcher chunk).flatMap keep),
      IsSettled known piece := by
  -- The scan of the result goes along the scan of the chunk, piece by piece.
  induction chunk using Text.pieces_induction markupMatcher_proper with
  | nil => exact fun _ hpiece => nomatch hpiece
  | plain c t hnone ih =>
    rw [Text.pieces_cons_of_none hnone] at h ⊢
    -- An escaped character is settled by itself, and the rest by the induction.
    rw [List.flatMap_cons]
    refine settled_append (fun d hd => ne_of_mem_escapeLooseChar hd) (ih fun span name hmem => ?_)
    exact h span name (List.mem_cons_of_mem _ hmem)
  | hit span after value hne hhit ih =>
    rw [Text.pieces_append_of_match hne hhit] at h ⊢
    rw [List.flatMap_cons]
    -- What the matcher found is markup whatever follows it, so it is found in the result too.
    obtain ⟨span', after', hspan, heq, hlength⟩ := (markupMatcher_eq_some_iff).mp hhit
    obtain ⟨rfl, rfl⟩ := List.append_inj heq hlength
    show ∀ piece ∈ Text.pieces markupMatcher (span ++ _), IsSettled known piece
    rw [Text.pieces_append_of_match hne (markupMatcher_append hspan _)]
    intro piece hpiece
    rcases List.mem_cons.mp hpiece with rfl | hpiece
    · refine ⟨hspan, ?_⟩
      rintro name rfl
      exact h span name List.mem_cons_self
    · exact ih (fun span name hmem => h span name (List.mem_cons_of_mem _ hmem)) piece hpiece

/-- The scan of an escaped chunk is settled. -/
theorem settled_escapeChunk (known : Vocabulary) (chunk : Text) :
    ∀ piece ∈ Text.pieces markupMatcher (escapeChunk known chunk), IsSettled known piece := by
  by_cases hknown : allTagsKnown known chunk = true
  · rw [escapeChunk_of_known hknown]
    apply settled_keep
    -- Each tag that the scan finds was looked up when all tags of the chunk were.
    intro span name hmem
    have hvalue : some name ∈ Text.values markupMatcher chunk :=
      List.mem_filterMap.mpr ⟨_, hmem, rfl⟩
    exact List.all_eq_true.mp hknown _ hvalue
  · -- All of the chunk is escaped, so that no bracket is left.
    have hall : ∀ d ∈ Html.escapeLoose chunk, d ≠ '<' ∧ d ≠ '{' := by
      intro d hd
      obtain ⟨c, -, hd⟩ := List.mem_flatMap.mp hd
      exact ne_of_mem_escapeLooseChar hd
    unfold escapeChunk
    rw [if_neg hknown, ← List.append_nil (Html.escapeLoose chunk)]
    exact settled_append hall fun _ hpiece => nomatch hpiece

/-- Escaping leaves every text with a settled scan as it is. -/
theorem escapeChunk_of_settled {known : Vocabulary} {t : Text}
    (h : ∀ piece ∈ Text.pieces markupMatcher t, IsSettled known piece) :
    escapeChunk known t = t := by
  have hknown : allTagsKnown known t = true := by
    -- The tags of the text are found in its own scan, which is settled.
    apply List.all_eq_true.mpr
    intro value hvalue
    obtain ⟨piece, hpiece, hvalue⟩ := List.mem_filterMap.mp hvalue
    have hsettled := h piece hpiece
    cases piece with
    | plain c => cases hvalue
    | hit span found =>
      cases hvalue
      cases value with
      | none => rfl
      | some name => exact hsettled.2 name rfl
  -- So nothing is escaped wholesale, and piece by piece nothing changes.
  have hkeep : ∀ piece ∈ Text.pieces markupMatcher t, keep piece = piece.source := by
    intro piece hpiece
    have hsettled := h piece hpiece
    cases piece with
    | plain c => exact escapeLooseChar_of_ne hsettled.1 hsettled.2
    | hit span value => rfl
  rw [escapeChunk_of_known hknown, List.flatMap_congr hkeep,
    Text.flatMap_source_pieces markupMatcher_proper]

/-- **An escaped chunk is safe and stable.**

Every opening bracket and every opening brace in it stands inside markup that a scan of it finds: a
comment, or a tag with a known name. Escaping it again changes nothing. -/
theorem escapeChunk_safe_and_stable (known : Vocabulary) (chunk : Text) :
    (∀ before c after, escapeChunk known chunk = before ++ c :: after → c = '<' ∨ c = '{' →
      ∃ front span value u v,
        Text.FoundBehind markupMatcher (escapeChunk known chunk) front span value ∧
          before = front ++ u ∧ span = u ++ c :: v ∧ IsMarkup span value ∧
          ∀ name, value = some name → known.contains name = true) ∧
      escapeChunk known (escapeChunk known chunk) = escapeChunk known chunk := by
  refine ⟨?_, escapeChunk_of_settled (settled_escapeChunk known chunk)⟩
  intro before c after heq hc
  rw [← Text.flatMap_source_pieces markupMatcher_proper (escapeChunk known chunk)] at heq
  -- The pieces of the scan spell the text, so the character stands in one of them.
  obtain ⟨left, piece, right, u, v, hpieces, hpiece, hbefore, -⟩ :=
    Text.exists_part_of_flatMap_eq heq
  have hmem : piece ∈ Text.pieces markupMatcher (escapeChunk known chunk) := by
    rw [hpieces]
    exact List.mem_append_right left List.mem_cons_self
  have hsettled := settled_escapeChunk known chunk piece hmem
  cases piece with
  | plain d =>
    -- A loose character is neither of the two.
    have hd : c ∈ [d] := by
      rw [show [d] = u ++ c :: v from hpiece]
      exact List.mem_append_right u List.mem_cons_self
    obtain rfl := List.mem_singleton.mp hd
    rcases hc with rfl | rfl
    · exact absurd rfl hsettled.1
    · exact absurd rfl hsettled.2
  -- The character stands in markup, as the piece was found.
  | hit span value =>
    exact ⟨_, span, value, u, v, ⟨left, right, hpieces, rfl⟩, hbefore, hpiece, hsettled.1,
      hsettled.2⟩

/-- A chunk with a comment, a tag with a brace in it, a loose bracket and a loose brace. -/
def mixedChunk : Text := "<!-- <b> --><Tip warning=\x7btrue\x7d> \x7bx\x7d < y".toList

theorem mixedChunk_brace_in_known_tag :
    escapeChunk .standard mixedChunk =
        "<!-- <b> --><Tip warning=".toList ++ '{' :: "true\x7d> &lcub;x\x7d &lt; y".toList ∧
      ∃ front span value u v,
        Text.FoundBehind markupMatcher (escapeChunk .standard mixedChunk) front span value ∧
          "<!-- <b> --><Tip warning=".toList = front ++ u ∧ span = u ++ '{' :: v ∧
          IsMarkup span value ∧
          ∀ name, value = some name → Vocabulary.standard.contains name = true := by
  have hescaped : escapeChunk .standard mixedChunk =
      "<!-- <b> --><Tip warning=".toList ++ '{' :: "true\x7d> &lcub;x\x7d &lt; y".toList := by
    decide +kernel
  exact ⟨hescaped, (escapeChunk_safe_and_stable .standard mixedChunk).1 _ '{' _ hescaped (.inr rfl)⟩

end DocPage.Body
