import DocPage.Proofs.Body.RawMarkup
import DocPage.Proofs.Document.Placeholder

/-!
# Comments in raw markup

Components travel through the escaping of raw markup as comments. A chunk in which every tag is
known keeps all its comments, in order, and with them the placeholders. A chunk with an unknown tag
is escaped as a whole, and then none of its comments is left: a placeholder in it no longer stands
for its component.

## Architecture

- **Markup along a chunk**: `markup_induction`, for proofs that follow the scan of a chunk
- **Comments**: `comments` lists those of a chunk, and `HoldsInOrder` says that a text has them
- **Escaping**: what becomes of the comments of a chunk, and of its placeholders
-/

namespace DocPage.Body

open Document (indices Inert Finished IsPlaceholder placeholderMatcher)

/-! ## Markup along a chunk -/

theorem pieces_append_of_isMarkup {span : Text} {value : Option Text} (h : IsMarkup span value)
    (after : Text) : Text.pieces markupMatcher (span ++ after) =
      .hit span value :: Text.pieces markupMatcher after := by
  obtain ⟨rest, rfl⟩ := h.exists_cons
  exact Text.pieces_append_of_match (List.cons_ne_nil _ _) (markupMatcher_append h after)

/-- Induction along the scan of a chunk: a loose character, or a whole piece of markup. -/
theorem markup_induction {motive : Text → Prop} (nil : motive [])
    (plain : ∀ c t, markupMatcher (c :: t) = none → motive t → motive (c :: t))
    (markup : ∀ span value after, IsMarkup span value → motive after → motive (span ++ after))
    (chunk : Text) : motive chunk := by
  -- The pieces of a chunk are given by the matcher, and what it matches is markup.
  induction chunk using Text.pieces_induction markupMatcher_proper with
  | nil => exact nil
  | plain c t hnone ih => exact plain c t hnone ih
  | hit span after value hne hhit ih =>
    obtain ⟨span', after', hspan, heq, hlength⟩ := (markupMatcher_eq_some_iff).mp hhit
    obtain ⟨rfl, rfl⟩ := List.append_inj heq hlength
    exact markup span value after hspan ih

/-! ## Comments -/

/-- The comment that a piece of a chunk is. -/
def comment? : Piece (Option Text) → Option Text
  | .hit span none => some span
  | _ => none

/-- The comments of a chunk as written, in order. -/
def comments (chunk : Text) : List Text :=
  (Text.pieces markupMatcher chunk).filterMap comment?

/-- The parts stand in the text as they are, one behind the other. -/
inductive HoldsInOrder : List Text → Text → Prop where
  | nil {t : Text} : HoldsInOrder [] t
  | cons {part before after : Text} {rest : List Text} :
      HoldsInOrder rest after → HoldsInOrder (part :: rest) (before ++ part ++ after)

theorem HoldsInOrder.append_left {parts : List Text} {t : Text} (h : HoldsInOrder parts t)
    (u : Text) : HoldsInOrder parts (u ++ t) := by
  -- The text in front of the first part grows, and nothing else changes.
  cases h with
  | nil => exact .nil
  | cons hrest =>
    rw [← List.append_assoc, ← List.append_assoc]
    exact .cons hrest

/-- What stands in the first part stands in the text. -/
theorem HoldsInOrder.mem {part t : Text} {rest : List Text} (h : HoldsInOrder (part :: rest) t)
    {c : Char} (hc : c ∈ part) : c ∈ t := by
  cases h with
  | cons _ => exact List.mem_append_left _ (List.mem_append_right _ hc)

theorem comments_cons_of_none {c : Char} {t : Text} (h : markupMatcher (c :: t) = none) :
    comments (c :: t) = comments t := by
  unfold comments
  rw [Text.pieces_cons_of_none h]
  rfl

/-- Text without an opening bracket adds no comment. -/
theorem comments_append_of_notMem {t : Text} (ht : '<' ∉ t) (after : Text) :
    comments (t ++ after) = comments after := by
  -- Markup starts with a bracket, so each character of the text is a piece of its own.
  have hne : ∀ c ∈ t, c ≠ '<' := by
    rintro c hc rfl
    exact ht hc
  unfold comments
  rw [pieces_append_of_forall_ne hne, List.filterMap_append, List.filterMap_map]
  have hnone : t.filterMap (comment? ∘ Piece.plain) = [] :=
    List.filterMap_eq_nil_iff.mpr fun _ _ => rfl
  rw [hnone, List.nil_append]

theorem comments_of_notMem {t : Text} (ht : '<' ∉ t) : comments t = [] := by
  have h := comments_append_of_notMem ht []
  rwa [List.append_nil] at h

theorem comments_append_of_isMarkup {span : Text} {value : Option Text} (h : IsMarkup span value)
    (after : Text) :
    comments (span ++ after) = (comment? (.hit span value)).toList ++ comments after := by
  unfold comments
  rw [pieces_append_of_isMarkup h, List.filterMap_cons]
  cases value <;> rfl

/-- A comment starts with an opening bracket. -/
theorem mem_of_mem_comments {chunk span : Text} (h : span ∈ comments chunk) : '<' ∈ span := by
  -- The comments grow along the chunk, with at most one new comment for each piece.
  induction chunk using markup_induction with
  | nil => cases h
  | plain c t hnone ih =>
    rw [comments_cons_of_none hnone] at h
    exact ih h
  | markup found value after hfound ih =>
    rw [comments_append_of_isMarkup hfound] at h
    rcases List.mem_append.mp h with hhere | hafter
    · obtain ⟨rest, rfl⟩ := hfound.exists_cons
      -- Only markup without a name is a comment, and then the comment is all of it.
      cases value with
      | none =>
        obtain rfl := List.mem_singleton.mp hhere
        exact List.mem_cons_self
      | some name => cases hhere
    · exact ih hafter

/-- The comments of a chunk stand in it. -/
theorem holdsInOrder_comments (chunk : Text) : HoldsInOrder (comments chunk) chunk := by
  induction chunk using markup_induction with
  | nil => exact .nil
  | plain c t hnone ih =>
    rw [comments_cons_of_none hnone]
    exact ih.append_left [c]
  | markup span value after hspan ih =>
    rw [comments_append_of_isMarkup hspan]
    -- A comment is found where it stands; a tag only moves the later comments back.
    cases value with
    | none =>
      have hhere : HoldsInOrder (span :: comments after) ([] ++ span ++ after) := .cons ih
      exact hhere
    | some name => exact ih.append_left span

/-! ## Escaping -/

theorem notMem_escapeLooseChar (c : Char) : '<' ∉ Html.escapeLooseChar c :=
  fun h => (ne_of_mem_escapeLooseChar h).1 rfl

/-- A chunk with an unknown tag leaves no opening bracket. -/
theorem notMem_escapeChunk_of_unknown {known : Vocabulary} {chunk : Text}
    (h : ¬ allTagsKnown known chunk = true) : '<' ∉ escapeChunk known chunk := by
  unfold escapeChunk
  rw [if_neg h]
  -- Every character was escaped, and no escaped character is a bracket.
  intro hmem
  obtain ⟨c, -, hc⟩ := List.mem_flatMap.mp hmem
  exact notMem_escapeLooseChar c hc

/-- Writing the loose characters of a chunk as references touches no comment. -/
theorem comments_keep (chunk : Text) :
    comments ((Text.pieces markupMatcher chunk).flatMap keep) = comments chunk := by
  -- The characters between the comments are replaced one by one, so the scan goes on behind each.
  induction chunk using markup_induction with
  | nil => rfl
  | plain c t hnone ih =>
    rw [Text.pieces_cons_of_none hnone, List.flatMap_cons, comments_cons_of_none hnone, ← ih]
    exact comments_append_of_notMem (notMem_escapeLooseChar c) _
  | markup span value after hspan ih =>
    rw [pieces_append_of_isMarkup hspan, List.flatMap_cons, comments_append_of_isMarkup hspan,
      ← ih]
    exact comments_append_of_isMarkup hspan _

theorem comments_escapeChunk (known : Vocabulary) (chunk : Text) :
    comments (escapeChunk known chunk) =
      if allTagsKnown known chunk = true then comments chunk else [] := by
  split
  · next hknown =>
    rw [escapeChunk_of_known hknown]
    exact comments_keep chunk
  · next hunknown => exact comments_of_notMem (notMem_escapeChunk_of_unknown hunknown)

/-- A placeholder is markup: its first `-->` is its end. -/
theorem isMarkup_of_isPlaceholder {written : Text} {index : Nat} (h : IsPlaceholder written index) :
    IsMarkup written none := by
  obtain ⟨content, rfl, hbracket⟩ := h.exists_content
  exact .comment fun hoccurs => hbracket (hoccurs.subset (by decide))

/-- Where no markup starts, no placeholder does. -/
theorem placeholderMatcher_of_markupMatcher {t : Text} (h : markupMatcher t = none) :
    placeholderMatcher t = none := by
  rw [Option.eq_none_iff_forall_ne_some]
  rintro ⟨n, index⟩ hmatch
  obtain ⟨written, after, hwritten, rfl, -⟩ := (Document.placeholderMatcher_eq_some_iff).mp hmatch
  rw [markupMatcher_append (isMarkup_of_isPlaceholder hwritten)] at h
  cases h

/-- Markup ends with a closing bracket. -/
theorem IsMarkup.exists_concat {span : Text} {value : Option Text} (h : IsMarkup span value) :
    ∃ front, span = front ++ ['>'] := by
  cases h with
  | @comment content _ => exact ⟨"<!--".toList ++ content ++ "--".toList, by simp⟩
  -- A tag ends with its bracket, whichever way its name and attributes are finished.
  | @tag slash first name finish _ _ _ hfinish =>
    obtain ⟨front, rfl⟩ : ∃ front, finish = front ++ ['>'] := by
      cases hfinish with
      | bare => exact ⟨[], rfl⟩
      | slash => exact ⟨['/'], rfl⟩
      | attributes _ _ => exact ⟨_, rfl⟩
    exact ⟨'<' :: slash ++ first :: name ++ front, by simp⟩

theorem indices_append_of_isMarkup {span : Text} {value : Option Text} (h : IsMarkup span value)
    (after : Text) : indices (span ++ after) = indices span ++ indices after := by
  obtain ⟨front, rfl⟩ := h.exists_concat
  exact Document.indices_bracket_append front after

/-- Writing the loose characters of a chunk as references touches no placeholder. -/
theorem indices_keep (chunk : Text) :
    indices ((Text.pieces markupMatcher chunk).flatMap keep) = indices chunk := by
  induction chunk using markup_induction with
  | nil => rfl
  | plain c t hnone ih =>
    -- Where no markup starts, no placeholder does, so the character counts for neither text.
    have hplain := Document.indices_cons_of_none (placeholderMatcher_of_markupMatcher hnone)
    have hloose := Inert.of_notMem (notMem_escapeLooseChar c)
    rw [Text.pieces_cons_of_none hnone, List.flatMap_cons, hplain, ← ih]
    show indices (Html.escapeLooseChar c ++ _) = _
    rw [hloose.finished.indices_append, hloose.indices, List.nil_append]
  | markup span value after hspan ih =>
    rw [pieces_append_of_isMarkup hspan, List.flatMap_cons, indices_append_of_isMarkup hspan,
      ← ih]
    exact indices_append_of_isMarkup hspan _

theorem indices_escapeChunk (known : Vocabulary) (chunk : Text) :
    indices (escapeChunk known chunk) =
      if allTagsKnown known chunk = true then indices chunk else [] := by
  split
  · next hknown =>
    rw [escapeChunk_of_known hknown]
    exact indices_keep chunk
  · next hunknown =>
    exact Document.indices_of_notMem (notMem_escapeChunk_of_unknown hunknown)

/-- Escaping leaves no placeholder of a chunk unfinished. -/
theorem finished_keep {chunk : Text} (front : Text) (h : Finished (front ++ chunk)) :
    Finished ((Text.pieces markupMatcher chunk).flatMap keep) := by
  -- What stands in front grows along the chunk, since a placeholder might have begun there.
  induction chunk using markup_induction generalizing front with
  | nil => exact .of_notMem List.not_mem_nil
  | plain c t hnone ih =>
    rw [Text.pieces_cons_of_none hnone, List.flatMap_cons]
    refine .append (.of_notMem (notMem_escapeLooseChar c)) (ih (front ++ [c]) ?_)
    simpa using h
  | markup span value after hspan ih =>
    rw [pieces_append_of_isMarkup hspan, List.flatMap_cons]
    rw [← List.append_assoc] at h
    refine .append ?_ (ih (front ++ span) h)
    -- Markup ends with a bracket, so a placeholder that is open in front of it ends with it.
    obtain ⟨inner, rfl⟩ := hspan.exists_concat
    exact .of_middle h

theorem finished_escapeChunk (known : Vocabulary) {chunk : Text} (h : Finished chunk) :
    Finished (escapeChunk known chunk) := by
  by_cases hknown : allTagsKnown known chunk = true
  · rw [escapeChunk_of_known hknown]
    exact finished_keep [] h
  · exact .of_notMem (notMem_escapeChunk_of_unknown hknown)

/-! ## What survives -/

/-- **Comments survive escaping exactly when all tags of the chunk are known.**

Then the comments of the escaped chunk are those of the chunk, and so are the placeholders. When a
tag is unknown, no comment and no placeholder is left, so that nothing survives unless there was
nothing. -/
theorem comments_survive_iff_known (known : Vocabulary) (chunk : Text) :
    (HoldsInOrder (comments chunk) (escapeChunk known chunk) ↔
      allTagsKnown known chunk = true ∨ comments chunk = []) ∧
    comments (escapeChunk known chunk) =
      (if allTagsKnown known chunk = true then comments chunk else []) ∧
    indices (escapeChunk known chunk) =
      (if allTagsKnown known chunk = true then indices chunk else []) := by
  refine ⟨⟨fun h => ?_, fun h => ?_⟩, comments_escapeChunk known chunk,
    indices_escapeChunk known chunk⟩
  · by_contra hnot
    obtain ⟨hunknown, hsome⟩ := not_or.mp hnot
    obtain ⟨first, rest, hfirst⟩ := List.exists_cons_of_ne_nil hsome
    have hopens : '<' ∈ first := mem_of_mem_comments (hfirst ▸ List.mem_cons_self)
    -- A comment starts with a bracket, and none is left.
    rw [hfirst] at h
    exact notMem_escapeChunk_of_unknown hunknown (h.mem hopens)
  -- What the escaped chunk has is in it in order, and these are the comments of the chunk.
  · have hholds := holdsInOrder_comments (escapeChunk known chunk)
    rw [comments_escapeChunk] at hholds
    rcases h with hknown | hnone
    · rwa [if_pos hknown] at hholds
    · rw [hnone]
      exact .nil

/-- A placeholder in front of a tag that no component has. -/
def widgetChunk : Text := "<!--docmark-component-0--><Widget>".toList

/-- The comment of this chunk does not survive. -/
theorem comment_lost_beside_unknown_tag :
    comments widgetChunk = ["<!--docmark-component-0-->".toList] ∧
      escapeChunk .standard widgetChunk = "&lt;!--docmark-component-0-->&lt;Widget>".toList ∧
      ¬ HoldsInOrder (comments widgetChunk) (escapeChunk .standard widgetChunk) := by
  have hcomments : comments widgetChunk = ["<!--docmark-component-0-->".toList] := by
    decide +kernel
  have hescaped : escapeChunk .standard widgetChunk =
      "&lt;!--docmark-component-0-->&lt;Widget>".toList := by
    decide +kernel
  refine ⟨hcomments, hescaped, fun hholds => ?_⟩
  rw [hcomments, hescaped] at hholds
  exact absurd (hholds.mem (c := '<') (by decide)) (by decide)

end DocPage.Body
