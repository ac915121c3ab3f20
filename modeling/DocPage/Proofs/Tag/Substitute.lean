import DocPage.Proofs.Tag.Spans
import DocPage.Tag.Substitute

/-!
# What a substitution writes

The substitution runs its transform once for each match, in the order of the text, and puts what the
transform returns between the gaps of the text. `splice` says where each part of the result comes
from by positions in the source alone, so that nothing returned by a transform is read again.

## Architecture

- **Splicing**: `splice`, and how it moves over a gap and over a match
- **Course**: the substitution is the transform over the matches, then `splice`, in every monad
- **Failure**: a transform over a list stops at the first element for which it fails
-/

namespace DocPage.Tag

/-! ## Splicing -/

/-- The text from the position `last` on, where each match is replaced by the new text that belongs
to it. -/
def splice (t : Text) : (last : Nat) → List (Text × Span) → List Text → Text
  | last, (before, s) :: matched, new :: news =>
    (t.take before.length).drop last ++ new ++
      splice t (before ++ s.source).length matched news
  | last, _, _ => t.drop last

/-- A gap in front of all matches is copied. -/
theorem splice_gap (front text behind : Text) {matched : List (Text × Span)} (news : List Text)
    (h : ∀ m ∈ matched, front ++ text <+: m.1) :
    splice (front ++ text ++ behind) front.length matched news =
      text ++ splice (front ++ text ++ behind) (front ++ text).length matched news := by
  have hrest : (front ++ text ++ behind).drop front.length = text ++ behind := by
    rw [List.append_assoc, List.drop_left]
  -- Without a match or a new text there is only the rest to copy.
  match matched, news with
  | [], _ | _ :: _, [] => simp only [splice, hrest, List.drop_left]
  | (before, s) :: matched, new :: news =>
    obtain ⟨more, rfl⟩ := h _ List.mem_cons_self
    -- The cut in front of the match stands behind the whole gap.
    have hcut : (front ++ text ++ behind).take (front ++ text ++ more).length =
        front ++ (text ++ behind.take more.length) := by
      rw [List.length_append, List.take_length_add_append, List.append_assoc]
    simp only [splice, hcut]
    rw [List.drop_left, ← List.append_assoc front, List.drop_left]
    simp only [List.append_assoc]

/-- A match at the position that is reached gives way to its new text. -/
theorem splice_span (t before : Text) (s : Span) (matched : List (Text × Span)) (new : Text)
    (news : List Text) :
    splice t before.length ((before, s) :: matched) (new :: news) =
      new ++ splice t (before ++ s.source).length matched news := by
  rw [splice, List.drop_take_self, List.nil_append]

/-! ## The course of a substitution -/

section Course

variable {m : Type → Type} [Monad m] [LawfulMonad m]

theorem substituteSegments_eq_splice (transform : Text → Span → m Text) (before : Text)
    (segments : List Segment) :
    substituteSegments transform before segments = (do
      let news ← (located before segments).mapM fun found => transform found.1 found.2
      pure (splice (before ++ segments.flatMap Segment.source) before.length
        (located before segments) news)) := by
  -- Along the segments, with all text in front of them known.
  induction segments generalizing before with
  | nil => simp [substituteSegments, located, splice]
  | cons segment segments ih =>
    cases segment with
    | gap text =>
      -- The matches are those behind the gap, and the gap stands in front of each of them.
      have hbehind : ∀ found ∈ located (before ++ text) segments, before ++ text <+: found.1 :=
        fun _ => prefix_of_mem_located
      have hgap := fun news : List Text =>
        splice_gap before text (segments.flatMap Segment.source) news hbehind
      simp only [List.append_assoc] at hgap
      rw [substituteSegments, ih]
      simp only [located, List.flatMap_cons, Segment.source, hgap, List.append_assoc, bind_assoc,
        pure_bind]
    | span s =>
      -- The match is transformed first, and its new text stands in front of what follows.
      rw [substituteSegments]
      simp only [ih, located, List.flatMap_cons, Segment.source, splice_span, List.mapM_cons,
        List.append_assoc, bind_assoc, pure_bind]

/-- The segments of a text spell it. -/
theorem Pattern.Scan.flatMap_source {p : Pattern} {t : Text} {segments : List Segment}
    (h : p.Scan t segments) : segments.flatMap Segment.source = t := by
  -- One case for each way in which the search went on; gaps and matches are parts of the text.
  induction h with
  | bare _ | unclosed _ _ _ => exact List.append_nil _
  | unfit _ _ _ ih | nested _ _ _ _ _ _ ih =>
    rw [List.flatMap_cons, ih]
    simp [Segment.source]
  | found _ _ _ ih =>
    rw [List.flatMap_cons, List.flatMap_cons, ih]
    simp [Segment.source, Span.source]

theorem substitute_eq_splice (p : Pattern) (transform : Text → Span → m Text) (t : Text) :
    substitute p transform t = (do
      let news ← (p.spans t).mapM fun found => transform found.1 found.2
      pure (splice t 0 (p.spans t) news)) := by
  -- The segments of the search spell the text, so the splice is taken from the text.
  have hcourse := substituteSegments_eq_splice transform [] (p.segments t)
  rwa [(p.scan_segments t).flatMap_source] at hcourse

theorem mapM_congr {α β : Type} {f g : α → m β} {xs : List α}
    (h : ∀ x ∈ xs, f x = g x) : xs.mapM f = xs.mapM g := by
  induction xs with
  | nil => rfl
  | cons x xs ih =>
    rw [List.mapM_cons, List.mapM_cons, h x List.mem_cons_self,
      ih fun y hy => h y (List.mem_cons_of_mem x hy)]

/-- Transforms that agree on the matches of the text give the same result. -/
theorem substitute_congr {p : Pattern} {x y : Text → Span → m Text} {t : Text}
    (h : ∀ found ∈ p.spans t, x found.1 found.2 = y found.1 found.2) :
    substitute p x t = substitute p y t := by
  rw [substitute_eq_splice, substitute_eq_splice, mapM_congr h]

end Course

/-- Where each match is put back as it was written, the gaps complete the text. -/
theorem splice_sources (before : Text) (segments : List Segment) :
    splice (before ++ segments.flatMap Segment.source) before.length (located before segments)
        ((located before segments).map fun found => found.2.source) =
      segments.flatMap Segment.source := by
  -- Along the segments: a gap is copied, and a match is put back.
  induction segments generalizing before with
  | nil => simp [located, splice]
  | cons segment segments ih =>
    rw [List.flatMap_cons, ← List.append_assoc]
    cases segment with
    | gap text =>
      refine (splice_gap before text _ _ fun _ hm => prefix_of_mem_located hm).trans ?_
      exact congrArg (text ++ ·) (ih (before ++ text))
    | span s =>
      refine (splice_span _ before s _ _ _).trans ?_
      exact congrArg (s.source ++ ·) (ih (before ++ s.source))

/-! ## Failure -/

section Failure

variable {ε α β : Type} {f : α → Except ε β}

theorem mapM_eq_ok {xs : List α} {ys : List β} (h : List.Forall₂ (fun x y => f x = .ok y) xs ys) :
    xs.mapM f = .ok ys := by
  induction h with
  | nil => rfl
  | cons hx _ ih =>
    rw [List.mapM_cons, hx, ih]
    rfl

theorem exists_forall₂_of_forall_ok {xs : List α} (h : ∀ x ∈ xs, ∃ y, f x = .ok y) :
    ∃ ys, List.Forall₂ (fun x y => f x = .ok y) xs ys := by
  induction xs with
  | nil => exact ⟨[], .nil⟩
  | cons x xs ih =>
    obtain ⟨y, hy⟩ := h x List.mem_cons_self
    obtain ⟨ys, hys⟩ := ih fun x' hx' => h x' (List.mem_cons_of_mem x hx')
    exact ⟨y :: ys, .cons hy hys⟩

theorem mapM_eq_error {earlier later : List α} {x : α} {error : ε}
    (hearlier : ∀ x' ∈ earlier, ∃ y, f x' = .ok y) (hx : f x = .error error) :
    (earlier ++ x :: later).mapM f = .error error := by
  -- The answers in front are put aside, and the error is the answer to the whole.
  obtain ⟨ys, hys⟩ := exists_forall₂_of_forall_ok hearlier
  rw [List.mapM_append, mapM_eq_ok hys, List.mapM_cons, hx]
  rfl

/-- Where a function fails on some element of a list, there is a first one of this kind. -/
theorem exists_first_error {xs : List α} (h : ∃ x ∈ xs, ∃ error, f x = .error error) :
    ∃ earlier x later error, xs = earlier ++ x :: later ∧ (∀ x' ∈ earlier, ∃ y, f x' = .ok y) ∧
      f x = .error error := by
  induction xs with
  | nil =>
    obtain ⟨x, hx, -⟩ := h
    cases hx
  | cons x xs ih =>
    -- The first element fails or is one of those that do not.
    cases hfirst : f x with
    | error error => exact ⟨[], x, xs, error, rfl, by simp, hfirst⟩
    | ok y =>
      obtain ⟨bad, hbad, error, herror⟩ := h
      -- The failing element is not the first one.
      have hmem : bad ∈ xs := by
        rcases List.mem_cons.mp hbad with rfl | hmem
        · rw [hfirst] at herror
          cases herror
        · exact hmem
      obtain ⟨earlier, x', later, error', rfl, hearlier, hx'⟩ := ih ⟨bad, hmem, error, herror⟩
      refine ⟨x :: earlier, x', later, error', rfl, fun z hz => ?_, hx'⟩
      rcases List.mem_cons.mp hz with rfl | hz
      · exact ⟨y, hfirst⟩
      · exact hearlier z hz

end Failure

/-! ## What a substitution yields -/

/-- **A substitution splices, or fails at the first match that fails.**

In every monad it runs the transform on the matches in the order of the text and splices what comes
back. The matches stand in the text one behind the other, and putting each back as written gives the
text. So a transform that succeeds on all matches yields the gaps of the text and the new texts in
turn, and otherwise the error is that of the first match on which it fails. -/
theorem substitute_splices_or_fails (p : Pattern) (t : Text) :
    (∀ (m : Type → Type) [Monad m] [LawfulMonad m] (transform : Text → Span → m Text),
      substitute p transform t = (do
        let news ← (p.spans t).mapM fun found => transform found.1 found.2
        pure (splice t 0 (p.spans t) news))) ∧
    (∀ found ∈ p.spans t, ∃ after, t = found.1 ++ found.2.source ++ after) ∧
    (p.spans t).Pairwise (fun first second => first.1 ++ first.2.source <+: second.1) ∧
    splice t 0 (p.spans t) ((p.spans t).map fun found => found.2.source) = t ∧
    ∀ (ε : Type) (transform : Text → Span → Except ε Text),
      ((∀ found ∈ p.spans t, ∃ new, transform found.1 found.2 = .ok new) →
        ∃ news, List.Forall₂ (fun found new => transform found.1 found.2 = .ok new)
            (p.spans t) news ∧
          substitute p transform t = .ok (splice t 0 (p.spans t) news)) ∧
      ((∃ found ∈ p.spans t, ∃ error, transform found.1 found.2 = .error error) →
        ∃ earlier found later error, p.spans t = earlier ++ found :: later ∧
          (∀ other ∈ earlier, ∃ new, transform other.1 other.2 = .ok new) ∧
          transform found.1 found.2 = .error error ∧
          substitute p transform t = .error error) := by
  refine ⟨fun m _ _ transform => substitute_eq_splice p transform t,
    fun found hfound => ((p.scan_segments t).sound hfound).2,
    located_pairwise [] (p.segments t), ?_, fun ε transform => ⟨fun hall => ?_, fun hsome => ?_⟩⟩
  -- Each match is put back as written, which gives the segments again.
  · have hsources := splice_sources [] (p.segments t)
    rwa [(p.scan_segments t).flatMap_source] at hsources
  · obtain ⟨news, hnews⟩ := exists_forall₂_of_forall_ok hall
    refine ⟨news, hnews, ?_⟩
    rw [substitute_eq_splice, mapM_eq_ok hnews]
    rfl
  · obtain ⟨earlier, found, later, error, hspans, hearlier, hfound⟩ := exists_first_error hsome
    refine ⟨earlier, found, later, error, hspans, hearlier, hfound, ?_⟩
    rw [substitute_eq_splice, hspans, mapM_eq_error hearlier hfound]
    rfl

/-- A transform that gives lower case bodies in upper case and fails on others. -/
def shout (_ : Text) (s : Span) : Except Text Text :=
  if s.body.all Char.isLower then .ok (s.body.map Char.toUpper) else .error s.body

/-- Two matches are shouted between three gaps. In the other text the second match fails, and the
third one would. -/
theorem substitute_shout :
    substitute (.plain .pt) shout "a <pt>one</pt> b <pt>two</pt> c" = .ok "a ONE b TWO c".toList ∧
      ∃ earlier found later error,
        (Pattern.plain .pt).spans "<pt>ok</pt><pt>Bad</pt><pt>4</pt>" = earlier ++ found :: later ∧
          found.2.body = error ∧
          substitute (.plain .pt) shout "<pt>ok</pt><pt>Bad</pt><pt>4</pt>" = .error error := by
  constructor
  · obtain ⟨news, hnews, hshout⟩ := ((substitute_splices_or_fails (.plain .pt)
      "a <pt>one</pt> b <pt>two</pt> c").2.2.2.2 Text shout).1 fun found hfound =>
        ⟨found.2.body.map Char.toUpper, by revert found; decide +kernel⟩
    have hspans : (Pattern.plain .pt).spans "a <pt>one</pt> b <pt>two</pt> c" =
        [("a ".toList, ⟨"<pt>", none, "one", "</pt>"⟩),
          ("a <pt>one</pt> b ".toList, ⟨"<pt>", none, "two", "</pt>"⟩)] := by
      decide +kernel
    rw [hspans] at hnews hshout
    obtain _ | ⟨hone, _ | ⟨htwo, _ | _⟩⟩ := hnews
    cases hone
    cases htwo
    exact hshout
  · obtain ⟨earlier, found, later, error, hspans, -, hfails, hshout⟩ :=
      ((substitute_splices_or_fails (.plain .pt)
        "<pt>ok</pt><pt>Bad</pt><pt>4</pt>").2.2.2.2 Text shout).2
        ⟨("<pt>ok</pt>".toList, ⟨"<pt>", none, "Bad", "</pt>"⟩), by decide +kernel, "Bad".toList, rfl⟩
    refine ⟨earlier, found, later, error, hspans, ?_, hshout⟩
    unfold shout at hfails
    split at hfails
    · cases hfails
    · cases hfails
      rfl

end DocPage.Tag
