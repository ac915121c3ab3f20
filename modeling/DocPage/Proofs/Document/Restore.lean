import DocPage.Proofs.Document.Placeholder

/-!
# Restoring is the inverse of stashing

A placeholder stands between angle brackets, and no other placeholder reaches over them. So a text
with placeholders in it is restored piece by piece: each placeholder gives way to its component, and
nothing else changes. The components are written as they are and not scanned.

## Architecture

- **One step**: restoring behind a character, behind a placeholder and around a bracketed text
- **Unissued placeholders**: `Unissued`, for a text that is restored as it stands
- **Runs of the stash**: `Stash.putAll`, and what it gives out
- **Joined texts**: `Stash.restore_join`
-/

namespace DocPage.Document

open Text (Bracketed)

/-! ## One step -/

namespace Stash

variable (s : Stash)

theorem restore_cons_of_none {c : Char} {t : Text} (h : placeholderMatcher (c :: t) = none) :
    s.restore (c :: t) = c :: s.restore t := by
  rw [restore, Text.mapMatches, Text.pieces_cons_of_none h]
  rfl

variable {written : Text} {index : Nat}

theorem restore_append_of_some (hwritten : IsPlaceholder written index) {item : StashItem}
    (hitem : s.components[index]? = some item) (after : Text) :
    s.restore (written ++ after) = item.markup ++ s.restore after := by
  have hmatch := placeholderMatcher_append hwritten after
  rw [restore, Text.mapMatches, Text.pieces_append_of_match hwritten.ne_nil hmatch,
    List.flatMap_cons]
  simp only [hitem]
  rfl

/-- A placeholder without a component stays as it is written. -/
theorem restore_append_of_none (hwritten : IsPlaceholder written index)
    (hitem : s.components[index]? = none) (after : Text) :
    s.restore (written ++ after) = written ++ s.restore after := by
  have hmatch := placeholderMatcher_append hwritten after
  rw [restore, Text.mapMatches, Text.pieces_append_of_match hwritten.ne_nil hmatch,
    List.flatMap_cons]
  simp only [hitem]
  rfl

theorem restore_around {x : Text} (hx : Bracketed x) (t u : Text) :
    s.restore (t ++ x ++ u) = s.restore t ++ s.restore x ++ s.restore u :=
  Text.mapMatches_around placeholderMatcher_local (fun _ => notMem_tail_of_accepts)
    (fun _ => notMem_dropLast_of_accepts) _ hx t u

theorem restore_placeholder {item : StashItem} (hitem : s.components[index]? = some item) :
    s.restore (placeholder index) = item.markup := by
  have h := s.restore_append_of_some (.of_index index) hitem []
  rwa [List.append_nil, show s.restore [] = [] from rfl, List.append_nil] at h

end Stash

/-! ## Unissued placeholders -/

/-- No placeholder in the text is for one of the first `count` components. -/
def Unissued (count : Nat) (t : Text) : Prop :=
  ∀ written index, IsPlaceholder written index → written <:+: t → count ≤ index

theorem unissued_iff {count : Nat} {t : Text} :
    Unissued count t ↔ ∀ index ∈ indices t, count ≤ index := by
  -- The scan finds the placeholders that stand in the text, so both sides speak of the same ones.
  constructor
  · intro h index hindex
    obtain ⟨written, hwritten, hoccurs⟩ := (mem_indices_iff).mp hindex
    exact h written index hwritten hoccurs
  · intro h written index hwritten hoccurs
    exact h index ((mem_indices_iff).mpr ⟨written, hwritten, hoccurs⟩)

/-- A text is restored as it stands when the stash has none of its components. -/
theorem Stash.restore_of_unissued (s : Stash) {t : Text} (h : Unissued s.components.length t) :
    s.restore t = t := by
  rw [unissued_iff] at h
  -- The text is restored along the scan, a character or a placeholder at a time.
  induction t using placeholders_induction with
  | nil => rfl
  | plain c t hnone ih =>
    rw [indices_cons_of_none hnone] at h
    rw [s.restore_cons_of_none hnone, ih h]
  | placeholder written after index hwritten ih =>
    -- A placeholder of a component that was never stashed is found, and written back.
    rw [indices_append_of_isPlaceholder hwritten] at h
    obtain ⟨hle, hrest⟩ := List.forall_mem_cons.mp h
    rw [s.restore_append_of_none hwritten (List.getElem?_eq_none hle), ih hrest]

/-! ## Runs of the stash -/

namespace Stash

/-- Stashes components one after the other; the result has the placeholder of each. -/
def putAll (s : Stash) : List StashItem → List (Text × StashItem) × Stash
  | [] => ([], s)
  | item :: items =>
    let (written, s) := s.put item
    let (given, s) := s.putAll items
    ((written, item) :: given, s)

theorem components_putAll (s : Stash) (items : List StashItem) :
    (s.putAll items).2.components = s.components ++ items := by
  -- Each call appends its component, so the earlier ones keep their numbers.
  induction items generalizing s with
  | nil => exact (List.append_nil _).symm
  | cons item items ih =>
    refine (ih (s.put item).2).trans ?_
    show s.components.concat item ++ items = _
    rw [List.concat_eq_append, List.append_assoc]
    rfl

/-- Each placeholder given out is the one for the position of its component. -/
theorem exists_of_mem_putAll {s : Stash} {items : List StashItem} {given : Text × StashItem}
    (h : given ∈ (s.putAll items).1) :
    ∃ index, given.1 = placeholder index ∧
      (s.putAll items).2.components[index]? = some given.2 := by
  induction items generalizing s with
  | nil => cases h
  | cons item items ih =>
    rcases List.mem_cons.mp h with rfl | h
    · -- The calls behind this one only append, so its component stays where it is.
      refine ⟨s.components.length, rfl, ?_⟩
      rw [components_putAll, List.getElem?_append_right (Nat.le_refl _), Nat.sub_self]
      rfl
    · exact ih h

/-! ## Joined texts -/

/-- Pieces with a placeholder in front of each but the first. -/
theorem restore_join (s : Stash) {first : Text} {rest : List ((Text × StashItem) × Text)}
    (hfirst : Unissued s.components.length first)
    (hrest : ∀ x ∈ rest, Unissued s.components.length x.2 ∧
      ∃ index, x.1.1 = placeholder index ∧ s.components[index]? = some x.1.2) :
    s.restore (first ++ rest.flatMap fun x => x.1.1 ++ x.2) =
      first ++ rest.flatMap fun x => x.1.2.markup ++ x.2 := by
  -- Each placeholder is set apart, so the pieces are restored from left to right.
  induction rest generalizing first with
  | nil => rw [List.flatMap_nil, List.flatMap_nil, List.append_nil, s.restore_of_unissued hfirst]
  | cons x rest ih =>
    obtain ⟨⟨hpiece, index, hwritten, hitem⟩, hrest⟩ := List.forall_mem_cons.mp hrest
    have hbracketed : Bracketed x.1.1 := hwritten ▸ bracketed_placeholder index
    have hcomponent : s.restore x.1.1 = x.1.2.markup := by
      rw [hwritten, s.restore_placeholder hitem]
    -- The placeholder sets what stands in front of it apart from what follows.
    rw [List.flatMap_cons, List.flatMap_cons, List.append_assoc, ← List.append_assoc first,
      s.restore_around hbracketed, s.restore_of_unissued hfirst, hcomponent, ih hpiece hrest]
    simp only [List.append_assoc]

/-- **Stashing and restoring is transparent.**

After any calls of the stash, take pieces of text, with placeholders between them that the calls
gave out, in any order and any number. Restoring puts the component of each placeholder in its
place. The pieces stay as they are, also where they hold a placeholder that was never given out, and
so do the texts of the components, which may look like placeholders. -/
theorem restore_of_putAll (calls : List StashItem) (first : Text)
    (rest : List ((Text × StashItem) × Text))
    (hgiven : ∀ x ∈ rest, x.1 ∈ (putAll {} calls).1)
    (hfirst : Unissued calls.length first) (hpieces : ∀ x ∈ rest, Unissued calls.length x.2) :
    (putAll {} calls).2.restore (first ++ rest.flatMap fun x => x.1.1 ++ x.2) =
      first ++ rest.flatMap fun x => x.1.2.markup ++ x.2 := by
  -- The stash was empty, so what was given out counts from the first call.
  have hlength : (putAll {} calls).2.components.length = calls.length := by
    rw [components_putAll]
    rfl
  refine restore_join _ (hlength ▸ hfirst) fun x hx => ⟨hlength ▸ hpieces x hx, ?_⟩
  exact exists_of_mem_putAll (hgiven x hx)

/-- A component that looks like the placeholder of the other one, and that other one. -/
def lookalikes : List StashItem :=
  [⟨placeholder 1, []⟩, ⟨"<B />".toList, []⟩]

/-- Both are restored where their placeholders stand, one of them twice and next to a piece that
begins like a placeholder; the placeholder in a piece was never given out. -/
theorem restore_lookalikes :
    (putAll {} lookalikes).2.restore ("<!--docmark-component-".toList ++ (placeholder 1 ++
        ("0-->".toList ++ placeholder 7) ++ (placeholder 0 ++ [] ++ (placeholder 1 ++ [])))) =
      "<!--docmark-component-<B />0-->".toList ++ placeholder 7 ++ placeholder 1 ++
        "<B />".toList := by
  have hgiven : (putAll {} lookalikes).1 =
      [(placeholder 0, ⟨placeholder 1, []⟩), (placeholder 1, ⟨"<B />".toList, []⟩)] := by decide
  -- Which placeholders a piece holds is told by its scan.
  have hunissued : ∀ t : Text, (∀ index ∈ indices t, 2 ≤ index) → Unissued 2 t :=
    fun _ => (unissued_iff).mpr
  refine (restore_of_putAll lookalikes "<!--docmark-component-".toList
    [((placeholder 1, ⟨"<B />".toList, []⟩), "0-->".toList ++ placeholder 7),
      ((placeholder 0, ⟨placeholder 1, []⟩), []), ((placeholder 1, ⟨"<B />".toList, []⟩), [])]
    ?_ (hunissued _ (by decide)) ?_).trans rfl
  · rw [hgiven]
    decide
  · simp only [List.forall_mem_cons]
    refine ⟨hunissued _ (by decide), hunissued _ (by decide), hunissued _ (by decide), ?_⟩
    exact fun _ h => nomatch h

end Stash

end DocPage.Document
