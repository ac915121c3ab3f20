import Mathlib.Data.List.Basic

/-!
# Sorting by a position

Lists are sorted with `List.mergeSort` by a number that each element has. The sort is stable, so the
elements of one number keep their order; this and sortedness determine the result. Sorting therefore
goes past a `flatMap` whose parts each have one number.
-/

namespace DocPage

section Key

variable {α β : Type} (key : α → Nat)

theorem le_key_trans (a b c : α) (hab : decide (key a ≤ key b) = true)
    (hbc : decide (key b ≤ key c) = true) : decide (key a ≤ key c) = true := by
  simp only [decide_eq_true_eq] at *
  exact Nat.le_trans hab hbc

theorem le_key_total (a b : α) : (decide (key a ≤ key b) || decide (key b ≤ key a)) = true := by
  simp only [Bool.or_eq_true, decide_eq_true_eq]
  exact Nat.le_total (key a) (key b)

theorem pairwise_mergeSort_key (l : List α) :
    (l.mergeSort fun a b => key a ≤ key b).Pairwise fun a b => key a ≤ key b :=
  (List.pairwise_mergeSort (le_key_trans key) (le_key_total key) l).imp of_decide_eq_true

/-- The elements of one number keep their order. -/
theorem filter_mergeSort_key (l : List α) (k : Nat) :
    (l.mergeSort fun a b => key a ≤ key b).filter (key · = k) = l.filter (key · = k) := by
  -- A list of elements of one number is sorted already.
  have hsame : (l.filter (key · = k)).Pairwise fun a b => decide (key a ≤ key b) = true := by
    refine List.pairwise_of_forall_mem_list fun a ha b hb => ?_
    have hak := of_decide_eq_true (List.mem_filter.mp ha).2
    have hbk := of_decide_eq_true (List.mem_filter.mp hb).2
    exact decide_eq_true (by omega)
  have hstable := (List.sublist_mergeSort (le_key_trans key) (le_key_total key) hsame
    List.filter_sublist).filter (key · = k)
  rw [List.filter_filter] at hstable
  simp only [Bool.and_self] at hstable
  -- There are no more elements of the number than before, so the sublist is all of them.
  have hlength := ((List.mergeSort_perm l fun a b => key a ≤ key b).filter (key · = k)).length_eq
  exact (hstable.eq_of_length hlength.symm).symm

theorem mem_iff_of_filter_key {l l' : List α}
    (h : ∀ k, l.filter (key · = k) = l'.filter (key · = k)) (a : α) : a ∈ l ↔ a ∈ l' := by
  -- An element is among those of its own number.
  have hiff : a ∈ l.filter (key · = key a) ↔ a ∈ l'.filter (key · = key a) := by
    rw [h]
  simpa using hiff

/-- Two sorted lists are the same when for each number they have the same elements in the same
order. -/
theorem eq_of_filter_key {l l' : List α} (hl : l.Pairwise fun a b => key a ≤ key b)
    (hl' : l'.Pairwise fun a b => key a ≤ key b)
    (h : ∀ k, l.filter (key · = k) = l'.filter (key · = k)) : l = l' := by
  have hmem := mem_iff_of_filter_key key h
  -- The two lists are taken apart together, from the front.
  induction l generalizing l' with
  | nil =>
    cases l' with
    | nil => rfl
    | cons b l' => exact absurd ((hmem b).mpr List.mem_cons_self) List.not_mem_nil
  | cons a l ih =>
    cases l' with
    | nil => exact absurd ((hmem a).mp List.mem_cons_self) List.not_mem_nil
    | cons b l' =>
      obtain ⟨ha, hrest⟩ := List.pairwise_cons.mp hl
      obtain ⟨hb, hrest'⟩ := List.pairwise_cons.mp hl'
      -- Both heads have the least number, so they head the filtered lists of that number.
      have hab : key a ≤ key b := by
        rcases List.mem_cons.mp ((hmem b).mpr List.mem_cons_self) with rfl | hbl
        · exact Nat.le_refl _
        · exact ha b hbl
      have hba : key b ≤ key a := by
        rcases List.mem_cons.mp ((hmem a).mp List.mem_cons_self) with rfl | hal
        · exact Nat.le_refl _
        · exact hb a hal
      have hkey : key b = key a := Nat.le_antisymm hba hab
      have hheads := h (key a)
      simp only [List.filter_cons, hkey, decide_true, if_true] at hheads
      obtain ⟨rfl, -⟩ := List.cons.inj hheads
      have htails : ∀ k, l.filter (key · = k) = l'.filter (key · = k) := by
        -- For each number, either both heads were left out or both were kept.
        intro k
        have hk := h k
        simp only [List.filter_cons] at hk
        split at hk
        · exact (List.cons.inj hk).2
        · exact hk
      exact congrArg (a :: ·) (ih hrest hrest' htails (mem_iff_of_filter_key key htails))

/-- Sorting goes past a `flatMap` whose parts each have the number of what they come from. -/
theorem mergeSort_flatMap (position : β → Nat) (parts : β → List α)
    (hparts : ∀ b, ∀ a ∈ parts b, key a = position b) (l : List β) :
    (l.flatMap parts).mergeSort (fun a b => key a ≤ key b) =
      (l.mergeSort fun a b => position a ≤ position b).flatMap parts := by
  -- Both sides are sorted, so it is enough to count the elements of each number.
  refine eq_of_filter_key key (pairwise_mergeSort_key key _) ?_ fun k => ?_
  · rw [List.pairwise_flatMap]
    refine ⟨fun b _ => ?_, (pairwise_mergeSort_key position l).imp fun {b c} hbc x hx y hy => ?_⟩
    · refine List.pairwise_of_forall_mem_list fun x hx y hy => ?_
      exact Nat.le_of_eq ((hparts b x hx).trans (hparts b y hy).symm)
    · rw [hparts b x hx, hparts c y hy]
      exact hbc
  · -- The elements of the number `k` come from the parts of that number.
    have hfilter : ∀ l : List β, (l.flatMap parts).filter (key · = k) =
        (l.filter (position · = k)).flatMap parts := by
      intro l
      induction l with
      | nil => rfl
      | cons b l ih =>
        rw [List.flatMap_cons, List.filter_append, ih, List.filter_cons]
        by_cases hb : position b = k
        · have hall : (parts b).filter (key · = k) = parts b :=
            List.filter_eq_self.mpr fun a ha => by simp [hparts b a ha, hb]
          simp [hall, hb]
        · -- None of the parts has the number, so nothing is left of them.
          have hnone : (parts b).filter (key · = k) = [] :=
            List.filter_eq_nil_iff.mpr fun a ha => by simp [hparts b a ha, hb]
          simp [hnone, hb]
    rw [filter_mergeSort_key, hfilter, hfilter, filter_mergeSort_key]

/-- Where all of `front` comes before the rest, and all of `mid` before `own` and `back`, the sort
brings them there and goes on with what is left. -/
theorem mergeSort_bring {front mid own back : List α}
    (hfront : front.Pairwise fun a b => key a ≤ key b)
    (hmid : mid.Pairwise fun a b => key a ≤ key b)
    (hfirst : ∀ a ∈ front, ∀ b ∈ mid ++ (own ++ back), key a < key b)
    (hsecond : ∀ a ∈ mid, ∀ b ∈ own ++ back, key a ≤ key b) :
    (mid ++ own ++ (front ++ back)).mergeSort (fun a b => key a ≤ key b) =
      front ++ mid ++ (own ++ back).mergeSort fun a b => key a ≤ key b := by
  -- Once more both sides are sorted, and only the order within one number is at stake.
  refine eq_of_filter_key key (pairwise_mergeSort_key key _) ?_ fun k => ?_
  · rw [List.append_assoc, List.pairwise_append, List.pairwise_append]
    refine ⟨hfront, ⟨hmid, pairwise_mergeSort_key key _, fun a ha b hb => ?_⟩, fun a ha b hb => ?_⟩
    · exact hsecond a ha b (List.mem_mergeSort.mp hb)
    -- What is sorted last comes from both lists, and the front is before all of it.
    · refine Nat.le_of_lt (hfirst a ha b ?_)
      rcases List.mem_append.mp hb with hb | hb
      · exact List.mem_append_left _ hb
      · exact List.mem_append_right _ (List.mem_mergeSort.mp hb)
  · rw [filter_mergeSort_key, List.filter_append (front ++ mid), filter_mergeSort_key]
    simp only [List.filter_append]
    by_cases hnone : front.filter (key · = k) = []
    -- Without such an element in front, the two sides have the same order.
    · simp [hnone]
    · -- Then no other element has this number.
      obtain ⟨a, ha⟩ := List.exists_mem_of_ne_nil _ hnone
      obtain ⟨ha, hk⟩ := List.mem_filter.mp ha
      have hempty : ∀ l : List α, (∀ b ∈ l, b ∈ mid ++ (own ++ back)) →
          l.filter (key · = k) = [] := by
        intro l hl
        refine List.filter_eq_nil_iff.mpr fun b hb => ?_
        have hlt := hfirst a ha b (hl b hb)
        have hak := of_decide_eq_true hk
        simp only [decide_eq_true_eq]
        omega
      rw [hempty mid (by simp +contextual), hempty own (by simp +contextual)]
      simp

end Key

end DocPage
