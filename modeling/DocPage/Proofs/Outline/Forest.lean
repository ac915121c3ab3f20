import DocPage.Outline.Heading
import Mathlib.Data.List.Infix

/-!
# The forest of a list of headings

The builder sees headings one after another and keeps no more than a stack of depths. Here is what
its forest means: read in pre-order it is the list of headings again, and the parent of a heading is
the last heading in front of it that is less deep.

Positions are those of the pre-order, so that equal headings stay apart.

## Architecture

- **Reading a forest**: `preorder` and `parents`
- **Nearest shallower headings**: `nearestShallower`, by a search over the earlier positions
- **Last sections**: `LastPath`, along which `insertAt` walks
- **The builder**: `Builder.Tracks` says what the stack means; each `push` preserves it
-/

namespace DocPage.Outline

/-! ## Reading a forest -/

mutual

/-- The headings of a section in pre-order. -/
def Section.preorder : Section → List Heading
  | ⟨heading, sections⟩ => heading :: Outline.preorder sections

def preorder : List Section → List Heading
  | [] => []
  | first :: rest => first.preorder ++ preorder rest

end

mutual

/-- The parent of each heading of a section, in pre-order. The section stands at the position `next`
under the heading at the position `parent`. -/
def Section.parents (parent : Option Nat) (next : Nat) : Section → List (Option Nat)
  | ⟨_, sections⟩ => parent :: Outline.parents (some next) (next + 1) sections

def parents (parent : Option Nat) (next : Nat) : List Section → List (Option Nat)
  | [] => []
  | first :: rest =>
    first.parents parent next ++ parents parent (next + first.preorder.length) rest

end

theorem preorder_append (a b : List Section) : preorder (a ++ b) = preorder a ++ preorder b := by
  induction a with
  | nil => rfl
  | cons s a ih => simp only [List.cons_append, preorder, ih, List.append_assoc]

theorem parents_append (parent : Option Nat) (next : Nat) (a b : List Section) :
    parents parent next (a ++ b) =
      parents parent next a ++ parents parent (next + (preorder a).length) b := by
  -- On the first forest; the position moves on by the size of each section.
  induction a generalizing next with
  | nil => rfl
  | cons s a ih =>
    simp only [List.cons_append, parents, preorder, ih, List.append_assoc, List.length_append,
      Nat.add_assoc]

theorem preorder_singleton (s : Section) : preorder [s] = s.heading :: preorder s.sections := by
  cases s
  simp [preorder, Section.preorder]

theorem parents_singleton (parent : Option Nat) (next : Nat) (s : Section) :
    parents parent next [s] = parent :: parents (some next) (next + 1) s.sections := by
  cases s
  simp [parents, Section.parents]

/-! ## Nearest shallower headings -/

def depthAt (headings : List Heading) (position : Nat) : Nat :=
  (headings[position]?.map Heading.depth).getD 0

/-- The position of the last heading in front of a position that is less deep than the one there. -/
def nearestShallower (headings : List Heading) (position : Nat) : Option Nat :=
  ((List.range position).filter fun earlier =>
    depthAt headings earlier < depthAt headings position).getLast?

theorem depthAt_append_left {headings more : List Heading} {position : Nat}
    (h : position < headings.length) : depthAt (headings ++ more) position =
      depthAt headings position := by
  rw [depthAt, depthAt, List.getElem?_append_left h]

theorem depthAt_concat_length (headings : List Heading) (h : Heading) :
    depthAt (headings ++ [h]) headings.length = h.depth := by
  simp [depthAt]

/-- Later headings do not change the nearest shallower heading of a position. -/
theorem nearestShallower_append_left {headings more : List Heading} {position : Nat}
    (h : position < headings.length) :
    nearestShallower (headings ++ more) position = nearestShallower headings position := by
  rw [nearestShallower, nearestShallower, depthAt_append_left h]
  -- Only earlier positions are searched, so none of them is new.
  refine congrArg List.getLast? (List.filter_congr fun earlier hearlier => ?_)
  have hlt := List.mem_range.mp hearlier
  rw [depthAt_append_left (by omega)]

/-- Among the positions below `n` with a property there is a last one. -/
theorem exists_last_lt {p : Nat → Prop} {n k : Nat} (hk : k < n) (hp : p k) :
    ∃ j, k ≤ j ∧ j < n ∧ p j ∧ ∀ i, j < i → i < n → ¬ p i := by
  induction n with
  | zero => cases hk
  | succ n ih =>
    -- The last position of all has the property, or it can be left out.
    by_cases hn : p n
    · exact ⟨n, by omega, by omega, hn, fun i hi hin => absurd hi (by omega)⟩
    · have hkn : k ≠ n := fun h => hn (h ▸ hp)
      obtain ⟨j, hkj, hjn, hpj, hlast⟩ := ih (by omega)
      refine ⟨j, hkj, by omega, hpj, fun i hi hin => ?_⟩
      by_cases hieq : i = n
      · exact hieq ▸ hn
      · exact hlast i hi (by omega)

/-- The last position below `n` with a property, characterised without the list. -/
theorem getLast?_filter_range_eq_some {p : Nat → Bool} {n j : Nat} (hlt : j < n) (hj : p j = true)
    (hlast : ∀ k, j < k → k < n → ¬ p k = true) :
    ((List.range n).filter p).getLast? = some j := by
  induction n with
  | zero => cases hlt
  | succ n ih =>
    -- The range grows at its end, where the last element of the filtered list is.
    rw [List.range_succ, List.filter_append]
    by_cases hjn : j = n
    · subst hjn
      simp [hj]
    · have hn : ¬ p n = true := hlast n (by omega) (by omega)
      simpa [hn] using ih (by omega) fun k hk hkn => hlast k hk (by omega)

/-- The nearest shallower heading is less deep, and no heading between is. -/
theorem nearestShallower_eq_some_iff {headings : List Heading} {i j : Nat} :
    nearestShallower headings i = some j ↔
      j < i ∧ depthAt headings j < depthAt headings i ∧
        ∀ k, j < k → k < i → depthAt headings i ≤ depthAt headings k := by
  constructor
  · intro h
    obtain ⟨hji, hj⟩ : j < i ∧ depthAt headings j < depthAt headings i := by
      -- What the search gives is a shallower position in front.
      simpa using List.mem_of_getLast? h
    -- The last of the shallower positions is the one that the search gives.
    obtain ⟨m, -, hmi, hm, hlast⟩ :=
      exists_last_lt (p := fun k => depthAt headings k < depthAt headings i) hji hj
    have hfound : nearestShallower headings i = some m :=
      getLast?_filter_range_eq_some hmi (by simpa using hm) fun k hk hki => by
        simpa using hlast k hk hki
    rw [hfound] at h
    cases h
    exact ⟨hmi, hm, fun k hk hki => Nat.not_lt.mp (hlast k hk hki)⟩
  · rintro ⟨hji, hj, hlast⟩
    refine getLast?_filter_range_eq_some hji (by simpa using hj) fun k hk hki => ?_
    simpa using hlast k hk hki

theorem nearestShallower_eq_none_iff {headings : List Heading} {i : Nat} :
    nearestShallower headings i = none ↔
      ∀ j < i, depthAt headings i ≤ depthAt headings j := by
  simp [nearestShallower]

/-! ## Last sections -/

/-- The positions of the sections that are met when one always goes to the last section, outermost
first; the first section of the forest stands at the position `next`. -/
inductive LastPath : (next : Nat) → List Section → List Nat → Prop where
  | nil {next : Nat} : LastPath next [] []
  | concat {next : Nat} {front : List Section} {heading : Heading} {sections : List Section}
      {path : List Nat} :
      LastPath (next + (preorder front).length + 1) sections path →
      LastPath next (front ++ [⟨heading, sections⟩]) ((next + (preorder front).length) :: path)

theorem insertAt_concat (node : Section) (levels : Nat) (front : List Section) (last : Section) :
    insertAt node (levels + 1) (front ++ [last]) =
      front ++ [⟨last.heading, insertAt node levels last.sections⟩] := by
  simp [insertAt]

/-- Where `insertAt` puts a heading: at the end of the pre-order, under the section that the last
path reaches after `levels` steps, and at the end of the path up to there. -/
theorem insertAt_leaf (h : Heading) {next levels : Nat} {forest : List Section} {path : List Nat}
    (hpath : LastPath next forest path) (hlevels : levels ≤ path.length) (parent : Option Nat) :
    preorder (insertAt h.leaf levels forest) = preorder forest ++ [h] ∧
    parents parent next (insertAt h.leaf levels forest) =
      parents parent next forest ++ [((path.take levels).getLast?).or parent] ∧
    LastPath next (insertAt h.leaf levels forest)
      (path.take levels ++ [next + (preorder forest).length]) := by
  -- On the number of steps: each goes from a forest into its last section.
  induction levels generalizing next forest path parent with
  | zero =>
    rw [insertAt, List.concat_eq_append]
    refine ⟨?_, ?_, ?_⟩
    -- Without a step left, the heading becomes the last root.
    · rw [preorder_append, preorder_singleton]
      rfl
    · rw [parents_append, parents_singleton]
      rfl
    · exact LastPath.concat LastPath.nil
  | succ levels ih =>
    -- A step along the last path goes into the last section of the forest.
    cases hpath with
    | nil => exact absurd hlevels (Nat.not_succ_le_zero levels)
    | @concat _ front heading sections path hpath =>
      have hlevels' : levels ≤ path.length := by simpa using hlevels
      obtain ⟨hpre, hpar, hlast⟩ := ih hpath hlevels' (some (next + (preorder front).length))
      rw [insertAt_concat]
      refine ⟨?_, ?_, ?_⟩
      · rw [preorder_append, preorder_append, preorder_singleton, preorder_singleton, hpre]
        simp
      · rw [parents_append, parents_append, parents_singleton, parents_singleton, hpar,
          List.take_succ_cons, List.getLast?_cons]
        -- The parent is the last position on the path, or the section itself when none is left.
        cases (path.take levels).getLast? <;> simp
      · have hnew := @LastPath.concat next front heading _ _ hlast
        rw [preorder_append, preorder_singleton]
        simpa [Nat.add_assoc, Nat.add_comm, Nat.add_left_comm] using hnew

/-! ## The builder -/

/-- What the builder holds after a list of headings. The `stack` gives the positions of the open
headings, innermost first: they are those on the last path, and the builder keeps their depths.

A heading without a later one that is as shallow is always open. It is this field by which the
nearest shallower heading of the next heading is found on the stack. -/
structure Builder.Tracks (b : Builder) (headings : List Heading) (stack : List Nat) : Prop where
  preorder_eq : preorder b.roots = headings
  parents_eq :
    parents none 0 b.roots = (List.range headings.length).map (nearestShallower headings)
  lastPath : LastPath 0 b.roots stack.reverse
  openDepths_eq : b.openDepths = stack.map (depthAt headings)
  decreasing : stack.Pairwise (· > ·)
  bounded : ∀ position ∈ stack, position < headings.length
  mem_stack : ∀ position < headings.length,
    (∀ later, position < later → later < headings.length →
      depthAt headings position < depthAt headings later) → position ∈ stack

theorem Builder.tracks_nil : Builder.Tracks {} [] [] where
  preorder_eq := rfl
  parents_eq := rfl
  lastPath := LastPath.nil
  openDepths_eq := rfl
  decreasing := List.Pairwise.nil
  bounded := fun _ h => nomatch h
  mem_stack := fun _ h => nomatch h

/-- Dropping from the front never takes away an element that does not have the property. -/
theorem mem_dropWhile_of_not {p : Nat → Bool} {l : List Nat} {x : Nat} (hx : x ∈ l)
    (hp : p x = false) : x ∈ l.dropWhile p := by
  induction l with
  | nil => cases hx
  | cons a l ih =>
    -- An element without the property stops the dropping, at the latest.
    rw [List.dropWhile_cons]
    split
    · next ha =>
      rcases List.mem_cons.mp hx with rfl | hx
      · rw [hp] at ha
        cases ha
      · exact ih hx
    · exact hx

section Push

variable {b : Builder} {headings : List Heading} {stack : List Nat}

/-- The positions that stay open when a heading comes in. -/
def ancestors (headings : List Heading) (stack : List Nat) (h : Heading) : List Nat :=
  stack.dropWhile fun position => h.depth ≤ depthAt headings position

theorem ancestors_suffix (headings : List Heading) (stack : List Nat) (h : Heading) :
    ancestors headings stack h <:+ stack :=
  List.dropWhile_suffix _

/-- The ancestors are the bottom of the stack, which is the start of the path. -/
theorem take_reverse_stack (headings : List Heading) (stack : List Nat) (h : Heading) :
    stack.reverse.take (ancestors headings stack h).length =
      (ancestors headings stack h).reverse := by
  obtain ⟨front, hfront⟩ := ancestors_suffix headings stack h
  have hreverse : stack.reverse = (ancestors headings stack h).reverse ++ front.reverse := by
    rw [← List.reverse_append, hfront]
  rw [hreverse, List.take_left' List.length_reverse]

/-- The last heading that is less deep than a new one is open, and stays open. -/
theorem Builder.Tracks.mem_ancestors (ht : b.Tracks headings stack) {h : Heading} {position : Nat}
    (hlt : position < headings.length) (hshallow : depthAt headings position < h.depth)
    (hlast : ∀ later, position < later → later < headings.length →
      ¬ depthAt headings later < h.depth) : position ∈ ancestors headings stack h := by
  have hmem : position ∈ stack := by
    refine ht.mem_stack position hlt fun later hlater hbound => ?_
    have := hlast later hlater hbound
    omega
  refine mem_dropWhile_of_not hmem ?_
  rw [decide_eq_false_iff_not]
  omega

/-- The innermost heading that stays open is the nearest shallower one of the new heading. -/
theorem Builder.Tracks.head?_ancestors (ht : b.Tracks headings stack) (h : Heading) :
    (ancestors headings stack h).head? = nearestShallower (headings ++ [h]) headings.length := by
  have hsuffix := ancestors_suffix headings stack h
  symm
  -- Whether any heading stays open decides which of the two searches applies.
  cases hanc : ancestors headings stack h with
  | nil =>
    rw [List.head?_nil, nearestShallower_eq_none_iff]
    intro k hk
    rw [depthAt_concat_length, depthAt_append_left hk]
    by_contra hshallow
    -- The last shallower heading would have stayed open.
    obtain ⟨j, -, hj, hjs, hlast⟩ :=
      exists_last_lt (p := fun k => depthAt headings k < h.depth) hk (Nat.not_le.mp hshallow)
    have hmem := ht.mem_ancestors hj hjs hlast
    rw [hanc] at hmem
    cases hmem
  | cons j rest =>
    rw [List.head?_cons, nearestShallower_eq_some_iff]
    have hj : j < headings.length := ht.bounded j (hsuffix.subset (by simp [hanc]))
    have hjs : depthAt headings j < h.depth := by
      have hhead := List.head?_dropWhile_not
        (fun position => decide (h.depth ≤ depthAt headings position)) stack
      rw [show stack.dropWhile _ = j :: rest from hanc] at hhead
      simpa using hhead
    refine ⟨hj, ?_, fun k hjk hk => ?_⟩
    · rw [depthAt_concat_length, depthAt_append_left hj]
      exact hjs
    · rw [depthAt_concat_length, depthAt_append_left hk]
      by_contra hshallow
      -- A later shallower heading would be open too. The stack decreases, so it would come before
      -- `j` there and be the head.
      obtain ⟨i, hki, hi, his, hlast⟩ :=
        exists_last_lt (p := fun k => depthAt headings k < h.depth) hk (Nat.not_le.mp hshallow)
      have hmem := ht.mem_ancestors hi his hlast
      have hdec : (j :: rest).Pairwise (· > ·) := hanc ▸ ht.decreasing.sublist hsuffix.sublist
      rw [hanc] at hmem
      rcases List.mem_cons.mp hmem with rfl | hrest
      · omega
      · have := (List.pairwise_cons.mp hdec).1 i hrest
        omega

/-- A heading that is less deep than all later ones stays open, or is the new one itself. -/
theorem Builder.Tracks.mem_push (ht : b.Tracks headings stack) (h : Heading) {k : Nat}
    (hk : k < (headings ++ [h]).length)
    (hdeeper : ∀ later, k < later → later < (headings ++ [h]).length →
      depthAt (headings ++ [h]) k < depthAt (headings ++ [h]) later) :
    k ∈ headings.length :: ancestors headings stack h := by
  rw [List.length_append, List.length_singleton] at hk hdeeper
  by_cases heq : k = headings.length
  · simp [heq]
  · have hklt : k < headings.length := by omega
    -- It is less deep than the new heading as well, so it is not dropped from the stack.
    have hshallow := hdeeper headings.length hklt (by omega)
    rw [depthAt_concat_length, depthAt_append_left hklt] at hshallow
    refine List.mem_cons_of_mem _ (mem_dropWhile_of_not (ht.mem_stack k hklt ?_) ?_)
    -- A later heading in the old list is one in the new list as well.
    · intro later hlater hbound
      have := hdeeper later hlater (by omega)
      rwa [depthAt_append_left hklt, depthAt_append_left hbound] at this
    · rw [decide_eq_false_iff_not]
      omega

/-- **One heading more.** The new heading is open, in front of those that stay open. -/
theorem Builder.Tracks.push (ht : b.Tracks headings stack) (h : Heading) :
    (b.push h.leaf).Tracks (headings ++ [h]) (headings.length :: ancestors headings stack h) := by
  have hsuffix := ancestors_suffix headings stack h
  have hopen : b.openDepths.dropWhile (fun d => decide (h.depth ≤ d)) =
      (ancestors headings stack h).map (depthAt headings) := by
    rw [ht.openDepths_eq, List.dropWhile_map]
    rfl
  have htake := take_reverse_stack headings stack h
  have hlevels : (ancestors headings stack h).length ≤ stack.reverse.length := by
    simpa using hsuffix.length_le
  have hroots : (b.push h.leaf).roots =
      insertAt h.leaf (ancestors headings stack h).length b.roots := by
    show insertAt h.leaf (b.openDepths.dropWhile fun d => decide (h.depth ≤ d)).length b.roots = _
    rw [hopen, List.length_map]
  obtain ⟨hpre, hpar, hpath⟩ := insertAt_leaf h ht.lastPath hlevels none
  rw [htake, ht.preorder_eq, Nat.zero_add] at hpath
  rw [htake, List.getLast?_reverse, ht.head?_ancestors h, Option.or_none] at hpar
  exact {
    preorder_eq := by rw [hroots, hpre, ht.preorder_eq]
    parents_eq := by
      rw [hroots, hpar, ht.parents_eq, List.length_append, List.length_singleton,
        List.range_succ, List.map_append]
      -- Earlier parents are the same in the longer list, since they look to the front only.
      refine congrArg (· ++ _) (List.map_congr_left fun k hk => ?_)
      exact (nearestShallower_append_left (List.mem_range.mp hk)).symm
    lastPath := by
      rw [hroots, List.reverse_cons]
      exact hpath
    openDepths_eq := by
      show h.depth :: b.openDepths.dropWhile (fun d => decide (h.depth ≤ d)) = _
      rw [hopen, List.map_cons, depthAt_concat_length]
      refine congrArg (_ :: ·) (List.map_congr_left fun k hk => ?_)
      exact (depthAt_append_left (ht.bounded k (hsuffix.subset hk))).symm
    -- The new position is larger than all that are open.
    decreasing := List.pairwise_cons.mpr
      ⟨fun k hk => ht.bounded k (hsuffix.subset hk), ht.decreasing.sublist hsuffix.sublist⟩
    bounded := by
      intro k hk
      rw [List.length_append, List.length_singleton]
      rcases List.mem_cons.mp hk with rfl | hk
      · omega
      · have := ht.bounded k (hsuffix.subset hk)
        omega
    mem_stack := fun _ hk hdeeper => ht.mem_push h hk hdeeper }

end Push

/-- After any headings the builder holds what `Builder.Tracks` says. -/
theorem Builder.exists_tracks (headings : List Heading) :
    ∃ stack, ((headings.map Heading.leaf).foldl Builder.push {}).Tracks headings stack := by
  -- The builder takes the headings from the left, so the induction adds one at the end.
  induction headings using List.reverseRecOn with
  | nil => exact ⟨[], tracks_nil⟩
  | append_singleton headings h ih =>
    obtain ⟨stack, ht⟩ := ih
    rw [List.map_append, List.foldl_append]
    exact ⟨_, ht.push h⟩

/-- In pre-order the forest of a list of headings is the list. -/
theorem preorder_forest (headings : List Heading) : preorder (Heading.forest headings) = headings :=
  have ⟨_, ht⟩ := Builder.exists_tracks headings
  ht.preorder_eq

/-- **The forest keeps every heading in its place.** In pre-order it is the list of headings. The
parent of a heading is the last heading in front of it that is less deep, and a heading is a root
exactly when no heading in front of it is less deep. -/
theorem Builder.preorder_and_parents_build (headings : List Heading) :
    preorder (Builder.build (headings.map Heading.leaf)) = headings ∧
    (∀ i j, (parents none 0 (Builder.build (headings.map Heading.leaf)))[i]? = some (some j) ↔
      i < headings.length ∧ j < i ∧ depthAt headings j < depthAt headings i ∧
        ∀ k, j < k → k < i → depthAt headings i ≤ depthAt headings k) ∧
    (∀ i, (parents none 0 (Builder.build (headings.map Heading.leaf)))[i]? = some none ↔
      i < headings.length ∧ ∀ j < i, depthAt headings i ≤ depthAt headings j) := by
  obtain ⟨stack, ht⟩ := Builder.exists_tracks headings
  -- Both statements are about one list of parents, which is known position by position.
  have hparents : ∀ i parent,
      (parents none 0 (Builder.build (headings.map Heading.leaf)))[i]? = some parent ↔
        i < headings.length ∧ nearestShallower headings i = parent := by
    intro i parent
    rw [Builder.build, ht.parents_eq]
    simp [List.getElem?_eq_some_iff]
  refine ⟨ht.preorder_eq, fun i j => ?_, fun i => ?_⟩
  · rw [hparents, nearestShallower_eq_some_iff]
  · rw [hparents, nearestShallower_eq_none_iff]

/-- Depths 1, 3, 2, 3, 1: the third heading goes under the first one again. -/
example :
    parents none 0 (Builder.build (([1, 3, 2, 3, 1].map (Heading.mk [] [])).map Heading.leaf)) =
      [none, some 0, some 0, some 2, none] := rfl

/-! ## Metadata -/

/-- The headings of a page as its metadata has them: the title when there is one, then the sections
in pre-order. -/
def Metadata.flatten (m : Metadata) : List Heading :=
  m.title.toList ++ preorder m.sections

/-- Taking the title out of a forest moves no heading. -/
theorem Metadata.flatten_ofForest (roots : List Section) :
    (Metadata.ofForest roots).flatten = preorder roots := by
  unfold Metadata.ofForest
  -- The title is the only root, of depth one, and it stays in front.
  split
  · next heading sections =>
    split
    · rw [preorder_singleton]
      rfl
    · rfl
  · rfl

end DocPage.Outline
