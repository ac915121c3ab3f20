import Mathlib.Data.List.Permutation
import DocPage.Proofs.Document.Passes
import DocPage.Proofs.StableSort
import DocPage.Proofs.Tag.Kind
import DocPage.Proofs.Text.Trim

/-!
# What the component of a container shows

A container of variants becomes a component with one slot for each variant that is there. What
stands in it follows two orders. The flags and the slots of a family come in the order that the
family declares, and options in the order in which their ids are first seen; the headings always
come in the order of the source. Each variant shows its first match, rendered in the region that is
reached at that match.

## Architecture

- **Courses**: `Renders`, a run through several matches
- **Slots**: `IsSlot`, what stands in the component for one variant
- **Families**: which variants are there, and what the component and the outline make of them
- **Options**: `FirstOfEach`, the first match of each id, and the component of options
-/

namespace DocPage.Document

open Tag (Kind Pattern Span)

variable {nested : Nested} {region : Body.Region} {a a' : Assembly}

/-! ## Courses -/

/-- The matches render one after the other, each in the region that is reached at its place. The
state goes from `a` to `a'`. -/
inductive Renders (nested : Nested) (region : Body.Region) :
    (found : List (Text × Span)) → (a : Assembly) → (contents : List Fragment) →
      (a' : Assembly) → Prop where
  | nil {a : Assembly} : Renders nested region [] a [] a
  | cons {found : Text × Span} {rest : List (Text × Span)} {content : Fragment}
      {contents : List Fragment} {a b c : Assembly} :
      (nested found.2.body (region.advance found.1)).run a = .ok (content, b) →
      Renders nested region rest b contents c →
      Renders nested region (found :: rest) a (content :: contents) c

/-- Work that succeeds hands its result and its state on. -/
theorem run_bind_of_run {α β : Type} {x : Assemble α} {f : α → Assemble β} {v : α}
    (h : x.run a = .ok (v, a')) : (x >>= f).run a = (f v).run a' := by
  rw [StateT.run_bind, h]
  rfl

/-- Each match has its content. -/
theorem Renders.length_eq {found : List (Text × Span)} {contents : List Fragment}
    (h : Renders nested region found a contents a') : contents.length = found.length := by
  induction h with
  | nil => rfl
  | cons _ _ ih => rw [List.length_cons, List.length_cons, ih]

/-- What renders a match makes a variant of it. -/
theorem run_renderVariant (name : Text) {found : Text × Span} {content : Fragment}
    (h : (nested found.2.body (region.advance found.1)).run a = .ok (content, a')) :
    (renderVariant nested region name found).run a =
      .ok (⟨name, Tag.startByte found, content⟩, a') :=
  run_bind_of_run h

/-! ## Slots -/

/-- The markup is a slot with the given name, which holds the html without the blanks at its end. -/
def IsSlot (name html markup : Text) : Prop :=
  ∃ shown, Text.CoreInFront Unicode.isBlank html shown ∧
    markup = "<svelte:fragment slot=\"".toList ++ name ++ "\">\n".toList ++ shown ++
      "\n</svelte:fragment>\n".toList

theorem isSlot_iff {name html markup : Text} :
    IsSlot name html markup ↔ slot name html = markup := by
  constructor
  -- Trimming is determined by what it leaves, and the rest of a slot is fixed.
  · rintro ⟨shown, hshown, rfl⟩
    rw [← Text.dropRightWhile_eq_iff.mpr hshown]
    rfl
  · rintro rfl
    exact ⟨_, Text.coreInFront_dropRightWhile _ _, rfl⟩

/-- A name and its html determine their slot, so a list of them determines a row of slots. -/
theorem forall₂_isSlot_iff {α : Type} {name html : α → Text} {shown : List α}
    {slots : List Text} :
    List.Forall₂ (fun x => IsSlot (name x) (html x)) shown slots ↔
      (shown.map fun x => slot (name x) (html x)) = slots := by
  -- Equality of lists is equality of their members, and for each of them the slot is unique.
  rw [← List.forall₂_eq_eq_eq, List.forall₂_map_left_iff]
  exact ⟨fun h => h.imp fun _ _ => isSlot_iff.mp, fun h => h.imp fun _ _ => isSlot_iff.mpr⟩

/-! ## Families -/

/-- A variant that is there: its tag, its name, and the first match of the tag. -/
structure Choice where
  kind : Kind
  name : Text
  found : Text × Span
  deriving DecidableEq

/-- The byte of the container at which the match starts. -/
def Choice.start (c : Choice) : Nat := Tag.startByte c.found

/-- A variant with its rendered content. -/
def Choice.variant (c : Choice) (content : Fragment) : Variant :=
  ⟨c.name, c.start, content⟩

/-- The variants of a family that are there, in declared order. -/
def Family.choices (family : Family) (body : Text) : List Choice :=
  family.variants.filterMap fun (kind, name) =>
    ((Pattern.plain kind).find? body).map (Choice.mk kind name)

/-- The flag of a variant in the opening tag of a component. -/
def flag (name : Text) (set : Bool) : Text :=
  ' ' :: name ++ "=\x7b".toList ++ (if set then "true".toList else "false".toList) ++ "\x7d".toList

/-- The flags of a family: each variant is set when its tag has a match in the body. -/
def Family.flags (family : Family) (body : Text) : Text :=
  family.variants.flatMap fun (kind, name) =>
    flag name (!((Pattern.plain kind).spans body).isEmpty)

/-- The flags are what the builder adds for them. -/
theorem foldl_flags (rendered : List (Text × Option Variant)) (c : Component) :
    rendered.foldl (fun (c : Component) (name, variant) =>
        c.expr name (if variant.isSome then "true" else "false")) c =
      { c with props := c.props ++
          (rendered.map fun r => (r.1, r.2.isSome)).flatMap fun r => flag r.1 r.2 } := by
  -- The flags are added one behind the other, whatever stands in the tag already.
  induction rendered generalizing c with
  | nil => simp
  | cons r rest ih =>
    rw [List.foldl_cons, ih, List.map_cons, List.flatMap_cons]
    unfold Component.expr flag
    simp only [List.append_assoc, List.cons_append]

theorem isSome_find?_eq (p : Pattern) (body : Text) :
    (p.find? body).isSome = !(p.spans body).isEmpty := by
  unfold Pattern.find?
  cases p.spans body with
  | nil => rfl
  | cons first rest => rfl

/-- A family renders when the first matches of its variants do. What comes back tells for each
variant whether it is there, and has a variant for each match. -/
theorem exists_run_renderFamily {body : Text} {family : Family} {contents : List Fragment}
    (h : Renders nested region ((family.choices body).map Choice.found) a contents a') :
    ∃ rendered, (renderFamily nested region body family).run a = .ok (rendered, a') ∧
      (rendered.map fun r => (r.1, r.2.isSome)) = (family.variants.map fun v =>
        (v.2, !((Pattern.plain v.1).spans body).isEmpty)) ∧
      rendered.filterMap (·.2) =
        ((family.choices body).zip contents).map fun c => c.1.variant c.2 := by
  -- Only the variants of the family are read, so the induction is on them alone.
  obtain ⟨container, component, variants⟩ := family
  unfold renderFamily Family.choices at *
  induction variants generalizing a contents with
  | nil =>
    cases h
    exact ⟨[], rfl, rfl, rfl⟩
  | cons v rest ih =>
    obtain ⟨kind, name⟩ := v
    simp only [List.mapM_cons, List.filterMap_cons, List.map_cons] at h ⊢
    have hflag := isSome_find?_eq (.plain kind) body
    cases hfind : (Pattern.plain kind).find? body with
    | none =>
      -- The variant is absent: nothing is rendered for it.
      rw [hfind] at h hflag
      obtain ⟨rendered, hrun, hflags, hpresent⟩ := ih h
      refine ⟨(name, none) :: rendered, ?_, ?_, ?_⟩
      · rw [pure_bind, run_bind_of_run hrun]
        rfl
      · rw [List.map_cons, hflags, ← hflag]
        rfl
      · simpa using hpresent
    | some found =>
      rw [hfind] at h hflag
      -- The first match of this variant is the next one that renders.
      obtain _ | @⟨_, _, content, contents, _, b, _, hfirst, hrest⟩ := h
      obtain ⟨rendered, hrun, hflags, hpresent⟩ := ih hrest
      have hvariant := run_renderVariant name hfirst
      refine ⟨(name, some ⟨name, Tag.startByte found, content⟩) :: rendered, ?_, ?_, ?_⟩
      · dsimp only
        rw [bind_assoc, run_bind_of_run hvariant, pure_bind, run_bind_of_run hrun]
        rfl
      · rw [List.map_cons, hflags, ← hflag]
        rfl
      · rw [List.filterMap_cons, hpresent]
        rfl

/-- A choice is a match of its tag. -/
theorem mem_spans_of_mem_choices {family : Family} {body : Text} {c : Choice}
    (h : c ∈ family.choices body) : c.found ∈ (Pattern.plain c.kind).spans body := by
  -- The choice comes from a variant whose search found something.
  obtain ⟨⟨kind, name⟩, -, hfound⟩ := List.mem_filterMap.mp h
  obtain ⟨found, hfirst, rfl⟩ := Option.map_eq_some_iff.mp hfound
  exact List.mem_of_mem_head? hfirst

/-- Matches of different tags start at different places. -/
theorem kind_eq_of_start_eq {family : Family} {body : Text} {c d : Choice}
    (hc : c ∈ family.choices body) (hd : d ∈ family.choices body) (h : c.start = d.start) :
    c.kind = d.kind := by
  have hsound : ∀ e ∈ family.choices body, (Pattern.plain e.kind).Matches e.found.2 ∧
      ∃ after, body = e.found.1 ++ e.found.2.source ++ after := fun e he =>
    ((Pattern.plain e.kind).scan_segments body).sound (mem_spans_of_mem_choices he)
  obtain ⟨hmatches, after, hbody⟩ := hsound c hc
  obtain ⟨hmatches', after', hbody'⟩ := hsound d hd
  -- The same text stands in front of both, so both opening tags start the same rest.
  rw [hbody, List.append_assoc, List.append_assoc] at hbody'
  obtain ⟨-, hrest⟩ := Text.append_inj_of_byteSize hbody' h
  simp only [Span.source, List.append_assoc] at hrest
  exact hmatches.opens.isOpening.kind_unique hmatches'.opens.isOpening hrest

/-- The order of the source: by position, where only matches of one tag share a position. -/
def InSourceOrder (choices : List (Choice × Fragment)) : Prop :=
  choices.Pairwise fun x y =>
    x.1.start ≤ y.1.start ∧ (x.1.start = y.1.start → x.1.kind = y.1.kind)

theorem inSourceOrder_mergeSort {family : Family} {body : Text} (contents : List Fragment) :
    InSourceOrder (((family.choices body).zip contents).mergeSort fun x y =>
      x.1.start ≤ y.1.start) := by
  have hmem : ∀ x ∈ ((family.choices body).zip contents).mergeSort fun x y =>
      x.1.start ≤ y.1.start, x.1 ∈ family.choices body :=
    fun x hx => (List.of_mem_zip (List.mem_mergeSort.mp hx)).1
  -- Sorting by position leaves what the positions say of the tags.
  apply (pairwise_mergeSort_key (fun x : Choice × Fragment => x.1.start) _).imp_of_mem
  intro x y hx hy hle
  exact ⟨hle, kind_eq_of_start_eq (hmem x hx) (hmem y hy)⟩

/-- **What the component of a family shows.**

When the first matches of the variants render, each in the region at its place, the container
becomes a component. It has a flag for each variant of the family, in declared order, which is set
when the tag of the variant has a match. It has a slot for each variant that is there, in declared
order as well, with what its match rendered to. Its headings are those of the matches, taken as
blocks, in the order of the source. -/
theorem family_follows_declaration_and_source (nested : Nested) (family : Family)
    (region : Body.Region) (span : Span) (a a' : Assembly) (contents : List Fragment)
    (h : Renders nested region ((family.choices span.body).map Choice.found) a contents a') :
    ∃ (slots : List Text) (inSource : List (Choice × Fragment)),
      contents.length = (family.choices span.body).length ∧
      List.Forall₂ (fun shown => IsSlot shown.1.name shown.2.html)
        ((family.choices span.body).zip contents) slots ∧
      inSource.Perm ((family.choices span.body).zip contents) ∧ InSourceOrder inSource ∧
      (familyFragment nested family region span).run a = .ok
        (⟨'<' :: family.component ++ family.flags span.body ++ ">\n".toList ++ slots.flatten ++
            "</".toList ++ family.component ++ ">".toList,
          inSource.flatMap (·.2.headings)⟩, a') := by
  obtain ⟨rendered, hrun, hflags, hpresent⟩ := exists_run_renderFamily h
  refine ⟨_, _, ?_, forall₂_isSlot_iff.mpr rfl, List.mergeSort_perm _ _,
    inSourceOrder_mergeSort contents, ?_⟩
  -- There is a choice for each of the matches.
  · rw [h.length_eq, List.length_map]
  · unfold familyFragment
    rw [run_bind_of_run hrun]
    -- What is left is to read the two orders off the rendered variants.
    have hsort : (rendered.filterMap (·.2)).mergeSort (fun v w => v.offset ≤ w.offset) =
        (((family.choices span.body).zip contents).mergeSort fun x y =>
          x.1.start ≤ y.1.start).map fun x => x.1.variant x.2 := by
      rw [hpresent]
      symm
      apply List.map_mergeSort
      exact fun _ _ _ _ => rfl
    have hslots : slots (rendered.filterMap (·.2)) = (((family.choices span.body).zip contents).map
        fun shown => slot shown.1.name shown.2.html).flatten := by
      rw [hpresent]
      exact List.flatMap_map _ _ _
    -- The flags only read whether a variant is there.
    have hcomponent := foldl_flags rendered ⟨family.component, []⟩
    rw [hflags, List.flatMap_map, List.nil_append] at hcomponent
    dsimp only
    rw [hcomponent, hslots, hsort, List.flatMap_map]
    rfl

/-- A container whose source has the variants in another order than their family. -/
def swappedContainer : Span :=
  ⟨"<frameworkcontent>", none, "<tf>\n## Keras\n</tf><pt>\n## Torch\n</pt>",
    "</frameworkcontent>"⟩

/-- What the variants of the container render to, in the order of their family. -/
def torchAndKeras : List Fragment :=
  [⟨"<Heading title=\x7b\"Torch\"\x7d local=\x7b\"torch\"\x7d headingTag=\x7b\"h2\"\x7d />",
      [⟨"Torch", "torch", 2⟩]⟩,
    ⟨"<Heading title=\x7b\"Keras\"\x7d local=\x7b\"keras\"\x7d headingTag=\x7b\"h2\"\x7d />",
      [⟨"Keras", "keras", 2⟩]⟩]

/-- The slots of the container are swapped, its headings are not. -/
theorem swappedContainer_shown :
    Renders (fragment ⟨{}, false⟩) .before
      ((Family.frameworks.choices swappedContainer.body).map Choice.found) {} torchAndKeras {} ∧
    (familyFragment (fragment ⟨{}, false⟩) .frameworks .before swappedContainer).run {} = .ok
      (⟨"<FrameworkContent pytorch=\x7btrue\x7d tensorflow=\x7btrue\x7d ".toList ++
          "jax=\x7bfalse\x7d>\n".toList ++
          "<svelte:fragment slot=\"pytorch\">\n".toList ++
          "<Heading title=\x7b\"Torch\"\x7d local=\x7b\"torch\"\x7d ".toList ++
          "headingTag=\x7b\"h2\"\x7d />\n".toList ++
          "</svelte:fragment>\n<svelte:fragment slot=\"tensorflow\">\n".toList ++
          "<Heading title=\x7b\"Keras\"\x7d local=\x7b\"keras\"\x7d ".toList ++
          "headingTag=\x7b\"h2\"\x7d />\n".toList ++
          "</svelte:fragment>\n</FrameworkContent>".toList,
        [⟨"Keras", "keras", 2⟩, ⟨"Torch", "torch", 2⟩]⟩, {}) := by
  have hchoices : Family.frameworks.choices swappedContainer.body =
      [⟨.pt, "pytorch", "<tf>\n## Keras\n</tf>", "<pt>", none, "\n## Torch\n", "</pt>"⟩,
        ⟨.tf, "tensorflow", [], "<tf>", none, "\n## Keras\n", "</tf>"⟩] := by
    decide +kernel
  have hflags : Family.frameworks.flags swappedContainer.body =
      " pytorch=\x7btrue\x7d tensorflow=\x7btrue\x7d jax=\x7bfalse\x7d".toList := by
    decide +kernel
  have hrenders : Renders (fragment ⟨{}, false⟩) .before
      ((Family.frameworks.choices swappedContainer.body).map Choice.found) {}
      torchAndKeras {} := by
    rw [hchoices]
    apply Renders.cons (b := {})
    · decide +kernel
    apply Renders.cons (b := {})
    · decide +kernel
    exact .nil
  obtain ⟨slots, inSource, -, hslots, hperm, horder, hrun⟩ :=
    family_follows_declaration_and_source _ .frameworks _ swappedContainer _ _ _ hrenders
  obtain rfl := forall₂_isSlot_iff.mp hslots
  rw [hchoices] at hperm
  rw [hchoices, hflags] at hrun
  obtain rfl | rfl := List.perm_pair.mp hperm
  · -- The declared order is not the order of the source.
    have hle := (List.pairwise_pair.mp horder).1
    exact absurd hle (by decide)
  · refine ⟨hrenders, hrun.trans ?_⟩
    decide +kernel

/-! ## Options -/

/-- What is left of the matches when each id keeps its first match only. -/
structure FirstOfEach (matched kept : List (Text × Span)) : Prop where
  inOrder : kept.Sublist matched
  distinct : (kept.map (·.2.id)).Nodup
  covers : ∀ found ∈ matched, found.2.id ∈ kept.map (·.2.id)
  first : ∀ found ∈ kept, matched.find? (·.2.id == found.2.id) = some found

namespace FirstOfEach

variable {matched kept : List (Text × Span)} {found : Text × Span}

/-- A repeated id adds nothing. -/
theorem repeated (h : FirstOfEach matched kept) (hold : found.2.id ∈ kept.map (·.2.id)) :
    FirstOfEach (matched ++ [found]) kept where
  inOrder := h.inOrder.trans (List.sublist_append_left _ _)
  distinct := h.distinct
  covers other hother := by
    rcases List.mem_append.mp hother with hother | hother
    · exact h.covers other hother
    · rwa [List.mem_singleton.mp hother]
  -- Searching from the front finds the first match before the repeated one.
  first other hother := by
    rw [List.find?_append, h.first other hother]
    rfl

/-- A new id keeps its match. -/
theorem new (h : FirstOfEach matched kept) (hnew : found.2.id ∉ kept.map (·.2.id)) :
    FirstOfEach (matched ++ [found]) (kept ++ [found]) where
  inOrder := h.inOrder.append (List.Sublist.refl _)
  -- The id is new, so the ids stay distinct.
  distinct := by
    rw [List.map_append, List.nodup_append]
    refine ⟨h.distinct, List.nodup_singleton _, ?_⟩
    rintro id hid other hother rfl
    rw [List.map_singleton, List.mem_singleton] at hother
    exact hnew (hother ▸ hid)
  covers other hother := by
    rw [List.map_append, List.mem_append]
    apply (List.mem_append.mp hother).imp (h.covers other)
    intro heq
    rw [List.mem_singleton.mp heq]
    exact List.mem_singleton.mpr rfl
  first other hother := by
    rw [List.find?_append]
    rcases List.mem_append.mp hother with hother | hother
    · rw [h.first other hother]
      rfl
    · -- No earlier match has the id, or it would be among the ids that were kept.
      obtain rfl := List.mem_singleton.mp hother
      have hnone : matched.find? (·.2.id == other.2.id) = none := by
        rw [List.find?_eq_none]
        intro earlier hmem heq
        apply hnew
        rw [← eq_of_beq heq]
        exact h.covers earlier hmem
      rw [hnone]
      simp

end FirstOfEach

/-- The text of a container determines which matches are kept. -/
theorem FirstOfEach.unique {matched kept kept' : List (Text × Span)} (hmatched : matched.Nodup)
    (h : FirstOfEach matched kept) (h' : FirstOfEach matched kept') : kept = kept' := by
  -- A match is kept when it is the first one with its id: the id is covered, and no other match
  -- with it is first.
  have hmem : ∀ {k : List (Text × Span)}, FirstOfEach matched k → ∀ found,
      found ∈ k ↔ matched.find? (·.2.id == found.2.id) = some found := by
    intro k hk found
    refine ⟨hk.first found, fun hfirst => ?_⟩
    have hfound := List.mem_of_find?_eq_some hfirst
    obtain ⟨other, hother, hid⟩ := List.mem_map.mp (hk.covers found hfound)
    have hsame := hk.first other hother
    rw [hid, hfirst] at hsame
    cases hsame
    exact hother
  -- Both lists keep the order of the matches, and these are all different.
  apply (hmatched.perm_iff_eq_of_sublist h.inOrder h'.inOrder).mp
  apply (List.perm_ext_iff_of_nodup (hmatched.sublist h.inOrder) (hmatched.sublist h'.inOrder)).mpr
  exact fun found => (hmem h found).trans (hmem h' found).symm

theorem firstOfEachId_concat (matched : List (Text × Span)) (found : Text × Span) :
    firstOfEachId (matched ++ [found]) =
      if (firstOfEachId matched).any (·.2.id == found.2.id) then firstOfEachId matched
      else firstOfEachId matched ++ [found] := by
  unfold firstOfEachId
  rw [List.foldl_append, List.foldl_cons, List.foldl_nil, List.concat_eq_append]

/-- The options are read from the front, so the induction goes by the last match. -/
theorem firstOfEach_firstOfEachId (matched : List (Text × Span)) :
    FirstOfEach matched (firstOfEachId matched) := by
  induction matched using List.reverseRecOn with
  | nil => exact ⟨List.Sublist.refl _, List.nodup_nil, by simp, by simp [firstOfEachId]⟩
  | append_singleton matched found ih =>
    -- The test in the code asks for the id among the matches that were kept so far.
    have hany : (firstOfEachId matched).any (·.2.id == found.2.id) = true ↔
        found.2.id ∈ (firstOfEachId matched).map (·.2.id) := by
      simp only [List.any_eq_true, List.mem_map, beq_iff_eq]
    rw [firstOfEachId_concat]
    split
    · rename_i hold
      exact ih.repeated (hany.mp hold)
    · rename_i hnew
      exact ih.new (mt hany.mpr hnew)

def optionId (found : Text × Span) : Text :=
  found.2.id.getD []

/-- Options have ids. -/
theorem map_some_optionId {p : Pattern} (hp : p.requiresId = true) {body : Text}
    {kept : List (Text × Span)} (h : kept.Sublist (p.spans body)) :
    kept.map (·.2.id) = (kept.map optionId).map some := by
  rw [List.map_map]
  apply List.map_congr_left
  intro found hfound
  -- The pattern of options takes no tag without an id.
  have hmatches := ((p.scan_segments body).sound (h.subset hfound)).1
  obtain ⟨-, -, -, -, hsome⟩ := hmatches.opens
  obtain ⟨id, hid⟩ := Option.isSome_iff_exists.mp (hsome hp)
  simp [optionId, hid]

/-- The kept options become variants one after the other. -/
theorem run_renderOptions {kept : List (Text × Span)} {contents : List Fragment}
    (h : Renders nested region kept a contents a') :
    (kept.mapM fun found => renderVariant nested region (found.2.id.getD []) found).run a =
      .ok ((kept.zip contents).map fun (found, content) =>
        ⟨optionId found, Tag.startByte found, content⟩, a') := by
  -- The options are rendered from the front, as the run through them goes.
  induction h with
  | nil => rfl
  | cons hfirst _ ih =>
    rw [List.mapM_cons, run_bind_of_run (run_renderVariant _ hfirst), run_bind_of_run ih]
    rfl

theorem optionsComponent_wrap (id : Text) (ids : Json) (children : Text) :
    (((Component.mk "HfOptions" []).attr "id" id).prop "options" ids).wrap children =
      "<HfOptions id=\"".toList ++ Html.escape id ++ "\" options=\x7b".toList ++ ids.toAttr ++
        "\x7d>\n".toList ++ children ++ "</HfOptions>".toList := by
  unfold Component.wrap Component.prop Component.expr Component.attr
  simp

/-- **What the component of options shows.**

The options that are kept are the first matches with their ids, in the order of the source, and no
other options could be. The component lists their ids, which are distinct, and it has a slot for
each of them in the same order, with what the option rendered to in the region at its place. The
headings are those of the kept options, in the order of the source; a repeated option is not
rendered at all. -/
theorem options_show_first_of_each_id (span : Span) :
    ∃ (kept : List (Text × Span)) (ids : List Text),
      (∀ other, FirstOfEach ((Pattern.identified .hfOption).spans span.body) other ↔
        other = kept) ∧
      kept.map (·.2.id) = ids.map some ∧ ids.Nodup ∧
      ∀ nested region a contents a', Renders nested region kept a contents a' →
        ∃ slots : List Text, contents.length = ids.length ∧
          List.Forall₂ (fun shown => IsSlot shown.1 shown.2.html) (ids.zip contents) slots ∧
          (optionsFragment nested region span).run a = .ok
            (⟨"<HfOptions id=\"".toList ++ Html.escape (span.id.getD []) ++
                "\" options=\x7b".toList ++ (Json.array (ids.map .string)).toAttr ++
                "\x7d>\n".toList ++ slots.flatten ++ "</HfOptions>".toList,
              contents.flatMap (·.headings)⟩, a') := by
  have hkept := firstOfEach_firstOfEachId ((Pattern.identified .hfOption).spans span.body)
  have hids := map_some_optionId rfl hkept.inOrder
  have hdistinct := hkept.distinct
  rw [hids] at hdistinct
  -- The ids belong to the options that are kept, which the text alone determines.
  refine ⟨_, _, fun other => ⟨fun hother => ?_, ?_⟩, hids, hdistinct.of_map _, ?_⟩
  · exact hother.unique (Pattern.nodup_spans _ _) hkept
  · rintro rfl
    exact hkept
  intro nested region a contents a' h
  have hlength := h.length_eq
  refine ⟨_, hlength.trans (List.length_map _).symm, forall₂_isSlot_iff.mpr rfl, ?_⟩
  unfold optionsFragment
  dsimp only
  rw [run_bind_of_run (run_renderOptions h)]
  -- The ids, the slots and the headings are read off the options and their contents.
  generalize firstOfEachId ((Pattern.identified .hfOption).spans span.body) = kept at *
  have hfst : (kept.zip contents).map Prod.fst = kept := List.map_fst_zip hlength.ge
  have hsnd : (kept.zip contents).map Prod.snd = contents := List.map_snd_zip hlength.le
  -- The names of the variants are the ids, whatever was rendered.
  have hprop : (kept.zip contents).map (fun x => Json.string (optionId x.1)) =
      (kept.map optionId).map .string := by
    conv_rhs => rw [← hfst, List.map_map, List.map_map]
    rfl
  have hslots : (kept.zip contents).flatMap (fun x => slot (optionId x.1) x.2.html) =
      (((kept.map optionId).zip contents).map fun x => slot x.1 x.2.html).flatten := by
    rw [List.zip_map_left, List.map_map]
    rfl
  have hheadings : (kept.zip contents).flatMap (·.2.headings) =
      contents.flatMap (·.headings) := by
    conv_rhs => rw [← hsnd, List.flatMap_map]
  unfold slots
  rw [← optionsComponent_wrap, ← hprop, ← hslots, ← hheadings]
  simp only [List.map_map, List.flatMap_map]
  rfl

/-- A container whose first option is repeated. -/
def repeatingContainer : Span :=
  ⟨"<hfoptions id=\"setup\">", some "setup",
    "<hfoption id=\"pip\">\n## Pip\n</hfoption><hfoption id=\"conda\">C</hfoption>".toList ++
      "<hfoption id=\"pip\">\n## Again\n</hfoption>".toList,
    "</hfoptions>"⟩

/-- The options of the container without the repeated one. -/
def pipAndConda : List (Text × Span) :=
  [([], ⟨"<hfoption id=\"pip\">", some "pip", "\n## Pip\n", "</hfoption>"⟩),
    ("<hfoption id=\"pip\">\n## Pip\n</hfoption>",
      ⟨"<hfoption id=\"conda\">", some "conda", "C", "</hfoption>"⟩)]

/-- The repeated option brings neither a slot nor its heading. -/
theorem repeatingContainer_shown :
    FirstOfEach ((Pattern.identified .hfOption).spans repeatingContainer.body) pipAndConda ∧
    Renders (fragment ⟨{}, false⟩) .before pipAndConda {}
      [⟨"<Heading title=\x7b\"Pip\"\x7d local=\x7b\"pip\"\x7d headingTag=\x7b\"h2\"\x7d />",
          [⟨"Pip", "pip", 2⟩]⟩, ⟨"<p>C</p>", []⟩] {} ∧
    (optionsFragment (fragment ⟨{}, false⟩) .before repeatingContainer).run {} = .ok
      (⟨"<HfOptions id=\"setup\" options=\x7b[\"pip\",\"conda\"]\x7d>\n".toList ++
          "<svelte:fragment slot=\"pip\">\n".toList ++
          "<Heading title=\x7b\"Pip\"\x7d local=\x7b\"pip\"\x7d ".toList ++
          "headingTag=\x7b\"h2\"\x7d />\n".toList ++
          "</svelte:fragment>\n<svelte:fragment slot=\"conda\">\n".toList ++
          "<p>C</p>\n</svelte:fragment>\n</HfOptions>".toList,
        [⟨"Pip", "pip", 2⟩]⟩, {}) := by
  have hfirst : FirstOfEach ((Pattern.identified .hfOption).spans repeatingContainer.body)
      pipAndConda := by
    have hspans : (Pattern.identified .hfOption).spans repeatingContainer.body = pipAndConda ++
        [("<hfoption id=\"pip\">\n## Pip\n</hfoption><hfoption id=\"conda\">C</hfoption>".toList,
          ⟨"<hfoption id=\"pip\">", some "pip", "\n## Again\n", "</hfoption>"⟩)] := by
      decide +kernel
    rw [hspans]
    exact ⟨List.sublist_append_left _ _, by decide, by decide, by decide⟩
  have hrenders : Renders (fragment ⟨{}, false⟩) .before pipAndConda {}
      [⟨"<Heading title=\x7b\"Pip\"\x7d local=\x7b\"pip\"\x7d headingTag=\x7b\"h2\"\x7d />",
          [⟨"Pip", "pip", 2⟩]⟩, ⟨"<p>C</p>", []⟩] {} := by
    apply Renders.cons (b := {})
    · decide +kernel
    apply Renders.cons (b := {})
    · decide +kernel
    exact .nil
  obtain ⟨kept, ids, hkept, hids, -, hshown⟩ := options_show_first_of_each_id repeatingContainer
  obtain rfl := (hkept pipAndConda).mp hfirst
  obtain ⟨slots, -, hslots, hrun⟩ := hshown _ _ _ _ _ hrenders
  obtain rfl := forall₂_isSlot_iff.mp hslots
  obtain rfl : ["pip".toList, "conda".toList] = ids :=
    List.map_injective_iff.mpr (fun _ _ => Option.some.inj) hids
  refine ⟨hfirst, hrenders, hrun.trans ?_⟩
  decide +kernel

end DocPage.Document
