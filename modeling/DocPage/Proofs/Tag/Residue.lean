import DocPage.Proofs.Tag.Substitute

/-!
# What is left when matches give way to comments

When every match of a pattern gives way to a comment, the pattern finds nothing in the result. The
search over the result takes the same course as the search over the text: each opening tag that was
passed over is passed over again, and where a match was, no opening tag begins. A tag that is
unterminated cannot be completed from behind a comment, since it would have been completed by the
match that stood there.

## Architecture

- **Course**: the grammar determines the course of the search
- **Openings**: an opening tag ends at its first `>`, so what follows does not change it
- **Comments**: `Declaration`, in which no opening tag begins and which none reaches
- **Results**: `Substituted`, and the search over such a text
-/

namespace DocPage.Tag

/-! ## Course -/

/-- The first opening tag in the grammar is the one that is read. -/
theorem FirstOpening.firstOpening?_eq {name before markup rest : Text}
    (h : FirstOpening name before markup rest) :
    ∃ o, firstOpening? name (before ++ markup ++ rest) = some (before, o) ∧
      openingAt? name (markup ++ rest) = some o ∧ o.markup = markup ∧ o.rest = rest := by
  -- The search finds some tag, for one stands in the text.
  cases hread : firstOpening? name (before ++ markup ++ rest) with
  | none =>
    refine absurd ?_ ((firstOpening?_eq_none_iff).mp hread markup h.isOpening)
    exact ⟨before, rest, rfl⟩
  | some found =>
    obtain ⟨front, o⟩ := found
    obtain ⟨ho, heq, hmin⟩ := firstOpening?_eq_some hread
    obtain ⟨attrs, ha, hm, -, -⟩ := (openingAt?_eq_some_iff).mp ho
    -- Each of the two opening tags starts no later than the other one.
    have hle := hmin before markup rest h.isOpening rfl
    have hge := h.first front o.markup o.rest ⟨attrs, ha, hm⟩ heq
    rw [List.append_assoc, List.append_assoc] at heq
    obtain ⟨rfl, htail⟩ := List.append_inj heq (by omega)
    obtain ⟨hmarkup, hrest⟩ := h.isOpening.eq_of_append_eq ⟨attrs, ha, hm⟩ htail
    exact ⟨o, rfl, htail ▸ ho, hmarkup.symm, hrest.symm⟩

/-- What the grammar says of the course of a search is its course. -/
theorem Pattern.Scan.eq_segments {p : Pattern} {t : Text} {segments : List Segment}
    (h : p.Scan t segments) : segments = p.segments t := by
  -- One case for each way in which the search went on; each is a branch of its equation.
  induction h with
  | bare hnone => rw [segments_eq, (firstOpening?_eq_none_iff).mpr hnone]
  | unfit hf hunfit _ ih =>
    obtain ⟨o, hfirst, ho, rfl, rfl⟩ := hf.firstOpening?_eq
    -- The grammar lets the tag open with no `id`, so the pattern refuses what was read.
    have haccept : p.accept? o.attributes = none := by
      rw [Option.eq_none_iff_forall_ne_some]
      exact fun id hid => hunfit id ((accept?_eq_some_iff ho).mp hid)
    rw [segments_eq, hfirst]
    simp only [haccept, ih]
  | unclosed hf hopens hnone =>
    obtain ⟨o, hfirst, ho, rfl, rfl⟩ := hf.firstOpening?_eq
    rw [segments_eq, hfirst]
    simp only [(accept?_eq_some_iff ho).mpr hopens, (Text.splitOnce?_eq_none_iff).mpr hnone]
  | nested hf hopens hbody hinner hin _ ih =>
    obtain ⟨o, hfirst, ho, rfl, hrest⟩ := hf.firstOpening?_eq
    rw [segments_eq, hfirst]
    simp only [(accept?_eq_some_iff ho).mpr hopens, hrest, p.splitOnce?_closing _ hbody]
    rw [if_pos, ih]
    -- The inner tag is found by the reader, too.
    rw [Option.isSome_iff_ne_none, ne_eq, firstOpening?_eq_none_iff]
    exact fun hnone => hnone _ hinner hin
  | @found before rest s segments hf hfound _ ih =>
    obtain ⟨o, hfirst, ho, hmarkup, hrest⟩ := hf.firstOpening?_eq
    have hopens := hfound.opens
    have hbody := hfound.noClosing
    rw [hfound.closing_eq_closing] at hbody
    rw [← hmarkup] at hopens
    rw [segments_eq, hfirst]
    simp only [(accept?_eq_some_iff ho).mpr hopens, hrest, hfound.closing_eq_closing,
      p.splitOnce?_closing _ hbody]
    rw [if_neg, ih, hmarkup]
    · rw [← hfound.closing_eq_closing]
    · rw [(firstOpening?_eq_none_iff).mpr hfound.noOpening]
      exact Bool.false_ne_true

/-! ## Openings -/

/-- The bracket at the end of an opening tag is the only one that closes in it. -/
theorem Pattern.exists_front_of_isOpening {p : Pattern} {markup : Text}
    (h : IsOpening p.name markup) : ∃ front, markup = front ++ ['>'] ∧ '>' ∉ front := by
  obtain ⟨attrs, ha, rfl⟩ := h
  refine ⟨'<' :: p.name ++ attrs, rfl, fun hmem => ?_⟩
  -- Neither the first bracket, nor the name, nor the attributes close one.
  rcases List.mem_append.mp hmem with hname | hattrs
  · rcases List.mem_cons.mp hname with hopens | hname
    · exact absurd hopens (by decide)
    · exact p.not_mem_name (by decide) hname
  · exact ha.noEnd hattrs

/-- An opening tag that starts in a text whose end closes a bracket ends in that text. -/
theorem Pattern.exists_of_isOpening_append {p : Pattern} {u v b markup r : Text}
    (h : IsOpening p.name markup) (heq : u ++ ['>'] ++ v = b ++ markup ++ r)
    (hlt : b.length < (u ++ ['>']).length) : ∃ w, u ++ ['>'] = b ++ markup ++ w ∧ r = w ++ v := by
  rcases Text.append_cases heq with ⟨w, hw, hr⟩ | ⟨w, hw, hv⟩
  -- The tag ends in front of the last bracket, or behind it.
  · exact ⟨w, hw, hr⟩
  · rcases List.eq_nil_or_concat' w with rfl | ⟨w, c, rfl⟩
    · exact ⟨[], by simpa using hw.symm, by simpa using hv.symm⟩
    · -- Then the bracket would stand inside the tag, in front of its end.
      exfalso
      obtain ⟨front, rfl, hfront⟩ := exists_front_of_isOpening h
      rw [← List.append_assoc, ← List.append_assoc] at hw
      obtain ⟨hfronts, -⟩ := List.append_inj' hw rfl
      rw [List.append_assoc u] at hfronts
      rcases Text.append_cases hfronts with ⟨y, rfl, hy⟩ | ⟨y, -, rfl⟩
      · have hnil : y = [] := by
          rw [← List.length_eq_zero_iff]
          simp only [List.length_append, List.length_singleton] at hlt
          omega
        subst hnil
        obtain rfl : front = '>' :: w := hy.symm
        exact hfront List.mem_cons_self
      · exact hfront (by simp)

/-- Every opening tag of the name in the text that continues `front` starts behind `front`. -/
def Clear (name front behind : Text) : Prop :=
  ∀ b markup rest, IsOpening name markup → front ++ behind = b ++ markup ++ rest →
    front.length ≤ b.length

/-- What stands behind an opening tag does not matter for its being the first one. -/
theorem FirstOpening.of_rest {p : Pattern} {before markup rest : Text}
    (h : FirstOpening p.name before markup rest) (behind : Text) :
    FirstOpening p.name before markup behind where
  isOpening := h.isOpening
  -- An earlier tag would end inside the text that has not changed.
  first := by
    intro b other r hother heq
    by_contra hlt
    obtain ⟨front, hmarkup, -⟩ := Pattern.exists_front_of_isOpening h.isOpening
    rw [hmarkup, ← List.append_assoc] at heq
    have hinside : b.length < (before ++ front ++ ['>']).length := by
      simp only [List.length_append, List.length_singleton]
      omega
    -- The earlier tag would stand in front of the old text, too.
    obtain ⟨w, hw, -⟩ := Pattern.exists_of_isOpening_append hother heq hinside
    refine hlt (h.first b other (w ++ rest) hother ?_)
    rw [hmarkup, ← List.append_assoc, hw, List.append_assoc]

/-- Text in which no opening tag starts can be put in front of the first one. -/
theorem FirstOpening.append_left {name x before markup rest : Text}
    (h : FirstOpening name before markup rest)
    (hclear : Clear name x (before ++ markup ++ rest)) :
    FirstOpening name (x ++ before) markup rest where
  isOpening := h.isOpening
  first := by
    intro b other r hother heq
    -- The other tag starts behind `x`, so it stands in the old text.
    rw [List.append_assoc, List.append_assoc, ← List.append_assoc before] at heq
    have hle := hclear b other r hother heq
    obtain ⟨w, rfl⟩ : x <+: b := by
      refine List.prefix_of_prefix_length_le ⟨_, heq⟩ ?_ hle
      rw [List.append_assoc]
      exact List.prefix_append _ _
    have hrest : before ++ markup ++ rest = w ++ other ++ r := by
      simpa using heq
    have := h.first w other r hother hrest
    simp only [List.length_append]
    omega

/-! ## Comments -/

/-- Markup that opens with `<!`, as comments do, and opens no other bracket. -/
def Declaration (t : Text) : Prop :=
  ∃ tail, t = '<' :: '!' :: tail ∧ '<' ∉ tail

/-- No opening tag begins like a declaration. -/
theorem Pattern.not_isOpening_of_declaration {p : Pattern} {markup t r : Text}
    (h : IsOpening p.name markup) : markup ++ r ≠ '<' :: '!' :: t := by
  obtain ⟨attrs, ha, rfl⟩ := h
  intro heq
  obtain ⟨-, heq⟩ := List.cons.inj heq
  -- Behind the bracket stands a character of the name, a blank, or the closing bracket.
  cases hname : p.name with
  | cons c name =>
    rw [hname] at heq
    obtain ⟨rfl, -⟩ := List.cons.inj heq
    exact p.not_mem_name (by decide) (hname ▸ List.mem_cons_self)
  | nil =>
    rw [hname] at heq
    cases attrs with
    | nil => exact absurd (List.cons.inj heq).1 (by decide)
    | cons c attrs =>
      obtain ⟨rfl, -⟩ := List.cons.inj heq
      exact absurd (ha.blank_head '!' rfl) (by decide)

/-- A second bracket that opens inside an opening tag stands behind the start of its attributes. -/
theorem Pattern.exists_attributes_of_isOpening {p : Pattern} {u w : Text}
    (h : IsOpening p.name ('<' :: (u ++ '<' :: w))) :
    ∃ attrs, AttributeText attrs ∧ attrs ≠ [] ∧ u = p.name ++ attrs := by
  obtain ⟨attrs, ⟨hnoEnd, hblank⟩, heq⟩ := h
  have heq : u ++ '<' :: w = p.name ++ (attrs ++ ['>']) := by simpa using heq
  have hname : '<' ∉ p.name := p.not_mem_name (by decide)
  -- The second bracket is in the attributes or the name of the tag, or behind both.
  rcases Text.append_cases heq with ⟨a, rfl, ha⟩ | ⟨y, hy, hw⟩
  · rcases Text.append_cases ha with ⟨z, rfl, hz⟩ | ⟨z, rfl, hz⟩
    · cases z with
      | nil => exact absurd (List.cons.inj hz).1 (by decide)
      | cons c z =>
        obtain ⟨rfl, -⟩ := List.cons.inj hz
        refine ⟨a, ⟨fun hmem => hnoEnd (List.mem_append_left _ hmem), fun c hc => ?_⟩, ?_, rfl⟩
        · refine hblank c ?_
          rw [List.head?_append, hc]
          rfl
        · -- The attributes do not start with a bracket, but with a blank.
          rintro rfl
          exact absurd (hblank '<' rfl) (by decide)
    · have hmem : '<' ∈ ['>'] := by
        rw [hz]
        simp
      exact absurd hmem (by decide)
  · cases y with
    | nil =>
      cases attrs with
      | nil => exact absurd (List.cons.inj hw).1 (by decide)
      | cons c attrs =>
        obtain ⟨rfl, -⟩ := List.cons.inj hw
        exact absurd (hblank '<' rfl) (by decide)
    | cons c y =>
      obtain ⟨rfl, -⟩ := List.cons.inj hw
      exact absurd (by rw [hy]; simp) hname

/-- No opening tag stands wholly in front of the first one. -/
theorem FirstOpening.not_before {name before markup rest b other w : Text}
    (h : FirstOpening name before markup rest) (hother : IsOpening name other) :
    before ≠ b ++ other ++ w := by
  -- Such a tag would start before the first one.
  rintro rfl
  have hle := h.first b other (w ++ markup ++ rest) hother (by simp)
  have := List.length_pos_iff.mpr hother.ne_nil
  simp only [List.length_append] at hle
  omega

/-- In front of an opening tag, no start of another one with attributes is left open. -/
theorem FirstOpening.not_open {p : Pattern} {before markup rest b attrs : Text}
    (h : FirstOpening p.name before markup rest) (ha : AttributeText attrs) (hne : attrs ≠ []) :
    before ≠ b ++ '<' :: (p.name ++ attrs) := by
  rintro rfl
  obtain ⟨own, hown, hmarkup⟩ := h.isOpening
  -- Together with the tag behind it, the open start would be an opening tag.
  have hopening : IsOpening p.name ('<' :: p.name ++ (attrs ++ '<' :: p.name ++ own) ++ ['>']) := by
    refine ⟨_, ⟨?_, fun c hc => ?_⟩, rfl⟩
    · have hname : '>' ∉ p.name := p.not_mem_name (by decide)
      simp [ha.noEnd, hown.noEnd, hname]
    · obtain ⟨d, attrs, rfl⟩ := List.exists_cons_of_ne_nil hne
      exact ha.blank_head c hc
  have hle := h.first b _ rest hopening (by rw [hmarkup]; simp)
  simp only [List.length_append, List.length_cons] at hle
  omega

/-- Where a declaration stands in place of a match, no opening tag starts up to its end. -/
theorem FirstOpening.clear_declaration {p : Pattern} {before markup rest new : Text}
    (h : FirstOpening p.name before markup rest) (hnew : Declaration new) (behind : Text) :
    Clear p.name (before ++ new) behind := by
  obtain ⟨tail, rfl, htail⟩ := hnew
  intro b other r hother heq
  by_contra hlt
  rw [List.append_assoc, List.append_assoc] at heq
  -- The tag starts in front of the declaration or inside it.
  rcases Text.append_cases heq with ⟨u, rfl, hu⟩ | ⟨u, rfl, hu⟩
  · -- The tag would start in front of the declaration: it ends there, or it reaches into it.
    rcases Text.append_cases hu with ⟨w, rfl, hw⟩ | ⟨w, rfl, -⟩
    · cases w with
      | nil => exact h.not_before (b := b) (w := []) hother (by simp)
      | cons c w =>
        obtain ⟨rfl, -⟩ := List.cons.inj hw
        cases u with
        | nil => exact Pattern.not_isOpening_of_declaration hother hw.symm
        | cons d u =>
          obtain ⟨attrs, -, hfirst⟩ := id hother
          obtain ⟨rfl, -⟩ := List.cons.inj hfirst
          obtain ⟨attrs, ha, hne, rfl⟩ := Pattern.exists_attributes_of_isOpening hother
          exact h.not_open ha hne rfl
    · exact h.not_before hother (List.append_assoc ..).symm
  · cases u with
    | nil => exact Pattern.not_isOpening_of_declaration hother hu.symm
    | cons c u =>
      -- The tag would start inside the declaration, with a second opening bracket.
      obtain ⟨rfl, hinside⟩ := List.cons.inj hu
      obtain ⟨attrs, -, rfl⟩ := hother
      simp only [List.length_append, List.length_cons] at hlt
      rcases Text.append_cases (a := '!' :: tail) hinside with ⟨y, hy, hrest⟩ | ⟨y, rfl, -⟩
      · cases y with
        | nil =>
          have hlength := congrArg List.length hy
          simp only [List.length_cons, List.length_append, List.length_nil] at hlength
          omega
        | cons d y =>
          obtain ⟨rfl, -⟩ := List.cons.inj hrest
          have hmem : '<' ∈ '!' :: tail := by
            rw [hy]
            simp
          rcases List.mem_cons.mp hmem with hbang | hmem
          · exact absurd hbang (by decide)
          · exact htail hmem
      · simp only [List.length_append, List.length_cons] at hlt
        omega

/-! ## Results -/

/-- The text arises from the segments: each gap is copied, and each match gives way to a text as
described. -/
inductive Substituted (P : Text → Prop) : List Segment → Text → Prop where
  | nil : Substituted P [] []
  | gap {text rest : Text} {segments : List Segment} :
      Substituted P segments rest → Substituted P (.gap text :: segments) (text ++ rest)
  | span {s : Span} {new rest : Text} {segments : List Segment} :
      P new → Substituted P segments rest → Substituted P (.span s :: segments) (new ++ rest)

/-- A gap is no match. -/
theorem located_gap_eq_nil_iff {text : Text} {segments : List Segment} :
    located [] (.gap text :: segments) = [] ↔ located [] segments = [] := by
  rw [located, located_eq_map, List.map_eq_nil_iff]

/-- Text in which no opening tag starts can be put in front of a text without matches. -/
theorem Pattern.Scan.exists_append_left {p : Pattern} {x t : Text} {segments : List Segment}
    (h : p.Scan t segments) (hclear : Clear p.name x t) (hnone : located [] segments = []) :
    ∃ segments', p.Scan (x ++ t) segments' ∧ located [] segments' = [] := by
  -- The way in which the search begins stays the same, with `x` in the first gap.
  cases h with
  | bare hbare =>
    refine ⟨[.gap (x ++ t)], .bare fun markup hmarkup => ?_, rfl⟩
    rintro ⟨b, rest, heq⟩
    -- The tag would stand behind `x`, where there is none.
    have hle := hclear b markup rest hmarkup heq.symm
    rw [List.append_assoc] at heq
    rcases Text.append_cases heq with ⟨w, rfl, hw⟩ | ⟨w, rfl, hw⟩
    · exact hbare markup hmarkup ⟨w, rest, by rw [hw, List.append_assoc]⟩
    · have hnil : w = [] := by
        rw [← List.length_eq_zero_iff]
        simp only [List.length_append] at hle
        omega
      subst hnil
      exact hbare markup hmarkup ⟨[], rest, by simpa using hw⟩
  | @unfit before markup rest segments hf hunfit hrest =>
    have hscan := Scan.unfit (hf.append_left hclear) hunfit hrest
    refine ⟨_, by simpa using hscan, ?_⟩
    exact located_gap_eq_nil_iff.mpr (located_gap_eq_nil_iff.mp hnone)
  | @unclosed before markup rest id hf hopens hopen =>
    have hscan := Scan.unclosed (hf.append_left hclear) hopens hopen
    exact ⟨_, by simpa using hscan, rfl⟩
  | @nested before markup body rest inner id segments hf hopens hbody hinner hin hrest =>
    have hscan := Scan.nested (hf.append_left hclear) hopens hbody hinner hin hrest
    refine ⟨_, by simpa using hscan, ?_⟩
    exact located_gap_eq_nil_iff.mpr (located_gap_eq_nil_iff.mp hnone)
  | found _ _ _ => cases hnone

/-- The search over a text in which declarations stand for the matches takes the same course as the
search before, and finds no match. -/
theorem Pattern.Scan.exists_of_substituted {p : Pattern} {t t' : Text} {segments : List Segment}
    (h : p.Scan t segments) (hnew : Substituted Declaration segments t') :
    ∃ segments', p.Scan t' segments' ∧ located [] segments' = [] := by
  -- One case for each way in which the search went on.
  induction h generalizing t' with
  | bare hbare =>
    -- Nothing was put in, as there was no match.
    obtain _ | ⟨_ | _⟩ := hnew
    rw [List.append_nil]
    exact ⟨_, .bare hbare, rfl⟩
  | unclosed hf hopens hopen =>
    obtain _ | ⟨_ | _⟩ := hnew
    rw [List.append_nil]
    exact ⟨_, .unclosed hf hopens hopen, rfl⟩
  | unfit hf hunfit _ ih =>
    obtain _ | ⟨hrest⟩ := hnew
    obtain ⟨segments', hscan, hnone⟩ := ih hrest
    exact ⟨_, .unfit (hf.of_rest _) hunfit hscan, located_gap_eq_nil_iff.mpr hnone⟩
  | @nested before markup body rest inner id segments hf hopens hbody hinner hin _ ih =>
    obtain _ | ⟨hrest⟩ := hnew
    obtain ⟨segments', hscan, hnone⟩ := ih hrest
    have hnested := Scan.nested (hf.of_rest _) hopens hbody hinner hin hscan
    refine ⟨.gap (before ++ markup ++ body ++ p.closing) :: segments', ?_,
      located_gap_eq_nil_iff.mpr hnone⟩
    simpa only [List.append_assoc] using hnested
  | found hf hfound _ ih =>
    -- The match gave way to a declaration, which no opening tag starts in or reaches.
    obtain _ | ⟨_ | _ | ⟨hdeclaration, hrest⟩⟩ := hnew
    obtain ⟨segments', hscan, hnone⟩ := ih hrest
    rw [← List.append_assoc]
    exact hscan.exists_append_left (hf.clear_declaration hdeclaration _) hnone

/-- Where declarations stand for the matches of a pattern, it has no match any more. -/
theorem Pattern.spans_eq_nil_of_substituted {p : Pattern} {t t' : Text}
    (h : Substituted Declaration (p.segments t) t') : p.spans t' = [] := by
  obtain ⟨segments', hscan, hnone⟩ := (p.scan_segments t).exists_of_substituted h
  rwa [spans, ← hscan.eq_segments]

/-- Without a match, a substitution gives the text back, whatever its transform. -/
theorem substitute_of_spans_eq_nil {m : Type → Type} [Monad m] [LawfulMonad m] {p : Pattern}
    {t : Text} (h : p.spans t = []) (transform : Text → Span → m Text) :
    substitute p transform t = pure t := by
  -- There is nothing to transform, and the splice is the text from its start on.
  rw [substitute_eq_splice, h, List.mapM_nil, pure_bind]
  rfl

end DocPage.Tag
