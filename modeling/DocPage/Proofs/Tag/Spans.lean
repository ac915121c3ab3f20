import DocPage.Proofs.Tag.Opening

/-!
# What the search for tags finds

The search cuts a text into gaps and spans. `Pattern.Scan` describes its course by the grammar of
opening tags alone, one constructor for each way in which the search moves on; every fact about the
matches is an induction over it.

A match is a span as `Pattern.Matches` describes it. All of them are found, apart from those that
stand in the shadow of an earlier opening tag of the same name (`Pattern.Shadows`).

## Architecture

- **Closing tags**: they cannot overlap themselves, so the first one behind a tag is unique
- **Course**: `Pattern.Scan`, and `scan_segments` for the search that runs
- **Places**: what `located` says about a list of segments
- **Soundness and completeness**: both by induction over `Pattern.Scan`
-/

namespace DocPage.Tag

/-! ## Closing tags -/

theorem Pattern.not_mem_tail_closing (p : Pattern) : '<' ∉ '/' :: p.name ++ ['>'] := by
  -- A name has neither of the delimiters.
  have := p.not_mem_name (c := '<') (by decide)
  simpa using this

/-- Behind a text without the closing tag stands the first closing tag. -/
theorem Pattern.splitOnce?_closing (p : Pattern) {body : Text} (rest : Text)
    (hbody : ¬ p.closing <:+: body) :
    Text.splitOnce? p.closing (body ++ p.closing ++ rest) = some (body, rest) :=
  Text.splitOnce?_append rest p.not_mem_tail_closing hbody

/-- The body in front of the first closing tag and the text behind it are unique. -/
theorem Pattern.body_unique {p : Pattern} {b₁ b₂ r₁ r₂ : Text} (h₁ : ¬ p.closing <:+: b₁)
    (h₂ : ¬ p.closing <:+: b₂) (h : b₁ ++ p.closing ++ r₁ = b₂ ++ p.closing ++ r₂) :
    b₁ = b₂ ∧ r₁ = r₂ := by
  -- Both cuts are the first one that the search finds.
  have hs := p.splitOnce?_closing r₁ h₁
  rw [h, p.splitOnce?_closing r₂ h₂] at hs
  cases hs
  exact ⟨rfl, rfl⟩

/-- A text with a closing tag in it goes at least to the end of the first one. -/
theorem Pattern.exists_of_closing_infix {p : Pattern} {u v body rest : Text}
    (hbody : ¬ p.closing <:+: body) (hu : p.closing <:+: u)
    (h : body ++ p.closing ++ rest = u ++ v) : ∃ w, u = body ++ p.closing ++ w ∧ rest = w ++ v := by
  -- The first closing tag in `u` is also the first one in the whole text.
  cases hs : Text.splitOnce? p.closing u with
  | none => exact absurd hu ((Text.splitOnce?_eq_none_iff).mp hs)
  | some pair =>
    obtain ⟨b, w⟩ := pair
    have hb : ¬ p.closing <:+: b := Text.not_infix_of_splitOnce? (List.cons_ne_nil _ _) hs
    have heq := Text.eq_of_splitOnce? hs
    have hcut : body ++ p.closing ++ rest = b ++ p.closing ++ (w ++ v) := by
      rw [h, heq]
      simp
    obtain ⟨rfl, rfl⟩ := Pattern.body_unique hbody hb hcut
    exact ⟨w, heq, rfl⟩

/-! ## Matches and shadows -/

/-- What a match looks like: an opening tag that the pattern accepts, with the reported `id`, the
body, and the closing tag. The body holds neither the closing tag nor an opening tag of the name. -/
structure Pattern.Matches (p : Pattern) (s : Span) : Prop where
  opens : p.Opens s.opening s.id
  closing_eq : s.closing = "</" ++ p.name ++ ">"
  noClosing : ¬ s.closing <:+: s.body
  noOpening : ∀ markup, IsOpening p.name markup → ¬ markup <:+: s.body

/-- The place behind `before` stands in the shadow of an opening tag of the name: the tag starts
earlier, and either it ends only behind the place, or the pattern accepts it and no closing tag
stands between it and the place. -/
def Pattern.Shadows (p : Pattern) (t before : Text) : Prop :=
  ∃ b markup rest, IsOpening p.name markup ∧ t = b ++ markup ++ rest ∧
    b.length < before.length ∧
    (before.length < (b ++ markup).length ∨
      ∃ id between, p.Opens markup id ∧ before = b ++ markup ++ between ∧
        ¬ ("</".toList ++ p.name ++ ">".toList) <:+: between)

/-- Shadows stay when a text is put in front. -/
theorem Pattern.Shadows.append_left {p : Pattern} {t before : Text} (h : p.Shadows t before)
    (u : Text) : p.Shadows (u ++ t) (u ++ before) := by
  obtain ⟨b, markup, rest, hm, rfl, hlt, hcase⟩ := h
  refine ⟨u ++ b, markup, rest, hm, by simp, by simpa using hlt, ?_⟩
  -- Either condition speaks of distances, which stay the same.
  rcases hcase with hover | ⟨id, between, hopens, rfl, hnone⟩
  · left
    simp only [List.length_append] at hover ⊢
    omega
  · exact .inr ⟨id, between, hopens, by simp, hnone⟩

/-- No shadow falls on a place when each opening tag in front of it ends there and is followed by a
closing tag. The condition is computed. -/
theorem Pattern.not_shadows_of_closed {p : Pattern} {t before : Text}
    (h : ∀ n < before.length, (openingAt? p.name (t.drop n)).all (fun o =>
      decide (n + o.markup.length ≤ before.length ∧
        p.closing <:+: before.drop (n + o.markup.length))) = true) : ¬ p.Shadows t before := by
  rintro ⟨b, markup, rest, hm, ht, hlt, hcase⟩
  obtain ⟨attributes, ho⟩ := openingAt?_append hm rest
  -- At the start of the tag, the reader finds it.
  have hdrop : t.drop b.length = markup ++ rest := by
    rw [ht, List.append_assoc, List.drop_left]
  have hplace := h b.length hlt
  rw [hdrop, ho] at hplace
  obtain ⟨hends, hclosed⟩ : b.length + markup.length ≤ before.length ∧
      p.closing <:+: before.drop (b.length + markup.length) := by simpa using hplace
  rcases hcase with hover | ⟨id, between, -, hbefore, hnone⟩
  · rw [List.length_append] at hover
    omega
  · rw [hbefore, ← List.length_append, List.drop_left] at hclosed
    exact hnone hclosed

/-- The `id` of an accepted opening tag is unique. -/
theorem Pattern.Opens.id_unique {p : Pattern} {markup : Text} {id₁ id₂ : Option Text}
    (h₁ : p.Opens markup id₁) (h₂ : p.Opens markup id₂) : id₁ = id₂ := by
  -- The reader gives one answer for the markup.
  obtain ⟨attributes, ho⟩ := openingAt?_append h₁.isOpening []
  rw [← accept?_eq_some_iff ho] at h₁ h₂
  rw [h₁] at h₂
  cases h₂
  rfl

/-! ## The course of the search -/

/-- The opening tag `markup` behind `before` is the first one of its name in the text. -/
structure FirstOpening (name before markup rest : Text) : Prop where
  isOpening : IsOpening name markup
  first : ∀ b m r, IsOpening name m → before ++ markup ++ rest = b ++ m ++ r →
    before.length ≤ b.length

/-- The course of the search over a text, with the segments that it yields. -/
inductive Pattern.Scan (p : Pattern) : Text → List Segment → Prop where
  /-- There is no opening tag. -/
  | bare {t : Text} : (∀ markup, IsOpening p.name markup → ¬ markup <:+: t) → Scan p t [.gap t]
  /-- The first opening tag does not fit the pattern, and is passed over. -/
  | unfit {before markup rest : Text} {segments : List Segment} :
      FirstOpening p.name before markup rest → (∀ id, ¬ p.Opens markup id) →
      Scan p rest segments →
      Scan p (before ++ markup ++ rest) (.gap (before ++ markup) :: segments)
  /-- The first opening tag is never closed. -/
  | unclosed {before markup rest : Text} {id : Option Text} :
      FirstOpening p.name before markup rest → p.Opens markup id → ¬ p.closing <:+: rest →
      Scan p (before ++ markup ++ rest) [.gap (before ++ markup ++ rest)]
  /-- Another opening tag stands in front of the closing tag, and both are passed over. -/
  | nested {before markup body rest inner : Text} {id : Option Text} {segments : List Segment} :
      FirstOpening p.name before markup (body ++ p.closing ++ rest) → p.Opens markup id →
      ¬ p.closing <:+: body → IsOpening p.name inner → inner <:+: body →
      Scan p rest segments →
      Scan p (before ++ markup ++ (body ++ p.closing ++ rest))
        (.gap (before ++ markup ++ body ++ p.closing) :: segments)
  /-- A match. -/
  | found {before rest : Text} {s : Span} {segments : List Segment} :
      FirstOpening p.name before s.opening (s.body ++ s.closing ++ rest) → p.Matches s →
      Scan p rest segments →
      Scan p (before ++ s.opening ++ (s.body ++ s.closing ++ rest))
        (.gap before :: .span s :: segments)

/-- The equation of the search, without the proofs that its recursion carries. -/
theorem Pattern.segments_eq (p : Pattern) (t : Text) :
    p.segments t =
      match firstOpening? p.name t with
      | none => [.gap t]
      | some (before, opening) =>
        match p.accept? opening.attributes with
        | none => .gap (before ++ opening.markup) :: p.segments opening.rest
        | some id =>
          match Text.splitOnce? p.closing opening.rest with
          | none => [.gap t]
          | some (body, rest) =>
            if (firstOpening? p.name body).isSome then
              .gap (before ++ opening.markup ++ body ++ p.closing) :: p.segments rest
            else .gap before :: .span ⟨opening.markup, id, body, p.closing⟩ :: p.segments rest := by
  -- The two sides differ in the proofs of smaller size only.
  rw [segments]
  split
  · next h => rw [h]
  · next before opening h =>
    simp only [h]
    cases p.accept? opening.attributes with
    | none => rfl
    | some id =>
      dsimp only
      split
      · next hs => rw [hs]
      · next body rest hs => rw [hs]

/-- The first opening tag that is read, in the words of the grammar. -/
theorem FirstOpening.of_firstOpening? {name t before : Text} {o : Opening}
    (h : firstOpening? name t = some (before, o)) :
    FirstOpening name before o.markup o.rest ∧ t = before ++ o.markup ++ o.rest := by
  obtain ⟨ho, rfl, hmin⟩ := firstOpening?_eq_some h
  obtain ⟨attrs, ha, hm, -, -⟩ := (openingAt?_eq_some_iff).mp ho
  exact ⟨⟨⟨attrs, ha, hm⟩, hmin⟩, rfl⟩

/-- The search takes the course that the grammar prescribes. -/
theorem Pattern.scan_segments (p : Pattern) (t : Text) : p.Scan t (p.segments t) := by
  -- One case for each way in which the search goes on; each becomes the constructor of its name.
  induction t using Pattern.segments.induct p with
  | case1 t hnone =>
    rw [segments_eq, hnone]
    exact .bare ((firstOpening?_eq_none_iff).mp hnone)
  | case2 t before o hfirst haccept ih =>
    obtain ⟨hf, rfl⟩ := FirstOpening.of_firstOpening? hfirst
    have hread := (firstOpening?_eq_some hfirst).1
    rw [segments_eq, hfirst]
    simp only [haccept]
    refine .unfit hf (fun id hopens => ?_) ih
    rw [(accept?_eq_some_iff hread).mpr hopens] at haccept
    cases haccept
  | case3 t before o hfirst id haccept hsplit =>
    obtain ⟨hf, rfl⟩ := FirstOpening.of_firstOpening? hfirst
    have hread := (firstOpening?_eq_some hfirst).1
    rw [segments_eq, hfirst]
    simp only [haccept, hsplit]
    exact .unclosed hf ((accept?_eq_some_iff hread).mp haccept)
      ((Text.splitOnce?_eq_none_iff).mp hsplit)
  | case4 t before o hfirst id haccept body rest hsplit hnested ih =>
    obtain ⟨hf, rfl⟩ := FirstOpening.of_firstOpening? hfirst
    have hread := (firstOpening?_eq_some hfirst).1
    have hrest := Text.eq_of_splitOnce? hsplit
    have hbody := Text.not_infix_of_splitOnce? (List.cons_ne_nil _ _) hsplit
    -- That the search finds a tag in the body says, in the grammar, that one stands there.
    obtain ⟨⟨b, inner⟩, hinner⟩ := Option.isSome_iff_exists.mp hnested
    obtain ⟨hf', hb⟩ := FirstOpening.of_firstOpening? hinner
    rw [segments_eq, hfirst]
    simp only [haccept, hsplit, hnested, if_true]
    rw [hrest] at hf ⊢
    exact .nested hf ((accept?_eq_some_iff hread).mp haccept) hbody hf'.isOpening
      ⟨b, inner.rest, hb.symm⟩ ih
  | case5 t before o hfirst id haccept body rest hsplit hnested ih =>
    obtain ⟨hf, rfl⟩ := FirstOpening.of_firstOpening? hfirst
    have hread := (firstOpening?_eq_some hfirst).1
    have hrest := Text.eq_of_splitOnce? hsplit
    have hbody := Text.not_infix_of_splitOnce? (List.cons_ne_nil _ _) hsplit
    have hnone : firstOpening? p.name body = none := by simpa using hnested
    rw [segments_eq, hfirst]
    simp only [haccept, hsplit, if_neg hnested]
    rw [hrest] at hf ⊢
    have hmatches : p.Matches ⟨o.markup, id, body, p.closing⟩ :=
      ⟨(accept?_eq_some_iff hread).mp haccept, rfl, hbody, (firstOpening?_eq_none_iff).mp hnone⟩
    exact .found hf hmatches ih

/-! ## Places -/

/-- A match in front of which `before` stands, seen from further left. -/
def Shift (u : Text) (m : Text × Span) : Text × Span := (u ++ m.1, m.2)

/-- Text in front of the segments is text in front of each match. -/
theorem located_eq_map (before : Text) (segments : List Segment) :
    located before segments = (located [] segments).map (Shift before) := by
  -- Along the segments; the text in front grows with each of them.
  induction segments generalizing before with
  | nil => rfl
  | cons segment segments ih =>
    cases segment with
    | gap text =>
      rw [located, located, ih, ih ([] ++ text), List.map_map]
      refine List.map_congr_left fun m _ => ?_
      simp [Shift]
    | span s =>
      rw [located, located, ih, ih ([] ++ s.source), List.map_cons, List.map_map]
      refine List.cons_eq_cons.mpr ⟨by simp [Shift], List.map_congr_left fun m _ => ?_⟩
      simp [Shift]

theorem mem_located_gap {text : Text} {segments : List Segment} {b : Text} {s : Span} :
    (b, s) ∈ located [] (.gap text :: segments) ↔
      ∃ u, b = text ++ u ∧ (u, s) ∈ located [] segments := by
  -- The gap stands in front of every match behind it.
  rw [located, located_eq_map, List.mem_map]
  constructor
  · rintro ⟨⟨u, s'⟩, hm, heq⟩
    cases heq
    exact ⟨u, by simp, hm⟩
  · rintro ⟨u, rfl, hm⟩
    exact ⟨(u, s), hm, by simp [Shift]⟩

theorem mem_located_span {first : Span} {segments : List Segment} {b : Text} {s : Span} :
    (b, s) ∈ located [] (.span first :: segments) ↔
      (b = [] ∧ s = first) ∨ ∃ u, b = first.source ++ u ∧ (u, s) ∈ located [] segments := by
  -- The match itself is the first one, and all others stand behind its source.
  rw [located, located_eq_map, List.mem_cons, List.mem_map, Prod.mk.injEq]
  refine or_congr Iff.rfl ⟨?_, ?_⟩
  · rintro ⟨⟨u, s'⟩, hm, heq⟩
    cases heq
    exact ⟨u, by simp, hm⟩
  · rintro ⟨u, rfl, hm⟩
    exact ⟨(u, s), hm, by simp [Shift]⟩

theorem prefix_of_mem_located {before : Text} {segments : List Segment} {m : Text × Span}
    (hm : m ∈ located before segments) : before <+: m.1 := by
  rw [located_eq_map, List.mem_map] at hm
  obtain ⟨m', -, rfl⟩ := hm
  exact ⟨m'.1, rfl⟩

/-- Each match stands behind the end of those in front of it. -/
theorem located_pairwise (before : Text) (segments : List Segment) :
    (located before segments).Pairwise fun m₁ m₂ => m₁.1 ++ m₁.2.source <+: m₂.1 := by
  induction segments generalizing before with
  | nil => exact List.Pairwise.nil
  | cons segment segments ih =>
    cases segment with
    | gap text => exact ih (before ++ text)
    | span s =>
      rw [located, List.pairwise_cons]
      exact ⟨fun m hm => prefix_of_mem_located hm, ih _⟩

/-! ## Soundness -/

/-- Each match that the search yields looks like a match and stands in the text. -/
theorem Pattern.Scan.sound {p : Pattern} {t : Text} {segments : List Segment}
    (h : p.Scan t segments) {b : Text} {s : Span} (hm : (b, s) ∈ located [] segments) :
    p.Matches s ∧ ∃ after, t = b ++ s.source ++ after := by
  -- Steps that pass something over only put text in front of the matches behind them.
  induction h generalizing b with
  | bare _ => cases hm
  | unclosed _ _ _ => cases hm
  | unfit _ _ _ ih | nested _ _ _ _ _ _ ih =>
    obtain ⟨u, rfl, hu⟩ := (mem_located_gap).mp hm
    obtain ⟨hmatches, after, rfl⟩ := ih hu
    exact ⟨hmatches, after, by simp⟩
  | @found before rest first segments _ hfound _ ih =>
    obtain ⟨u, rfl, hu⟩ := (mem_located_gap).mp hm
    rcases (mem_located_span).mp hu with ⟨rfl, rfl⟩ | ⟨v, rfl, hv⟩
    · exact ⟨hfound, rest, by simp [Span.source]⟩
    · obtain ⟨hmatches, after, rfl⟩ := ih hv
      exact ⟨hmatches, after, by simp [Span.source]⟩

/-! ## Completeness -/

theorem Pattern.Matches.closing_eq_closing {p : Pattern} {s : Span} (h : p.Matches s) :
    s.closing = p.closing := h.closing_eq

/-- A match that is not in the shadow of the first opening tag is opened by that tag, or stands
wholly behind it; in the latter case a closing tag follows a tag that the pattern accepts. -/
theorem FirstOpening.opens_or_behind {p : Pattern} {before markup rest b after : Text} {s : Span}
    (hf : FirstOpening p.name before markup rest) (hs : p.Matches s)
    (ht : before ++ markup ++ rest = b ++ s.source ++ after)
    (hshadow : ¬ p.Shadows (before ++ markup ++ rest) b) :
    (b = before ∧ s.opening = markup ∧ rest = s.body ++ s.closing ++ after) ∨
      ∃ u, b = before ++ markup ++ u ∧ rest = u ++ s.source ++ after ∧
        ∀ id, p.Opens markup id → p.closing <:+: u := by
  have hstart : before ++ markup ++ rest = b ++ s.opening ++ (s.body ++ s.closing ++ after) := by
    rw [ht, Span.source]
    simp
  have hle := hf.first b s.opening _ hs.opens.isOpening hstart
  -- The match is opened by a tag of the name, which starts no earlier than the first one.
  have hstarts : before <+: b := by
    have hbefore : before <+: before ++ markup ++ rest := ⟨markup ++ rest, by simp⟩
    refine List.prefix_of_prefix_length_le hbefore ?_ hle
    exact ⟨s.opening ++ (s.body ++ s.closing ++ after), by rw [hstart]; simp⟩
  obtain ⟨w, rfl⟩ := hstarts
  have htail : markup ++ rest = w ++ (s.opening ++ (s.body ++ s.closing ++ after)) := by
    simpa using hstart
  -- Either both tags start at one place, or the match starts further on.
  by_cases hw : w = []
  · subst hw
    obtain ⟨hmarkup, hrest⟩ := hs.opens.isOpening.eq_of_append_eq hf.isOpening htail.symm
    exact .inl ⟨by simp, hmarkup, hrest.symm⟩
  · right
    have hlt : before.length < (before ++ w).length := by
      have := List.length_pos_iff.mpr hw
      simp only [List.length_append]
      omega
    -- The tag does not reach over the start of the match, so `w` continues it.
    have hover : markup.length ≤ w.length := by
      by_contra hlong
      refine hshadow ⟨before, markup, rest, hf.isOpening, rfl, hlt, .inl ?_⟩
      simp only [List.length_append]
      omega
    obtain ⟨u, rfl⟩ : markup <+: w :=
      List.prefix_of_prefix_length_le ⟨rest, rfl⟩ ⟨_, htail.symm⟩ hover
    refine ⟨u, by simp, ?_, fun id hopens => ?_⟩
    · rw [Span.source]
      simpa using htail
    · by_contra hnone
      exact hshadow ⟨before, markup, rest, hf.isOpening, rfl, hlt,
        .inr ⟨id, u, hopens, by simp, hnone⟩⟩

/-- Every match that no earlier opening tag shadows is yielded by the search. -/
theorem Pattern.Scan.complete {p : Pattern} {t : Text} {segments : List Segment}
    (h : p.Scan t segments) {b after : Text} {s : Span} (ht : t = b ++ s.source ++ after)
    (hs : p.Matches s) (hshadow : ¬ p.Shadows t b) : (b, s) ∈ located [] segments := by
  -- The case is how the search begins; the match is opened by its first tag or stands behind it.
  induction h generalizing b with
  | bare hnone =>
    -- A match would have an opening tag.
    refine absurd ?_ (hnone s.opening hs.opens.isOpening)
    exact ⟨b, s.body ++ s.closing ++ after, by rw [ht, Span.source]; simp⟩
  | @unfit before markup rest segments hf hunfit _ ih =>
    rcases hf.opens_or_behind hs ht hshadow with ⟨-, hopening, -⟩ | ⟨u, rfl, hrest, -⟩
    · -- The tag that opens a match fits the pattern.
      exact absurd (hopening ▸ hs.opens) (hunfit s.id)
    · refine (mem_located_gap).mpr ⟨u, rfl, ih hrest fun hsh => hshadow ?_⟩
      exact hsh.append_left (before ++ markup)
  | @unclosed before markup rest id hf hopens hnone =>
    -- Either way a closing tag stands behind the tag that is said to have none.
    rcases hf.opens_or_behind hs ht hshadow with ⟨-, -, rfl⟩ | ⟨u, -, rfl, hclosed⟩
    · refine absurd ⟨s.body, after, ?_⟩ hnone
      rw [hs.closing_eq_closing]
    · obtain ⟨x, y, rfl⟩ := hclosed id hopens
      exact absurd ⟨x, y ++ s.source ++ after, by simp⟩ hnone
  | @nested before markup body rest inner id segments hf hopens hbody hinner hin _ ih =>
    rcases hf.opens_or_behind hs ht hshadow with ⟨-, -, hrest⟩ | ⟨u, rfl, hrest, hclosed⟩
    · -- The match would have the body with the other opening tag in it.
      rw [hs.closing_eq_closing] at hrest
      have hsbody : ¬ p.closing <:+: s.body := hs.closing_eq_closing ▸ hs.noClosing
      obtain ⟨rfl, -⟩ := Pattern.body_unique hbody hsbody hrest
      exact absurd hin (hs.noOpening inner hinner)
    · -- The match stands behind the closing tag at which the search goes on.
      rw [List.append_assoc u] at hrest
      obtain ⟨w, rfl, hw⟩ := Pattern.exists_of_closing_infix hbody (hclosed id hopens) hrest
      refine (mem_located_gap).mpr ⟨w, by simp, ih (by simpa using hw) fun hsh => hshadow ?_⟩
      have := hsh.append_left (before ++ markup ++ (body ++ p.closing))
      simpa using this
  | @found before rest first segments hf hfound _ ih =>
    rw [mem_located_gap]
    rcases hf.opens_or_behind hs ht hshadow with ⟨rfl, hopening, hrest⟩ | ⟨u, rfl, hrest, hclosed⟩
    · -- The first opening tag opens the match, and its `id` and body are determined.
      refine ⟨[], by simp, (mem_located_span).mpr (.inl ⟨rfl, ?_⟩)⟩
      have hid : s.id = first.id := Pattern.Opens.id_unique (hopening ▸ hs.opens) hfound.opens
      rw [hs.closing_eq_closing, hfound.closing_eq_closing] at hrest
      have hbody : first.body = s.body := by
        refine (Pattern.body_unique ?_ ?_ hrest).1
        · exact hfound.closing_eq_closing ▸ hfound.noClosing
        · exact hs.closing_eq_closing ▸ hs.noClosing
      have hclosing : s.closing = first.closing := hs.closing_eq.trans hfound.closing_eq.symm
      cases s
      cases first
      exact Span.mk.injEq .. ▸ ⟨hopening, hid, hbody.symm, hclosing⟩
    -- The search goes on behind the first match, and there the other one stands unshadowed.
    · have hfirst : ¬ p.closing <:+: first.body :=
        hfound.closing_eq_closing ▸ hfound.noClosing
      rw [hfound.closing_eq_closing, List.append_assoc u] at hrest
      obtain ⟨w, rfl, hw⟩ :=
        Pattern.exists_of_closing_infix hfirst (hclosed _ hfound.opens) hrest
      refine ⟨first.source ++ w, ?_, (mem_located_span).mpr (.inr ⟨w, rfl, ?_⟩)⟩
      · rw [Span.source, hfound.closing_eq_closing]
        simp
      · refine ih (by simpa using hw) fun hsh => hshadow ?_
        have := hsh.append_left (before ++ first.opening ++ (first.body ++ p.closing))
        rw [hfound.closing_eq_closing]
        simpa using this

/-! ## The matches of a pattern -/

def startByte (m : Text × Span) : Nat := Text.byteSize m.1

def endByte (m : Text × Span) : Nat := startByte m + Text.byteSize m.2.source

theorem startByte_lt_endByte {p : Pattern} {m : Text × Span} (h : p.Matches m.2) :
    startByte m < endByte m := by
  -- A match has at least its opening tag.
  have hne : m.2.source ≠ [] := by
    intro hnil
    simp only [Span.source, List.append_eq_nil_iff] at hnil
    exact h.opens.isOpening.ne_nil hnil.1.1
  have := Text.byteSize_pos hne
  rw [endByte]
  omega

/-- Matches are reported in the order of the text, and none overlaps the next. -/
theorem Pattern.pairwise_spans (p : Pattern) (t : Text) :
    (p.spans t).Pairwise fun m₁ m₂ => startByte m₁ < startByte m₂ ∧ endByte m₁ ≤ startByte m₂ := by
  refine (located_pairwise [] (p.segments t)).imp_of_mem fun {m₁ m₂} hm₁ _ hstarts => ?_
  -- What lies between two matches has a size too.
  have hend : endByte m₁ ≤ startByte m₂ := by
    obtain ⟨gap, hgap⟩ := hstarts
    have hsize := congrArg Text.byteSize hgap
    simp only [Text.byteSize_append] at hsize
    rw [endByte, startByte, startByte]
    omega
  have hstart := startByte_lt_endByte ((p.scan_segments t).sound hm₁).1
  exact ⟨by omega, hend⟩

/-- No match is reported twice. -/
theorem Pattern.nodup_spans (p : Pattern) (t : Text) : (p.spans t).Nodup :=
  (p.pairwise_spans t).imp fun hbefore heq => hbefore.1.ne (congrArg startByte heq)

/-- **The search for tags is sound and complete.** Each reported match is an accepted opening tag
with its `id`, a body without tags of the name, and the closing tag; it stands in the text behind
the matches before it. And every such piece of the text is reported, unless it stands in the shadow
of an earlier opening tag of the name. -/
theorem Pattern.spans_sound_and_complete (p : Pattern) (t : Text) :
    (∀ m ∈ p.spans t, p.Matches m.2 ∧ (∃ after, t = m.1 ++ m.2.source ++ after) ∧
      startByte m < endByte m ∧ endByte m ≤ Text.byteSize t) ∧
    (p.spans t).Pairwise (fun m₁ m₂ => startByte m₁ < startByte m₂ ∧ endByte m₁ ≤ startByte m₂) ∧
    ∀ before s after, t = before ++ s.source ++ after → p.Matches s → ¬ p.Shadows t before →
      (before, s) ∈ p.spans t := by
  have hsound : ∀ m ∈ p.spans t, p.Matches m.2 ∧ ∃ after, t = m.1 ++ m.2.source ++ after :=
    fun _ hm => (p.scan_segments t).sound hm
  refine ⟨fun m hm => ?_, p.pairwise_spans t, fun before s after ht hs hshadow => ?_⟩
  · obtain ⟨hmatches, after, ht⟩ := hsound m hm
    have hsize := congrArg Text.byteSize ht
    simp only [Text.byteSize_append] at hsize
    refine ⟨hmatches, ⟨after, ht⟩, startByte_lt_endByte hmatches, ?_⟩
    rw [endByte, startByte]
    omega
  · exact (p.scan_segments t).complete ht hs hshadow

/-- In `<pt>a<pt>b</pt><pt>c</pt>` the last span is reported: the two opening tags in front of it
are closed before it starts. -/
theorem Pattern.spans_behind_nested :
    ("<pt>a<pt>b</pt>".toList, Span.mk "<pt>" none "c" "</pt>") ∈
      (Pattern.plain .pt).spans "<pt>a<pt>b</pt><pt>c</pt>" := by
  have hopens : (Pattern.plain .pt).Opens "<pt>" none :=
    ⟨[], ⟨by simp, by simp⟩, rfl, .bare Text.Blank.nil, by decide⟩
  have hbody : firstOpening? (Pattern.plain .pt).name "c" = none := by decide
  refine (spans_sound_and_complete (.plain .pt) "<pt>a<pt>b</pt><pt>c</pt>").2.2 _ _ [] rfl ?_ ?_
  · exact ⟨hopens, rfl, by decide, firstOpening?_eq_none_iff.mp hbody⟩
  · exact Pattern.not_shadows_of_closed (by decide)

end DocPage.Tag
