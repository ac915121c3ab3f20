import DocPage.Proofs.Document.Recursion
import DocPage.Proofs.Document.Wrapping

/-!
# Docstrings stay out of the outline

The headings in a docstring do not belong to the outline. More is true: nothing in the fields of a
docstring reaches the outline, as long as nothing in it stashes a component. A docstring leaves a
placeholder with no headings behind it. What it does to the markup and to the warnings is never
looked at when headings are collected, and a comment in it that asks for wrapped code blocks moves
no heading.

The proof compares two conversions step by step. They may start with different markup in the stash,
but with the same headings, and each piece of work keeps it so.

## Architecture

- **Outside**: the text outside of the matches of a pattern
- **Flat docstrings**: what their pass leaves depends on the text outside of them
- **Two conversions**: `LooksSame`, closed under sequences and lists
- **Tags and passes**: one lemma for each kind of tag, then nested content by induction on the fuel
- **Documents**: `Page.metadata_eq_of_outside_eq`
-/

namespace DocPage.Document

open Outline (Heading)
open Tag (Pattern Segment Span)

variable {α β γ δ : Type}

/-! ## Outside -/

/-- The texts outside of the matches: in front of the first one, between two of them, and behind the
last one. -/
def outside : List Segment → List Text
  | [] => [[]]
  | .gap text :: rest => (outside rest).modifyHead (text ++ ·)
  | .span _ :: rest => [] :: outside rest

/-- The texts with placeholders between them, numbered from `index`. -/
def joinPlaceholders : (index : Nat) → List Text → Text
  | _, [] => []
  | _, [text] => text
  | index, text :: next :: rest =>
    text ++ placeholder index ++ joinPlaceholders (index + 1) (next :: rest)

theorem outside_ne_nil (segments : List Segment) : outside segments ≠ [] := by
  induction segments with
  | nil => exact List.cons_ne_nil _ _
  | cons segment rest ih =>
    cases segment with
    | gap text => simpa [outside] using ih
    | span s => exact List.cons_ne_nil _ _

theorem joinPlaceholders_modifyHead (index : Nat) (text : Text) {texts : List Text}
    (h : texts ≠ []) :
    joinPlaceholders index (texts.modifyHead (text ++ ·)) =
      text ++ joinPlaceholders index texts := by
  match texts with
  | [_] => rfl
  | _ :: _ :: _ => simp [joinPlaceholders]

theorem joinPlaceholders_cons (index : Nat) (text : Text) {texts : List Text} (h : texts ≠ []) :
    joinPlaceholders index (text :: texts) =
      text ++ placeholder index ++ joinPlaceholders (index + 1) texts := by
  obtain ⟨next, rest, rfl⟩ := List.exists_cons_of_ne_nil h
  rfl

/-- There is one text more than there are matches. -/
theorem length_outside (before : Text) (segments : List Segment) :
    (outside segments).length = (Tag.located before segments).length + 1 := by
  induction segments generalizing before with
  | nil => rfl
  | cons segment rest ih =>
    cases segment with
    | gap text => simpa [outside, Tag.located] using ih _
    | span s => simpa [outside, Tag.located] using ih _

/-! ## Flat docstrings -/

section Flat

variable {transform : Body.Region → Span → Assemble Fragment} {region : Body.Region}
  {before t : Text} {segments : List Segment} {a a' : Assembly}

/-- The stash grows by one component for each match, or by more. -/
theorem length_add_le_of_run {P : Fragment → Prop}
    (h : ∀ region span, Makes (transform region span) P)
    (hrun : (Tag.substituteSegments (fun before span => do
      stash (← transform (region.advance before) span)) before segments).run a = .ok (t, a')) :
    a.stash.components.length + (Tag.located before segments).length ≤
      a'.stash.components.length := by
  induction segments generalizing before t a with
  | nil =>
    cases hrun
    exact Nat.le_refl _
  | cons segment segments ih =>
    cases segment with
    | gap text =>
      obtain ⟨rest, a₁, hrest, hrun⟩ := exists_run_of_bind hrun
      cases hrun
      exact ih hrest
    | span s =>
      -- The match, then the text behind it, which starts from the stash that the match left.
      obtain ⟨new, a₁, hnew, hrun⟩ := exists_run_of_bind hrun
      obtain ⟨rest, a₂, hrest, hrun⟩ := exists_run_of_bind hrun
      cases hrun
      obtain ⟨fragment, made, hfragment, -, hstashed⟩ := exists_stashed_of_match hnew
      have hmade := (h _ _ _ _ _ hfragment).1.length_le
      have hrest := ih hrest
      simp only [Tag.located, List.length_cons]
      omega

/-- A match that stashes nothing but its own component. -/
theorem exists_of_flat_match
    (h : ∀ region span, Makes (transform region span) fun x => x.headings = [])
    {span : Span} {new : Text}
    (hrun : (do stash (← transform (region.advance before) span) : Assemble Text).run a =
      .ok (new, a')) (hle : a'.stash.components.length ≤ a.stash.components.length + 1) :
    new = placeholder a.stash.components.length ∧
      ∃ html, a'.stash.components = a.stash.components ++ [⟨html, []⟩] := by
  obtain ⟨fragment, made, hfragment, hstash⟩ := exists_run_of_bind hrun
  cases hstash
  obtain ⟨⟨added, hadded, -⟩, hnone⟩ := h _ _ _ _ _ hfragment
  simp only [List.concat_eq_append, List.length_append, List.length_singleton, hadded] at hle
  -- There is no room for a component besides the one of the match.
  obtain rfl : added = [] := List.length_eq_zero_iff.mp (by omega)
  rw [List.append_nil] at hadded
  refine ⟨by rw [hadded], fragment.html, ?_⟩
  show made.stash.components.concat _ = _
  rw [List.concat_eq_append, hadded, hnone]

/-- Where the stash grows by no more than that, the components of the matches are numbered one after
the other, and they are all that is new. -/
theorem flat_of_run (h : ∀ region span, Makes (transform region span) fun x => x.headings = [])
    (hrun : (Tag.substituteSegments (fun before span => do
      stash (← transform (region.advance before) span)) before segments).run a = .ok (t, a'))
    (hlength : a'.stash.components.length =
      a.stash.components.length + (Tag.located before segments).length) :
    t = joinPlaceholders a.stash.components.length (outside segments) ∧
      a'.stash.components.map (·.headings) = a.stash.components.map (·.headings) ++
        List.replicate (Tag.located before segments).length [] := by
  -- Along the segments, as the pass goes. The numbers start at the length of the stash.
  induction segments generalizing before t a with
  | nil =>
    cases hrun
    exact ⟨rfl, (List.append_nil _).symm⟩
  | cons segment segments ih =>
    cases segment with
    | gap text =>
      obtain ⟨rest, a₁, hrest, hrun⟩ := exists_run_of_bind hrun
      cases hrun
      obtain ⟨rfl, hheadings⟩ := ih hrest hlength
      exact ⟨(joinPlaceholders_modifyHead _ text (outside_ne_nil segments)).symm, hheadings⟩
    | span s =>
      obtain ⟨new, a₁, hnew, hrun⟩ := exists_run_of_bind hrun
      obtain ⟨rest, a₂, hrest, hrun⟩ := exists_run_of_bind hrun
      cases hrun
      -- The matches behind this one need all that the stash grows by, but for one component.
      have hle := length_add_le_of_run h hrest
      simp only [Tag.located, List.length_cons] at hlength
      obtain ⟨rfl, html, hput⟩ := exists_of_flat_match h hnew (by omega)
      have hnext : a₁.stash.components.length = a.stash.components.length + 1 := by
        rw [hput, List.length_append, List.length_singleton]
      obtain ⟨rfl, hheadings⟩ := ih hrest (by omega)
      constructor
      · rw [outside, joinPlaceholders_cons _ _ (outside_ne_nil segments), hnext, List.nil_append]
      · rw [hheadings, hput, List.map_append, List.append_assoc]
        rfl

end Flat

/-- The pass over the docstrings of a document. -/
def docstringPass (scope : Scope) (source : Text) : Assemble Text :=
  tagPass (.plain .docstring) (docstringFragment (fragment scope)) .before source

/-- All docstrings of a document render, and each stashes its own component and no other. -/
def FlatDocstrings (settings : Settings) (source : Text) : Prop :=
  ∃ t a, (docstringPass ⟨settings, Text.contains wrapRequest source⟩ source).run {} = .ok (t, a) ∧
    a.stash.components.length = ((Pattern.plain .docstring).spans source).length

/-- The headings in a docstring stay in it. -/
theorem makes_docstringFragment_headings (scope : Scope) (region : Body.Region) (span : Span) :
    Makes (docstringFragment (fragment scope) region span) fun x => x.headings = [] :=
  (grows_readDocstring (fun t region => grows_fragmentWithin scope (tagWeight t) t region) region
    span.body).bind fun _ _ => .pure rfl

/-- What the pass over flat docstrings leaves. -/
theorem eq_of_docstringPass {settings : Settings} {source t : Text} {a : Assembly}
    (hflat : FlatDocstrings settings source)
    (hrun : (docstringPass ⟨settings, Text.contains wrapRequest source⟩ source).run {} =
      .ok (t, a)) :
    t = joinPlaceholders 0 (outside ((Pattern.plain .docstring).segments source)) ∧
      a.stash.components.map (·.headings) =
        List.replicate ((Pattern.plain .docstring).spans source).length [] := by
  obtain ⟨t', a', hrun', hlength⟩ := hflat
  -- Both runs are of one pass from one state, so they are the same run.
  cases hrun.symm.trans hrun'
  refine flat_of_run (a := {}) (makes_docstringFragment_headings _) hrun ?_
  rw [hlength]
  exact (Nat.zero_add _).symm

/-! ## Two conversions -/

/-- Behind every placeholder there are the same headings. -/
def SameHeadings (a a' : Assembly) : Prop :=
  a.stash.components.map (·.headings) = a'.stash.components.map (·.headings)

/-- When both pieces of work succeed from the same headings, they leave the same headings and
results with the same view. -/
def LooksSame (view : α → γ) (x y : Assemble α) : Prop :=
  ∀ a a' v v' b b', SameHeadings a a' → x.run a = .ok (v, b) → y.run a' = .ok (v', b') →
    SameHeadings b b' ∧ view v = view v'

/-- Nothing is said about the results. -/
def unseen (_ : α) : Unit := ()

/-- The work may warn, but it stashes nothing. -/
def LeavesStash (x : Assemble α) : Prop :=
  ∀ a v b, x.run a = .ok (v, b) → b.stash = a.stash

namespace LooksSame

variable {view : α → γ} {look : β → δ}

theorem pure {v v' : α} (h : view v = view v') : LooksSame view (pure v) (pure v') := by
  intro a a' w w' b b' hsame hrun hrun'
  cases hrun
  cases hrun'
  exact ⟨hsame, h⟩

theorem bind {x y : Assemble α} {f g : α → Assemble β} (hx : LooksSame view x y)
    (hf : ∀ v v', view v = view v' → LooksSame look (f v) (g v')) :
    LooksSame look (x >>= f) (y >>= g) := by
  intro a a' w w' c c' hsame hrun hrun'
  obtain ⟨v, b, hv, hw⟩ := exists_run_of_bind hrun
  obtain ⟨v', b', hv', hw'⟩ := exists_run_of_bind hrun'
  obtain ⟨hmid, hview⟩ := hx a a' v v' b b' hsame hv hv'
  exact hf v v' hview b b' w w' c c' hmid hw hw'

theorem of_leavesStash {x y : Assemble α} (hx : LeavesStash x) (hy : LeavesStash y) :
    LooksSame unseen x y := by
  intro a a' v v' b b' hsame hrun hrun'
  unfold SameHeadings
  rw [hx a v b hrun, hy a' v' b' hrun']
  exact ⟨hsame, rfl⟩

theorem ofExcept (x : Except RenderError α) :
    LooksSame id (MonadExcept.ofExcept x) (MonadExcept.ofExcept x : Assemble α) := by
  intro a a' v v' b b' hsame hrun hrun'
  cases x with
  | error e => cases hrun
  | ok w =>
    cases hrun
    cases hrun'
    exact ⟨hsame, rfl⟩

/-- Warnings are no headings. -/
theorem warn (warnings warnings' : List Text) :
    LooksSame id (Document.warn warnings) (Document.warn warnings') := by
  intro a a' v v' b b' hsame hrun hrun'
  cases hrun
  cases hrun'
  exact ⟨hsame, rfl⟩

/-- The placeholder of a component is told by the number of the components before it. -/
theorem stash {x x' : Fragment} (h : x.headings = x'.headings) :
    LooksSame id (Document.stash x) (Document.stash x') := by
  intro a a' v v' b b' hsame hrun hrun'
  cases hrun
  cases hrun'
  -- Headings that agree position by position are equally many.
  have hlength := congrArg List.length hsame
  simp only [List.length_map] at hlength
  constructor
  · unfold SameHeadings at hsame ⊢
    simp [hsame, h]
  · simp [hlength]

theorem mapM {f g : α → Assemble β} {xs : List α} (h : ∀ x, LooksSame look (f x) (g x)) :
    LooksSame (List.map look) (xs.mapM f) (xs.mapM g) := by
  induction xs with
  | nil => exact .pure rfl
  | cons x xs ih =>
    rw [List.mapM_cons, List.mapM_cons]
    refine (h x).bind fun v v' hv => ih.bind fun vs vs' hvs => .pure ?_
    rw [List.map_cons, List.map_cons, hv, hvs]

end LooksSame

/-! ## Tags -/

/-- Nested content has the same headings both ways. -/
def SameNested (f g : Nested) : Prop :=
  ∀ t region, LooksSame Fragment.headings (f t region) (g t region)

/-- What decides where the headings of a variant come. -/
def Variant.view (v : Variant) : Nat × List Heading :=
  (v.offset, v.content.headings)

theorem flatMap_headings_eq {vs vs' : List Variant}
    (h : vs.map Variant.view = vs'.map Variant.view) :
    vs.flatMap (·.content.headings) = vs'.flatMap (·.content.headings) := by
  have hview : ∀ vs : List Variant,
      vs.flatMap (·.content.headings) = (vs.map Variant.view).flatMap Prod.snd := fun vs => by
    rw [List.flatMap_map]
    rfl
  rw [hview, hview, h]

/-- Variants are sorted by what is seen of them. -/
theorem map_view_mergeSort (vs : List Variant) :
    (vs.mergeSort fun a b => a.offset ≤ b.offset).map Variant.view =
      (vs.map Variant.view).mergeSort fun a b => a.1 ≤ b.1 :=
  List.map_mergeSort fun _ _ _ _ => rfl

namespace SameNested

variable {f g : Nested} (h : SameNested f g)
include h

section Docstrings

variable (region : Body.Region) (anchor : Text)

theorem render (t : Text) :
    LooksSame unseen (DocstringScope.render ⟨f, region, anchor⟩ t)
      (DocstringScope.render ⟨g, region, anchor⟩ t) :=
  (h t region).bind fun _ _ _ => .pure rfl

theorem optional (kind : Tag.Kind) (body : Text) :
    LooksSame unseen (DocstringScope.optional ⟨f, region, anchor⟩ kind body)
      (DocstringScope.optional ⟨g, region, anchor⟩ kind body) := by
  unfold DocstringScope.optional
  cases Docstring.field? kind body with
  | none => exact .pure rfl
  | some t =>
    simp only [map_eq_pure_bind]
    exact (h.render region anchor t).bind fun _ _ _ => .pure rfl

theorem parametersOf (kind : Tag.Kind) (body : Text) :
    LooksSame unseen (DocstringScope.parametersOf ⟨f, region, anchor⟩ kind body)
      (DocstringScope.parametersOf ⟨g, region, anchor⟩ kind body) := by
  unfold DocstringScope.parametersOf
  cases Docstring.field? kind body with
  | none => exact .pure rfl
  | some t =>
    -- The lists may be harvested from different markup, but all that this does is to warn.
    refine (h.render region anchor _).bind fun html html' _ => .of_leavesStash ?_ ?_
    -- Both branches, the harvest and the warning, leave the stash alone.
    all_goals
      split
      all_goals
        intro a v b hrun
        cases hrun
        rfl

theorem group (body : Text) (number : Nat) :
    LooksSame unseen (DocstringScope.group ⟨f, region, anchor⟩ body number)
      (DocstringScope.group ⟨g, region, anchor⟩ body number) :=
  (h.parametersOf region anchor _ body).bind fun _ _ _ => .pure rfl

/-- The mandatory fields are read from the body alone. -/
theorem docstring (span : Span) :
    LooksSame Fragment.headings (docstringFragment f region span)
      (docstringFragment g region span) := by
  unfold docstringFragment readDocstring
  simp only [bind_assoc, pure_bind]
  -- A missing field is the same error both ways, so from here on the fields agree.
  refine (LooksSame.ofExcept _).bind fun fields fields' hfields => ?_
  obtain rfl : fields = fields' := hfields
  refine (h.parametersOf region _ _ _).bind fun _ _ _ => ?_
  refine (LooksSame.mapM fun i => h.group region _ _ (i + 1)).bind fun _ _ _ => ?_
  refine (h.optional region _ _ _).bind fun _ _ _ => ?_
  refine (h.optional region _ _ _).bind fun _ _ _ => ?_
  refine (h.optional region _ _ _).bind fun _ _ _ => ?_
  refine (h.optional region _ _ _).bind fun _ _ _ => ?_
  exact .pure rfl

end Docstrings

section Variants

variable (region : Body.Region)

theorem variant (name : Text) (found : Text × Span) :
    LooksSame Variant.view (renderVariant f region name found)
      (renderVariant g region name found) :=
  (h found.2.body (region.advance found.1)).bind fun _ _ hheadings =>
    .pure (congrArg (Text.byteSize found.1, ·) hheadings)

/-- The same variants of a family are there, and each looks the same. -/
theorem rendered (body : Text) (family : Family) :
    LooksSame (List.map fun rendered : Text × Option Variant => rendered.2.map Variant.view)
      (renderFamily f region body family) (renderFamily g region body family) := by
  -- The variants are looked for in the body, which is the same both ways.
  apply LooksSame.mapM
  rintro ⟨kind, name⟩
  dsimp only
  cases (Pattern.plain kind).find? body with
  | none => exact .pure rfl
  | some found =>
    exact (h.variant region name found).bind fun _ _ hview => .pure (congrArg some hview)

theorem family (family : Family) (span : Span) :
    LooksSame Fragment.headings (familyFragment f family region span)
      (familyFragment g family region span) := by
  unfold familyFragment
  refine (h.rendered region span.body family).bind fun rendered rendered' hrendered => .pure ?_
  apply flatMap_headings_eq
  -- What is seen of the variants that are there is told by what is seen of all.
  have hpresent : ∀ rendered : List (Text × Option Variant),
      (rendered.filterMap (·.2)).map Variant.view =
        (rendered.map fun r => r.2.map Variant.view).filterMap id := fun rendered => by
    rw [List.map_filterMap, List.filterMap_map]
    rfl
  rw [map_view_mergeSort, map_view_mergeSort, hpresent, hpresent, hrendered]

theorem options (span : Span) :
    LooksSame Fragment.headings (optionsFragment f region span)
      (optionsFragment g region span) := by
  unfold optionsFragment
  refine (LooksSame.mapM fun found => h.variant region _ found).bind fun _ _ hviews => .pure ?_
  exact flatMap_headings_eq hviews

end Variants

end SameNested

/-! ## Passes -/

/-- A pass over one text puts the same placeholders into it. -/
theorem looksSame_tagPass {p : Pattern} {x y : Body.Region → Span → Assemble Fragment}
    (h : ∀ region span, LooksSame Fragment.headings (x region span) (y region span))
    (region : Body.Region) (t : Text) :
    LooksSame id (tagPass p x region t) (tagPass p y region t) := by
  unfold tagPass Tag.substitute
  -- The text in front of a match is a parameter of the induction, since the region is read off it.
  generalize p.segments t = segments, ([] : Text) = before
  induction segments generalizing before with
  | nil => exact .pure rfl
  | cons segment segments ih =>
    cases segment with
    | gap text =>
      exact (ih _).bind fun rest rest' hrest => .pure (congrArg (text ++ ·) hrest)
    | span s =>
      -- A match stashes the headings of its fragment, and these are the same both ways.
      have hmatch := (h (region.advance before) s).bind fun _ _ hheadings =>
        LooksSame.stash hheadings
      refine hmatch.bind fun new new' hnew => (ih _).bind fun rest rest' hrest => .pure ?_
      exact congrArg₂ (· ++ ·) hnew hrest

/-- The passes behind the one for docstrings. -/
def containerPasses (nested : Nested) (t : Text) (region : Body.Region) : Assemble Text := do
  let t ← familyPass nested .frameworks region t
  let t ← tagPass (.identified .hfOptions) (optionsFragment nested) region t
  let t ← familyPass nested .snippets region t
  familyPass nested .tokenizers region t

theorem tagPasses_eq (nested : Nested) (t : Text) (region : Body.Region) :
    tagPasses nested t region = (do
      containerPasses nested
        (← tagPass (.plain .docstring) (docstringFragment nested) region t) region) :=
  rfl

namespace SameNested

variable {f g : Nested} (h : SameNested f g)
include h

theorem containerPasses (t : Text) (region : Body.Region) :
    LooksSame id (containerPasses f t region) (containerPasses g t region) := by
  have hfamily : ∀ family t, LooksSame id (familyPass f family region t)
      (familyPass g family region t) := fun family t =>
    looksSame_tagPass (fun region span => h.family region family span) region t
  unfold Document.containerPasses
  refine (hfamily _ t).bind fun t₁ _ h₁ => ?_
  -- Each pass leaves one text for both, so the next one finds the same matches.
  cases h₁
  refine (looksSame_tagPass (fun region span => h.options region span) region t₁).bind
    fun t₂ _ h₂ => ?_
  cases h₂
  refine (hfamily _ t₂).bind fun t₃ _ h₃ => ?_
  cases h₃
  exact hfamily _ t₃

theorem tagPasses (t : Text) (region : Body.Region) :
    LooksSame id (tagPasses f t region) (tagPasses g t region) := by
  rw [tagPasses_eq, tagPasses_eq]
  refine (looksSame_tagPass (fun region span => h.docstring region span) region t).bind
    fun t₁ _ h₁ => ?_
  cases h₁
  exact h.containerPasses t₁ region

end SameNested

/-- A finished fragment is a rendered page with what the stash puts into it. -/
theorem exists_page_of_finishFragment {scope : Scope} {t : Text} {region : Body.Region}
    {a a' : Assembly} {v : Fragment} (h : (finishFragment scope t region).run a = .ok (v, a')) :
    ∃ page, renderText scope t region = .ok page ∧
      a' = { a with warnings := a.warnings ++ page.warnings } ∧
      v = ⟨a.stash.restore page.html, a.stash.headings page.html page.headings⟩ := by
  unfold finishFragment at h
  cases hpage : renderText scope t region with
  | error e =>
    rw [hpage] at h
    cases h
  | ok page =>
    rw [hpage] at h
    cases h
    exact ⟨page, rfl, rfl, rfl⟩

section Scopes

variable (settings : Settings) (wrap wrap' : Bool)

theorem looksSame_finishFragment (t : Text) (region : Body.Region) :
    LooksSame Fragment.headings (finishFragment ⟨settings, wrap⟩ t region)
      (finishFragment ⟨settings, wrap'⟩ t region) := by
  intro a a' v v' b b' hsame hrun hrun'
  obtain ⟨page, hpage, rfl, rfl⟩ := exists_page_of_finishFragment hrun
  obtain ⟨page', hpage', rfl, rfl⟩ := exists_page_of_finishFragment hrun'
  refine ⟨hsame, ?_⟩
  show a.stash.headings page.html page.headings = a'.stash.headings page'.html page'.headings
  rw [Stash.headings_eq_merged, Stash.headings_eq_merged]
  -- The renderer numbers placeholders and headings alike whether or not it wraps code blocks.
  exact headings_eq_of_aligned hsame (aligned_of_renderText hpage hpage')

/-- Nested content has the same headings whether code blocks wrap or not. -/
theorem sameNested_fragmentWithin (fuel : Nat) :
    SameNested (fragmentWithin ⟨settings, wrap⟩ fuel) (fragmentWithin ⟨settings, wrap'⟩ fuel) := by
  -- Nested content is converted with one unit of fuel less.
  induction fuel with
  | zero => exact looksSame_finishFragment settings wrap wrap'
  | succ fuel ih =>
    intro t region
    refine (ih.tagPasses t region).bind fun t₁ _ h₁ => ?_
    cases h₁
    exact looksSame_finishFragment settings wrap wrap' t₁ region

theorem sameNested_fragment : SameNested (fragment ⟨settings, wrap⟩) (fragment ⟨settings, wrap'⟩) :=
  fun t region => sameNested_fragmentWithin settings wrap wrap' (tagWeight t) t region

end Scopes

/-! ## Documents -/

/-- The metadata of a document comes from the text and the stash that the passes leave. -/
theorem Page.exists_passes {settings : Settings} {source : Text} {page : Page}
    (h : Page.ofSource settings source = .ok page) :
    ∃ t a t' a' rendered,
      (docstringPass ⟨settings, Text.contains wrapRequest source⟩ source).run {} = .ok (t, a) ∧
      (containerPasses (fragment ⟨settings, Text.contains wrapRequest source⟩) t .before).run a =
        .ok (t', a') ∧
      renderText ⟨settings, Text.contains wrapRequest source⟩ t' .before = .ok rendered ∧
      page = Page.assemble a' rendered := by
  rw [Page.ofSource_eq] at h
  obtain ⟨⟨t', a'⟩, hpasses, h⟩ := exists_ok_of_bind h
  obtain ⟨rendered, hrendered, h⟩ := exists_ok_of_bind h
  cases h
  rw [tagPasses_eq] at hpasses
  obtain ⟨t, a, hdocstrings, hcontainers⟩ := exists_run_of_bind hpasses
  exact ⟨t, a, t', a', rendered, hdocstrings, hcontainers, hrendered, rfl⟩

/-- **Docstrings do not leak into the outline.**

Two sources that are the same outside of their docstrings have the same metadata when both are
converted, whatever the docstrings hold, as long as each docstring stashes nothing but its own
component. -/
theorem Page.metadata_eq_of_outside_eq (settings : Settings) (source source' : Text)
    (page page' : Page)
    (houtside : outside ((Pattern.plain .docstring).segments source) =
      outside ((Pattern.plain .docstring).segments source'))
    (hflat : FlatDocstrings settings source) (hflat' : FlatDocstrings settings source')
    (hpage : Page.ofSource settings source = .ok page)
    (hpage' : Page.ofSource settings source' = .ok page') : page.metadata = page'.metadata := by
  obtain ⟨t, a, u, b, rendered, hdocstrings, hcontainers, hrendered, rfl⟩ :=
    Page.exists_passes hpage
  obtain ⟨t', a', u', b', rendered', hdocstrings', hcontainers', hrendered', rfl⟩ :=
    Page.exists_passes hpage'
  -- The docstrings leave the same text and no headings.
  obtain ⟨rfl, hheadings⟩ := eq_of_docstringPass hflat hdocstrings
  obtain ⟨ht, hheadings'⟩ := eq_of_docstringPass hflat' hdocstrings'
  rw [← houtside] at ht
  subst ht
  have hcount : ((Pattern.plain .docstring).spans source).length =
      ((Pattern.plain .docstring).spans source').length := by
    have hlength := congrArg List.length houtside
    rw [length_outside [], length_outside []] at hlength
    exact Nat.succ.inj hlength
  -- Neither conversion has a heading in its stash, and they have equally many components.
  have hsame : SameHeadings a a' := by
    unfold SameHeadings
    rw [hheadings, hheadings', hcount]
  -- From here on the two conversions work on one text.
  obtain ⟨hlast, rfl⟩ := (sameNested_fragment settings _ _).containerPasses _ _ _ _ _ _ _ _
    hsame hcontainers hcontainers'
  have hmerged := headings_eq_of_aligned hlast (aligned_of_renderText hrendered hrendered')
  show Outline.Metadata.ofForest (Heading.forest (b.stash.merged 0 _ _)) =
    Outline.Metadata.ofForest (Heading.forest (b'.stash.merged 0 _ _))
  rw [hmerged]

/-- A docstring in front of a code block and a heading. -/
def documented (fields : Text) : Text :=
  "<docstring><name>f</name><anchor>f</anchor><parameters>p</parameters>".toList ++ fields ++
    "</docstring>\n\n~~~\nx\n~~~\n\n# A\n".toList

/-- A field with a heading, a sentinel, and a request for wrapped code blocks. -/
def loudField : Text :=
  "<retdesc>\n# B\n\nHF_DOC_BODY_START\n\n<!-- WRAP CODE BLOCKS -->\n</retdesc>".toList

/-- The field changes the page, but not what the metadata says of it. -/
theorem metadata_of_loudField : ∃ page page',
    Page.ofSource {} (documented []) = .ok page ∧
      Page.ofSource {} (documented loudField) = .ok page' ∧ page.html ≠ page'.html ∧
      page'.metadata.flatten = [⟨"A".toList, "a".toList, 1⟩] ∧ page.metadata = page'.metadata := by
  have houtside : outside ((Pattern.plain .docstring).segments (documented [])) =
      outside ((Pattern.plain .docstring).segments (documented loudField)) := by
    decide +kernel
  have hflat : ∀ fields ∈ [[], loudField], FlatDocstrings {} (documented fields) := by
    intro fields hfields
    have hlength : ((docstringPass ⟨{}, Text.contains wrapRequest (documented fields)⟩
        (documented fields)).run {}).toOption.map (·.2.stash.components.length) =
          some ((Pattern.plain .docstring).spans (documented fields)).length := by
      revert fields
      decide +kernel
    obtain ⟨⟨t, a⟩, hrun, hcount⟩ := exists_ok_of_toOption hlength
    exact ⟨t, a, hrun, hcount⟩
  have hquiet : (Page.ofSource {} (documented [])).toOption.map (·.html.length) = some 265 := by
    decide +kernel
  have hloud : (Page.ofSource {} (documented loudField)).toOption.map
      (fun page => (page.html.length, page.metadata.flatten)) =
        some (415, [⟨"A".toList, "a".toList, 1⟩]) := by
    decide +kernel
  obtain ⟨page, hpage, hlength⟩ := exists_ok_of_toOption hquiet
  obtain ⟨page', hpage', hloud⟩ := exists_ok_of_toOption hloud
  obtain ⟨hlength', hflatten⟩ := Prod.mk.inj hloud
  refine ⟨page, page', hpage, hpage', fun hsame => ?_, hflatten, ?_⟩
  · rw [hsame, hlength'] at hlength
    cases hlength
  · exact Page.metadata_eq_of_outside_eq {} _ _ page page' houtside (hflat [] (by simp))
      (hflat loudField (by simp)) hpage hpage'

end DocPage.Document
