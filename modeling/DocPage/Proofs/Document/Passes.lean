import DocPage.Proofs.Document.Outline
import DocPage.Proofs.Tag.Residue

/-!
# What the tag passes stash

A document is put together by work that may fail and that keeps a stash. Whatever such work does, it
only adds components at the end of the stash, and each added component is one tag, so that angle
brackets delimit it. `Makes` says this of a piece of work, together with what its result is like;
each operation of the passes has one lemma.

## Architecture

- **Growth**: `Extends`, between two states of the assembly
- **Work**: `Makes`, closed under sequences, choices and lists
- **Tags**: the components of docstrings, variants and options
- **Passes**: nested content by induction on the fuel, then the passes over a text
- **Second passes**: a pass leaves no match of its pattern, so a second one does nothing
-/

namespace DocPage.Document

open Tag (Span Segment)
open Text (Bracketed)

variable {α β : Type}

/-! ## Growth -/

/-- Components were added to the stash, each of them between angle brackets. -/
def Extends (a a' : Assembly) : Prop :=
  ∃ added, a'.stash.components = a.stash.components ++ added ∧ ∀ c ∈ added, Bracketed c.markup

namespace Extends

variable {a a' a'' : Assembly}

theorem of_eq (h : a'.stash = a.stash) : Extends a a' :=
  ⟨[], by rw [h, List.append_nil], fun _ hc => nomatch hc⟩

theorem trans (h : Extends a a') (h' : Extends a' a'') : Extends a a'' := by
  obtain ⟨added, hadded, hbracketed⟩ := h
  obtain ⟨added', hadded', hbracketed'⟩ := h'
  -- A component was added by the first part or by the second one.
  refine ⟨added ++ added', by rw [hadded', hadded, List.append_assoc], fun c hc => ?_⟩
  exact (List.mem_append.mp hc).elim (hbracketed c) (hbracketed' c)

theorem length_le (h : Extends a a') :
    a.stash.components.length ≤ a'.stash.components.length := by
  obtain ⟨added, hadded, -⟩ := h
  rw [hadded, List.length_append]
  exact Nat.le_add_right _ _

end Extends

/-! ## Work -/

/-- Work in two parts that succeeds succeeds in each of them. -/
theorem exists_run_of_bind {x : Assemble α} {f : α → Assemble β} {a a'' : Assembly} {b : β}
    (h : (x >>= f).run a = .ok (b, a'')) :
    ∃ v a', x.run a = .ok (v, a') ∧ (f v).run a' = .ok (b, a'') := by
  rw [StateT.run_bind] at h
  obtain ⟨⟨v, a'⟩, hx, hf⟩ := exists_ok_of_bind h
  exact ⟨v, a', hx, hf⟩

/-- What is known of the result of a success says that there is one. -/
theorem exists_ok_of_toOption {x : Except RenderError α} {f : α → β} {b : β}
    (h : x.toOption.map f = some b) : ∃ v, x = .ok v ∧ f v = b := by
  cases x with
  | error e => cases h
  | ok v => exact ⟨v, rfl, Option.some.inj h⟩

/-- Whenever the work succeeds, it only extends the stash, and its result is as described. -/
def Makes (x : Assemble α) (P : α → Prop) : Prop :=
  ∀ a v a', x.run a = .ok (v, a') → Extends a a' ∧ P v

/-- Whenever the work succeeds, it only extends the stash. -/
abbrev Grows (x : Assemble α) : Prop := Makes x fun _ => True

namespace Makes

variable {P : α → Prop} {Q : β → Prop}

theorem pure {v : α} (h : P v) : Makes (pure v) P := by
  intro a v' a' hrun
  cases hrun
  exact ⟨.of_eq rfl, h⟩

theorem bind {x : Assemble α} {f : α → Assemble β} (hx : Makes x P)
    (hf : ∀ v, P v → Makes (f v) Q) : Makes (x >>= f) Q := by
  intro a b a'' hrun
  -- The second part only has to do what it says for results of the first part.
  obtain ⟨v, a', hv, hb⟩ := exists_run_of_bind hrun
  obtain ⟨hfirst, hP⟩ := hx a v a' hv
  obtain ⟨hrest, hQ⟩ := hf v hP a' b a'' hb
  exact ⟨hfirst.trans hrest, hQ⟩

theorem grows {x : Assemble α} (hx : Makes x P) : Grows x :=
  fun a v a' hrun => ⟨(hx a v a' hrun).1, trivial⟩

theorem map {x : Assemble α} (hx : Grows x) (f : α → β) : Grows (f <$> x) := by
  rw [map_eq_pure_bind]
  exact hx.bind fun v _ => .pure trivial

theorem ofExcept (x : Except RenderError α) :
    Grows (MonadExcept.ofExcept x : Assemble α) := by
  intro a v a' hrun
  cases x with
  | error e => cases hrun
  | ok v' =>
    cases hrun
    exact ⟨.of_eq rfl, trivial⟩

theorem get : Grows (MonadState.get : Assemble Assembly) := by
  intro a v a' hrun
  cases hrun
  exact ⟨.of_eq rfl, trivial⟩

theorem warn (warnings : List Text) : Grows (Document.warn warnings) := by
  intro a v a' hrun
  cases hrun
  exact ⟨.of_eq rfl, trivial⟩

/-- Only bracketed components are stashed, and a placeholder comes back. -/
theorem stash {component : Fragment} (h : Bracketed component.html) :
    Makes (Document.stash component) fun written => ∃ index, written = placeholder index := by
  intro a v a' hrun
  -- Stashing cannot fail: one component is added, and it is the bracketed one.
  cases hrun
  refine ⟨⟨[⟨component.html, component.headings⟩], List.concat_eq_append, ?_⟩, _, rfl⟩
  intro c hc
  obtain rfl := List.mem_singleton.mp hc
  exact h

theorem mapM {f : α → Assemble β} (hf : ∀ x, Grows (f x)) (xs : List α) : Grows (xs.mapM f) := by
  -- One piece of work after the other, each of which may add to the stash.
  induction xs with
  | nil => exact .pure trivial
  | cons x xs ih =>
    rw [List.mapM_cons]
    exact (hf x).bind fun _ _ => ih.bind fun _ _ => .pure trivial

end Makes

/-! ## Tags -/

theorem bracketed_selfClosing (c : Component) : Bracketed c.selfClosing := by
  have hclose : " />".toList = " /".toList ++ ['>'] := rfl
  -- The name follows the bracket at once, so the whole of the tag is its content.
  refine ⟨c.name ++ c.props ++ " /".toList, ?_⟩
  unfold Component.selfClosing
  rw [hclose, ← List.append_assoc]
  rfl

theorem bracketed_wrap (c : Component) (children : Text) : Bracketed (c.wrap children) := by
  refine ⟨c.name ++ c.props ++ ">\n".toList ++ children ++ "</".toList ++ c.name, ?_⟩
  unfold Component.wrap
  rfl

section Nested

variable {nested : Nested} (hnested : ∀ t region, Grows (nested t region))
include hnested

theorem grows_render (scope : DocstringScope) (h : scope.nested = nested) (t : Text) :
    Grows (scope.render t) := by
  -- The scope only says what nested content is rendered with.
  subst h
  exact (hnested t scope.region).bind fun _ _ => .pure trivial

theorem grows_optional (scope : DocstringScope) (h : scope.nested = nested) (kind : Tag.Kind)
    (body : Text) : Grows (scope.optional kind body) := by
  unfold DocstringScope.optional
  split
  · exact (grows_render hnested scope h _).map some
  · exact .pure trivial

theorem grows_parameters (scope : DocstringScope) (h : scope.nested = nested) (t : Text) :
    Grows (scope.parameters t) := by
  unfold DocstringScope.parameters
  refine (grows_render hnested scope h _).bind fun html _ => ?_
  -- A list that cannot be harvested only warns.
  split
  · exact .pure trivial
  · exact (Makes.warn _).bind fun _ _ => .pure trivial
  · exact (Makes.warn _).bind fun _ _ => .pure trivial

theorem grows_parametersOf (scope : DocstringScope) (h : scope.nested = nested) (kind : Tag.Kind)
    (body : Text) : Grows (scope.parametersOf kind body) := by
  unfold DocstringScope.parametersOf
  split
  · exact grows_parameters hnested scope h _
  · exact .pure trivial

theorem grows_readDocstring (region : Body.Region) (body : Text) :
    Grows (readDocstring nested region body) := by
  -- A group reads its parameters in its own part of the body.
  have hgroup : ∀ (scope : DocstringScope), scope.nested = nested → ∀ body n,
      Grows (scope.group body n) := fun scope h body n =>
    (grows_parametersOf hnested scope h _ body).bind fun _ _ => .pure trivial
  unfold readDocstring
  -- The fields are read in a fixed order, and only the rendered ones touch the stash.
  refine (Makes.ofExcept _).bind fun fields _ => ?_
  refine (grows_parametersOf hnested _ rfl _ _).bind fun parameters _ => ?_
  refine (Makes.mapM (fun i => hgroup _ rfl _ _) _).bind fun groups _ => ?_
  refine (grows_optional hnested _ rfl _ _).bind fun returnDescription _ => ?_
  refine (grows_optional hnested _ rfl _ _).bind fun returnType _ => ?_
  refine (grows_optional hnested _ rfl _ _).bind fun raiseDescription _ => ?_
  refine (grows_optional hnested _ rfl _ _).bind fun raiseType _ => ?_
  exact .pure trivial

theorem makes_docstringFragment (region : Body.Region) (span : Span) :
    Makes (docstringFragment nested region span) fun fragment => Bracketed fragment.html :=
  (grows_readDocstring hnested region span.body).bind fun d _ =>
    .pure (bracketed_selfClosing d.component)

theorem grows_renderVariant (region : Body.Region) (name : Text) (found : Text × Span) :
    Grows (renderVariant nested region name found) :=
  (hnested found.2.body (region.advance found.1)).bind fun _ _ => .pure trivial

theorem makes_familyFragment (family : Family) (region : Body.Region) (span : Span) :
    Makes (familyFragment nested family region span) fun fragment => Bracketed fragment.html := by
  have hfamily : Grows (renderFamily nested region span.body family) := by
    -- A variant without a match adds nothing; the others are rendered one after the other.
    refine Makes.mapM (fun (kind, name) => ?_) _
    dsimp only
    split
    · exact (grows_renderVariant hnested region _ _).bind fun _ _ => .pure trivial
    · exact .pure trivial
  exact hfamily.bind fun _ _ => .pure (bracketed_wrap _ _)

theorem makes_optionsFragment (region : Body.Region) (span : Span) :
    Makes (optionsFragment nested region span) fun fragment => Bracketed fragment.html :=
  (Makes.mapM (fun found => grows_renderVariant hnested region _ found) _).bind fun _ _ =>
    .pure (bracketed_wrap _ _)

end Nested

/-! ## Passes -/

theorem grows_substituteSegments {f : Text → Span → Assemble Text}
    (hf : ∀ before s, Grows (f before s)) (before : Text) (segments : List Segment) :
    Grows (Tag.substituteSegments f before segments) := by
  -- The result is put together from the segments, and only matches do work.
  induction segments generalizing before with
  | nil => exact .pure trivial
  | cons segment segments ih =>
    cases segment with
    | gap text => exact (ih _).bind fun _ _ => .pure trivial
    | span s => exact (hf before s).bind fun _ _ => (ih _).bind fun _ _ => .pure trivial

/-- A match starts with its opening tag and ends with its closing tag. -/
theorem bracketed_of_mem_spans {p : Tag.Pattern} {t : Text} {m : Text × Span} (hm : m ∈ p.spans t) :
    Bracketed m.2.source := by
  have h := ((p.scan_segments t).sound hm).1
  -- An opening tag is a bracket, the name and attributes; the closing tag ends with a bracket.
  obtain ⟨attrs, -, hopening⟩ := h.opens.isOpening
  refine ⟨p.name ++ attrs ++ ['>'] ++ m.2.body ++ "</".toList ++ p.name, ?_⟩
  rw [Span.source, h.closing_eq, hopening]
  simp

/-- The work on one match: a component is made and stashed. -/
theorem makes_match {transform : Body.Region → Span → Assemble Fragment}
    (h : ∀ region span, Makes (transform region span) fun fragment => Bracketed fragment.html)
    (region : Body.Region) (before : Text) (span : Span) :
    Makes (do stash (← transform (region.advance before) span)) fun written =>
      ∃ index, written = placeholder index :=
  (h _ _).bind fun _ hfragment => .stash hfragment

/-- The placeholder of a match is for the component that was stashed last. -/
theorem exists_stashed_of_match {transform : Body.Region → Span → Assemble Fragment}
    {region : Body.Region} {before new : Text} {span : Span} {a a' : Assembly}
    (h : (do stash (← transform (region.advance before) span) : Assemble Text).run a =
      .ok (new, a')) :
    ∃ fragment made, (transform (region.advance before) span).run a = .ok (fragment, made) ∧
      new = placeholder made.stash.components.length ∧
      a'.stash.components.length = made.stash.components.length + 1 := by
  -- The transform goes first, so the number that it gets is the next one behind its own components.
  obtain ⟨fragment, made, hfragment, hstash⟩ := exists_run_of_bind h
  cases hstash
  exact ⟨fragment, made, hfragment, rfl, List.length_concat⟩

theorem grows_tagPass {p : Tag.Pattern} {transform : Body.Region → Span → Assemble Fragment}
    (h : ∀ region span, Makes (transform region span) fun fragment => Bracketed fragment.html)
    (region : Body.Region) (t : Text) : Grows (tagPass p transform region t) :=
  grows_substituteSegments (fun before span => (makes_match h region before span).grows) []
    (p.segments t)

/-- What holds of the text and the stash through every single pass holds through all of them. -/
theorem tagPasses_induction {nested : Nested} (hnested : ∀ t region, Grows (nested t region))
    {region : Body.Region} {I : Text → Assembly → Prop}
    (hpass : ∀ (p : Tag.Pattern) (transform : Body.Region → Span → Assemble Fragment),
      (∀ region span, Makes (transform region span) fun fragment => Bracketed fragment.html) →
      ∀ t a t' a', I t a → (tagPass p transform region t).run a = .ok (t', a') → I t' a')
    {t t' : Text} {a a' : Assembly} (hstart : I t a)
    (hrun : (tagPasses nested t region).run a = .ok (t', a')) : I t' a' := by
  have hfamily : ∀ family t a t' a', I t a →
      (familyPass nested family region t).run a = .ok (t', a') → I t' a' :=
    fun family => hpass _ _ (makes_familyFragment hnested family)
  -- The five passes follow each other, and each one takes over what the last one left.
  unfold tagPasses at hrun
  obtain ⟨t₁, a₁, h₁, hrun⟩ := exists_run_of_bind hrun
  obtain ⟨t₂, a₂, h₂, hrun⟩ := exists_run_of_bind hrun
  obtain ⟨t₃, a₃, h₃, hrun⟩ := exists_run_of_bind hrun
  obtain ⟨t₄, a₄, h₄, hrun⟩ := exists_run_of_bind hrun
  have I₁ := hpass _ _ (makes_docstringFragment hnested) _ _ _ _ hstart h₁
  have I₂ := hfamily _ _ _ _ _ I₁ h₂
  have I₃ := hpass _ _ (makes_optionsFragment hnested) _ _ _ _ I₂ h₃
  have I₄ := hfamily _ _ _ _ _ I₃ h₄
  exact hfamily _ _ _ _ _ I₄ hrun

theorem grows_tagPasses {nested : Nested} (hnested : ∀ t region, Grows (nested t region))
    (t : Text) (region : Body.Region) : Grows (tagPasses nested t region) := by
  intro a t' a' hrun
  -- Growing is kept by every pass, so it holds between the first state and the last one.
  refine ⟨tagPasses_induction hnested (I := fun _ now => Extends a now) ?_ (.of_eq rfl) hrun,
    trivial⟩
  intro p transform htransform t₁ a₁ t₂ a₂ hextends hpass
  exact hextends.trans (grows_tagPass htransform region t₁ a₁ t₂ a₂ hpass).1

theorem grows_finishFragment (scope : Scope) (t : Text) (region : Body.Region) :
    Grows (finishFragment scope t region) := by
  unfold finishFragment
  refine (Makes.ofExcept _).bind fun page _ => ?_
  refine (Makes.warn _).bind fun _ _ => ?_
  exact Makes.get.bind fun _ _ => .pure trivial

/-- Rendering nested content only extends the stash. -/
theorem grows_fragmentWithin (scope : Scope) (fuel : Nat) (t : Text) (region : Body.Region) :
    Grows (fragmentWithin scope fuel t region) := by
  -- Nested content has less fuel left, and without any fuel there are no passes at all.
  induction fuel generalizing t region with
  | zero => exact grows_finishFragment scope t region
  | succ fuel ih =>
    exact (grows_tagPasses ih t region).bind fun t' _ => grows_finishFragment scope t' region

/-! ## Second passes -/

/-- The work on a text puts what is made of each match in its place. -/
theorem substituted_of_run {f : Text → Span → Assemble Text} {P : Text → Prop}
    (hf : ∀ before span a new a', (f before span).run a = .ok (new, a') → P new)
    {before t' : Text} {segments : List Segment} {a a' : Assembly}
    (hrun : (Tag.substituteSegments f before segments).run a = .ok (t', a')) :
    Tag.Substituted P segments t' := by
  -- The segments are worked on in order, each with the text in front of it.
  induction segments generalizing before t' a with
  | nil =>
    cases hrun
    exact .nil
  | cons segment segments ih =>
    cases segment with
    | gap text =>
      obtain ⟨rest, a₁, hrest, hrun⟩ := exists_run_of_bind hrun
      cases hrun
      exact .gap (ih hrest)
    | span s =>
      obtain ⟨new, a₁, hnew, hrun⟩ := exists_run_of_bind hrun
      obtain ⟨rest, a₂, hrest, hrun⟩ := exists_run_of_bind hrun
      cases hrun
      exact .span (hf _ _ _ _ _ hnew) (ih hrest)

theorem declaration_of_isPlaceholder {written : Text} {index : Nat}
    (h : IsPlaceholder written index) : Tag.Declaration written := by
  -- A placeholder is a comment, in which no tag of a pattern starts.
  obtain ⟨tail, rfl, hbracket⟩ := h.exists_tail
  exact ⟨tail, rfl, fun hmem => hbracket (List.mem_cons_of_mem _ hmem)⟩

/-- **A pass leaves no match of its pattern.**

When every match of a pattern gives way to a placeholder that the stash gave out, the pattern has no
match in the result. So a second substitution, with whatever transform and effects, changes neither
the text nor anything else. -/
theorem no_match_after_pass (p : Tag.Pattern) (f : Text → Span → Assemble Text)
    (hf : ∀ before span a new a', (f before span).run a = .ok (new, a') →
      ∃ (s : Stash) (component : StashItem), new = (s.put component).1)
    (t t' : Text) (a a' : Assembly) (hrun : (Tag.substitute p f t).run a = .ok (t', a')) :
    p.spans t' = [] ∧ ∀ (m : Type → Type) [Monad m] [LawfulMonad m] (g : Text → Span → m Text),
      Tag.substitute p g t' = pure t' := by
  -- What the stash writes is a placeholder, whichever component it is for.
  have hnew : ∀ before span a new a', (f before span).run a = .ok (new, a') →
      Tag.Declaration new := by
    intro before span a new a' h
    obtain ⟨s, component, rfl⟩ := hf before span a new a' h
    exact declaration_of_isPlaceholder (.of_index _)
  have hspans := Tag.Pattern.spans_eq_nil_of_substituted (substituted_of_run hnew hrun)
  exact ⟨hspans, fun m _ _ g => Tag.substitute_of_spans_eq_nil hspans g⟩

/-- A match, an unterminated tag in front of it, and an unfinished one behind it. -/
def untidyTags : Text := "<pt>a<pt>b</pt><pt id=\"x\">c</pt></pt><pt ".toList

/-- What a pass leaves of these tags. -/
def untidyResidue : Text := "<pt>a<pt>b</pt>".toList ++ placeholder 0 ++ "</pt><pt ".toList

/-- The body of a tag as it is written. -/
def bodyFragment (_ : Body.Region) (span : Span) : Assemble Fragment :=
  pure { html := span.body }

/-- The pass that stashes the bodies of the tags. -/
def bodyPass : Text → Assemble Text :=
  tagPass (.plain .pt) bodyFragment .before

theorem no_match_in_untidyResidue : ∃ a', (bodyPass untidyTags).run {} = .ok (untidyResidue, a') ∧
    (Tag.Pattern.plain .pt).spans untidyResidue = [] ∧
      bodyPass untidyResidue = pure untidyResidue := by
  have hstashed : ∀ before span a new a',
      (do stash (← bodyFragment (Body.Region.before.advance before) span) : Assemble Text).run a =
        .ok (new, a') → ∃ (s : Stash) (component : StashItem), new = (s.put component).1 := by
    -- The pass stashes what it makes of a match, so its placeholder comes from the stash.
    intro before span a new a' h
    obtain ⟨fragment, made, -, rfl, -⟩ := exists_stashed_of_match h
    exact ⟨made.stash, ⟨fragment.html, fragment.headings⟩, rfl⟩
  have houtcome : ((bodyPass untidyTags).run {}).toOption.map Prod.fst = some untidyResidue := by
    decide +kernel
  obtain ⟨⟨t', a'⟩, hpass, rfl⟩ := exists_ok_of_toOption houtcome
  obtain ⟨hspans, hagain⟩ := no_match_after_pass (.plain .pt) _ hstashed _ _ _ _ hpass
  exact ⟨a', hpass, hspans, hagain Assemble _⟩

end DocPage.Document
