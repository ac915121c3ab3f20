import DocPage.Proofs.Document.Passes
import DocPage.Proofs.Document.TagWeight

/-!
# The recursion over nested content

The body of a docstring field, of a variant or of an option is a text with tags of its own, which
goes through the same passes. Each pass works on what the passes before it left, and that is never
heavier than the text at the start. So whatever is handed on is lighter than the text that it is
handed on from. The passes over a text depend on the way to render lighter texts only, the fuel is
never used up, and nested rendering solves its recursion equation and is the only solution.

## Architecture

- **Agreement**: `AgreeBelow`, between two ways to render nested content
- **Tags**: docstrings, variants and options, with two ways that agree
- **Passes**: one pass, and all passes
- **Fuel**: the weight of a text is enough for it
- **Recursion**: `HandsOver`, and the end of the recursion
-/

namespace DocPage.Document

open Tag (Span)

/-! ## Agreement -/

/-- The two ways to render nested content are the same on all texts lighter than `n`. -/
def AgreeBelow (n : Nat) (f g : Nested) : Prop :=
  ∀ t, tagWeight t < n → f t = g t

theorem AgreeBelow.mono {n k : Nat} {f g : Nested} (h : AgreeBelow n f g) (hle : k ≤ n) :
    AgreeBelow k f g :=
  fun t ht => h t (Nat.lt_of_lt_of_le ht hle)

/-- What comes behind a piece of work matters for its results only. -/
theorem bind_congr_of_run {α β : Type} {x : Assemble α} {y z : α → Assemble β}
    (h : ∀ a v a', x.run a = .ok (v, a') → y v = z v) : x >>= y = x >>= z := by
  apply StateT.ext
  intro a
  -- The results of the two differ at no state, so neither do the whole computations.
  rw [StateT.run_bind, StateT.run_bind]
  cases hx : x.run a with
  | error e => rfl
  | ok result =>
    obtain ⟨v, a'⟩ := result
    show (y v).run a' = (z v).run a'
    rw [h a v a' hx]

theorem mem_of_mem_firstOfEachId {matched : List (Text × Span)} {found : Text × Span}
    (h : found ∈ firstOfEachId matched) : found ∈ matched := by
  -- Along the fold, what is kept was there before or comes from the rest.
  have hkept : ∀ rest kept : List (Text × Span),
      found ∈ rest.foldl (fun kept found =>
        if kept.any (·.2.id == found.2.id) then kept else kept.concat found) kept →
      found ∈ kept ∨ found ∈ rest := by
    intro rest
    induction rest with
    | nil => exact fun kept hmem => .inl hmem
    | cons first rest ih =>
      intro kept hmem
      rcases ih _ hmem with hmem | hmem
      · dsimp only at hmem
        split at hmem
        · exact .inl hmem
        · rw [List.concat_eq_append, List.mem_append, List.mem_singleton] at hmem
          exact hmem.imp_right fun heq => List.mem_cons.mpr (.inl heq)
      · exact .inr (List.mem_cons_of_mem first hmem)
  exact (hkept matched [] h).resolve_left List.not_mem_nil

namespace AgreeBelow

variable {n : Nat} {f g : Nested} (h : AgreeBelow n f g)
include h

/-! ## Tags -/

section Docstrings

variable (region : Body.Region) (anchor : Text)

theorem render {t : Text} (ht : tagWeight t < n) :
    DocstringScope.render ⟨f, region, anchor⟩ t = DocstringScope.render ⟨g, region, anchor⟩ t := by
  unfold DocstringScope.render
  dsimp only
  rw [h t ht]

variable {body : Text} (hbody : tagWeight body < n)
include hbody

theorem optional (kind : Tag.Kind) :
    DocstringScope.optional ⟨f, region, anchor⟩ kind body =
      DocstringScope.optional ⟨g, region, anchor⟩ kind body := by
  unfold DocstringScope.optional
  cases hfield : Docstring.field? kind body with
  | none => rfl
  | some t =>
    -- A field is a part of the body, and lighter than it, since its tags are left behind.
    have hlt := tagWeight_field_lt hfield
    exact congrArg (some <$> ·) (h.render region anchor (hlt.trans hbody))

/-- The braces of a parameter list are kept apart before it is rendered. -/
theorem parametersOf (kind : Tag.Kind) :
    DocstringScope.parametersOf ⟨f, region, anchor⟩ kind body =
      DocstringScope.parametersOf ⟨g, region, anchor⟩ kind body := by
  unfold DocstringScope.parametersOf
  cases hfield : Docstring.field? kind body with
  | none => rfl
  | some t =>
    have hlt := tagWeight_field_lt hfield
    have hguarded : tagWeight (Docstring.guardBraces t) < n :=
      Nat.lt_of_le_of_lt (tagWeight_guardBraces_le t) (hlt.trans hbody)
    show DocstringScope.parameters _ t = DocstringScope.parameters _ t
    unfold DocstringScope.parameters
    rw [h.render region anchor hguarded]

theorem group (number : Nat) :
    DocstringScope.group ⟨f, region, anchor⟩ body number =
      DocstringScope.group ⟨g, region, anchor⟩ body number := by
  unfold DocstringScope.group
  rw [h.parametersOf region anchor hbody]

end Docstrings

section Components

variable (region : Body.Region) {span : Span} (hspan : tagWeight span.body < n)
include hspan

/-- The fields are read from the body with its hidden characters put back. -/
theorem docstring : docstringFragment f region span = docstringFragment g region span := by
  have hrevealed : tagWeight (Docstring.revealHidden span.body) < n :=
    Nat.lt_of_le_of_lt (tagWeight_revealHidden_le span.body) hspan
  have hread : readDocstring f region span.body = readDocstring g region span.body := by
    unfold readDocstring
    -- Every field goes through one of the three, so rewriting them settles the record.
    simp only [h.parametersOf region _ hrevealed, h.group region _ hrevealed,
      h.optional region _ hrevealed]
  unfold docstringFragment
  rw [hread]

theorem variant (name : Text) {found : Text × Span} {p : Tag.Pattern}
    (hfound : found ∈ p.spans span.body) :
    renderVariant f region name found = renderVariant g region name found := by
  have hlt := tagWeight_body_lt hfound
  unfold renderVariant
  rw [h _ (hlt.trans hspan)]

theorem family (family : Family) :
    familyFragment f family region span = familyFragment g family region span := by
  have hfamily : renderFamily f region span.body family =
      renderFamily g region span.body family := by
    unfold renderFamily
    -- The variants are mapped one by one, so it is enough to compare them.
    congr 1
    funext ⟨kind, name⟩
    dsimp only
    cases hfirst : (Tag.Pattern.plain kind).find? span.body with
    | none => rfl
    | some found =>
      dsimp only
      rw [h.variant region hspan name (List.mem_of_mem_head? hfirst)]
  unfold familyFragment
  rw [hfamily]

theorem options : optionsFragment f region span = optionsFragment g region span := by
  -- A variant that is kept is one of the matches, and those are lighter than the body.
  have hoptions : ∀ found ∈ firstOfEachId ((Tag.Pattern.identified .hfOption).spans span.body),
      renderVariant f region (found.2.id.getD []) found =
        renderVariant g region (found.2.id.getD []) found := fun found hfound =>
    h.variant region hspan _ (mem_of_mem_firstOfEachId hfound)
  unfold optionsFragment
  dsimp only
  rw [Tag.mapM_congr hoptions]

end Components

end AgreeBelow

/-! ## Passes -/

/-- A pass leaves a text that is no heavier. -/
theorem tagWeight_tagPass_le {p : Tag.Pattern}
    {transform : Body.Region → Span → Assemble Fragment} {region : Body.Region} {t t' : Text}
    {a a' : Assembly} (hrun : (tagPass p transform region t).run a = .ok (t', a')) :
    tagWeight t' ≤ tagWeight t := by
  have hsubstituted : Tag.Substituted (fun new => ∃ index, new = placeholder index)
      (p.segments t) t' :=
    substituted_of_run (fun before span a new a' hnew => by
      obtain ⟨fragment, made, -, hplaceholder, -⟩ := exists_stashed_of_match hnew
      exact ⟨_, hplaceholder⟩) hrun
  -- The segments of a pattern put the text together again, so their weight is that of the text.
  have hle := tagWeight_le_of_substituted hsubstituted (fun m hm => bracketed_of_mem_spans hm) []
  rwa [List.nil_append, List.nil_append, (p.scan_segments t).flatMap_source] at hle

/-- A pass depends on what its transform makes of bodies that are lighter than the text. -/
theorem tagPass_congr {n : Nat} {x y : Body.Region → Span → Assemble Fragment}
    (h : ∀ region span, tagWeight span.body < n → x region span = y region span) {t : Text}
    (ht : tagWeight t ≤ n) (p : Tag.Pattern) (region : Body.Region) :
    tagPass p x region t = tagPass p y region t := by
  apply Tag.substitute_congr
  intro found hfound
  have hlt := tagWeight_body_lt hfound
  rw [h _ _ (Nat.lt_of_lt_of_le hlt ht)]

/-- **The passes over a text depend on the way to render lighter texts only.** -/
theorem tagPasses_congr {f g : Nested} {t : Text} (h : AgreeBelow (tagWeight t) f g)
    (region : Body.Region) : tagPasses f t region = tagPasses g t region := by
  have hfamily : ∀ family u, tagWeight u ≤ tagWeight t →
      familyPass f family region u = familyPass g family region u := fun family u hu =>
    tagPass_congr (fun region span hspan => h.family region hspan family) hu _ region
  have hdocstring := tagPass_congr (fun region span hspan => h.docstring region hspan)
    (Nat.le_refl (tagWeight t)) (.plain .docstring) region
  unfold tagPasses
  rw [hdocstring]
  -- Each pass starts with what the one before it left.
  refine bind_congr_of_run fun a t₁ a₁ h₁ => ?_
  have hle₁ := tagWeight_tagPass_le h₁
  rw [hfamily _ _ hle₁]
  refine bind_congr_of_run fun a t₂ a₂ h₂ => ?_
  have hle₂ := (tagWeight_tagPass_le h₂).trans hle₁
  rw [tagPass_congr (fun region span hspan => h.options region hspan) hle₂]
  refine bind_congr_of_run fun a t₃ a₃ h₃ => ?_
  have hle₃ := (tagWeight_tagPass_le h₃).trans hle₂
  rw [hfamily _ _ hle₃]
  refine bind_congr_of_run fun a t₄ a₄ h₄ => ?_
  exact hfamily _ _ ((tagWeight_tagPass_le h₄).trans hle₃)

/-- A text of weight zero has no tags. -/
theorem tagPasses_of_tagWeight {t : Text} (h : tagWeight t = 0) (nested : Nested)
    (region : Body.Region) : tagPasses nested t region = pure t := by
  have hpass : ∀ p transform, tagPass p transform region t = pure t := fun p transform =>
    Tag.substitute_of_spans_eq_nil (spans_eq_nil_of_tagWeight h p) _
  simp only [tagPasses, familyPass, hpass, pure_bind]

/-! ## Fuel -/

section Fuel

variable (scope : Scope)

theorem fragmentWithin_of_tagWeight {t : Text} (h : tagWeight t = 0) (fuel : Nat) :
    fragmentWithin scope fuel t = finishFragment scope t := by
  funext region
  cases fuel with
  | zero => rfl
  | succ fuel => rw [fragmentWithin, tagPasses_of_tagWeight h, pure_bind]

/-- More fuel than the weight of a text changes nothing for it. -/
theorem fragmentWithin_congr {n k : Nat} {t : Text} (hn : tagWeight t ≤ n) (hk : tagWeight t ≤ k) :
    fragmentWithin scope n t = fragmentWithin scope k t := by
  -- On the fuel of one side. The text may change in each step, and the other fuel with it.
  induction n generalizing k t with
  | zero =>
    have hzero : tagWeight t = 0 := Nat.le_zero.mp hn
    -- Neither side has anything to spend its fuel on.
    rw [fragmentWithin_of_tagWeight scope hzero, fragmentWithin_of_tagWeight scope hzero]
  | succ n ih =>
    cases k with
    | zero =>
      have hzero : tagWeight t = 0 := Nat.le_zero.mp hk
      rw [fragmentWithin_of_tagWeight scope hzero, fragmentWithin_of_tagWeight scope hzero]
    | succ k =>
      -- One unit of fuel is spent on the text, and what it hands on is lighter by at least one.
      have hagree : AgreeBelow (tagWeight t) (fragmentWithin scope n) (fragmentWithin scope k) :=
        fun u hu => ih (by omega) (by omega)
      funext region
      rw [fragmentWithin, fragmentWithin, tagPasses_congr hagree]

theorem agreeBelow_fragment (n : Nat) :
    AgreeBelow (n + 1) (fragmentWithin scope n) (fragment scope) := by
  intro t ht
  funext region
  exact congrFun (fragmentWithin_congr scope (Nat.lt_succ_iff.mp ht) (Nat.le_refl _)) region

/-- The recursion over nested content, without fuel. -/
theorem fragment_eq (t : Text) (region : Body.Region) :
    fragment scope t region = (do
      finishFragment scope (← tagPasses (fragment scope) t region) region) := by
  -- With one unit to spare, the definition unfolds once.
  have hspare : fragment scope t = fragmentWithin scope (tagWeight t + 1) t :=
    fragmentWithin_congr scope (Nat.le_refl _) (Nat.le_succ _)
  have hagree := (agreeBelow_fragment scope (tagWeight t)).mono (Nat.le_succ _)
  rw [hspare, fragmentWithin, tagPasses_congr hagree]

/-- No other way to render nested content solves the equation. -/
theorem eq_fragment {nested : Nested}
    (h : ∀ t region, nested t region = (do
      finishFragment scope (← tagPasses nested t region) region)) : nested = fragment scope := by
  funext t
  -- By induction on the weight: the passes over a text see the two on lighter texts only.
  induction hweight : tagWeight t using Nat.strong_induction_on generalizing t with
  | _ n ih =>
    subst hweight
    have hagree : AgreeBelow (tagWeight t) nested (fragment scope) := fun u hu => ih _ hu u rfl
    funext region
    rw [h, fragment_eq, tagPasses_congr hagree]

end Fuel

/-- A document goes through the passes with the recursion over nested content. -/
theorem Page.ofSource_eq (settings : Settings) (source : Text) :
    Page.ofSource settings source = (do
      let scope : Scope := ⟨settings, Text.contains wrapRequest source⟩
      let (t, s) ← (tagPasses (fragment scope) source .before).run {}
      pure (Page.assemble s (← renderText scope t .before))) := by
  have hagree := (agreeBelow_fragment ⟨settings, Text.contains wrapRequest source⟩
    (tagWeight source)).mono (Nat.le_succ _)
  unfold Page.ofSource
  dsimp only
  rw [tagPasses_congr hagree]

/-! ## Recursion -/

/-- Nested content is rendered as before, but the text `u` fails. -/
def Nested.failOn (nested : Nested) (u : Text) (e : RenderError) : Nested := fun t region =>
  if t = u then throw e else nested t region

/-- The passes over `t` hand the text `u` on as nested content: the outcome depends on how `u` is
rendered, since it would be another one if that failed. -/
def HandsOver (nested : Nested) (t : Text) (region : Body.Region) (a : Assembly) (u : Text) :
    Prop :=
  ∃ e, (tagPasses (nested.failOn u e) t region).run a ≠ (tagPasses nested t region).run a

namespace HandsOver

variable {nested : Nested} {t u : Text} {region : Body.Region} {a : Assembly}

/-- Where the passes fail as the text does, in two ways, they hand it on. -/
theorem of_errors {e e' : RenderError} (hne : e ≠ e')
    (h : (tagPasses (nested.failOn u e) t region).run a = .error e)
    (h' : (tagPasses (nested.failOn u e') t region).run a = .error e') :
    HandsOver nested t region a u := by
  by_cases hsame : (tagPasses nested t region).run a = .error e
  · refine ⟨e', fun heq => hne ?_⟩
    rw [hsame, h'] at heq
    exact (Except.error.inj heq).symm
  · exact ⟨e, fun heq => hsame (heq.symm.trans h)⟩

/-- What is handed on is lighter. -/
theorem tagWeight_lt (h : HandsOver nested t region a u) : tagWeight u < tagWeight t := by
  obtain ⟨e, hne⟩ := h
  by_contra hle
  -- Otherwise the failure would be at a text that the passes do not see.
  have hagree : AgreeBelow (tagWeight t) (nested.failOn u e) nested := by
    intro v hv
    have hother : v ≠ u := by
      rintro rfl
      -- The text itself would be lighter than the other one, against what is assumed.
      exact hle hv
    funext region
    exact if_neg hother
  rw [tagPasses_congr hagree] at hne
  exact hne rfl

end HandsOver

/-- Many neighbouring closing braces. -/
def manyBraces : Text := List.replicate 48 '\x7d'

/-- A docstring with hidden tags around a parameter list of braces. -/
def bracedDocstring : Text :=
  "<docstring><name>f</name><anchor>a</anchor><parameters>p</parameters>".toList ++
    "&amp;lt;paramsdesc>".toList ++ manyBraces ++ "&amp;lt;/paramsdesc></docstring>".toList

/-- The hidden list is handed on with its braces kept apart, which makes it longer than the text
that it comes from. -/
theorem handsOver_bracedDocstring :
    HandsOver (fragment ⟨{}, false⟩) bracedDocstring .before {} (Docstring.guardBraces manyBraces) ∧
      bracedDocstring.length < (Docstring.guardBraces manyBraces).length := by
  -- The two failures must be told apart, so they carry different names.
  have hne : RenderError.missingField [] [] ≠ .missingField ['x'] [] := by decide
  constructor
  · apply HandsOver.of_errors hne
    · decide +kernel
    · decide +kernel
  · decide +kernel

/-- **The recursion over nested content ends.**

Every text that the passes over a text hand on as nested content weighs less than that text, though
it may be longer. So nested rendering, which is defined with fuel, solves its recursion equation
without fuel: the tags of the text are replaced, with nested rendering for their contents, and the
rest is rendered. It is the only solution, and it is what a document is rendered with. -/
theorem nested_rendering_ends :
    (∀ nested t region a u, HandsOver nested t region a u → tagWeight u < tagWeight t) ∧
    (∃ scope t u, HandsOver (fragment scope) t .before {} u ∧ t.length < u.length) ∧
    (∀ scope t region, fragment scope t region = (do
      finishFragment scope (← tagPasses (fragment scope) t region) region)) ∧
    (∀ scope nested, (∀ t region, nested t region = (do
        finishFragment scope (← tagPasses nested t region) region)) →
      nested = fragment scope) ∧
    (∀ settings source, Page.ofSource settings source = (do
      let scope : Scope := ⟨settings, Text.contains wrapRequest source⟩
      let (t, s) ← (tagPasses (fragment scope) source .before).run {}
      pure (Page.assemble s (← renderText scope t .before)))) := by
  refine ⟨fun _ _ _ _ _ => HandsOver.tagWeight_lt, ?_, fragment_eq, fun _ _ => eq_fragment _,
    Page.ofSource_eq⟩
  obtain ⟨hhands, hlonger⟩ := handsOver_bracedDocstring
  exact ⟨⟨{}, false⟩, bracedDocstring, _, hhands, hlonger⟩

end DocPage.Document
