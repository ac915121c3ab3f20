import DocPage.Proofs.Document.Passes
import Mathlib.Data.List.Forall2

/-!
# The record of a docstring

The fields of a docstring are read from its body once the hidden characters are put back. Three of
them are mandatory, and the first one that is absent is reported before anything else is done. When
they are all there, nothing but the fragments of the docstring can fail. If these render, each part
of the record comes from the tag that it is named after, and the number of a group decides which two
tags it comes from.

## Architecture

- **Work with fragments**: `Yields`, for work that fails only as a fragment does
- **Fields**: what optional fields, parameter lists and groups yield
- **Mandatory fields**: `firstAbsent?`, and the failure that it causes
- **Records**: `Describes`, and what reading a docstring comes to
-/

namespace DocPage.Document

open Docstring (field? hasFlag revealHidden groupCount guardBraces)
open Tag (Kind Pattern IsOpening)

/-! ## Work with fragments -/

section Work

variable {α β : Type} {fails : RenderError → Prop}

/-- In each state, the work fails in one of the given ways, or its result is as described. -/
def Yields (fails : RenderError → Prop) (x : Assemble α) (P : α → Prop) : Prop :=
  ∀ a, (∃ e, x.run a = .error e ∧ fails e) ∨ ∃ v a', x.run a = .ok (v, a') ∧ P v

namespace Yields

theorem pure {v : α} {P : α → Prop} (h : P v) : Yields fails (Pure.pure v) P :=
  fun a => .inr ⟨v, a, rfl, h⟩

theorem bind {x : Assemble α} {f : α → Assemble β} {P : α → Prop} {Q : β → Prop}
    (hx : Yields fails x P) (hf : ∀ v, P v → Yields fails (f v) Q) :
    Yields fails (x >>= f) Q := by
  intro a
  rw [StateT.run_bind]
  -- A failure of the first part is one of the whole.
  rcases hx a with ⟨e, hrun, he⟩ | ⟨v, a', hrun, hv⟩
  · apply Or.inl
    rw [hrun]
    exact ⟨e, rfl, he⟩
  · rw [hrun]
    exact hf v hv a'

theorem map {x : Assemble α} {f : α → β} {P : α → Prop} {Q : β → Prop} (hx : Yields fails x P)
    (hf : ∀ v, P v → Q (f v)) : Yields fails (f <$> x) Q := by
  rw [← bind_pure_comp]
  apply hx.bind
  intro v hv
  exact pure (hf v hv)

theorem mono {x : Assemble α} {P Q : α → Prop} (hx : Yields fails x P) (h : ∀ v, P v → Q v) :
    Yields fails x Q := by
  intro a
  apply (hx a).imp_right
  rintro ⟨v, a', hrun, hv⟩
  exact ⟨v, a', hrun, h v hv⟩

theorem warn (warnings : List Text) : Yields fails (Document.warn warnings) fun _ => True :=
  fun a => .inr ⟨(), { a with warnings := a.warnings ++ warnings }, rfl, trivial⟩

/-- A traversal yields one result for each item. -/
theorem mapM {f : α → Assemble β} {P : α → β → Prop} {xs : List α}
    (h : ∀ x ∈ xs, Yields fails (f x) (P x)) : Yields fails (xs.mapM f) (List.Forall₂ P xs) := by
  induction xs with
  | nil => exact pure .nil
  | cons x xs ih =>
    rw [List.mapM_cons]
    apply (h x List.mem_cons_self).bind
    intro y hy
    apply (ih fun x' hx' => h x' (List.mem_cons_of_mem x hx')).bind
    intro ys hys
    exact pure (.cons hy hys)

end Yields

end Work

/-! ## Fields -/

variable {nested : Nested} {region : Body.Region} {anchor body : Text} {texts : List Text}

/-- The rendering of one of the texts fails. -/
def FailsIn (nested : Nested) (region : Body.Region) (texts : List Text) (e : RenderError) : Prop :=
  ∃ t ∈ texts, ∃ a, (nested t region).run a = .error e

/-- The text renders to the markup, up to blanks around it. -/
def RendersTo (nested : Nested) (region : Body.Region) (t html : Text) : Prop :=
  ∃ a fragment a', (nested t region).run a = .ok (fragment, a') ∧ html = Text.trim fragment.html

/-- The parameters of a list that may be absent. -/
inductive Lists (nested : Nested) (region : Body.Region) (anchor : Text) :
    (list : Option Text) → List Parameter → Prop where
  | absent : Lists nested region anchor none []
  | harvested {t html : Text} {ps : List Parameter} :
      RendersTo nested region (guardBraces t) html →
      harvest anchor (Admonition.expandAll html) = .parameters ps →
      Lists nested region anchor (some t) ps
  /-- There is no list in the markup, or it cannot be read. -/
  | unreadable {t html : Text} :
      RendersTo nested region (guardBraces t) html →
      (∀ ps, harvest anchor (Admonition.expandAll html) ≠ .parameters ps) →
      Lists nested region anchor (some t) []

/-- The group with number `n` comes from the two tags with that number. -/
structure IsGroup (nested : Nested) (region : Body.Region) (anchor body : Text) (n : Nat)
    (group : ParameterGroup) : Prop where
  title : group.title = (field? (.paramGroupTitle n) body).getD []
  parameters : Lists nested region anchor (field? (.paramGroupDesc n) body) group.parameters

/-- A harvested parameter is named by its item, and anchored below the docstring. -/
theorem anchor_of_mem_harvest {html : Text} {ps : List Parameter}
    (h : harvest anchor html = .parameters ps) {p : Parameter} (hp : p ∈ ps) :
    p.anchor = anchor ++ '.' :: p.name := by
  unfold harvest at h
  -- There are parameters only where a list was found and each item of it was read.
  split at h
  · cases h
  · split at h
    · cases h
    · cases h
      obtain ⟨item, -, hitem⟩ := List.mem_filterMap.mp hp
      unfold Parameter.ofItem? at hitem
      obtain ⟨lead, -, hitem⟩ := Option.bind_eq_some_iff.mp hitem
      obtain ⟨description, -, hitem⟩ := Option.bind_eq_some_iff.mp hitem
      cases hitem
      rfl

theorem Lists.anchor_eq {list : Option Text} {ps : List Parameter}
    (h : Lists nested region anchor list ps) {p : Parameter} (hp : p ∈ ps) :
    p.anchor = anchor ++ '.' :: p.name := by
  cases h with
  | harvested _ hharvest => exact anchor_of_mem_harvest hharvest hp
  | absent | unreadable => cases hp

theorem yields_render {t : Text} (ht : t ∈ texts) :
    Yields (FailsIn nested region texts) (DocstringScope.render ⟨nested, region, anchor⟩ t)
      (RendersTo nested region t) := by
  have hnested : Yields (FailsIn nested region texts) (nested t region) fun fragment =>
      RendersTo nested region t (Text.trim fragment.html) := by
    -- The state does not matter: what fails in one of them fails in that state.
    intro a
    cases hrun : (nested t region).run a with
    | error e => exact .inl ⟨e, rfl, t, ht, a, hrun⟩
    | ok result => exact .inr ⟨result.1, result.2, rfl, a, result.1, result.2, hrun, rfl⟩
  apply hnested.bind
  intro fragment hfragment
  exact .pure hfragment

theorem yields_optional {kind : Kind} (h : ∀ t ∈ field? kind body, t ∈ texts) :
    Yields (FailsIn nested region texts)
      (DocstringScope.optional ⟨nested, region, anchor⟩ kind body)
      (Option.Rel (RendersTo nested region) (field? kind body)) := by
  unfold DocstringScope.optional
  -- Whether there is a field is told by the body, before anything is rendered.
  cases hfield : field? kind body with
  | none => exact .pure .none
  | some t =>
    apply (yields_render (h t hfield)).map
    intro html hhtml
    exact .some hhtml

/-- A list that cannot be harvested is warned of, and has no parameters. -/
theorem yields_parametersOf {kind : Kind} (h : ∀ t ∈ field? kind body, guardBraces t ∈ texts) :
    Yields (FailsIn nested region texts)
      (DocstringScope.parametersOf ⟨nested, region, anchor⟩ kind body)
      (Lists nested region anchor (field? kind body)) := by
  unfold DocstringScope.parametersOf
  cases hfield : field? kind body with
  | none => exact .pure .absent
  | some t =>
    apply (yields_render (h t hfield)).bind
    intro html hhtml
    dsimp only
    cases hharvest : harvest anchor (Admonition.expandAll html) with
    | parameters ps => exact .pure (.harvested hhtml hharvest)
    -- Both outcomes leave an empty list, and they differ in the warning only.
    | noList | unreadable =>
      apply (Yields.warn _).bind
      intro _ _
      apply Yields.pure
      apply Lists.unreadable hhtml
      simp [hharvest]

theorem yields_group {n : Nat}
    (h : ∀ t ∈ field? (.paramGroupDesc n) body, guardBraces t ∈ texts) :
    Yields (FailsIn nested region texts)
      (DocstringScope.group ⟨nested, region, anchor⟩ body n)
      (IsGroup nested region anchor body n) := by
  apply (yields_parametersOf h).bind
  intro parameters hparameters
  exact .pure ⟨rfl, hparameters⟩

/-! ## Mandatory fields -/

/-- The first mandatory field whose tag has no match. -/
def firstAbsent? (body : Text) : Option Kind :=
  [Kind.name, .anchor, .parameters].find? fun kind => ((Pattern.plain kind).spans body).isEmpty

/-- What a failure calls the docstring: its anchor, or else its name. -/
def failureContext (body : Text) : Text :=
  (field? .anchor body <|> field? .name body).getD "an unnamed object".toList

/-- A field is absent when its tag has no match. -/
theorem isEmpty_spans_eq (kind : Kind) (body : Text) :
    ((Pattern.plain kind).spans body).isEmpty = (field? kind body).isNone := by
  unfold field? Pattern.find?
  cases (Pattern.plain kind).spans body with
  | nil => rfl
  | cons found rest => rfl

/-- Either a field is absent, which is reported, or all mandatory fields are read. -/
theorem mandatoryFields_read (body : Text) :
    (∃ kind, firstAbsent? body = some kind ∧
      MandatoryFields.read body = .error (.missingField kind.tagName (failureContext body))) ∨
    (firstAbsent? body = none ∧ ∃ name anchor signature, field? .name body = some name ∧
      field? .anchor body = some anchor ∧ field? .parameters body = some signature ∧
      MandatoryFields.read body = .ok ⟨Text.replace "\\_" "_" name, anchor, signature⟩) := by
  unfold firstAbsent? failureContext MandatoryFields.read
  simp only [List.find?_cons, List.find?_nil, isEmpty_spans_eq]
  -- The fields are asked for in order, so the first absent one ends the reading.
  cases hname : field? .name body with
  | none => exact .inl ⟨.name, rfl, rfl⟩
  | some name =>
    cases hanchor : field? .anchor body with
    | none => exact .inl ⟨.anchor, rfl, rfl⟩
    | some anchor =>
      cases hsignature : field? .parameters body with
      | none => exact .inl ⟨.parameters, rfl, rfl⟩
      | some signature => exact .inr ⟨rfl, name, anchor, signature, rfl, rfl, rfl, rfl⟩

/-! ## Records -/

/-- The kinds whose fields are parameter lists: one list outside of groups, and one for each
group. -/
def listKinds (body : Text) : List Kind :=
  .paramsDesc :: (List.range (groupCount body)).map fun i => .paramGroupDesc (i + 1)

/-- The kinds whose fields are rendered as they are. -/
def proseKinds (body : Text) : List Kind :=
  (if isYield body then [.yieldDesc, .yieldType] else [.retDesc, .retType]) ++
    [.raises, .raisedErrors]

/-- The fragments of a docstring: the texts that are rendered for it. -/
def fragmentTexts (body : Text) : List Text :=
  (listKinds body).filterMap (fun kind => (field? kind body).map guardBraces) ++
    (proseKinds body).filterMap fun kind => field? kind body

theorem guardBraces_mem_fragmentTexts {kind : Kind} (hkind : kind ∈ listKinds body) {t : Text}
    (ht : t ∈ field? kind body) : guardBraces t ∈ fragmentTexts body := by
  apply List.mem_append_left
  rw [List.mem_filterMap]
  exact ⟨kind, hkind, congrArg (Option.map guardBraces) ht⟩

theorem mem_fragmentTexts {kind : Kind} (hkind : kind ∈ proseKinds body) {t : Text}
    (ht : t ∈ field? kind body) : t ∈ fragmentTexts body := by
  apply List.mem_append_right
  rw [List.mem_filterMap]
  exact ⟨kind, hkind, ht⟩

/-- What is documented stands in the tags of the body that are named after it. -/
structure Describes (nested : Nested) (region : Body.Region) (body : Text) (d : Docstring) :
    Prop where
  name : ∃ name, field? .name body = some name ∧ d.name = Text.replace "\\_" "_" name
  anchor : field? .anchor body = some d.anchor
  signature : field? .parameters body = some d.signature
  parameters : Lists nested region d.anchor (field? .paramsDesc body) d.parameters
  /-- The tag for the number of groups spells how many there are. -/
  groupCount : ∀ count ∈ field? .paramGroups body, ∀ n, Text.SpellsWord count n →
    d.groups.length = n
  /-- Without such a tag, or when it spells no number, there are none. -/
  noGroups : (∀ count ∈ field? .paramGroups body, ∀ n, ¬ Text.SpellsWord count n) → d.groups = []
  /-- The groups are numbered from one. -/
  groups : ∀ i (h : i < d.groups.length), IsGroup nested region d.anchor body (i + 1) d.groups[i]
  isYield : d.isYield = true ↔ ∃ kind ∈ [Kind.yieldDesc, .yieldType], ∃ markup,
    IsOpening kind.tagName markup ∧ markup <:+: body
  returnDescription : Option.Rel (RendersTo nested region)
    (field? (if d.isYield then .yieldDesc else .retDesc) body) d.returnDescription
  returnType : Option.Rel (RendersTo nested region)
    (field? (if d.isYield then .yieldType else .retType) body) d.returnType
  raiseDescription : Option.Rel (RendersTo nested region) (field? .raises body) d.raiseDescription
  raiseType : Option.Rel (RendersTo nested region) (field? .raisedErrors body) d.raiseType
  source : d.source = field? .source body
  isGetSetDescriptor : d.isGetSetDescriptor = hasFlag .isGetSetDescriptor body
  /-- Parameters are anchored below the docstring, in groups and outside of them. -/
  parameterAnchors : ∀ p, (p ∈ d.parameters ∨ ∃ g ∈ d.groups, p ∈ g.parameters) →
    p.anchor = d.anchor ++ '.' :: p.name

theorem isYield_iff (body : Text) :
    isYield body = true ↔ ∃ kind ∈ [Kind.yieldDesc, .yieldType], ∃ markup,
      IsOpening kind.tagName markup ∧ markup <:+: body := by
  have hpresent : ∀ kind : Kind, (Pattern.plain kind).isPresent body = true ↔
      ∃ markup, IsOpening kind.tagName markup ∧ markup <:+: body := by
    intro kind
    -- A flag is looked for as an opening tag, and the scan finds one if there is one.
    unfold Pattern.isPresent
    rw [Option.isSome_iff_ne_none, ne_eq, Tag.firstOpening?_eq_none_iff]
    simp only [not_forall, not_not, exists_prop]
    rfl
  unfold isYield
  simp [hpresent]

/-- The number of groups is what the tag spells, and zero when it spells nothing. -/
theorem groupCount_eq (body : Text) :
    (∀ count ∈ field? .paramGroups body, ∀ n, Text.SpellsWord count n → groupCount body = n) ∧
    ((∀ count ∈ field? .paramGroups body, ∀ n, ¬ Text.SpellsWord count n) →
      groupCount body = 0) := by
  -- The groups are counted by a reader of words, which is exact for what it spells.
  simp only [← Text.toWord?_eq_some_iff]
  unfold groupCount
  cases field? .paramGroups body with
  | none => exact ⟨nofun, fun _ => rfl⟩
  | some count =>
    show (∀ count' ∈ some count, ∀ n, Text.toWord? count' = some n →
      (Text.toWord? count).getD 0 = n) ∧ _
    cases hword : Text.toWord? count with
    | none => exact ⟨by simp [hword], fun _ => by simp [hword]⟩
    | some k => exact ⟨by simp [hword], fun h => absurd hword (h count rfl k)⟩

/-- The groups are as many as the docstring says, and they are numbered from one. -/
theorem yields_groups (body : Text) :
    Yields (FailsIn nested region (fragmentTexts body))
      ((List.range (groupCount body)).mapM fun i =>
        DocstringScope.group ⟨nested, region, anchor⟩ body (i + 1))
      (fun groups => groups.length = groupCount body ∧
        ∀ i (h : i < groups.length), IsGroup nested region anchor body (i + 1) groups[i]) := by
  -- The number of a group counts from one, so its list is among those of the body.
  have hgroup : ∀ i ∈ List.range (groupCount body),
      Yields (FailsIn nested region (fragmentTexts body))
        (DocstringScope.group ⟨nested, region, anchor⟩ body (i + 1))
        (IsGroup nested region anchor body (i + 1)) := by
    intro i hi
    apply yields_group
    intro t
    apply guardBraces_mem_fragmentTexts
    exact List.mem_cons_of_mem _ (List.mem_map_of_mem hi)
  apply (Yields.mapM hgroup).mono
  intro groups hgroups
  have hlength : groups.length = groupCount body := by
    rw [← hgroups.length_eq, List.length_range]
  refine ⟨hlength, ?_⟩
  intro i h
  have hget := hgroups.get (by rwa [List.length_range, ← hlength]) h
  simpa using hget

/-- An absent field is reported before anything is rendered. -/
theorem readDocstring_of_absent {kind : Kind} (h : firstAbsent? (revealHidden body) = some kind)
    (nested : Nested) (region : Body.Region) (a : Assembly) :
    (readDocstring nested region body).run a =
      .error (.missingField kind.tagName (failureContext (revealHidden body))) := by
  -- The two readings of the same body agree, so the absent field is the given one.
  obtain ⟨kind', hkind, hread⟩ | ⟨hnone, -⟩ := mandatoryFields_read (revealHidden body)
  · obtain rfl := Option.some.inj (h.symm.trans hkind)
    unfold readDocstring
    dsimp only
    rw [hread]
    rfl
  · rw [h] at hnone
    cases hnone

/-- When the mandatory fields are there, reading fails as a fragment does, or comes to a record. -/
theorem yields_readDocstring (nested : Nested) (region : Body.Region)
    (h : firstAbsent? (revealHidden body) = none) :
    Yields (FailsIn nested region (fragmentTexts (revealHidden body)))
      (readDocstring nested region body) (Describes nested region (revealHidden body)) := by
  obtain ⟨kind, hkind, -⟩ | ⟨-, name, anchor, signature, hname, hanchor, hsignature, hread⟩ :=
    mandatoryFields_read (revealHidden body)
  · rw [hkind] at h
    cases h
  unfold readDocstring
  dsimp only
  -- From here on the body is the one with its hidden characters put back.
  generalize revealHidden body = body at *
  rw [hread]
  have hprose : ∀ kind ∈ proseKinds body, ∀ t ∈ field? kind body, t ∈ fragmentTexts body :=
    fun _ hkind _ => mem_fragmentTexts hkind
  -- The tags that are read for what is returned are among the rendered ones in both cases.
  have hdescription : (if isYield body then Kind.yieldDesc else .retDesc) ∈ proseKinds body := by
    unfold proseKinds
    split <;> simp
  have htype : (if isYield body then Kind.yieldType else .retType) ∈ proseKinds body := by
    unfold proseKinds
    split <;> simp
  -- One fragment after the other, in the order in which they are rendered.
  apply (Yields.pure (P := (· = ⟨Text.replace "\\_" "_" name, anchor, signature⟩)) rfl).bind
  rintro _ rfl
  apply (yields_parametersOf fun _ => guardBraces_mem_fragmentTexts List.mem_cons_self).bind
  intro parameters hparameters
  apply (yields_groups body).bind
  rintro groups ⟨hlength, hgroups⟩
  apply (yields_optional (hprose _ hdescription)).bind
  intro returnDescription hreturnDescription
  apply (yields_optional (hprose _ htype)).bind
  intro returnType hreturnType
  apply (yields_optional (hprose _ (by simp [proseKinds]))).bind
  intro raiseDescription hraiseDescription
  apply (yields_optional (hprose _ (by simp [proseKinds]))).bind
  intro raiseType hraiseType
  apply Yields.pure
  exact {
    name := ⟨name, hname, rfl⟩
    anchor := hanchor
    signature := hsignature
    parameters := hparameters
    groupCount := fun count hcount n hn =>
      hlength.trans ((groupCount_eq body).1 count hcount n hn)
    noGroups := fun hnone =>
      List.eq_nil_of_length_eq_zero (hlength.trans ((groupCount_eq body).2 hnone))
    groups := hgroups
    isYield := isYield_iff body
    returnDescription := hreturnDescription
    returnType := hreturnType
    raiseDescription := hraiseDescription
    raiseType := hraiseType
    source := rfl
    isGetSetDescriptor := rfl
    parameterAnchors := by
      -- A parameter stands in the list of the docstring or in one of its groups.
      rintro p (hp | ⟨group, hmem, hp⟩)
      · exact hparameters.anchor_eq hp
      · obtain ⟨i, hi, rfl⟩ := List.getElem_of_mem hmem
        exact (hgroups i hi).parameters.anchor_eq hp }

/-- A failure that is not one of the fragments is the report of the first absent field. -/
theorem readDocstring_eq_error_iff {error : RenderError}
    (h : ¬ FailsIn nested region (fragmentTexts (revealHidden body)) error) (a : Assembly) :
    (readDocstring nested region body).run a = .error error ↔
      ∃ kind, firstAbsent? (revealHidden body) = some kind ∧
        error = .missingField kind.tagName (failureContext (revealHidden body)) := by
  -- Whether a field is absent decides which of the two results applies.
  cases habsent : firstAbsent? (revealHidden body) with
  | some kind =>
    rw [readDocstring_of_absent habsent]
    simp [eq_comm]
  | none =>
    constructor
    · intro hrun
      rcases yields_readDocstring nested region habsent a with ⟨e, hfails, he⟩ | ⟨d, a', hok, -⟩
      · cases hfails.symm.trans hrun
        exact absurd he h
      · cases hok.symm.trans hrun
    · rintro ⟨kind, hkind, -⟩
      cases hkind

/-- **What reading a docstring comes to.**

The first mandatory field without a match is reported, whatever the fragments would render to; the
anchor of the docstring, or else its name, tells where. There is no other failure of the docstring
itself: when the mandatory fields are there, reading fails only if rendering a fragment does, and
with the error of that fragment, which may be about a docstring in it. A record that is read has
each of its parts from the tag that is named after it. -/
theorem docstring_reports_or_describes (body : Text) :
    (∀ error, (∀ nested region a, (readDocstring nested region body).run a = .error error) ↔
      ∃ kind, firstAbsent? (revealHidden body) = some kind ∧
        error = .missingField kind.tagName (failureContext (revealHidden body))) ∧
    (∀ nested region error, ¬ FailsIn nested region (fragmentTexts (revealHidden body)) error →
      ∀ a, (readDocstring nested region body).run a = .error error ↔
        ∃ kind, firstAbsent? (revealHidden body) = some kind ∧
          error = .missingField kind.tagName (failureContext (revealHidden body))) ∧
    (firstAbsent? (revealHidden body) = none → ∀ nested region,
      Yields (FailsIn nested region (fragmentTexts (revealHidden body)))
        (readDocstring nested region body) (Describes nested region (revealHidden body))) := by
  refine ⟨fun error => ⟨fun h => ?_, ?_⟩, ?_, ?_⟩
  · -- With fragments that always render, no failure is one of the fragments.
    have hrenders : ¬ FailsIn (fun _ _ => pure ⟨[], []⟩) .before
        (fragmentTexts (revealHidden body)) error := by
      rintro ⟨t, -, a, hfails⟩
      cases hfails
    exact (readDocstring_eq_error_iff hrenders {}).mp (h _ _ _)
  · rintro ⟨kind, hkind, rfl⟩
    exact readDocstring_of_absent hkind
  · exact fun nested region error h => readDocstring_eq_error_iff h
  · exact fun h nested region => yields_readDocstring nested region h

/-- A docstring with one group, whose list comes before its title. -/
def groupedDocstring : Text :=
  "<name>f\\_g</name><anchor>m.f</anchor><parameters>()</parameters>".toList ++
    "<paramgroups>1</paramgroups><paramsdesc1>\n- **x** -- y\n</paramsdesc1>".toList ++
    "<paramsdesc1title>T</paramsdesc1title><yieldtype>int</yieldtype>".toList

/-- The list and the title are told apart, and the parameter is anchored below the docstring. -/
theorem groupedDocstring_described :
    ∃ d a', (readDocstring (fragment ⟨{}, false⟩) .before groupedDocstring).run {} = .ok (d, a') ∧
      Describes (fragment ⟨{}, false⟩) .before (revealHidden groupedDocstring) d ∧
      d.isYield = true ∧ d.groups = [⟨"T", [⟨"m.f.x", "x", "y"⟩]⟩] := by
  -- No field is absent, so what is left is whether a fragment fails.
  have hnone : firstAbsent? (revealHidden groupedDocstring) = none := by decide +kernel
  have hrecord : ((readDocstring (fragment ⟨{}, false⟩) .before groupedDocstring).run
      {}).toOption.map (fun result => (result.1.isYield, result.1.groups)) =
        some (true, [⟨"T", [⟨"m.f.x", "x", "y"⟩]⟩]) := by
    decide +kernel
  obtain ⟨⟨d, a'⟩, hrun, hparts⟩ := exists_ok_of_toOption hrecord
  obtain ⟨hyield, hgroups⟩ := Prod.mk.inj hparts
  rcases (docstring_reports_or_describes groupedDocstring).2.2 hnone (fragment ⟨{}, false⟩) .before
    {} with ⟨e, hfails, -⟩ | ⟨d', a'', hrun', hdescribes⟩
  · rw [hrun] at hfails
    cases hfails
  · rw [hrun] at hrun'
    cases hrun'
    exact ⟨d, a', hrun, hdescribes, hyield, hgroups⟩

end DocPage.Document
