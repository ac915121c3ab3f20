import DocPage.Body.Search
import DocPage.Proofs.Files.Glob
import Mathlib.Data.List.TakeWhile

/-!
# Which components a directory makes known

The components that a directory makes known are looked for with a glob pattern that starts with the
path of the directory. So they are the ones below all directories to which this path leads when it
is read as a pattern, at any depth. Only for a path without wildcards these are the components below
the directory itself.

## Architecture

- **Names**: `Knows`, as `contains` decides it, and `nameOf_inside` for the names that are found
- **Components**: `HasComponent`, and `componentsIn` with what it finds
- **Vocabularies**: `ofDirectory_knows`, and a directory that is not searched
-/

namespace DocPage.Body

open Files (Tree IsName insideAll Leads GlobStep)

/-! ## Names -/

/-- The name, or its lower case form, is standard or one of these components. -/
def Knows (component : Text → Prop) (name : Text) : Prop :=
  ∃ spelled, (spelled = name ∨ spelled = Text.toAsciiLower name) ∧
    (spelled ∈ Vocabulary.htmlElements ∨ spelled ∈ Vocabulary.commonComponents ∨
      component spelled)

theorem contains_iff_knows {components : List Text} {name : Text} :
    (Vocabulary.standard.extend components).contains name = true ↔
      Knows (· ∈ components) name := by
  -- The names of a vocabulary are its own ones followed by those of the components.
  have hmem : ∀ spelled, spelled ∈ (Vocabulary.standard.extend components).names ↔
      spelled ∈ Vocabulary.htmlElements ∨ spelled ∈ Vocabulary.commonComponents ∨
        spelled ∈ components := by
    intro spelled
    rw [← or_assoc, ← List.mem_append, ← List.mem_append]
    rfl
  rw [Vocabulary.contains, Bool.or_eq_true, List.elem_iff, List.elem_iff, hmem, hmem]
  constructor
  · rintro (h | h)
    · exact ⟨name, .inl rfl, h⟩
    · exact ⟨Text.toAsciiLower name, .inr rfl, h⟩
  · rintro ⟨spelled, rfl | rfl, h⟩
    · exact .inl h
    · exact .inr h

theorem nameOf_append (front : Text) {name : Text} (hname : '/' ∉ name) :
    Files.nameOf (front ++ '/' :: name) = name := by
  -- The name is cut off from the end, so the path is read backwards.
  have hreversed : (front ++ '/' :: name).reverse = name.reverse ++ '/' :: front.reverse := by simp
  unfold Files.nameOf
  rw [hreversed, Text.takeWhile_append_of_boundary, List.reverse_reverse]
  · intro c hc
    have hother : c ≠ '/' := ne_of_mem_of_not_mem (List.mem_reverse.mp hc) hname
    simpa [Files.isSlash] using hother
  · simp [Files.isSlash]

theorem nameOf_of_notMem {name : Text} (hname : '/' ∉ name) : Files.nameOf name = name := by
  unfold Files.nameOf
  rw [List.takeWhile_eq_self_iff.mpr, List.reverse_reverse]
  intro c hc
  have hother : c ≠ '/' := ne_of_mem_of_not_mem (List.mem_reverse.mp hc) hname
  simpa [Files.isSlash] using hother

/-- What is found inside a directory is called by its name there. -/
theorem nameOf_inside {path name : Text} (hne : path ≠ []) (hname : '/' ∉ name) :
    Files.nameOf (Files.inside path name) = name := by
  -- The working directory is not mentioned in what is found in it.
  by_cases hdot : path = ['.']
  · subst hdot
    exact nameOf_of_notMem hname
  · rw [Tree.inside_eq_join hdot, Files.join_eq_withoutSlash hne hname, nameOf_append _ hname]

/-! ## Components -/

/-- At any depth below the directory at the path there is an entry whose name ends with `.svelte`,
and the component is its stem. -/
def HasComponent (t : Tree) (path component : Text) : Prop :=
  ∃ base, t.DirectoryAt path base ∧ ∃ inner file, (t.entry? (base ++ inner ++ [file])).isSome ∧
    ".svelte".toList <:+ file ∧ component = Files.stem file

def svelteStep : GlobStep :=
  .matching false (.anyMany :: ".svelte".toList.map .exactly)

/-- The pattern goes on behind the directory with two more steps. -/
theorem globSteps?_componentPattern (directory : Text) :
    Files.globSteps? (componentPattern directory) =
      (Files.globSteps? directory).map fun (start, steps) =>
        (start, steps ++ [.anyDepth, svelteStep]) := by
  -- Behind `**` the last name is matched, whatever it is; here it ends a search.
  have hlast : Files.globStepsFrom? true ["*.svelte".toList] = some [svelteStep] := rfl
  rw [Files.globSteps?_eq, Files.globSteps?_eq, componentPattern,
    Files.patternStart_join (by decide), Files.patternStart_join (by decide),
    Files.patternNames_join (by decide) (by decide),
    Files.patternNames_join (by decide) (by decide), List.append_assoc, List.singleton_append,
    Files.globStepsFrom?_append, hlast]
  cases Files.globStepsFrom? false (Files.patternNames directory) <;> rfl

variable {t : Tree}

theorem insideAll_concat (path : Text) (inner : List Text) (name : Text) :
    insideAll path (inner ++ [name]) = Files.inside (insideAll path inner) name :=
  List.foldl_concat ..

/-- From a directory the two steps lead to the entries that are components. -/
theorem exists_leads_iff_hasComponent (ht : t.WellFormed) {path component : Text}
    (hne : path ≠ []) : (∃ last, Leads t [.anyDepth, svelteStep] path last ∧
      component = Files.stem (Files.nameOf last)) ↔ HasComponent t path component := by
  constructor
  · rintro ⟨last, ⟨next, hnext, last', ⟨file, hfile, rfl, hthere⟩, rfl⟩, rfl⟩
    -- Below any depth no dots are tried, so the file has a name that a directory lists.
    obtain ⟨hname, haccepts⟩ : IsName file ∧ _ := hfile.resolve_right fun hdot => nomatch hdot.1
    -- The entry that was found is inside a directory, so the way to it ends in one.
    obtain ⟨base, hbase⟩ :=
      Tree.find?_eq_directory_iff.mp (Files.find?_of_leadsTo_anyDepth hne hnext)
    rw [nameOf_inside hnext.ne_nil hname.2.1]
    obtain ⟨inner, hinner, rfl, -⟩ := hnext
    refine ⟨base, hbase, inner, file, ?_, Files.accepts_anyMany.mp haccepts, rfl⟩
    -- The directories on the way and the file have proper names, so the path is a location.
    have hnames : ∀ name ∈ inner ++ [file], IsName name :=
      List.forall_mem_append.mpr ⟨hinner, List.forall_mem_singleton.mpr hname⟩
    rwa [List.append_assoc, ← Tree.find?_insideAll ht hbase.1 hnames, insideAll_concat]
  · rintro ⟨base, hbase, inner, file, hthere, hends, rfl⟩
    -- The entry is in the tree, so each name of its location is proper.
    have hnames : ∀ name ∈ inner ++ [file], IsName name := fun name hname =>
      ht.isName_of_mem hthere (by rw [List.append_assoc]; exact List.mem_append_right base hname)
    obtain ⟨hinner, hfile⟩ := List.forall_mem_append.mp hnames
    have hname : IsName file := hfile file (List.mem_singleton_self file)
    -- Whatever lies between the base and the file is a directory, which the first step finds.
    have hdirectory : t.find? (insideAll path inner) = some .directory := by
      rw [Tree.find?_insideAll ht hbase.1 hinner]
      exact ht.entry?_above hthere (List.cons_ne_nil file [])
    have hinside : insideAll path inner ≠ [] := by
      intro hnil
      rw [hnil] at hdirectory
      cases hdirectory
    -- The location of the entry is turned back into the path that the second step finds.
    rw [List.append_assoc, ← Tree.find?_insideAll ht hbase.1 hnames, insideAll_concat] at hthere
    have hstep : svelteStep.LeadsTo t (insideAll path inner)
        (Files.inside (insideAll path inner) file) :=
      ⟨file, .inl ⟨hname, Files.accepts_anyMany.mpr hends⟩, rfl, hthere⟩
    refine ⟨_, ⟨_, ⟨inner, hinner, rfl, hdirectory⟩, _, hstep, rfl⟩, ?_⟩
    rw [nameOf_inside hinside hname.2.1]

/-- The names of the components are those of the directories to which the path leads. -/
theorem run_componentsIn (ht : t.WellFormed) {directory start : Text} {steps : List GlobStep}
    (hsteps : Files.globSteps? directory = some (start, steps)) : ∃ components,
      (componentsIn (m := StateM Tree) directory).run.run t = (.ok components, t) ∧
        ∀ component, component ∈ components ↔
          ∃ path, Leads t steps start path ∧ HasComponent t path component := by
  have hpattern : Files.globSteps? (componentPattern directory) =
      some (start, steps ++ [.anyDepth, svelteStep]) := by
    rw [globSteps?_componentPattern, hsteps]
    rfl
  -- A pattern starts at the root or in the working directory, so no path on the way is empty.
  have hstart : start ≠ [] := by
    rw [Files.globSteps?_eq] at hsteps
    obtain ⟨_, _, hpair⟩ := Option.map_eq_some_iff.mp hsteps
    cases hpair
    exact Files.patternStart_ne_nil directory
  obtain ⟨found, hrun, hfound⟩ :=
    Files.finds_followSteps ht (steps ++ [.anyDepth, svelteStep]) hstart
  refine ⟨found.map fun path => Files.stem (Files.nameOf path), ?_, fun component => ?_⟩
  · unfold componentsIn
    rw [hpattern]
    dsimp only
    rw [Files.run_bind_of_run (Files.run_adapt SearchError.walk hrun)]
    rfl
  -- The way through all steps is a way to the directory, and from there on the two steps of the
  -- search.
  · simp only [List.mem_map, hfound, Files.leads_append]
    constructor
    · rintro ⟨last, ⟨path, hpath, hlast⟩, rfl⟩
      have hne := hpath.ne_nil hstart
      exact ⟨path, hpath, (exists_leads_iff_hasComponent ht hne).mp ⟨last, hlast, rfl⟩⟩
    · rintro ⟨path, hpath, hcomponent⟩
      obtain ⟨last, hlast, rfl⟩ :=
        (exists_leads_iff_hasComponent ht (hpath.ne_nil hstart)).mpr hcomponent
      exact ⟨last, ⟨path, hpath, hlast⟩, rfl⟩

/-! ## Vocabularies -/

/-- The directory makes exactly these components known, and is left as it is. -/
def Discovers (t : Tree) (directory : Text) (component : Text → Prop) : Prop :=
  ∃ known, (Vocabulary.ofDirectory (m := StateM Tree) directory).run.run t = (.ok known, t) ∧
    ∀ name, known.contains name = true ↔ Knows component name

theorem Discovers.of_iff {directory : Text} {component component' : Text → Prop}
    (h : Discovers t directory component)
    (hiff : ∀ spelled, component spelled ↔ component' spelled) :
    Discovers t directory component' := by
  obtain ⟨known, hrun, hknown⟩ := h
  refine ⟨known, hrun, fun name => (hknown name).trans ?_⟩
  simp only [Knows, hiff]

theorem discovers_led (ht : t.WellFormed) {directory start : Text} {steps : List GlobStep}
    (hsteps : Files.globSteps? directory = some (start, steps)) :
    Discovers t directory fun component =>
      ∃ path, Leads t steps start path ∧ HasComponent t path component := by
  obtain ⟨components, hrun, hcomponents⟩ := run_componentsIn ht hsteps
  refine ⟨Vocabulary.standard.extend components, ?_, fun name => ?_⟩
  -- The vocabulary is built from what the search found, and building it cannot fail.
  · unfold Vocabulary.ofDirectory
    rw [Files.run_bind_of_run hrun]
    rfl
  · rw [contains_iff_knows]
    simp only [Knows, hcomponents]

/-- **What a directory makes known.** Its path is read as a pattern. If it is none, the search
fails. Otherwise the components below all directories to which it leads become known besides the
standard names, in any well-formed tree and at any depth. For a path without wildcards these are the
components below the directory that it names, unless a slash behind the dots at its start hides
them. -/
theorem ofDirectory_knows (ht : t.WellFormed) (directory : Text) :
    (Files.globSteps? directory = none →
      (Vocabulary.ofDirectory (m := StateM Tree) directory).run.run t = (.error .pattern, t)) ∧
    (∀ start steps, Files.globSteps? directory = some (start, steps) →
      Discovers t directory fun component =>
        ∃ path, Leads t steps start path ∧ HasComponent t path component) ∧
    (Files.IsLiteral directory → Files.slashBehindDots directory = false →
      Discovers t directory (HasComponent t (Files.patternPath directory))) ∧
    (Files.IsLiteral directory → Files.slashBehindDots directory = true →
      Discovers t directory fun _ => False) := by
  refine ⟨fun hnone => ?_, fun start steps => discovers_led ht, fun hliteral hdots => ?_,
    fun hliteral hdots => ?_⟩
  -- The two steps of the search add no error and take none away.
  · have hpattern : Files.globSteps? (componentPattern directory) = none := by
      rw [globSteps?_componentPattern, hnone]
      rfl
    unfold Vocabulary.ofDirectory componentsIn
    rw [hpattern]
    rfl
  -- The path is literal, so it leads to at most one directory, the one that it names.
  · refine (discovers_led ht (Files.globSteps?_literal hliteral)).of_iff fun component => ?_
    simp only [HasComponent, ← Files.leads_named_iff hdots]
    constructor
    · rintro ⟨path, hpath, base, hbase, hcomponent⟩
      exact ⟨base, ⟨path, hpath, hbase⟩, hcomponent⟩
    · rintro ⟨base, ⟨path, hpath, hbase⟩, hcomponent⟩
      exact ⟨path, hpath, base, hbase, hcomponent⟩
  -- No step gets past the empty name, so no directory is searched.
  · refine (discovers_led ht (Files.globSteps?_literal hliteral)).of_iff fun component => ?_
    exact iff_of_false (fun ⟨path, hpath, _⟩ =>
      Files.not_leads_of_slashBehindDots hdots path hpath) not_false

/-- Two components below a directory, and one of them is nested. -/
def kitTree : Tree where
  entries := [(["kit".toList], .directory), (["kit".toList, "nested".toList], .directory),
    (["kit".toList, "Widget.svelte".toList], .file (some [])),
    (["kit".toList, "nested".toList, "Gallery.svelte".toList], .file (some []))]

theorem kit_discovered :
    kitTree.WellFormed ∧
    (Files.globSteps? "kit[".toList = none ∧
      (Vocabulary.ofDirectory (m := StateM Tree) "kit[".toList).run.run kitTree =
        (.error .pattern, kitTree)) ∧
    (∃ steps, Files.globSteps? "k*".toList = some (".".toList, steps) ∧
      Discovers kitTree "k*".toList fun component =>
        ∃ path, Leads kitTree steps ".".toList path ∧ HasComponent kitTree path component) ∧
    (Files.IsLiteral "kit".toList ∧ Files.slashBehindDots "kit".toList = false ∧
      Discovers kitTree "kit".toList (HasComponent kitTree "kit".toList)) ∧
    (Files.IsLiteral ".//kit".toList ∧ Files.slashBehindDots ".//kit".toList = true ∧
      Discovers kitTree ".//kit".toList fun _ => False) := by
  have ht : kitTree.WellFormed := ⟨by decide, by decide⟩
  exact ⟨ht,
    ⟨rfl, (ofDirectory_knows ht "kit[".toList).1 rfl⟩,
    ⟨_, rfl, (ofDirectory_knows ht "k*".toList).2.1 _ _ rfl⟩,
    ⟨by decide, rfl, (ofDirectory_knows ht "kit".toList).2.2.1 (by decide) rfl⟩,
    ⟨by decide, rfl, (ofDirectory_knows ht ".//kit".toList).2.2.2 (by decide) rfl⟩⟩

/-- A component below a directory with brackets in its name. -/
def bracketTree : Tree where
  entries := [(["[slug]".toList], .directory),
    (["[slug]".toList, "Widget.svelte".toList], .file (some []))]

/-- The brackets stand for one of the letters between them, so the directory is not searched. -/
theorem bracketed_directory_not_searched :
    bracketTree.WellFormed ∧ HasComponent bracketTree "[slug]".toList "Widget".toList ∧
    (Vocabulary.ofDirectory (m := StateM Tree) "[slug]".toList).run.run bracketTree =
      (.ok Vocabulary.standard, bracketTree) ∧
    ¬ Discovers bracketTree "[slug]".toList (HasComponent bracketTree "[slug]".toList) := by
  -- The directory is there under the name with the brackets, and the component is in it.
  have hcomponent : HasComponent bracketTree "[slug]".toList "Widget".toList :=
    ⟨["[slug]".toList], ⟨rfl, rfl⟩, [], "Widget.svelte".toList, rfl, by decide, rfl⟩
  have hrun : (Vocabulary.ofDirectory (m := StateM Tree) "[slug]".toList).run.run bracketTree =
      (.ok Vocabulary.standard, bracketTree) := by
    with_unfolding_all rfl
  refine ⟨⟨by decide, by decide⟩, hcomponent, hrun, ?_⟩
  -- The vocabulary that was found is the standard one, and Widget is no standard name.
  rintro ⟨known, hfound, hknown⟩
  rw [hrun] at hfound
  cases hfound
  have haccepted := (hknown "Widget".toList).mpr
    ⟨"Widget".toList, .inl rfl, .inr (.inr hcomponent)⟩
  exact absurd haccepted (by decide)

end DocPage.Body
