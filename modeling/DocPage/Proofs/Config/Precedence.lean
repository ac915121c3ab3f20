import DocPage.Config.Load
import DocPage.Files.Tree
import DocPage.Proofs.Config.FileValues
import DocPage.Proofs.Files.Path
import Mathlib.Data.List.Basic

/-!
# Which configuration is loaded

A configuration comes from one source: the file that is asked for, or the nearest file on the way up
from the working directory, or none. Each of its values is the one that takes precedence, or that of
the file, or a default. A page is published when the file says so or when a package is named, and
its package always has a name. `load_merges` says all of this of every tree of files, every
environment and every choice of what is asked for.

## Architecture

- **Sources**: `Nearest` and `Source`, and that there is one source at most
- **Merging**: `Merged`, which determines a configuration
- **Loading**: what `load` does with its source
-/

namespace DocPage.Config

open Files (Tree)

/-! ## Sources -/

/-- The nearest configuration file: the one in the directory, or else the nearest one to the
directory above. -/
inductive Nearest (tree : Tree) : (directory : Text) → Option Text → Prop where
  | here {directory : Text} : tree.kind? (Files.join directory fileName) = some .file →
      Nearest tree directory (some (Files.join directory fileName))
  | above {directory above : Text} {found : Option Text} :
      tree.kind? (Files.join directory fileName) ≠ some .file →
      Files.parent? directory = some above → Nearest tree above found →
      Nearest tree directory found
  | nowhere {directory : Text} : tree.kind? (Files.join directory fileName) ≠ some .file →
      Files.parent? directory = none → Nearest tree directory none

/-- The file that a configuration comes from, if there is one. A file that is asked for exists. -/
inductive Source (tree : Tree) (around : Surroundings) : (asked : Option Text) → Option Text → Prop
    where
  | asked {path : Text} : (tree.kind? path).isSome → Source tree around (some path) (some path)
  | nearest {found : Option Text} : Nearest tree around.workingDirectory found →
      Source tree around none found

def isFile (tree : Tree) (path : Text) : Bool :=
  tree.kind? path == some .file

theorem nearest_iff {tree : Tree} {directory : Text} {found : Option Text} :
    Nearest tree directory found ↔
      ((Files.ancestors directory).map (Files.join · fileName)).find? (isFile tree) = found := by
  -- On the length of the directory, which has a shorter one above it.
  induction hlength : directory.length using Nat.strongRecOn generalizing directory with
  | ind n ih =>
    subst hlength
    rw [Files.ancestors_eq, List.map_cons, List.find?_cons]
    cases hfile : isFile tree (Files.join directory fileName) with
    | true =>
      have hkind := eq_of_beq hfile
      constructor
      · rintro (_ | ⟨hother, -, -⟩ | ⟨hother, -⟩)
        · rfl
        · exact absurd hkind hother
        · exact absurd hkind hother
      · rintro rfl
        exact .here hkind
    | false =>
      have hkind := ne_of_beq_false hfile
      cases hparent : Files.parent? directory with
      | none =>
        constructor
        · rintro (hother | ⟨-, hother, -⟩ | _)
          · exact absurd hother hkind
          · rw [hparent] at hother
            cases hother
          · rfl
        · rintro rfl
          exact .nowhere hkind hparent
      | some above =>
        have hup : Nearest tree above found ↔ _ := ih _ (Files.length_parent?_lt hparent) rfl
        -- The search goes on above, and so does the rule that allows it.
        constructor
        · rintro (hother | ⟨-, hother, hrest⟩ | ⟨-, hother⟩)
          · exact absurd hother hkind
          · cases hparent.symm.trans hother
            exact hup.mp hrest
          · rw [hparent] at hother
            cases hother
        · exact fun hrest => .above hkind hparent (hup.mpr hrest)

/-- There is one source, unless the file that is asked for does not exist. -/
theorem existsUnique_source (tree : Tree) (around : Surroundings) (asked : Option Text)
    (h : ∀ path, asked = some path → tree.kind? path ≠ none) :
    ∃! source, Source tree around asked source := by
  cases asked with
  | some path =>
    refine ⟨some path, .asked (Option.isSome_iff_ne_none.mpr (h path rfl)), ?_⟩
    rintro other ⟨⟩
    rfl
  | none =>
    refine ⟨_, .nearest ((nearest_iff).mpr rfl), ?_⟩
    -- Both are what the search finds.
    rintro other (_ | hnearest)
    exact ((nearest_iff).mp hnearest).symm

/-! ## Merging -/

/-- The directory of the components in a file, which is seen from the directory of the file. -/
def FileValues.directory (source : Option Text) (v : FileValues) : Option Text := do
  let path ← source
  let written ← v.components
  some (Files.join ((Files.parent? path).getD ".") written)

/-- The configuration has the values that take precedence, then those of the file, then defaults. -/
structure Merged (source : Option Text) (v : FileValues) (o : Overrides) (c : Config) : Prop where
  path : c.path = source
  /-- A version or a language does not publish pages. -/
  publishes : c.page.isSome ↔ v.page.isSome ∨ o.package.isSome
  package : ∀ page ∈ c.page, some page.package = (o.package <|> v.page.bind (·.package))
  version : ∀ page ∈ c.page, page.version = (o.version <|> v.page.bind (·.version)).getD "main"
  language : ∀ page ∈ c.page, page.language = (o.language <|> v.page.bind (·.language)).getD "en"
  components : c.components = (o.components <|> v.directory source)
  extended : c.extended = (o.extended <|> v.extended).getD true
  named : ∀ page ∈ c.page, Text.trim page.package ≠ []

/-- The configuration without values that take precedence. -/
def FileValues.config (source : Option Text) (v : FileValues) : Config where
  page := v.page.map fun p =>
    ⟨p.package.getD [], p.version.getD "main", p.language.getD "en"⟩
  components := v.directory source
  path := source
  extended := v.extended.getD true

theorem config_form (v : FileValues) (path : Text) :
    v.form.config path = v.config (some path) := by
  -- The defaults of a form are those of its values.
  have hpage : ∀ p : PageValues, FileForm.publication ⟨p.package.getD [], p.version, p.language⟩ =
      ⟨p.package.getD [], p.version.getD "main", p.language.getD "en"⟩ := fun _ => rfl
  unfold FileForm.config FileValues.form FileValues.config FileValues.directory
  simp only [Option.map_map, Function.comp_def, hpage]
  cases v.components with
  | none => rfl
  | some written => rfl

theorem checked_eq_ok_iff {c c' : Config} :
    c.checked = .ok c' ↔ c = c' ∧ ∀ page ∈ c.page, Text.trim page.package ≠ [] := by
  unfold checked
  cases hpage : c.page with
  | none => simp
  | some page =>
    by_cases hblank : Text.trim page.package = []
    · simp [hblank]
    · simp [hblank]

theorem getD_orElse {α : Type} (a b : Option α) (d : α) : (a <|> b).getD d = a.getD (b.getD d) := by
  cases a with
  | none => rfl
  | some a => rfl

/-- The page that the values give, if there is one. -/
def FileValues.merge (v : FileValues) (o : Overrides) : Document.Publication where
  package := (o.package <|> v.page.bind (·.package)).getD []
  version := (o.version <|> v.page.bind (·.version)).getD "main"
  language := (o.language <|> v.page.bind (·.language)).getD "en"

theorem page_override (source : Option Text) (v : FileValues) (o : Overrides) :
    ((v.config source).override o).page =
      if v.page.isSome ∨ o.package.isSome then some (v.merge o) else none := by
  unfold override withPackage FileValues.config FileValues.merge
  simp only [getD_orElse]
  -- A package that is named, or a section, brings a page; all four cases compute.
  cases o.package with
  | none =>
    cases v.page with
    | none => rfl
    | some p => rfl
  | some package =>
    cases v.page with
    | none => rfl
    | some p => rfl

/-- Merging is what putting in the values that take precedence does. -/
theorem merged_iff {source : Option Text} {v : FileValues} {o : Overrides} {c : Config} :
    Merged source v o c ↔
      (v.config source).override o = c ∧ ∀ page ∈ c.page, Text.trim page.package ≠ [] := by
  constructor
  · intro h
    refine ⟨?_, h.named⟩
    -- The page is given field by field, so it is the one that the fields determine.
    have hpage : ((v.config source).override o).page = c.page := by
      rw [page_override]
      split
      · next hpublishes =>
        obtain ⟨page, hpage⟩ := Option.isSome_iff_exists.mp (h.publishes.mpr hpublishes)
        unfold FileValues.merge
        rw [hpage, ← h.package page hpage, ← h.version page hpage, ← h.language page hpage]
        rfl
      · next hpublishes =>
        exact (Option.not_isSome_iff_eq_none.mp fun h' => hpublishes (h.publishes.mp h')).symm
    -- The other parts are given by equations, so they can be put in.
    obtain ⟨page, components, path, extended⟩ := c
    obtain rfl : path = source := h.path
    obtain rfl : components = _ := h.components
    obtain rfl : extended = _ := h.extended
    obtain rfl : _ = page := hpage
    unfold override FileValues.config
    simp only [getD_orElse]
  · rintro ⟨rfl, hnamed⟩
    -- There is one page at most, and its fields are those of the merged values.
    have hmerge : ∀ page ∈ ((v.config source).override o).page,
        page = v.merge o := by
      intro page hpage
      rw [page_override] at hpage
      split at hpage
      · exact (Option.some.inj hpage).symm
      · cases hpage
    refine ⟨rfl, ?_, ?_, ?_, ?_, rfl, (getD_orElse ..).symm, hnamed⟩
    · rw [page_override]
      simp
    · intro page hpage
      have hname := hnamed page hpage
      obtain rfl := hmerge page hpage
      -- A name that nothing gives would be the empty one.
      cases hsome : (o.package <|> v.page.bind (·.package)) with
      | none => exact absurd (by simp [FileValues.merge, hsome]; rfl) hname
      | some package => simp [FileValues.merge, hsome]
    · intro page hpage
      rw [hmerge page hpage]
      rfl
    · intro page hpage
      rw [hmerge page hpage]
      rfl

/-! ## Loading -/

section Loading

variable {tree : Tree} {around : Surroundings} {asked source : Option Text} {v : FileValues}
  {overrides : Option Overrides}

/-- Loading a configuration with the files of a tree: the outcome, and the files afterwards. -/
def loadIn (tree : Tree) (around : Surroundings) (asked : Option Text)
    (overrides : Option Overrides) : Except ConfigError Config × Tree :=
  (load (m := StateM Tree) around asked overrides).run.run tree

/-- The values of a source. Without a file there are none. -/
inductive SourceSays (tree : Tree) (env : Environment) : Option Text → FileValues → Prop where
  | defaults : SourceSays tree env none {}
  | file {path content : Text} {document : Toml.Entries} {v : FileValues} :
      tree.read path = .ok content → Toml.document? content = some document →
      Says env document v → SourceSays tree env (some path) v

theorem run_firstFile? (tree : Tree) (paths : List Text) :
    (firstFile? (m := StateM Tree) paths).run tree = (paths.find? (isFile tree), tree) := by
  -- The search stops at the first path that names a file.
  induction paths with
  | nil => rfl
  | cons path paths ih =>
    show (if isFile tree path then pure (some path) else firstFile? paths : StateM Tree _).run
      tree = _
    rw [List.find?_cons]
    cases isFile tree path with
    | true => rfl
    | false => exact ih

theorem run_source? (h : Source tree around asked source) :
    (source? (m := StateM Tree) around asked).run.run tree = (.ok source, tree) := by
  cases h with
  | @asked path hexists =>
    -- Whether the file exists is all that is asked of it.
    show (if (tree.kind? path).isSome then pure (some path) else throw (.notFound path) :
      ExceptT ConfigError (StateM Tree) _).run.run tree = _
    rw [if_pos hexists]
    rfl
  | nearest hnearest =>
    have hfound := run_firstFile? tree
      ((Files.ancestors around.workingDirectory).map (Files.join · fileName))
    rw [(nearest_iff).mp hnearest] at hfound
    show ((fun r : Option Text × Tree => (Except.ok r.1, r.2)) <$> (firstFile? (m := StateM Tree)
      ((Files.ancestors around.workingDirectory).map (Files.join · fileName))).run tree : Id _) = _
    rw [hfound]
    rfl

/-- What is done with the configuration of a source. -/
def finish (overrides : Option Overrides) (base : Config) : Except ConfigError Config :=
  match overrides with
  | some o => (base.override o).checked
  | none => .ok base

/-- The configuration of a source. -/
def baseOf (tree : Tree) (env : Environment) : Option Text → Except ConfigError Config
  | some path => do
    let content ← (tree.read path).mapError ConfigError.unreadable
    ofFile env path content
  | none => .ok {}

theorem run_read (tree : Tree) (env : Environment) (path : Text) :
    (read (m := StateM Tree) env path).run.run tree = (baseOf tree env (some path), tree) := by
  -- Naming the error differently changes neither the outcome nor the files.
  have hcontent : (ExceptT.adapt ConfigError.unreadable (ExceptT.mk (m := StateM Tree)
      (Files.Access.read path))).run.run tree =
        ((tree.read path).mapError ConfigError.unreadable, tree) := rfl
  unfold read baseOf
  dsimp only
  rw [ExceptT.run_bind, StateT.run_bind, hcontent]
  cases tree.read path with
  | error e => rfl
  | ok content =>
    show (MonadExcept.ofExcept (ofFile env path content) :
      ExceptT ConfigError (StateM Tree) Config).run.run tree = (ofFile env path content, tree)
    cases ofFile env path content with
    | error e => rfl
    | ok base => rfl

theorem run_finish (tree : Tree) (base : Config) :
    (match overrides with
      | some o => MonadExcept.ofExcept (base.override o).checked
      | none => pure base : ExceptT ConfigError (StateM Tree) Config).run.run tree =
        (finish overrides base, tree) := by
  unfold finish
  cases overrides with
  | none => rfl
  | some o =>
    show (MonadExcept.ofExcept (base.override o).checked :
      ExceptT ConfigError (StateM Tree) Config).run.run tree = ((base.override o).checked, tree)
    cases (base.override o).checked with
    | error e => rfl
    | ok c => rfl

/-- The files stay as they are. -/
theorem loadIn_of_source (h : Source tree around asked source) :
    loadIn tree around asked overrides =
      (baseOf tree around.environment source >>= finish overrides, tree) := by
  unfold loadIn load
  -- The source is found first, and it is the one that is given.
  rw [ExceptT.run_bind, StateT.run_bind, run_source? h]
  cases source with
  | none => exact run_finish tree {}
  | some path =>
    show (ExceptT.run (read around.environment path >>= fun base => match overrides with
      | some o => MonadExcept.ofExcept (base.override o).checked
      | none => pure base) : StateM Tree _).run tree = _
    rw [ExceptT.run_bind, StateT.run_bind, run_read]
    cases baseOf tree around.environment (some path) with
    | error e => rfl
    | ok base => exact run_finish tree base

theorem loadIn_of_missing {path : Text} (h : tree.kind? path = none) :
    loadIn tree around (some path) overrides = (.error (.notFound path), tree) := by
  have hsource : (source? (m := StateM Tree) around (some path)).run.run tree =
      (.error (.notFound path), tree) := by
    show (if (tree.kind? path).isSome then pure (some path) else throw (.notFound path) :
      ExceptT ConfigError (StateM Tree) _).run.run tree = _
    rw [h]
    rfl
  unfold loadIn load
  rw [ExceptT.run_bind, StateT.run_bind, hsource]
  rfl

/-- A source that says something gives the configuration of its values, if its package has a
name. -/
theorem baseOf_eq (h : SourceSays tree around.environment source v) :
    baseOf tree around.environment source = (v.config source).checked := by
  cases h with
  | defaults => rfl
  | @file path content document v hread hdocument hsaid =>
    dsimp only [baseOf]
    rw [hread]
    show ofFile around.environment path content = _
    -- The form is that of the values, and so is the configuration.
    rw [ofFile_eq hdocument hsaid, config_form]

theorem exists_sourceSays {base : Config}
    (h : baseOf tree around.environment source = .ok base) :
    ∃ v, SourceSays tree around.environment source v := by
  cases source with
  | none => exact ⟨{}, .defaults⟩
  | some path =>
    -- Reading, parsing and replacing have all succeeded.
    obtain ⟨content, hread, hfile⟩ := (bind_eq_ok_iff).mp h
    obtain ⟨document, v, hdocument, hsaid⟩ := exists_says_of_ofFile hfile
    exact ⟨v, .file ((mapError_eq_ok_iff).mp hread) hdocument hsaid⟩

theorem named_config_iff : (∀ page ∈ (v.config source).page, Text.trim page.package ≠ []) ↔
    v.Named := by
  unfold FileValues.Named FileValues.config
  simp

theorem override_empty (c : Config) : c.override {} = c := by
  obtain ⟨page, components, path, extended⟩ := c
  cases page with
  | none => rfl
  | some page => rfl

/-- Without values that take precedence there is nothing to check again. -/
theorem finish_eq_ok_iff {base c : Config}
    (hbase : ∀ page ∈ base.page, Text.trim page.package ≠ []) :
    finish overrides base = .ok c ↔ base.override (overrides.getD {}) = c ∧
      ∀ page ∈ c.page, Text.trim page.package ≠ [] := by
  cases overrides with
  | none =>
    rw [Option.getD_none, override_empty]
    constructor
    · rintro ⟨⟩
      exact ⟨rfl, hbase⟩
    · rintro ⟨rfl, -⟩
      rfl
  | some o =>
    show (base.override o).checked = .ok c ↔ _
    rw [checked_eq_ok_iff]
    constructor
    · rintro ⟨rfl, hnamed⟩
      exact ⟨rfl, hnamed⟩
    · rintro ⟨rfl, hnamed⟩
      exact ⟨rfl, hnamed⟩

/-- The configurations that come from a source. -/
theorem loadIn_eq_ok_iff (h : Source tree around asked source) {c : Config} :
    loadIn tree around asked overrides = (.ok c, tree) ↔ ∃ v,
      SourceSays tree around.environment source v ∧ v.Named ∧
        Merged source v (overrides.getD {}) c := by
  rw [loadIn_of_source h, Prod.mk.injEq, and_iff_left rfl, bind_eq_ok_iff]
  constructor
  -- The base is checked before anything takes precedence over it.
  · rintro ⟨base, hbase, hfinish⟩
    obtain ⟨v, hsaid⟩ := exists_sourceSays hbase
    rw [baseOf_eq hsaid, checked_eq_ok_iff] at hbase
    obtain ⟨rfl, hnamed⟩ := hbase
    exact ⟨v, hsaid, (named_config_iff).mp hnamed,
      (merged_iff).mpr ((finish_eq_ok_iff hnamed).mp hfinish)⟩
  · rintro ⟨v, hsaid, hv, hmerged⟩
    have hnamed : ∀ page ∈ (v.config source).page, Text.trim page.package ≠ [] :=
      (named_config_iff).mpr hv
    refine ⟨v.config source, ?_, (finish_eq_ok_iff hnamed).mpr ((merged_iff).mp hmerged)⟩
    rw [baseOf_eq hsaid, checked_eq_ok_iff]
    exact ⟨rfl, hnamed⟩

/-- The check of the file comes first. -/
theorem loadIn_of_not_named (h : Source tree around asked source)
    (hsaid : SourceSays tree around.environment source v) (hv : ¬ v.Named) :
    loadIn tree around asked overrides = (.error .emptyPackage, tree) := by
  rw [loadIn_of_source h, baseOf_eq hsaid]
  -- Only the name is checked, so there is no other error.
  cases hchecked : (v.config source).checked with
  | ok c =>
    obtain ⟨rfl, hnamed⟩ := (checked_eq_ok_iff).mp hchecked
    exact absurd ((named_config_iff).mp hnamed) hv
  | error e =>
    unfold checked at hchecked
    split at hchecked
    · cases hchecked
      rfl
    · cases hchecked

end Loading

/-- **Where each value of a configuration comes from.**

A file that is asked for and does not exist is reported, and no other file is looked for. Otherwise
there is one source: the file that is asked for, or the nearest one. What it says is merged, value
by value, with what takes precedence and with the defaults, and this is all that loading can give.
A file that publishes pages without naming their package is rejected, whatever takes precedence. -/
theorem load_merges (tree : Tree) (around : Surroundings) (asked : Option Text)
    (overrides : Option Overrides) :
    (∀ path, asked = some path → tree.kind? path = none →
      loadIn tree around asked overrides = (.error (.notFound path), tree)) ∧
    ((∀ path, asked = some path → tree.kind? path ≠ none) →
      ∃ source, Source tree around asked source ∧
        (∀ other, Source tree around asked other → other = source) ∧
        (∀ c, loadIn tree around asked overrides = (.ok c, tree) ↔ ∃ v,
          SourceSays tree around.environment source v ∧ v.Named ∧
            Merged source v (overrides.getD {}) c) ∧
        ∀ v, SourceSays tree around.environment source v → ¬ v.Named →
          loadIn tree around asked overrides = (.error .emptyPackage, tree)) := by
  constructor
  · rintro path rfl hmissing
    exact loadIn_of_missing hmissing
  · intro hexists
    obtain ⟨source, hsource, hunique⟩ := existsUnique_source tree around asked hexists
    exact ⟨source, hsource, hunique, fun c => loadIn_eq_ok_iff hsource,
      fun v hsaid hv => loadIn_of_not_named hsource hsaid hv⟩

/-- A configuration file whose package is a variable. -/
def projectFile : Text :=
  "[page]\npackage_name = \"$\x7bP\x7d\"\nversion = \"v1\"\n[components]\nsource_dir = \"kit\"\n"

/-- A configuration file that publishes pages of no package. -/
def namelessFile : Text := "[page]\nlanguage = \"ko\"\n"

/-- A directory with both files, and a directory in it. -/
def project : Tree where
  entries := [(["w".toList], .directory), (["w".toList, "d".toList], .directory),
    (["w".toList, fileName], .file (some projectFile)),
    (["w".toList, "b.toml".toList], .file (some namelessFile))]
  workingDirectory := ["w".toList, "d".toList]

/-- Work in the inner directory. -/
def inProject : Surroundings where
  environment := [("P".toList, "lib".toList)]
  workingDirectory := "/w/d"

/-- The values of the nameless file are read off its document. -/
theorem sourceSays_nameless : SourceSays project inProject.environment (some "/w/b.toml".toList)
    { page := some { language := some "ko".toList } } := by
  have hvalues : (Toml.document? namelessFile).map (fun document =>
      (((FileForm.ofDocument? document).isSome, (document.lookup "page".toList).isSome),
        ["package_name".toList, "version".toList, "language".toList].map (pageText? document),
        sourceText? document, extended? document)) =
      some ((true, true), [none, none, some "ko".toList], none, none) := by
    decide +kernel
  obtain ⟨document, hdocument, hvalues⟩ := Option.map_eq_some_iff.mp hvalues
  simp only [Prod.mk.injEq, List.map_cons, List.map_nil, List.cons.injEq, and_true] at hvalues
  obtain ⟨⟨hformed, hpage⟩, ⟨hpackage, hversion, hlanguage⟩, hsource, hextended⟩ := hvalues
  have hread : project.read "/w/b.toml" = .ok namelessFile := by decide +kernel
  refine .file hread hdocument ⟨hformed, hpage.symm, fun p hp => ?_, by rw [hsource]; rfl,
    hextended.symm⟩
  cases hp
  exact ⟨by rw [hpackage]; rfl, by rw [hversion]; rfl, by rw [hlanguage]; rfl⟩

/-- The file above the working directory, with a language that takes precedence; a file that does
not exist; and a file without a package name, which no package makes up for. -/
theorem load_in_project :
    let o : Overrides := { language := some "ko".toList, extended := some false }
    let c : Config :=
      { page := some ⟨"lib".toList, "v1".toList, "ko".toList⟩, components := some "/w/kit".toList
        path := some "/w/docmark.toml".toList, extended := false }
    (loadIn project inProject none (some o) = (.ok c, project) ∧
      ∃ v, SourceSays project inProject.environment (some "/w/docmark.toml".toList) v ∧
        Merged (some "/w/docmark.toml".toList) v o c) ∧
    loadIn project inProject (some "/w/a.toml".toList) (some o) =
      (.error (.notFound "/w/a.toml".toList), project) ∧
    loadIn project inProject (some "/w/b.toml".toList) (some { package := some "lib".toList }) =
      (.error .emptyPackage, project) := by
  intro o c
  have hload : loadIn project inProject none (some o) = (.ok c, project) := by decide +kernel
  have hmissing : project.kind? "/w/a.toml" = none := by decide +kernel
  have hexists : project.kind? "/w/b.toml" ≠ none := by decide +kernel
  -- The values are whatever the file says, so the theorem is asked for them.
  refine ⟨⟨hload, ?_⟩, ?_, ?_⟩
  · obtain ⟨source, -, -, hiff, -⟩ :=
      (load_merges project inProject none (some o)).2 fun _ h => nomatch h
    obtain ⟨v, hsaid, -, hmerged⟩ := (hiff c).mp hload
    obtain rfl : some "/w/docmark.toml".toList = source := hmerged.path
    exact ⟨v, hsaid, hmerged⟩
  · exact (load_merges project inProject _ _).1 _ rfl hmissing
  · obtain ⟨source, -, hunique, -, hrejected⟩ := (load_merges project inProject
      (some "/w/b.toml".toList) (some { package := some "lib".toList })).2 (by
        rintro path ⟨⟩
        exact hexists)
    obtain rfl := hunique _ (.asked (Option.isSome_iff_ne_none.mpr hexists))
    -- The file publishes pages and names no package, so its name is the empty one.
    refine hrejected _ sourceSays_nameless fun hnamed => ?_
    exact hnamed _ rfl rfl

end DocPage.Config
