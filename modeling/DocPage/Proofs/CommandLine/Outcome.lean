import DocPage.CommandLine.Run
import DocPage.Proofs.Document.Outline
import DocPage.Proofs.Files.Access
import DocPage.Proofs.Json.Pretty
import DocPage.Proofs.Tag.Substitute

/-!
# What a command leaves behind

Everything that comes before the output only looks at files: the configuration, the search for
components, the input and its includes. So a command that fails leaves the files as they were,
unless it is the output file that cannot be written. Both actions convert the input in the same way,
and they show the same metadata, one of them in the first line of the page and the other one as
indented JSON.

## Architecture

- **Looking**: converting an input only looks at files
- **Metadata**: `scriptObject?` reads it off a page, and the reader of JSON off an outline
- **Outcomes**: `LeavesBehind`, and what the two actions have in common
-/

namespace DocPage.CommandLine

open Files (Access LawfulAccess ReadOnly Looks)

variable {σ : Type} [Access (StateM σ)]

/-! ## Looking -/

section Looking

variable [LawfulAccess σ]

/-- The paths are tried one after the other. -/
theorem readOnly_firstFile? (paths : List Text) :
    ReadOnly (Config.firstFile? (m := StateM σ) paths) := by
  induction paths with
  | nil => exact .pure none
  | cons path paths ih =>
    apply (Files.readOnly_kind? path).bind
    intro kind
    split
    · exact .pure (some path)
    · exact ih

theorem looks_source? (around : Config.Surroundings) (asked : Option Text) :
    Looks (Config.source? (m := StateM σ) around asked) := by
  -- A path that was asked for is the only one; otherwise the usual ones are tried.
  cases asked with
  | some path =>
    apply (Looks.lift (Files.readOnly_kind? path)).bind
    intro kind
    split
    · exact .pure (some path)
    · exact .throw _
  | none => exact .lift (readOnly_firstFile? _)

theorem looks_read (env : Environment) (path : Text) :
    Looks (Config.read (m := StateM σ) env path) := by
  apply ((Looks.mk (Files.readOnly_read path)).adapt ConfigError.unreadable).bind
  intro content
  exact .ofExcept _

/-- What takes precedence is put in without a look at files, with a file or without one. -/
theorem looks_load (around : Config.Surroundings) (asked : Option Text)
    (overrides : Option Overrides) :
    Looks (Config.load (m := StateM σ) around asked overrides) := by
  apply (looks_source? around asked).bind
  intro source
  -- With or without overrides, the file is read once, and the rest is computed.
  cases overrides with
  | none =>
    cases source with
    | none => exact .pure _
    | some path =>
      apply (looks_read around.environment path).bind
      intro config
      exact .pure config
  | some o =>
    cases source with
    | none => exact .ofExcept _
    | some path =>
      apply (looks_read around.environment path).bind
      intro config
      exact .ofExcept _

theorem looks_vocabulary (config : Config) : Looks (vocabulary (m := StateM σ) config) := by
  unfold vocabulary
  cases config.components with
  | none => exact .pure _
  | some directory =>
    -- The search is the only part that looks at files; its result is taken apart afterwards.
    apply Looks.bind
    · unfold Body.componentsIn
      cases Files.globSteps? (Body.componentPattern directory) with
      | none => exact .throw _
      | some search =>
        apply ((Files.looks_followSteps search.2 search.1).adapt Body.SearchError.walk).bind
        intro paths
        exact .pure _
    · intro names
      exact .pure _

theorem looks_resolveInclude (base indent body : Text) :
    Looks (Document.resolveInclude (m := StateM σ) base indent body) := by
  unfold Document.resolveInclude
  dsimp only
  cases Document.IncludeRequest.read? (Text.trim body) with
  | none => exact .throw _
  | some request =>
    apply (Looks.lift (Files.readOnly_read _)).bind
    intro result
    -- A file that cannot be read is reported, which is not a change.
    cases result with
    | error e => exact .throw _
    | ok content => exact .ofExcept _

theorem looks_convert (settings : Document.Settings) (source : Text) :
    Looks (Document.Page.convert (m := StateM σ) settings source) := by
  apply Looks.bind
  · -- Each tag is resolved on its own; putting the blocks in place looks at nothing.
    unfold Document.resolveIncludes
    rw [Tag.substitute_eq_splice]
    apply (Looks.mapM (fun found => looks_resolveInclude _ _ _) _).bind
    intro blocks
    exact .pure _
  · intro resolved
    exact .ofExcept _

/-- **Converting an input only looks at files.** -/
theorem looks_convertInput (around : Config.Surroundings) (job : Job) :
    Looks (convertInput (m := StateM σ) around job) := by
  apply ((looks_load around job.config (some job.overrides)).adapt Failure.config).bind
  intro config
  apply ((looks_vocabulary config).adapt Failure.search).bind
  intro known
  apply ((Looks.mk (Files.readOnly_read job.input)).adapt Failure.file).bind
  intro source
  exact (looks_convert _ source).adapt Failure.render

end Looking

/-! ## Metadata -/

/-- The object in the first line of a page: what its script declares. -/
def scriptObject? (html : Text) : Option Json := do
  let script := html.takeWhile (· != '\n')
  let rest ← Text.dropPrefix? "<script context=\"module\">export const metadata = " script
  let object ← Text.dropSuffix? ";</script>" rest
  Json.parse? object

/-- The script stands on one line. -/
-- Neither the fixed text nor the object has a line feed.
theorem newline_notMem_metadataScript (metadata : Outline.Metadata) :
    '\n' ∉ Document.metadataScript metadata := by
  unfold Document.metadataScript
  rw [List.mem_append, List.mem_append, not_or, not_or]
  refine ⟨⟨?_, Json.newline_notMem_toAttr _⟩, ?_⟩
  · decide
  · decide

theorem scriptObject?_metadataScript (metadata : Outline.Metadata) (rest : Text) :
    scriptObject? (Document.metadataScript metadata ++ '\n' :: rest) = some metadata.toJson := by
  -- The script ends where its line does.
  have hline : (Document.metadataScript metadata ++ '\n' :: rest).takeWhile (· != '\n') =
      Document.metadataScript metadata := by
    apply Text.takeWhile_append_of_boundary
    · intro c hc
      apply bne_iff_ne.mpr
      rintro rfl
      exact newline_notMem_metadataScript metadata hc
    · intro c hc
      cases hc
      rfl
  unfold scriptObject?
  rw [hline]
  unfold Document.metadataScript
  dsimp only
  rw [List.append_assoc, Text.dropPrefix?_append, Option.bind_eq_bind, Option.bind_some,
    Text.dropSuffix?_eq_some_iff.mpr rfl]
  exact Json.parse?_of_written (Json.written_compact _).element_of_value

/-- The first line of a page declares its metadata. -/
def Declares (page : Document.Page) : Prop :=
  scriptObject? page.html = some page.metadata.toJson

theorem declares_of_ofSource {settings : Document.Settings} {source : Text} {page : Document.Page}
    (h : Document.Page.ofSource settings source = .ok page) : Declares page := by
  obtain ⟨t, s, rendered, -, rfl⟩ := Document.Page.exists_stages h
  exact scriptObject?_metadataScript _ _

/-- What the work gives, when it succeeds, is as described. -/
def Gives {α ε : Type} (x : ExceptT ε (StateM σ) α) (P : α → Prop) : Prop :=
  ∀ files v, (x.run.run files).1 = .ok v → P v

namespace Gives

variable {α β ε ε' : Type} {P : α → Prop}

omit [Access (StateM σ)] in
theorem ofExcept {x : Except ε α} (h : ∀ v, x = .ok v → P v) :
    Gives (MonadExcept.ofExcept x : ExceptT ε (StateM σ) α) P := by
  intro files v hv
  cases x with
  | error e => cases hv
  | ok w =>
    cases hv
    exact h v rfl

omit [Access (StateM σ)] in
theorem adapt {x : ExceptT ε (StateM σ) α} (h : Gives x P) (f : ε → ε') :
    Gives (x.adapt f) P := by
  -- Giving an error another name does not change the result.
  intro files v hv
  have hmap : (x.run.run files).1.mapError f = .ok v := hv
  cases hx : (x.run.run files).1 with
  | error e =>
    rw [hx] at hmap
    cases hmap
  | ok w =>
    rw [hx] at hmap
    cases hmap
    exact h files v hx

omit [Access (StateM σ)] in
/-- Only the last part matters. -/
theorem bind {x : ExceptT ε (StateM σ) β} {f : β → ExceptT ε (StateM σ) α}
    (h : ∀ w, Gives (f w) P) : Gives (x >>= f) P := by
  intro files v hv
  rw [ExceptT.run_bind, StateT.run_bind] at hv
  -- A failure of the first part is no success of the whole.
  cases hx : x.run.run files with
  | mk result files' =>
    rw [hx] at hv
    cases result with
    | error e => cases hv
    | ok w => exact h w files' v hv

end Gives

/-- A converted input declares its metadata. -/
theorem gives_convertInput (around : Config.Surroundings) (job : Job) :
    Gives (convertInput (m := StateM σ) around job) Declares := by
  -- Whatever the configuration, the components and the input are, the page comes last.
  apply Gives.bind
  intro config
  apply Gives.bind
  intro known
  apply Gives.bind
  intro source
  apply Gives.adapt
  apply Gives.bind
  intro resolved
  apply Gives.ofExcept
  intro page hpage
  exact declares_of_ofSource hpage

/-- A line feed behind an indented value is a blank. -/
theorem parse?_endLine_pretty (v : Json) : Json.parse? (endLine v.pretty) = some v := by
  unfold endLine
  -- The text ends with a line feed already, or gets one.
  split
  · rw [← List.append_nil v.pretty]
    exact Json.parse?_pretty_append v Json.Blanks.nil
  · unfold line
    rw [List.concat_eq_append]
    apply Json.parse?_pretty_append
    intro c hc
    rw [List.mem_singleton.mp hc]
    rfl

/-! ## Outcomes -/

def converted (around : Config.Surroundings) (job : Job) (files : σ) :
    Except Failure Document.Page :=
  ((convertInput (m := StateM σ) around job).run.run files).1

/-- The input converts, but the output file cannot be written. -/
def WriteFails (around : Config.Surroundings) (job : Job) (files files' : σ) : Prop :=
  job.action = .convert ∧ ∃ page path cause, converted around job files = .ok page ∧
    job.output = some path ∧
    (Access.write path page.html : StateM σ _).run files = (.error cause, files')

/-- What is left behind when a job is done: its outcome, and the files afterwards. -/
structure LeavesBehind (around : Config.Surroundings) (job : Job) (files : σ) (outcome : Outcome)
    (files' : σ) : Prop where
  /-- Only writing the output file can fail and change files. -/
  failure : outcome.code ≠ 0 → outcome.code = 1 ∧ outcome.output = [] ∧
    (files' = files ∨ WriteFails around job files files')
  /-- One file is written, and it holds the page. -/
  toFile : outcome.code = 0 → job.action = .convert → ∀ path ∈ job.output,
    outcome.output = [] ∧ ∃ page, converted around job files = .ok page ∧
      (Access.write path page.html : StateM σ _).run files = (.ok (), files') ∧
      ((Access.read path : StateM σ _).run files').1 = .ok page.html
  toOutput : outcome.code = 0 → job.action = .convert → job.output = none →
    files' = files ∧ ∃ page, converted around job files = .ok page ∧
      outcome.output =
        if page.html.getLast? = some '\n' then page.html else page.html ++ ['\n']
  outline : outcome.code = 0 → job.action = .outline →
    files' = files ∧ ∃ page, converted around job files = .ok page ∧
      Json.parse? outcome.output = some page.metadata.toJson

/-- After a failure there is only the failure to look at. -/
theorem LeavesBehind.of_failure {around : Config.Surroundings} {job : Job} {files files' : σ}
    {outcome : Outcome} (hcode : outcome.code = 1) (houtput : outcome.output = [])
    (hfiles : files' = files ∨ WriteFails around job files files') :
    LeavesBehind around job files outcome files' := by
  have hne : outcome.code ≠ 0 := by simp [hcode]
  exact {
    failure := fun _ => ⟨hcode, houtput, hfiles⟩
    toFile := fun hzero => absurd hzero hne
    toOutput := fun hzero => absurd hzero hne
    outline := fun hzero => absurd hzero hne }

section Outcomes

variable [LawfulAccess σ] {around : Config.Surroundings} {job : Job} {files : σ}

/-- The output comes after all that can fail without it. -/
theorem run_perform_of_error {failure : Failure} (h : converted around job files = .error failure) :
    (perform (m := StateM σ) around job).run files =
      ({ code := 1, diagnostics := errorLine failure }, files) := by
  -- What converting leaves are the files, since it only looks at them.
  have hrun : (convertInput (m := StateM σ) around job).run.run files = (.error failure, files) :=
    Prod.ext h (looks_convertInput around job files)
  unfold perform
  rw [StateT.run_bind, hrun]
  rfl

theorem run_perform_of_ok {page : Document.Page} (h : converted around job files = .ok page) :
    (perform (m := StateM σ) around job).run files =
      (match job.action with
        | .convert => emit page job.output
        | .outline => pure { code := 0, output := endLine page.metadata.toJson.pretty } :
          StateM σ Outcome).run files := by
  have hrun : (convertInput (m := StateM σ) around job).run.run files = (.ok page, files) :=
    Prod.ext h (looks_convertInput around job files)
  unfold perform
  rw [StateT.run_bind, hrun]
  rfl

theorem endLine_eq (t : Text) :
    endLine t = if t.getLast? = some '\n' then t else t ++ ['\n'] := by
  unfold endLine line
  simp only [beq_iff_eq, List.concat_eq_append]

/-- A page goes to the output, or to one file. -/
theorem leavesBehind_emit {page : Document.Page} (h : converted around job files = .ok page)
    (haction : job.action = .convert) {outcome : Outcome} {files' : σ}
    (hrun : (emit (m := StateM σ) page job.output).run files = (outcome, files')) :
    LeavesBehind around job files outcome files' := by
  have hother : job.action ≠ .outline := by simp [haction]
  cases houtput : job.output with
  | none =>
    rw [houtput] at hrun
    cases hrun
    -- Nothing is written, so the files are those from before.
    exact {
      failure := fun hcode => absurd rfl hcode
      toFile := fun _ _ path hpath => absurd (houtput.symm.trans hpath) (by simp)
      toOutput := fun _ _ _ => ⟨rfl, page, h, endLine_eq _⟩
      outline := fun _ houtline => absurd houtline hother }
  | some path =>
    -- This is the only place where something is written.
    rw [houtput] at hrun
    unfold emit at hrun
    rw [StateT.run_bind] at hrun
    cases hwrite : (Access.write path page.html : StateM σ _).run files with
    | mk result written =>
      rw [hwrite] at hrun
      cases result with
      | error cause =>
        cases hrun
        apply LeavesBehind.of_failure rfl rfl
        exact .inr ⟨haction, page, path, cause, h, houtput, hwrite⟩
      | ok done =>
        cases hrun
        have hread := LawfulAccess.read_of_write path page.html files written hwrite
        exact {
          failure := fun hcode => absurd rfl hcode
          toFile := by
            intro _ _ other hother
            obtain rfl := Option.some.inj (houtput.symm.trans hother)
            exact ⟨rfl, page, h, hwrite, hread⟩
          toOutput := fun _ _ hnone => absurd (houtput.symm.trans hnone) (by simp)
          outline := fun _ houtline => absurd houtline hother }

theorem leavesBehind_perform {outcome : Outcome} {files' : σ}
    (hrun : (perform (m := StateM σ) around job).run files = (outcome, files')) :
    LeavesBehind around job files outcome files' := by
  -- An error ends the command before there is anything to write.
  cases h : converted around job files with
  | error failure =>
    rw [run_perform_of_error h] at hrun
    cases hrun
    exact .of_failure rfl rfl (.inl rfl)
  | ok page =>
    rw [run_perform_of_ok h] at hrun
    cases haction : job.action with
    | convert =>
      rw [haction] at hrun
      exact leavesBehind_emit h haction hrun
    | outline =>
      rw [haction] at hrun
      cases hrun
      -- For an outline there is nothing to say about pages that are written.
      have hother : job.action ≠ .convert := by simp [haction]
      exact {
        failure := fun hcode => absurd rfl hcode
        toFile := fun _ hconvert => absurd hconvert hother
        toOutput := fun _ hconvert => absurd hconvert hother
        outline := fun _ _ => ⟨rfl, page, h, parse?_endLine_pretty _⟩ }

omit [LawfulAccess σ] in
/-- Converting depends on the input and on what the configuration comes from. -/
theorem convertInput_congr {job' : Job} (hinput : job'.input = job.input)
    (hconfig : job'.config = job.config) (hoverrides : job'.overrides = job.overrides) :
    convertInput (m := StateM σ) around job' = convertInput around job := by
  unfold convertInput
  rw [hinput, hconfig, hoverrides]

omit [LawfulAccess σ] in
theorem run_of_arguments {args : List Text} (h : Request.ofArguments args = .run job) :
    run (m := StateM σ) around args = perform around job := by
  unfold run
  rw [h]

/-- An outline is printed exactly when the input converts. -/
theorem run_perform_outline (around : Config.Surroundings) (files : σ)
    (haction : job.action = .outline) :
    ∃ outcome, (perform (m := StateM σ) around job).run files = (outcome, files) ∧
      ((∃ page, converted around job files = .ok page) ↔ outcome.code = 0) ∧
      ∀ page, converted around job files = .ok page →
        Json.parse? outcome.output = some page.metadata.toJson := by
  cases h : converted around job files with
  | error failure => exact ⟨_, run_perform_of_error h, by simp, by simp⟩
  | ok page =>
    refine ⟨{ code := 0, output := endLine page.metadata.toJson.pretty }, ?_, by simp, ?_⟩
    · rw [run_perform_of_ok h, haction]
      rfl
    · intro page' hpage'
      cases hpage'
      exact parse?_endLine_pretty _

end Outcomes

/-- A directory with one note in it. -/
def noteTree : Files.Tree where
  entries := [(["w".toList], .directory),
    (["w".toList, "note.md".toList], .file (some "# Note\n".toList))]
  workingDirectory := ["w".toList]

end DocPage.CommandLine
