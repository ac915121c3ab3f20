import DocPage.Config.FileForm

/-!
# What a configuration file says

Of a configuration file only a few values count: whether it has a section on pages, and the fields
of its three sections, each of which it may leave out. `Says` reads them off the document, with
references replaced. The configuration of a file is determined by these values, and a file has one
exactly when it says something and names its package.

## Architecture

- **Values**: `FileValues`, and `Says` for the values of a document
- **Forms**: the form of a document holds what is written in it
- **References**: replacing them in a form replaces them in each field
- **Files**: `ofFile_eq`, and `exists_says_of_ofFile` as its converse
-/

namespace DocPage.Config

/-! ## Values -/

/-- The values of the section on where pages are published. A field that is left out has none. -/
structure PageValues where
  package : Option Text := none
  version : Option Text := none
  language : Option Text := none
  deriving Repr, DecidableEq

/-- The values of a configuration file. -/
structure FileValues where
  /-- The section on pages, when there is one. -/
  page : Option PageValues := none
  components : Option Text := none
  extended : Option Bool := none
  deriving Repr, DecidableEq

/-- The value that a document has for a field of a section, whose fields are `names`. -/
def written? {α : Type} (read : Toml.Value → Option α) (document : Toml.Entries) (name : Text)
    (names : List Text) (field : Text) : Option α := do
  let fields ← section? document name names
  read (← fields.lookup field)

def pageText? (document : Toml.Entries) (field : Text) : Option Text :=
  written? Toml.Value.string? document "page" ["package_name", "version", "language"] field

/-- The directory of the components. -/
def sourceText? (document : Toml.Entries) : Option Text :=
  written? Toml.Value.string? document "components" ["source_dir"] "source_dir"

/-- Whether tables, strikethrough, tasks and alerts are read. -/
def extended? (document : Toml.Entries) : Option Bool :=
  written? Toml.Value.boolean? document "markdown" ["gfm"] "gfm"

/-- The document has these values in its section on pages, with references replaced. -/
structure SaysOfPage (env : Environment) (document : Toml.Entries) (p : PageValues) : Prop where
  package : (pageText? document "package_name").mapM env.expand = .ok p.package
  version : (pageText? document "version").mapM env.expand = .ok p.version
  language : (pageText? document "language").mapM env.expand = .ok p.language

/-- The document has these values, once references to variables are replaced in its texts. -/
structure Says (env : Environment) (document : Toml.Entries) (v : FileValues) : Prop where
  /-- No value has a wrong type. -/
  formed : (FileForm.ofDocument? document).isSome
  publishes : v.page.isSome = (document.lookup "page".toList).isSome
  page : ∀ p ∈ v.page, SaysOfPage env document p
  components : (sourceText? document).mapM env.expand = .ok v.components
  extended : v.extended = extended? document

/-- A file that publishes pages names their package. -/
def FileValues.Named (v : FileValues) : Prop :=
  ∀ p ∈ v.page, Text.trim (p.package.getD []) ≠ []

/-! ## Forms -/

/-- The form that has the values. -/
def FileValues.form (v : FileValues) : FileForm where
  page := v.page.map fun p => ⟨p.package.getD [], p.version, p.language⟩
  componentSource := v.components
  extended := v.extended.getD true

theorem eq_of_field? {α : Type} {read : Toml.Value → Option α} {fields : Toml.Entries}
    {name : Text} {value : Option α} (h : field? read fields name = some value) :
    value = (fields.lookup name).bind read := by
  unfold field? at h
  -- A field that is left out has no value; any other one has to be of the right type.
  cases hlookup : fields.lookup name with
  | none =>
    rw [hlookup] at h
    exact (Option.some.inj h).symm
  | some found =>
    rw [hlookup] at h
    obtain ⟨a, ha, rfl⟩ := Option.map_eq_some_iff.mp h
    exact ha.symm

/-- The section on pages as it is written in a document. -/
def writtenPage (document : Toml.Entries) : PageSection :=
  ⟨(pageText? document "package_name").getD [], pageText? document "version",
    pageText? document "language"⟩

theorem eq_of_pageSection? {document : Toml.Entries} {value : Toml.Value} {page : PageSection}
    (hvalue : document.lookup "page".toList = some value) (h : pageSection? value = some page) :
    page = writtenPage document := by
  obtain ⟨fields, hfields, h⟩ := Option.bind_eq_some_iff.mp h
  obtain ⟨package, hpackage, h⟩ := Option.bind_eq_some_iff.mp h
  obtain ⟨version, hversion, h⟩ := Option.bind_eq_some_iff.mp h
  obtain ⟨language, hlanguage, h⟩ := Option.bind_eq_some_iff.mp h
  -- The section is the one that was read, so its fields are those of the document.
  have htext : ∀ field, pageText? document field =
      (fields.lookup field).bind Toml.Value.string? := by
    intro field
    unfold pageText? written? section?
    rw [hvalue]
    simp only [hfields, Option.bind_eq_bind, Option.bind_some]
  cases h
  rw [eq_of_field? hpackage, eq_of_field? hversion, eq_of_field? hlanguage, writtenPage, htext,
    htext, htext]

/-- The form of a document holds what is written in it. -/
theorem eq_of_ofDocument? {document : Toml.Entries} {form : FileForm}
    (h : FileForm.ofDocument? document = some form) :
    form = ⟨(document.lookup "page".toList).map fun _ => writtenPage document, sourceText? document,
      (extended? document).getD true⟩ := by
  obtain ⟨page, hpage, h⟩ := Option.bind_eq_some_iff.mp h
  obtain ⟨components, hcomponents, h⟩ := Option.bind_eq_some_iff.mp h
  obtain ⟨markdown, hmarkdown, h⟩ := Option.bind_eq_some_iff.mp h
  obtain ⟨source, hsource, h⟩ := Option.bind_eq_some_iff.mp h
  obtain ⟨extended, hextended, h⟩ := Option.bind_eq_some_iff.mp h
  -- Whether there is a section, and what it holds, are both read off the document.
  have hpage' : page = (document.lookup "page".toList).map fun _ => writtenPage document := by
    rw [eq_of_field? hpage]
    cases hvalue : document.lookup "page".toList with
    | none => rfl
    | some value =>
      unfold field? at hpage
      rw [hvalue] at hpage
      obtain ⟨section_, hsection, -⟩ := Option.map_eq_some_iff.mp hpage
      rw [Option.bind_some, hsection, eq_of_pageSection? hvalue hsection, Option.map_some]
  cases h
  rw [hpage', eq_of_field? hsource, eq_of_field? hextended, sourceText?, extended?, written?,
    written?, hcomponents, hmarkdown]
  rfl

/-! ## References -/

section Except

variable {ε ε' α β : Type}

theorem bind_eq_ok_iff {x : Except ε α} {f : α → Except ε β} {b : β} :
    x >>= f = .ok b ↔ ∃ a, x = .ok a ∧ f a = .ok b := by
  cases x with
  | error e => simp [bind, Except.bind]
  | ok a => simp [bind, Except.bind]

theorem mapError_eq_ok_iff {x : Except ε α} {f : ε → ε'} {a : α} :
    x.mapError f = .ok a ↔ x = .ok a := by
  cases x with
  | error e => exact ⟨fun h => (nomatch h), fun h => (nomatch h)⟩
  | ok b =>
    show (.ok b : Except ε' α) = .ok a ↔ _
    rw [Except.ok.injEq, Except.ok.injEq]

theorem mapM_some_eq_ok_iff {f : α → Except ε β} {a : α} {o : Option β} :
    (some a).mapM f = .ok o ↔ ∃ b, f a = .ok b ∧ o = some b := by
  -- A value that is given is replaced by itself, and stays given.
  show (some <$> f a) = .ok o ↔ _
  rw [map_eq_pure_bind, bind_eq_ok_iff]
  simp [pure, Except.pure, eq_comm]

end Except

section References

variable {env : Environment} {document : Toml.Entries} {form expanded : FileForm}

theorem mapM_expandField_eq_ok_iff {field : Text} {value expanded : Option Text} :
    value.mapM (FileForm.expandField env field) = .ok expanded ↔
      value.mapM env.expand = .ok expanded := by
  cases value with
  -- Nothing is replaced, and the two ways to fail do not matter.
  | none =>
    show (.ok none : Except ConfigError _) = .ok expanded ↔ (.ok none : Except _ _) = .ok expanded
    rw [Except.ok.injEq, Except.ok.injEq]
  | some value =>
    rw [mapM_some_eq_ok_iff, mapM_some_eq_ok_iff]
    simp only [FileForm.expandField, mapError_eq_ok_iff]

/-- A text that is left out stands for the empty text, in which there is nothing to replace. -/
theorem expand_getD_eq_ok_iff {value : Option Text} {expanded : Text} :
    env.expand (value.getD []) = .ok expanded ↔
      ∃ v, value.mapM env.expand = .ok v ∧ expanded = v.getD [] := by
  cases value with
  | none =>
    constructor
    · intro h
      exact ⟨none, rfl, (Except.ok.inj h).symm⟩
    · rintro ⟨v, hv, rfl⟩
      cases hv
      rfl
  | some value =>
    simp only [mapM_some_eq_ok_iff, Option.getD_some]
    constructor
    · exact fun h => ⟨some expanded, ⟨expanded, h, rfl⟩, rfl⟩
    · rintro ⟨-, ⟨t, ht, rfl⟩, rfl⟩
      exact ht

theorem expandPage_eq_ok_iff {page : PageSection} :
    FileForm.expandPage env (writtenPage document) = .ok page ↔
      ∃ p, SaysOfPage env document p ∧ page = ⟨p.package.getD [], p.version, p.language⟩ := by
  -- The three texts are replaced in order, and each is one of the values.
  simp only [FileForm.expandPage, bind_eq_ok_iff, writtenPage, mapM_expandField_eq_ok_iff]
  constructor
  · rintro ⟨text, htext, version, hversion, language, hlanguage, hpage⟩
    cases hpage
    obtain ⟨package, hpackage, rfl⟩ := (expand_getD_eq_ok_iff).mp ((mapError_eq_ok_iff).mp htext)
    exact ⟨⟨package, version, language⟩, ⟨hpackage, hversion, hlanguage⟩, rfl⟩
  · rintro ⟨p, hp, rfl⟩
    refine ⟨p.package.getD [], (mapError_eq_ok_iff).mpr ?_, p.version, hp.version, p.language,
      hp.language, rfl⟩
    exact (expand_getD_eq_ok_iff).mpr ⟨p.package, hp.package, rfl⟩

/-- **Replacing the references in a form gives the form that has the values of the document.** -/
theorem expand_eq_ok_iff (h : FileForm.ofDocument? document = some form) :
    form.expand env = .ok expanded ↔ ∃ v, Says env document v ∧ expanded = v.form := by
  have hformed : (FileForm.ofDocument? document).isSome := by rw [h]; rfl
  obtain rfl := eq_of_ofDocument? h
  simp only [FileForm.expand, bind_eq_ok_iff, mapM_expandField_eq_ok_iff]
  -- Without a section there are no values of pages to be found.
  cases hlookup : document.lookup "page".toList with
  | none =>
    constructor
    · rintro ⟨page, hpage, source, hsource, hexpanded⟩
      cases hpage
      cases hexpanded
      exact ⟨⟨none, source, extended? document⟩,
        ⟨hformed, by rw [hlookup]; rfl, fun _ hp => (nomatch hp), hsource, rfl⟩, rfl⟩
    · rintro ⟨v, hv, rfl⟩
      have hnone : v.page = none := by
        rw [← Option.isNone_iff_eq_none, ← Option.not_isSome, hv.publishes, hlookup]
        rfl
      refine ⟨none, rfl, v.components, hv.components, ?_⟩
      simp [FileValues.form, hnone, hv.extended, pure, Except.pure]
  | some value =>
    simp only [Option.map_some, mapM_some_eq_ok_iff, expandPage_eq_ok_iff]
    constructor
    · rintro ⟨-, ⟨-, ⟨p, hp, rfl⟩, rfl⟩, source, hsource, hexpanded⟩
      cases hexpanded
      refine ⟨⟨some p, source, extended? document⟩,
        ⟨hformed, by rw [hlookup]; rfl, fun q hq => ?_, hsource, rfl⟩, rfl⟩
      -- The section is there, so the values of pages are those of the section.
      cases hq
      exact hp
    · rintro ⟨v, hv, rfl⟩
      -- A document with a section says what its pages have.
      have hsome : v.page.isSome := by rw [hv.publishes, hlookup]; rfl
      obtain ⟨p, hp⟩ := Option.isSome_iff_exists.mp hsome
      refine ⟨_, ⟨_, ⟨p, hv.page p hp, rfl⟩, rfl⟩, v.components, hv.components, ?_⟩
      simp [FileValues.form, hp, hv.extended, pure, Except.pure]

end References

/-! ## Files -/

section Files

variable {env : Environment} {path content : Text} {document : Toml.Entries} {v : FileValues}

/-- The configuration of a file is that of its values, unless the package has no name. -/
theorem ofFile_eq (hdocument : Toml.document? content = some document)
    (hsaid : Says env document v) :
    ofFile env path content = (v.form.config path).checked := by
  -- A document that says something has a form, which is the one of its values.
  obtain ⟨form, hform⟩ := Option.isSome_iff_exists.mp hsaid.formed
  have hexpanded : form.expand env = .ok v.form := (expand_eq_ok_iff hform).mpr ⟨v, hsaid, rfl⟩
  unfold ofFile FileForm.ofText?
  simp only [hdocument, hform, hexpanded, Option.bind_eq_bind, Option.bind_some]
  rfl

/-- A file that gives a configuration says something. -/
theorem exists_says_of_ofFile {base : Config} (h : ofFile env path content = .ok base) :
    ∃ document v, Toml.document? content = some document ∧ Says env document v := by
  unfold ofFile at h
  cases hform : FileForm.ofText? content with
  | none =>
    rw [hform] at h
    cases h
  | some form =>
    rw [hform] at h
    -- Replacing succeeded before the check, which is not needed here.
    obtain ⟨expanded, hexpanded, -⟩ := (bind_eq_ok_iff).mp h
    obtain ⟨document, hdocument, hform⟩ := Option.bind_eq_some_iff.mp hform
    obtain ⟨v, hsaid, -⟩ := (expand_eq_ok_iff hform).mp hexpanded
    exact ⟨document, v, hdocument, hsaid⟩

end Files

end DocPage.Config
