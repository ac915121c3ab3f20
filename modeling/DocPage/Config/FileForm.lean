import DocPage.Config.Basic
import DocPage.Config.Environment
import DocPage.Files.Path
import DocPage.Toml.Document

/-!
# Configuration files

A configuration file is a TOML document with three sections, all of them optional: `page`,
`components` and `markdown`. A section is a table, or an array of the values of its fields in order.
Keys that no section has are passed over.

## Architecture

- **Form**: `FileForm.ofText?` reads the sections as they are written
- **References**: `FileForm.expand` replaces references to variables
- **Meaning**: `FileForm.config` fills in defaults and the place of the file
-/

namespace DocPage.Config

/-! ## Form -/

/-- The section on where pages are published. -/
structure PageSection where
  package : Text
  version : Option Text
  language : Option Text
  deriving Repr, DecidableEq

/-- A configuration file as it is written. -/
structure FileForm where
  page : Option PageSection
  /-- The directory of the components, seen from the directory of the file. -/
  componentSource : Option Text
  extended : Bool
  deriving Repr, DecidableEq

/-- The fields of a section. -/
def sectionFields? (names : List Text) : Toml.Value → Option Toml.Entries
  | .table _ entries => some entries
  | .array _ items => some (names.zip items)
  | _ => none

/-- The section with a name. A document without it has no fields. -/
def section? (document : Toml.Entries) (name : Text) (fields : List Text) : Option Toml.Entries :=
  match document.lookup name with
  | some value => sectionFields? fields value
  | none => some []

/-- The value of a field that may be left out; the outer failure is a value of the wrong type. -/
def field? {α : Type} (read : Toml.Value → Option α) (fields : Toml.Entries) (name : Text) :
    Option (Option α) :=
  match fields.lookup name with
  | some value => (read value).map some
  | none => some none

/-- The section on where pages are published. -/
def pageSection? (value : Toml.Value) : Option PageSection := do
  let fields ← sectionFields? ["package_name", "version", "language"] value
  let package ← field? Toml.Value.string? fields "package_name"
  let version ← field? Toml.Value.string? fields "version"
  let language ← field? Toml.Value.string? fields "language"
  some ⟨package.getD [], version, language⟩

namespace FileForm

def ofDocument? (document : Toml.Entries) : Option FileForm := do
  let page ← field? pageSection? document "page"
  let components ← section? document "components" ["source_dir"]
  let markdown ← section? document "markdown" ["gfm"]
  let source ← field? Toml.Value.string? components "source_dir"
  let extended ← field? Toml.Value.boolean? markdown "gfm"
  some ⟨page, source, extended.getD true⟩

def ofText? (t : Text) : Option FileForm := do
  ofDocument? (← Toml.document? t)

/-! ## References -/

/-- Replaces the references in a field. -/
def expandField (env : Environment) (field value : Text) : Except ConfigError Text :=
  (env.expand value).mapError (ConfigError.unsetVariable field)

/-- Replaces the references in the section on pages. -/
def expandPage (env : Environment) (page : PageSection) : Except ConfigError PageSection := do
  let package ← expandField env "page.package_name" page.package
  let version ← page.version.mapM (expandField env "page.version")
  let language ← page.language.mapM (expandField env "page.language")
  pure ⟨package, version, language⟩

/-- Replaces the references in all fields, in order. -/
def expand (env : Environment) (form : FileForm) : Except ConfigError FileForm := do
  let page ← form.page.mapM (expandPage env)
  let source ← form.componentSource.mapM (expandField env "components.source_dir")
  pure { form with page, componentSource := source }

/-! ## Meaning -/

/-- Where the pages of a section are published. -/
def publication (page : PageSection) : Document.Publication :=
  let defaults : Document.Publication := { package := page.package }
  { defaults with
    version := page.version.getD defaults.version
    language := page.language.getD defaults.language }

/-- The configuration of the file at a path. -/
def config (path : Text) (form : FileForm) : Config where
  page := form.page.map publication
  components := form.componentSource.map (Files.join ((Files.parent? path).getD "."))
  path := some path
  extended := form.extended

end FileForm

/-- The configuration that the text of a file gives. -/
def ofFile (env : Environment) (path content : Text) : Except ConfigError Config := do
  let some form := FileForm.ofText? content | throw .malformed
  ((← form.expand env).config path).checked

end DocPage.Config
