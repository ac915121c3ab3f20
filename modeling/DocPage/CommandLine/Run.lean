import DocPage.Body.Search
import DocPage.CommandLine.Arguments
import DocPage.Config.Load
import DocPage.Document.Convert

/-!
# Running a command

A command loads the configuration, finds the components, reads its input and converts it. Only then
is anything written, so that a command that fails leaves no output behind. Warnings and failures go
to the diagnostics, apart from the output.

## Architecture

- **Failures**: `Failure`, with its message
- **Pages**: `convertInput` is what both actions share
- **Outcomes**: `run`, for any monad with access to files
-/

namespace DocPage.CommandLine

/-! ## Failures -/

inductive Failure where
  | config (cause : ConfigError)
  | search (cause : Body.SearchError)
  | file (cause : Files.FileError)
  | render (cause : RenderError)
  deriving Repr, DecidableEq

def Failure.message : Failure → Text
  | config cause => cause.message
  | search cause => "failed to discover components: ".toList ++ cause.message
  | file cause => cause.message
  | render cause => cause.message

/-! ## Pages -/

variable {m : Type → Type} [Monad m] [Files.Access m]

def vocabulary (config : Config) : ExceptT Body.SearchError m Body.Vocabulary :=
  match config.components with
  | some directory => Body.Vocabulary.ofDirectory directory
  | none => pure .standard

/-- The settings of a conversion. Includes are seen from the directory of the input. -/
def settings (config : Config) (vocabulary : Body.Vocabulary) (input : Text) :
    Document.Settings where
  vocabulary := vocabulary
  page := config.page
  baseDirectory := (Files.parent? input).getD "."
  extended := config.extended

/-- Converts the input of a job. -/
def convertInput (around : Config.Surroundings) (job : Job) : ExceptT Failure m Document.Page := do
  let config ← (Config.load around job.config (some job.overrides)).adapt Failure.config
  let known ← (vocabulary config).adapt Failure.search
  let source ← (ExceptT.mk (Files.Access.read job.input)).adapt Failure.file
  (Document.Page.convert (settings config known job.input) source).adapt Failure.render

/-! ## Outcomes -/

/-- What a command leaves behind, apart from files. -/
structure Outcome where
  /-- The exit code. -/
  code : Nat
  output : Text := []
  diagnostics : Text := []
  deriving Repr, DecidableEq

/-- The text on a line of its own. -/
def line (t : Text) : Text :=
  t.concat '\n'

/-- The text with a line feed at its end. -/
def endLine (t : Text) : Text :=
  if t.getLast? == some '\n' then t else line t

def errorLine (failure : Failure) : Text :=
  line ("Error: ".toList ++ failure.message)

def warningLines (warnings : List Text) : Text :=
  warnings.flatMap fun warning => line ("Warning: ".toList ++ warning)

/-- Writes a page to its file, or to the output when there is none. -/
def emit (page : Document.Page) : Option Text → m Outcome
  | none =>
    pure { code := 0, output := endLine page.html, diagnostics := warningLines page.warnings }
  | some path => do
    match ← Files.Access.write path page.html with
    | .ok () =>
      pure { code := 0,
             diagnostics := warningLines page.warnings ++ line ("Wrote ".toList ++ path) }
    | .error cause =>
      pure { code := 1, diagnostics := warningLines page.warnings ++ errorLine (.file cause) }

def perform (around : Config.Surroundings) (job : Job) : m Outcome := do
  match ← (convertInput around job).run with
  | .error failure => pure { code := 1, diagnostics := errorLine failure }
  | .ok page =>
    match job.action with
    | .convert => emit page job.output
    | .outline => pure { code := 0, output := endLine page.metadata.toJson.pretty }

def versionLine : Text := "docmark 0.1.0"

def usage : Text := "Usage: docmark [-v] <convert|outline> [OPTIONS] <INPUT>

Commands:
  convert  Convert a documentation source into component markup
  outline  Print the heading outline as JSON

Options:
  -o, --output <PATH>      Output file of convert (default: standard output)
  -c, --config <PATH>      Configuration file (default: the nearest docmark.toml)
      --package <NAME>     Package name used for image links
      --version <VERSION>  Documentation version used for image links
      --language <CODE>    Documentation language used for image links
      --components <PATH>  Directory scanned for component names
      --no-gfm             Disable the extensions of Markdown
  -v, --verbose            Print progress notes
  -h, --help               Print this help
  -V, --version            Print the version, in front of a command"

/-- Runs the program with its arguments. -/
def run (around : Config.Surroundings) (args : List Text) : m Outcome :=
  match Request.ofArguments args with
  | .run job => perform around job
  | .showVersion => pure { code := 0, output := line versionLine }
  | .showHelp => pure { code := 0, output := line usage }
  | .misuse => pure { code := 2, diagnostics := line usage }

end DocPage.CommandLine
