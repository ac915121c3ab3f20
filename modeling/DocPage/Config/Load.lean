import DocPage.Config.FileForm
import DocPage.Files.Access

/-!
# Loading a configuration

The configuration comes from the file that is asked for. Without one it comes from the nearest file
of a given name, in the working directory or above it, and without such a file it has its defaults.
-/

namespace DocPage.Config

/-- What a process sees of the world besides files. -/
structure Surroundings where
  environment : Environment := []
  /-- The absolute path of the working directory. -/
  workingDirectory : Text
  deriving Repr

def fileName : Text := "docmark.toml"

variable {m : Type → Type} [Monad m] [Files.Access m]

/-- The first of the paths that names a file. -/
def firstFile? : List Text → m (Option Text)
  | [] => pure none
  | path :: paths => do
    if (← Files.Access.kind? path) == some .file then pure (some path) else firstFile? paths

/-- The nearest configuration file, in a directory or above it. -/
def nearest? (directory : Text) : m (Option Text) :=
  firstFile? ((Files.ancestors directory).map fun above => Files.join above fileName)

def read (env : Environment) (path : Text) : ExceptT ConfigError m Config := do
  let content ← (ExceptT.mk (Files.Access.read path)).adapt ConfigError.unreadable
  MonadExcept.ofExcept (ofFile env path content)

/-- The path of the configuration file, if there is one. A path that is asked for must exist. -/
def source? (around : Surroundings) : Option Text → ExceptT ConfigError m (Option Text)
  | some path => do
    if (← Files.Access.kind? (m := m) path).isSome then pure (some path) else throw (.notFound path)
  | none => nearest? (m := m) around.workingDirectory

/-- Loads the configuration. Values that take precedence are put in after the file is checked, and
the outcome is checked again. -/
def load (around : Surroundings) (asked : Option Text) (overrides : Option Overrides) :
    ExceptT ConfigError m Config := do
  let config ← match ← source? around asked with
    | some path => read around.environment path
    | none => pure {}
  match overrides with
  | some o => MonadExcept.ofExcept (config.override o).checked
  | none => pure config

end DocPage.Config
