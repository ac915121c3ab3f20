import DocPage.Body.Vocabulary
import DocPage.Files.Glob

/-!
# Searching for components

The components of a documentation build are files with the extension `svelte`, at any depth under a
directory. Each of them makes its name, without the extension, known. The path of the directory
is part of a glob pattern, so that wildcards in it stand for several directories.
-/

namespace DocPage.Body

inductive SearchError where
  /-- The path of the directory makes no glob pattern. -/
  | pattern
  /-- A directory could not be read. -/
  | walk (cause : Files.FileError)
  deriving Repr, DecidableEq

def SearchError.message : SearchError → Text
  | pattern => "invalid component directory pattern"
  | walk _ => "failed to read component directory"

/-- The glob pattern of the components under a directory. -/
def componentPattern (directory : Text) : Text :=
  Files.join (Files.join directory "**") "*.svelte"

variable {m : Type → Type} [Monad m] [Files.Access m]

def componentsIn (directory : Text) : ExceptT SearchError m (List Text) := do
  let some (start, steps) := Files.globSteps? (componentPattern directory) | throw .pattern
  let paths ← (Files.followSteps steps start).adapt SearchError.walk
  pure (paths.map fun path => Files.stem (Files.nameOf path))

/-- The standard tags and the components under a directory. -/
def Vocabulary.ofDirectory (directory : Text) : ExceptT SearchError m Vocabulary := do
  pure (standard.extend (← componentsIn directory))

end DocPage.Body
