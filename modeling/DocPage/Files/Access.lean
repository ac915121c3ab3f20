import DocPage.Files.Error

/-!
# Access to files

What the library asks of the files around it. Everything that touches files is written for any monad
with this access, so that it runs on the files of the system as well as on a tree in memory.
-/

namespace DocPage.Files

/-- The kinds of things that a path names. -/
inductive Kind where
  | file
  | directory
  deriving Repr, DecidableEq

/-- Access to files by path. -/
class Access (m : Type → Type) where
  /-- The content of a file. -/
  read : (path : Text) → m (Except FileError Text)
  /-- What a path names, if anything. -/
  kind? : (path : Text) → m (Option Kind)
  /-- The names in a directory. -/
  list : (path : Text) → m (Except FileError (List Text))
  /-- Writes a file, in place of one that is there. -/
  write : (path content : Text) → m (Except FileError Unit)
  /-- A bound on how many directories are one inside another. -/
  depth : m Nat

end DocPage.Files
