import DocPage.Text.Basic

/-!
# Failures of file access

Reading and writing fail for one of a few reasons. The message of a failure is what the operating
system calls it.
-/

namespace DocPage.Files

inductive FileError where
  | notFound
  | isADirectory
  | notADirectory
  /-- The content is not UTF-8. -/
  | invalidData
  /-- Any other reason, with its message. -/
  | other (message : Text)
  deriving Repr, DecidableEq

def FileError.message : FileError → Text
  | notFound => "No such file or directory (os error 2)"
  | isADirectory => "Is a directory (os error 21)"
  | notADirectory => "Not a directory (os error 20)"
  | invalidData => "stream did not contain valid UTF-8"
  | other message => message

end DocPage.Files
