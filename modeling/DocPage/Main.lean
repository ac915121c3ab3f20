import DocPage.CommandLine.Run

/-!
# The program

The outer layer: the files of the system, the arguments and the environment of the process, and its
output.
-/

namespace DocPage.Host

open Files (FileError)

/-- The failure that the system reports. -/
def fileError : IO.Error → FileError
  | .noFileOrDirectory .. => .notFound
  | .inappropriateType _ code _ => if code == 20 then .notADirectory else .isADirectory
  | e => .other (toString e).toList

/-- Runs an action on files, where an empty path names nothing. -/
def attempt {α : Type} (path : Text) (action : IO (Except FileError α)) : IO (Except FileError α) :=
  if path.isEmpty then pure (.error .notFound)
  else
    try action
    catch e => pure (.error (fileError e))

/-- The number of bytes in the longest path of the system. Directories are not deeper. -/
def longestPath : Nat := 4096

/-- The files of the system. -/
instance : Files.Access IO where
  read path := attempt path do
    let bytes ← IO.FS.readBinFile (String.ofList path)
    match String.fromUTF8? bytes with
    | some content => pure (.ok content.toList)
    | none => pure (.error .invalidData)
  kind? path := do
    let found ← attempt path do
      let place := (← IO.currentDir) / String.ofList path
      pure (.ok (← place.metadata).type)
    match found with
    | .error _ => pure none
    | .ok .dir => pure (some .directory)
    | .ok _ => pure (some .file)
  list path := attempt path do
    let place := (← IO.currentDir) / String.ofList path
    pure (.ok ((← place.readDir).toList.map fun entry => entry.fileName.toList))
  write path content := attempt path do
    IO.FS.writeFile (String.ofList path) (String.ofList content)
    pure (.ok ())
  depth := pure longestPath

/-- The variables of the process, as the system lists them. -/
def environment : IO Environment := do
  let listed ← try IO.FS.readBinFile "/proc/self/environ" catch _ => pure .empty
  let settings := Text.splitAll '\x00' ((String.fromUTF8? listed).getD "").toList
  pure (settings.filterMap (Text.splitOnce? ['=']))

/-- What the process sees of the world besides files. -/
def surroundings : IO Config.Surroundings := do
  pure ⟨← environment, (← IO.currentDir).toString.toList⟩

end DocPage.Host

/-- Runs the program with the arguments of the process. -/
def main (args : List String) : IO UInt32 := do
  let outcome ← DocPage.CommandLine.run (← DocPage.Host.surroundings) (args.map String.toList)
  (← IO.getStdout).putStr (String.ofList outcome.output)
  (← IO.getStderr).putStr (String.ofList outcome.diagnostics)
  pure outcome.code.toUInt32
