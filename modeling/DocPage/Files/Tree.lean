import DocPage.Files.Access

/-!
# Trees of files

Files and directories in memory, with a working directory that relative paths start from. A location
is the list of names from the root down. Every directory in front of a name must exist, also when
`..` leaves it again.
-/

namespace DocPage.Files

/-- What stands at a location. The content of a file is absent when it is not UTF-8. -/
inductive Entry where
  | file (content : Option Text)
  | directory
  deriving Repr, DecidableEq

/-- Files and directories, and the working directory. -/
structure Tree where
  entries : List (List Text × Entry) := []
  workingDirectory : List Text := []
  deriving Repr, DecidableEq

namespace Tree

/-- What stands at a location; the root is a directory. -/
def entry? (t : Tree) (location : List Text) : Option Entry :=
  if location.isEmpty then some .directory else t.entries.lookup location

def insert (t : Tree) (location : List Text) (entry : Entry) : Tree :=
  { t with entries := (location, entry) :: t.entries.filter (·.1 != location) }

/-- The tree with a directory at a location, and directories above it. -/
def makeDirectory (t : Tree) (location : List Text) : Tree :=
  (List.range location.length).foldl (fun t n =>
    let above := location.take (n + 1)
    if (t.entry? above).isSome then t else t.insert above .directory) t

/-- The location that a sequence of names leads to. -/
def follow (t : Tree) (location : List Text) : List Text → Except FileError (List Text)
  | [] => .ok location
  | name :: rest =>
    match t.entry? location with
    | none => .error .notFound
    | some (.file _) => .error .notADirectory
    | some .directory =>
      if name == "".toList || name == ".".toList then t.follow location rest
      else if name == "..".toList then t.follow location.dropLast rest
      else t.follow (location ++ [name]) rest

/-- The location of a path. Its last name need not exist. -/
def locate (t : Tree) (path : Text) : Except FileError (List Text) :=
  match path with
  | [] => .error .notFound
  | '/' :: rest => t.follow [] (Text.splitAll '/' rest)
  | path => t.follow t.workingDirectory (Text.splitAll '/' path)

def find? (t : Tree) (path : Text) : Option Entry :=
  match t.locate path with
  | .ok location => t.entry? location
  | .error _ => none

def read (t : Tree) (path : Text) : Except FileError Text :=
  match t.locate path with
  | .error e => .error e
  | .ok location =>
    match t.entry? location with
    | some (.file (some content)) => .ok content
    | some (.file none) => .error .invalidData
    | some .directory => .error .isADirectory
    | none => .error .notFound

def kind? (t : Tree) (path : Text) : Option Kind :=
  (t.find? path).map fun
    | .file _ => .file
    | .directory => .directory

def list (t : Tree) (path : Text) : Except FileError (List Text) :=
  match t.locate path with
  | .error e => .error e
  | .ok location =>
    match t.entry? location with
    | some .directory => .ok (t.entries.filterMap fun (inner, _) =>
        if inner.dropLast == location then inner.getLast? else none)
    | some (.file _) => .error .notADirectory
    | none => .error .notFound

/-- The tree after a file is written. A path that ends with a slash names a directory. -/
def write (t : Tree) (path content : Text) : Except FileError Tree :=
  match t.locate (Text.dropRightWhile (· == '/') path) with
  | .error e => .error e
  | .ok location =>
    if path.getLast? == some '/' || t.entry? location == some .directory then .error .isADirectory
    else .ok (t.insert location (.file (some content)))

/-- A bound on how many directories are one inside another. -/
def depth (t : Tree) : Nat :=
  t.entries.foldr (fun (location, _) below => max location.length below) 0 + 1

/-- Work on a tree in memory has access to its files. -/
instance : Access (StateM Tree) where
  read path := do pure ((← get).read path)
  kind? path := do pure ((← get).kind? path)
  list path := do pure ((← get).list path)
  write path content := do
    match (← get).write path content with
    | .ok t => set t; pure (.ok ())
    | .error e => pure (.error e)
  depth := do pure (← get).depth

end Tree

end DocPage.Files
