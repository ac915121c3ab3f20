import DocPage.Files.Path
import DocPage.Files.Access

/-!
# Glob patterns

A glob pattern is a path whose names may hold wildcards: `?` for one character, `*` for any number
of them, `[...]` and `[!...]` for one of or none of the listed characters, and the name `**` for
directories at any depth. Matching regards case; a wildcard also matches a leading dot.

## Architecture

- **Names**: `Wildcard`, `NamePattern` and `accepts`
- **Patterns**: `GlobStep`, and `globSteps?` which refuses what is no pattern
- **Search**: `glob` follows the steps from directory to directory
-/

namespace DocPage.Files

/-! ## Names -/

/-- A part of a pattern for a name. -/
inductive Wildcard where
  /-- The character itself. -/
  | exactly (c : Char)
  /-- Any one character. -/
  | anyOne
  /-- Any characters, or none. -/
  | anyMany
  /-- One character in one of the ranges, or in none of them when `negated`. -/
  | oneOf (negated : Bool) (ranges : List (Char × Char))
  deriving Repr, DecidableEq

abbrev NamePattern := List Wildcard

/-- Whether a wildcard for one character matches it. -/
def Wildcard.accepts : Wildcard → Char → Bool
  | exactly c, d => c == d
  | oneOf negated ranges, d => negated != ranges.any fun (low, high) => low ≤ d && d ≤ high
  | _, _ => true

/-- Whether a name matches a pattern. -/
def NamePattern.accepts : NamePattern → Text → Bool
  | [], name => name.isEmpty
  | .anyMany :: rest, [] => accepts rest []
  | .anyMany :: rest, c :: name => accepts rest (c :: name) || accepts (.anyMany :: rest) name
  | _ :: _, [] => false
  | w :: rest, c :: name => w.accepts c && accepts rest name
termination_by p name => p.length + name.length

/-- The ranges that the inside of brackets lists. -/
def bracketRanges : Text → List (Char × Char)
  | low :: '-' :: high :: rest => (low, high) :: bracketRanges rest
  | c :: rest => (c, c) :: bracketRanges rest
  | [] => []

/-- The wildcard that follows an opening bracket, and its length up to the closing bracket. The
first listed character may itself be a closing bracket. -/
def bracket? (t : Text) : Option (Nat × Wildcard) :=
  let negated := t.head? == some '!'
  match if negated then t.tail else t with
  | first :: rest =>
    let listed := rest.takeWhile (· != ']')
    if listed.length = rest.length then none
    else
      some ((if negated then 1 else 0) + 1 + listed.length + 1,
        .oneOf negated (bracketRanges (first :: listed)))
  | [] => none

/-- `NamePattern.ofText?` in the middle of its work: the next `skip` characters belong to
brackets. -/
def namePatternFrom? : (skip : Nat) → Text → Option NamePattern
  | _, [] => some []
  | skip + 1, _ :: t => namePatternFrom? skip t
  | 0, '?' :: t => (namePatternFrom? 0 t).map (.anyOne :: ·)
  | 0, '*' :: t =>
    if t.head? == some '*' then none else (namePatternFrom? 0 t).map (.anyMany :: ·)
  | 0, '[' :: t => do
    let (length, wildcard) ← bracket? t
    (namePatternFrom? length t).map (wildcard :: ·)
  | 0, c :: t => (namePatternFrom? 0 t).map (.exactly c :: ·)

/-- The pattern that a text writes. Two stars in a row and open brackets are refused. -/
def NamePattern.ofText? (t : Text) : Option NamePattern :=
  namePatternFrom? 0 t

/-! ## Patterns -/

/-- A step of a search. -/
inductive GlobStep where
  /-- To the directory itself and all directories below it. -/
  | anyDepth
  /-- To what has the given name, without a look into the directory. -/
  | named (name : Text)
  /-- To everything in the directory whose name matches. The names of `dots`, which no directory
  lists, are tried as well or not. -/
  | matching (dots : Bool) (pattern : NamePattern)
  deriving Repr, DecidableEq

/-- The name that a pattern without wildcards stands for. -/
def NamePattern.literal? (p : NamePattern) : Option Text :=
  p.mapM fun
    | .exactly c => some c
    | _ => none

/-- The step for one name of a pattern. Below any depth the listed names are matched, also with a
name without wildcards, so that neither `.` nor `.*` leads to a dot there. -/
def GlobStep.ofName? (belowAnyDepth : Bool) (name : Text) : Option GlobStep :=
  if name == "**".toList then some .anyDepth
  else
    (NamePattern.ofText? name).map fun p =>
      if belowAnyDepth then .matching false p
      else
        match p.literal? with
        | some literal => .named literal
        | none => .matching true p

/-- The steps for the names of a pattern. -/
def globStepsFrom? (belowAnyDepth : Bool) : List Text → Option (List GlobStep)
  | [] => some []
  | name :: names => do
    let step ← GlobStep.ofName? belowAnyDepth name
    (globStepsFrom? (step == .anyDepth) names).map (step :: ·)

/-- The directory where the search for a pattern starts, and its steps. A slash at the end adds no
name. -/
def globSteps? (pattern : Text) : Option (Text × List GlobStep) :=
  let (start, relative) : Text × Text := match pattern with
    | '/' :: rest => (['/'], rest)
    | _ => (['.'], pattern)
  let names := Text.splitAll '/' ((Text.dropSuffix? ['/'] relative).getD relative)
  (globStepsFrom? false (if relative.isEmpty then [] else names)).map (start, ·)

/-! ## Search -/

/-- What a name in a directory is called, where the working directory needs no mention. -/
def inside (directory name : Text) : Text :=
  if directory == ['.'] then name else join directory name

section

variable {m : Type → Type} [Monad m] [Access m]

def isDirectory (path : Text) : m Bool := do
  pure ((← Access.kind? path) == some .directory)

/-- The names in a directory, and none when the path is no directory. -/
def namesIn (path : Text) : ExceptT FileError m (List Text) := do
  if ← isDirectory (m := m) path then ExceptT.mk (Access.list path) else pure []

/-- A directory and all directories below it. `depth` bounds how deep they are. -/
def directoriesFrom : (depth : Nat) → (path : Text) → ExceptT FileError m (List Text)
  | 0, _ => pure []
  | depth + 1, path => do
    if ← isDirectory (m := m) path then
      let below ← (← namesIn path).mapM fun name => directoriesFrom depth (inside path name)
      pure (path :: below.flatten)
    else pure []

/-- The names `.` and `..` as far as a pattern with a leading dot matches them. -/
def dotNames (p : NamePattern) : List Text :=
  if p.head? == some (.exactly '.') then [['.'], ['.', '.']].filter p.accepts else []

/-- Where a step leads from a path. -/
def GlobStep.follow (path : Text) : GlobStep → ExceptT FileError m (List Text)
  | .anyDepth => do directoriesFrom (← Access.depth (m := m)) path
  | .named name => do
    let next := inside path name
    let found ← if name == ['.'] || name == ['.', '.'] then isDirectory (m := m) path
      else do pure (← Access.kind? (m := m) next).isSome
    pure (if found then [next] else [])
  | .matching dots p => do
    let names ← namesIn path
    let special := if dots && (← isDirectory (m := m) path) then dotNames p else []
    pure ((names.filter p.accepts ++ special).map (inside path))

/-- Where a sequence of steps leads from a path. -/
def followSteps : List GlobStep → (path : Text) → ExceptT FileError m (List Text)
  | [], path => pure [path]
  | step :: steps, path => do
    let next ← GlobStep.follow path step
    pure (← next.mapM (followSteps steps)).flatten

end

end DocPage.Files
