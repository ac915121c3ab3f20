import DocPage.Text.Basic

/-!
# Paths

A path is a text in which slashes separate names. Nothing is resolved: `join` and `parent?` work on
the text alone, and keep it as it was written.
-/

namespace DocPage.Files

/-- The path `p` seen from the directory `base`. An absolute path stands for itself. -/
def join (base p : Text) : Text :=
  if p.head? == some '/' || base.isEmpty then p
  else if base.getLast? == some '/' then base ++ p
  else base ++ '/' :: p

/-- The part of a path that is not made of names: a leading slash or a leading dot. -/
def leadLength : Text → Nat
  | '/' :: _ => 1
  | ['.'] => 1
  | '.' :: '/' :: _ => 1
  | _ => 0

/-- The names of a path without slashes, and names that are a single dot, at the start. -/
def trimNamesStart : (names : Text) → Text
  | '/' :: rest => trimNamesStart rest
  | ['.'] => []
  | '.' :: '/' :: rest => trimNamesStart rest
  | names => names

/-- The names of a path without slashes, and names that are a single dot, at the end. -/
def trimNamesEnd (names : Text) : Text :=
  (trimNamesStart names.reverse).reverse

def isSlash (c : Char) : Bool :=
  c == '/'

/-- The directory that holds what a path names. -/
def parent? (p : Text) : Option Text :=
  let lead := p.take (leadLength p)
  let names := trimNamesEnd (p.drop lead.length)
  if names.isEmpty then if lead == ['.'] then some [] else none
  else some (lead ++ trimNamesEnd (Text.dropRightWhile (!isSlash ·) names))

/-- `ancestors` of at most `fuel` paths. -/
def ancestorsFrom : (fuel : Nat) → (p : Text) → List Text
  | 0, p => [p]
  | fuel + 1, p =>
    match parent? p with
    | some above => p :: ancestorsFrom fuel above
    | none => [p]

/-- A path, and all directories above it from the nearest on. -/
def ancestors (p : Text) : List Text :=
  ancestorsFrom p.length p

def nameOf (p : Text) : Text :=
  (p.reverse.takeWhile (!isSlash ·)).reverse

/-- The name of a file without its extension. A leading dot starts no extension. -/
def stem (name : Text) : Text :=
  match name.reverse.dropWhile (· != '.') with
  | '.' :: front => if front.isEmpty then name else front.reverse
  | _ => name

end DocPage.Files
