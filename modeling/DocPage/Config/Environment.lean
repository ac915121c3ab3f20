import DocPage.Text.Scan
import DocPage.Unicode.Alphanumeric

/-!
# Variables of the environment

A configuration value may refer to variables: `${name}`, or `${name:-fallback}` for a variable that
need not be set. In a value with a braced reference `$name` is a reference too, and two dollar signs
stand for one. Other values are taken as they are, and what comes out of a reference is not read
again.
-/

namespace DocPage

/-- The variables that are set, with their values. -/
abbrev Environment := List (Text × Text)

namespace Environment

/-- What a dollar sign starts. -/
inductive Reference where
  /-- The value of a variable, or the fallback when it is not set. -/
  | variable (name : Text) (fallback : Option Text)
  /-- A dollar sign that starts nothing. -/
  | dollar
  deriving Repr, DecidableEq

def isNameChar (c : Char) : Bool :=
  Unicode.isAlphanumeric c || c == '_'

/-- The reference that braces hold. A fallback needs a name in front of it. -/
def bracedReference (t : Text) : Reference :=
  match Text.splitOnce? ":-" t with
  | some (c :: name, fallback) => .variable (c :: name) (some fallback)
  | _ => .variable t none

/-- A reference at the start of a text. -/
def reference : Matcher Reference
  | '$' :: '\x7b' :: t =>
    let inner := t.takeWhile (· != '\x7d')
    if inner.length = t.length then none else some (inner.length + 3, bracedReference inner)
  | '$' :: '$' :: _ => some (2, .dollar)
  | '$' :: t =>
    let name := t.takeWhile isNameChar
    if name.isEmpty then none else some (name.length + 1, .variable name none)
  | _ => none

/-- What a part of a value stands for. The failure is the name of a variable that is not set. -/
def expandPiece (env : Environment) : Piece Reference → Except Text Text
  | .plain c => .ok [c]
  | .hit _ .dollar => .ok ['$']
  | .hit _ (.variable name fallback) =>
    match env.lookup name, fallback with
    | some value, _ => .ok value
    | none, some fallback => .ok fallback
    | none, none => .error name

/-- The value with its references replaced. The failure is the name of a variable that is not
set. -/
def expand (env : Environment) (value : Text) : Except Text Text :=
  if Text.contains "$\x7b" value then
    ((Text.pieces reference value).mapM (expandPiece env)).map List.flatten
  else .ok value

end Environment

end DocPage
