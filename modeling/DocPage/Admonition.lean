import DocPage.Text.Scan

/-!
# Admonitions

Styled containers for tips and warnings. Alert blockquotes become such containers; so do the
components `Tip`, `Added`, `Changed` and `Deprecated` inside parameter descriptions, which
`expandAll` replaces.
-/

namespace DocPage

/-- How an admonition looks. -/
inductive Admonition where
  | tip
  | warning
  deriving Repr, DecidableEq

namespace Admonition

def color : Admonition → Text
  | tip => "green"
  | warning => "orange"

/-- The class that sets a container apart from the plain one. -/
def modifier : Admonition → Text
  | tip => []
  | warning => " course-tip-orange"

def openTag (a : Admonition) : Text :=
  let c := a.color
  "<div class=\"course-tip" ++ a.modifier ++
    " bg-gradient-to-br dark:bg-gradient-to-r before:border-" ++ c ++
    "-500 dark:before:border-" ++ c ++ "-800 from-" ++ c ++
    "-50 dark:from-gray-900 to-white dark:to-gray-950 border border-" ++ c ++
    "-50 text-" ++ c ++ "-700 dark:text-gray-400\">"

def closeTag : Text := "</div>"

/-! ## Tips -/

/-- A tip at the start of a text: its kind and its body, which ends at the first closing tag. -/
def tipMatcher : Matcher (Admonition × Text) := fun t => do
  let rest ← Text.dropPrefix? "<Tip" t
  let warned := Text.dropPrefix? " warning=\x7btrue\x7d" rest
  let rest ← Text.dropPrefix? ">" (warned.getD rest)
  let (body, after) ← Text.splitOnce? "</Tip>" rest
  some (t.length - after.length, (if warned.isSome then warning else tip, body))

/-- The text with every tip in a container. -/
def expandTips (html : Text) : Text :=
  Text.mapMatches tipMatcher (fun _ (kind, body) => kind.openTag ++ body ++ closeTag) html

/-! ## Version notes -/

/-- A note on the version in which something changed. -/
structure ChangeNote where
  label : Text
  version : Text
  body : Text
  deriving Repr, DecidableEq

def noteLabels : List Text := ["Added", "Changed", "Deprecated"]

def isVersionChar (c : Char) : Bool :=
  c.isDigit || c == '.' || c == 'v'

/-- The end of a version note's opening tag: whether it closes itself, and what follows. -/
def noteTagEnd? (t : Text) : Option (Bool × Text) :=
  let t := (Text.dropPrefix? " " t).getD t
  match t with
  | '/' :: '>' :: rest => some (true, rest)
  | '>' :: rest => some (false, rest)
  | _ => none

/-- A version note with the given label at the start of a text. Its body ends at the closing tag; a
note that closes itself, or that has no closing tag after it, has an empty body. -/
def noteMatcher (label : Text) : Matcher ChangeNote := fun t => do
  let rest ← Text.dropPrefix? ('<' :: label ++ " version=\"") t
  let version := rest.takeWhile isVersionChar
  if version.isEmpty then none
  else
    let rest ← Text.dropPrefix? "\"" (rest.drop version.length)
    let (closesItself, rest) ← noteTagEnd? rest
    let closing := if closesItself then none else Text.splitOnce? ("</" ++ label ++ ">") rest
    match closing with
    | some (body, after) => some (t.length - after.length, ⟨label, version, body⟩)
    | none => some (t.length - rest.length, ⟨label, version, []⟩)

/-- A version note with any label at the start of a text. -/
def anyNoteMatcher : Matcher ChangeNote := fun t =>
  noteLabels.findSome? (noteMatcher · t)

/-- The look of a version note: deprecations warn. -/
def ChangeNote.kind (note : ChangeNote) : Admonition :=
  if note.label = "Deprecated".toList then warning else tip

def ChangeNote.render (note : ChangeNote) : Text :=
  note.kind.openTag ++ "<p class=\"font-medium\">" ++ note.label ++ " in " ++
    note.version ++ "</p>" ++ note.body ++ closeTag

/-- The text with every version note in a container. -/
def expandNotes (html : Text) : Text :=
  Text.mapMatches anyNoteMatcher (fun _ note => note.render) html

/-- The text with tips, and then version notes, in containers. -/
def expandAll (html : Text) : Text :=
  expandNotes (expandTips html)

end Admonition

end DocPage
