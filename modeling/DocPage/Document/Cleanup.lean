import DocPage.Document.Publication
import DocPage.Code.Split
import DocPage.Text.Scan

/-!
# Cleaning sources

Before a source is searched for tags, artifacts of doctests are removed, and the links to images of
the repository are pointed at the published pages.
-/

namespace DocPage.Document

/-! ## Doctests -/

/-- A split marker behind a prompt. -/
def promptedMarker : Text := ">>> # ".toList ++ Code.Marker.frameworks.literal

def isTabOrSpace (c : Char) : Bool :=
  c == ' ' || c == '\t'

/-- Whether a character can stand in the name of a doctest flag. -/
def isFlagChar (c : Char) : Bool :=
  c.isUpper || c == '_'

/-- Drops blanks and tabs, of which there is at least one. -/
def dropSpaces? (t : Text) : Option Text :=
  match t with
  | c :: rest => if isTabOrSpace c then some (rest.dropWhile isTabOrSpace) else none
  | [] => none

/-- The text of a prompt line in front of the doctest flag at its end. -/
def beforeFlag? (line : Text) : Option Text := do
  let reversed := line.reverse.dropWhile isTabOrSpace
  let beforeName := reversed.dropWhile isFlagChar
  if beforeName.length = reversed.length then none
  else
    let rest ← Text.dropPrefix? ['+'] beforeName
    let rest ← dropSpaces? rest
    let rest ← Text.dropPrefix? "# doctest:".toList.reverse rest
    let rest ← dropSpaces? rest
    let last ← rest.head?
    let code ← Text.dropPrefix? ">>>" rest.reverse
    if Unicode.isBlank last || code.isEmpty then none else some rest.reverse

/-- The line without a doctest flag at its end. -/
def dropFlag (line : Text) : Text :=
  (beforeFlag? line).getD line

/-- The source without prompts in front of split markers and without doctest flags. -/
def cleanDoctests (source : Text) : Text :=
  Text.mapLines dropFlag (Text.replace promptedMarker Code.Marker.frameworks.literal source)

/-! ## Image links -/

/-- Whether a character can stand in the name of a group reference without braces. -/
def isGroupNameChar (c : Char) : Bool :=
  c.isAlphanum || c == '_'

/-- A group reference after its `$`: its length, and the number of the group when it has one. -/
def groupReference? : Text → Option (Nat × Option Nat)
  | '{' :: t =>
    let name := t.takeWhile (· != '}')
    if name.length < t.length then some (name.length + 2, Text.toWord? name) else none
  | t =>
    let name := t.takeWhile isGroupNameChar
    if name.isEmpty then none else some (name.length, Text.toWord? name)

/-- `expandTemplate` in the middle of its work: the next `skip` characters belong to a reference. -/
def expandTemplateFrom (group : Nat → Text) : (skip : Nat) → Text → Text
  | _, [] => []
  | skip + 1, _ :: t => expandTemplateFrom group skip t
  | 0, c :: t =>
    if c != '$' then c :: expandTemplateFrom group 0 t
    else if t.head? == some '$' then '$' :: expandTemplateFrom group 1 t
    else
      match groupReference? t with
      | some (length, number) =>
        (number.map group).getD [] ++ expandTemplateFrom group length t
      | none => '$' :: expandTemplateFrom group 0 t

/-- The template with its references `$name` and `${name}` replaced by groups of a match; `$$` is a
dollar sign, and a name that is no number means nothing. -/
def expandTemplate (group : Nat → Text) (template : Text) : Text :=
  expandTemplateFrom group 0 template

/-- The path of images in the repository. -/
def imagePath : Text := "/imgs/"

/-- What stands in front of the path of an image. -/
def imageLinkStarts : List Text := ["src=\"", "("]

/-- An image link at the start of a text: its length and what stands in front of its path. -/
def imageLinkMatcher : Matcher Text := fun t =>
  imageLinkStarts.findSome? fun start =>
    if Text.startsWith (start ++ imagePath) t then some (start.length + imagePath.length, start)
    else none

/-- The path of images of a published page, as a template. -/
def Publication.imageTemplate (page : Publication) : Text :=
  "/docs/".toList ++ page.package ++ '/' :: page.version ++ '/' :: page.language ++ imagePath

/-- The source with its image links pointed at the published page. -/
def publishImageLinks (page : Publication) (source : Text) : Text :=
  Text.mapMatches imageLinkMatcher (fun written start =>
    start ++ expandTemplate (fun n => if n = 0 then written else if n = 1 then start else [])
      page.imageTemplate) source

/-- The source without artifacts of doctests, and with image links for the page when it is
published. -/
def clean (page : Option Publication) (source : Text) : Text :=
  let cleaned := cleanDoctests source
  match page with
  | some page => publishImageLinks page cleaned
  | none => cleaned

end DocPage.Document
