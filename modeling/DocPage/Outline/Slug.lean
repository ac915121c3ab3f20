import DocPage.Text.Basic
import DocPage.Unicode.Alphanumeric
import DocPage.Unicode.CaseMap

/-!
# Anchors of headings

A heading may name its anchor at its end, as `Title[ slug ]` or `Title [[slug]]`; otherwise the
anchor is derived from the title by `slugOf`.
-/

namespace DocPage.Outline

/-! ## Derived anchors -/

/-- `slugOf` in the middle of its work; `gap` tells that blanks were passed since the last character
that was kept. -/
def slugOfFrom (gap : Bool) : Text → Text
  | [] => []
  | c :: t =>
    if Unicode.isBlank c then slugOfFrom true t
    else if Unicode.isAlphanumeric c || c == '-' then
      (if gap then ['-'] else []) ++ Unicode.toLower c ++ slugOfFrom false t
    else slugOfFrom gap t

/-- The anchor derived from a title: letters, digits and hyphens in lower case, with one hyphen for
each run of blanks. -/
def slugOf (title : Text) : Text :=
  slugOfFrom false (Text.trim title)

/-! ## Explicit anchors -/

def isSlugChar (c : Char) : Bool :=
  c != '[' && c != ']' && !Unicode.isBlank c

/-- Reads, in a reversed text, blanks, a slug and blanks. The result is the slug, whether there were
blanks on both sides, and the rest of the reversed text. -/
def slugBackward? (reversed : Text) : Option (Text × Bool × Text) :=
  let fromSlug := reversed.dropWhile Unicode.isBlank
  let slug := fromSlug.takeWhile isSlugChar
  let afterSlug := fromSlug.drop slug.length
  let rest := afterSlug.dropWhile Unicode.isBlank
  if slug.isEmpty then none
  else some (slug.reverse,
    fromSlug.length < reversed.length && rest.length < afterSlug.length, rest)

/-- The bracketed slug at the end of a text, with the text in front of the brackets: double brackets
may hold blanks around the slug, single brackets must. -/
def bracketedSlug? (text : Text) : Option (Text × Text) :=
  match text.reverse with
  | ']' :: ']' :: reversed =>
    match slugBackward? reversed with
    | some (slug, _, '[' :: '[' :: front) => some (front.reverse, slug)
    | _ => none
  | ']' :: reversed =>
    match slugBackward? reversed with
    | some (slug, true, '[' :: front) => some (front.reverse, slug)
    | _ => none
  | _ => none

/-- A heading text split into its title and its explicit slug. The title may not span lines. -/
def splitAnchor (text : Text) : Text × Option Text :=
  match bracketedSlug? text with
  | some (front, slug) =>
    let title := Text.trimEnd front
    if title.elem '\n' then (text, none) else (title, some slug)
  | none => (text, none)

end DocPage.Outline
