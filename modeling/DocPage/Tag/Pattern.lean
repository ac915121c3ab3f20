import DocPage.Tag.Kind

/-!
# Finding tags

A pattern looks for spans `<name>body</name>` or `<name id="value">body</name>`. Spans do not nest:
when another opening tag of the name stands in the body, the outer tag counts as unterminated and
the search goes on after the closing tag.

## Architecture

- **Opening tags**: `openingAt?` reads one at the start of a text, `firstOpening?` finds the first
- **Segments**: `Pattern.segments` cuts a text into spans and the gaps between them; the sources of
  the segments are the text again
- **Matches**: `Pattern.located` gives every span with the text before it
-/

namespace DocPage.Tag

/-! ## Opening tags -/

/-- What an opening tag carries beside its name. -/
inductive Attributes where
  /-- Nothing but blanks. -/
  | bare
  /-- Exactly `id="value"`. -/
  | id (value : Text)
  /-- Anything else. -/
  | other
  deriving Repr, DecidableEq

/-- The value of an attribute list that is exactly `id="value"`, where blanks may surround the
equals sign and the value holds no quote. -/
def idValue? (attrs : Text) : Option Text := do
  let rest ← Text.dropPrefix? "id" attrs
  let rest ← Text.dropPrefix? "=" (Text.trimStart rest)
  let rest ← Text.dropPrefix? "\"" (Text.trimStart rest)
  let value ← Text.dropSuffix? "\"" rest
  if Text.contains "\"" value then none else some value

/-- Reads the text between the name and the `>` of an opening tag. -/
def Attributes.read (attrs : Text) : Attributes :=
  match Text.trim attrs with
  | [] => bare
  | trimmed =>
    match idValue? trimmed with
    | some value => .id value
    | none => other

/-- An opening tag, and the text that follows it. -/
structure Opening where
  /-- The tag as written, from `<` to `>`. -/
  markup : Text
  attributes : Attributes
  rest : Text
  deriving Repr, DecidableEq

/-- The opening tag of the given name at the start of the text. The name ends at `>` or at a blank,
so that a longer name is not mistaken for a shorter one. -/
def openingAt? (name t : Text) : Option Opening :=
  match Text.dropPrefix? ('<' :: name) t with
  | some (c :: rest) =>
    if c = '>' ∨ Unicode.isBlank c then
      match Text.splitOnce? ['>'] (c :: rest) with
      | some (attrs, after) =>
        some ⟨'<' :: name ++ attrs ++ ['>'], .read attrs, after⟩
      | none => none
    else none
  | _ => none

/-- The first opening tag of the given name, with the text before it. -/
def firstOpening? (name : Text) : Text → Option (Text × Opening)
  | [] => none
  | c :: t =>
    match openingAt? name (c :: t) with
    | some opening => some ([], opening)
    | none => (firstOpening? name t).map fun (before, opening) => (c :: before, opening)

/-! ## Patterns -/

/-- What to look for: a tag, and whether its opening tag needs an `id`. -/
structure Pattern where
  kind : Kind
  requiresId : Bool := false
  deriving Repr, DecidableEq

namespace Pattern

/-- The pattern for a tag that may carry an `id`. -/
def plain (kind : Kind) : Pattern := ⟨kind, false⟩

/-- The pattern for a tag that must carry an `id`. -/
def identified (kind : Kind) : Pattern := ⟨kind, true⟩

/-- The name that the pattern looks for. -/
def name (p : Pattern) : Text := p.kind.tagName

def closing (p : Pattern) : Text := "</" ++ p.name ++ ">"

/-- The `id` of an opening tag that fits the pattern; `none` when it does not fit. -/
def accept? (p : Pattern) : Attributes → Option (Option Text)
  | .bare => if p.requiresId then none else some none
  | .id value => some (some value)
  | .other => none

/-- Whether an opening tag of the name stands anywhere in the text. -/
def isPresent (p : Pattern) (t : Text) : Bool :=
  (firstOpening? p.name t).isSome

end Pattern

/-! ## Segments -/

/-- A matched tag. -/
structure Span where
  /-- The opening tag as written. -/
  opening : Text
  id : Option Text
  body : Text
  /-- The closing tag as written. -/
  closing : Text
  deriving Repr, DecidableEq

def Span.source (s : Span) : Text :=
  s.opening ++ s.body ++ s.closing

/-- A part of a text that was searched for tags. -/
inductive Segment where
  /-- Text that belongs to no match. -/
  | gap (text : Text)
  /-- A match. -/
  | span (s : Span)
  deriving Repr, DecidableEq

/-- The text that the segment was cut from. -/
def Segment.source : Segment → Text
  | gap text => text
  | span s => s.source

theorem length_rest_of_openingAt? {name t : Text} {o : Opening} (h : openingAt? name t = some o) :
    o.rest.length < t.length := by
  unfold openingAt? at h
  split at h
  · rename_i c rest hp
    have hlen := Text.length_of_dropPrefix? hp
    split at h
    · split at h
      · rename_i attrs after hs
        have := Text.length_of_splitOnce? hs
        simp only [Option.some.injEq] at h
        subst h
        simp only [List.length_cons, List.length_nil] at *
        omega
      · simp at h
    · simp at h
  · simp at h

theorem length_rest_of_firstOpening? {name t before : Text} {o : Opening}
    (h : firstOpening? name t = some (before, o)) : o.rest.length < t.length := by
  induction t generalizing before with
  | nil => simp [firstOpening?] at h
  | cons c t ih =>
    unfold firstOpening? at h
    split at h
    · rename_i opening ho
      simp only [Option.some.injEq, Prod.mk.injEq] at h
      exact h.2 ▸ length_rest_of_openingAt? ho
    · cases hn : firstOpening? name t with
      | none => simp [hn] at h
      | some pair =>
        simp only [hn, Option.map_some, Option.some.injEq, Prod.mk.injEq] at h
        have hn' : firstOpening? name t = some (pair.1, o) := by rw [hn, ← h.2]
        have := ih hn'
        simp only [List.length_cons]; omega

/-- The text cut into the spans of the pattern and the gaps between them.

An opening tag that does not fit the pattern belongs to a gap. Without a closing tag there is no
further span. A span that holds another opening tag of the name is passed over as a whole. -/
def Pattern.segments (p : Pattern) (t : Text) : List Segment :=
  match _hn : firstOpening? p.name t with
  | none => [.gap t]
  | some (before, opening) =>
    match p.accept? opening.attributes with
    | none => .gap (before ++ opening.markup) :: p.segments opening.rest
    | some id =>
      match _hs : Text.splitOnce? p.closing opening.rest with
      -- What is not closed here is closed nowhere behind, so the search ends.
      | none => [.gap t]
      | some (body, rest) =>
        if (firstOpening? p.name body).isSome then
          .gap (before ++ opening.markup ++ body ++ p.closing) :: p.segments rest
        else .gap before :: .span ⟨opening.markup, id, body, p.closing⟩ :: p.segments rest
termination_by t.length
decreasing_by
  all_goals have := length_rest_of_firstOpening? _hn
  · assumption
  all_goals
    have := Text.length_of_splitOnce? _hs
    omega

/-! ## Matches -/

/-- The spans among the segments of a text that continues `before`, each with all the text in front
of it. -/
def located (before : Text) : List Segment → List (Text × Span)
  | [] => []
  | .gap text :: rest => located (before ++ text) rest
  | .span s :: rest => (before, s) :: located (before ++ s.source) rest

namespace Pattern

/-- The matches in the text, in order, each with all the text in front of it. -/
def spans (p : Pattern) (t : Text) : List (Text × Span) :=
  located [] (p.segments t)

/-- The first match in the text, with the text in front of it. -/
def find? (p : Pattern) (t : Text) : Option (Text × Span) :=
  (p.spans t).head?

end Pattern

end DocPage.Tag
