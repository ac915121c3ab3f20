import DocPage.Tag.Pattern

/-!
# Replacing tags

`substitute` replaces every match of a pattern by what a transform makes of it. The transform sees
the match and all the text in front of it, and runs in a monad: effects happen in source order, and
the first failure is the failure of the whole substitution. What a transform returns is not searched
again.
-/

namespace DocPage.Tag

variable {m : Type → Type} [Monad m]

/-- Replaces the spans among the segments of a text that continues `before`. -/
def substituteSegments (transform : Text → Span → m Text) (before : Text) : List Segment → m Text
  | [] => pure []
  | .gap text :: rest => do
    let tail ← substituteSegments transform (before ++ text) rest
    pure (text ++ tail)
  | .span s :: rest => do
    let new ← transform before s
    let tail ← substituteSegments transform (before ++ s.source) rest
    pure (new ++ tail)

/-- The text with every match of the pattern replaced by the transform. -/
def substitute (p : Pattern) (transform : Text → Span → m Text) (t : Text) : m Text :=
  substituteSegments transform [] (p.segments t)

end DocPage.Tag
