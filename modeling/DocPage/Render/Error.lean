import DocPage.Files.Error

/-!
# Failures of rendering

Each of these stops the conversion of a document; no partial output is given.
-/

namespace DocPage

inductive RenderError where
  /-- A field that a docstring must have is absent; the context names the docstring. -/
  | missingField (field context : Text)
  /-- The math renderer rejected an expression. -/
  | math (tex reason : Text)
  /-- The payload of an include is not the JSON that it should be. -/
  | includeRequest (payload : Text)
  /-- An included file could not be read. -/
  | includeRead (path : Text) (cause : Files.FileError)
  /-- No line of the included file ends with the anchor. -/
  | includeAnchor (anchor path : Text)
  deriving Repr, DecidableEq

def RenderError.message : RenderError → Text
  | missingField field context =>
    "<" ++ field ++ "> is missing in <docstring> for " ++ context
  | math tex reason => "failed to render math \x60" ++ tex ++ "\x60: " ++ reason
  | includeRequest payload => "invalid <literalinclude> payload \x60" ++ payload ++ "\x60"
  | includeRead path cause => "failed to read included file " ++ path ++ ": " ++ cause.message
  | includeAnchor anchor path => "anchor \x60" ++ anchor ++ "\x60 not found in " ++ path

end DocPage
