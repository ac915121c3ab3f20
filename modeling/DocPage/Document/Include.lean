import DocPage.Document.IncludeRequest
import DocPage.Files.Access
import DocPage.Files.Path
import DocPage.Render.Error
import DocPage.Tag.Substitute
import DocPage.Unicode.Alphanumeric

/-!
# Including code from files

An include tag becomes a fenced code block with lines of a file. Anchors at the ends of lines bound
the lines that are taken; the block is indented like the tag.
-/

namespace DocPage.Document

/-! ## Lines -/

/-- Whether a character can end an anchor. -/
def isAnchorChar (c : Char) : Bool :=
  Unicode.isAlphanumeric c || c == '_'

/-- The part of a line that an anchor is compared with: without blanks around it, and without
punctuation at its end. -/
def anchorPart (line : Text) : Text :=
  Text.dropRightWhile (!isAnchorChar ·) (Text.trim line)

/-- The position of the last line that ends with an anchor. -/
def lastAnchored? (anchor : Text) (lines : List Text) : Option Nat :=
  (lines.reverse.findIdx? fun line => Text.endsWith anchor (anchorPart line)).map
    fun fromEnd => lines.length - 1 - fromEnd

/-- The position of the last line with an anchor that may be given. -/
def anchorLine (path : Text) (lines : List Text) : Option Text → Except RenderError (Option Nat)
  | none => .ok none
  | some anchor =>
    match lastAnchored? anchor lines with
    | some i => .ok (some i)
    | none => .error (.includeAnchor anchor path)

/-- The lines between the anchors; all lines when there are none. -/
def excerpt (request : IncludeRequest) (path : Text) (lines : List Text) :
    Except RenderError (List Text) := do
  let start ← anchorLine path lines request.startAfter
  let stop ← anchorLine path lines request.endBefore
  let first := match start with
    | some i => i + 1
    | none => 0
  pure ((lines.take (stop.getD lines.length)).drop first)

/-- The line without up to `width` characters at its start; its end stays. -/
def dropIndent (width : Nat) (line : Text) : Text :=
  let content := Text.dropRightWhile (fun c => c == '\n' || c == '\r') line
  line.drop (min width content.length)

/-! ## The code block -/

/-- The blanks and tabs at the end of a text. -/
def trailingIndent (before : Text) : Text :=
  (before.reverse.takeWhile fun c => c == ' ' || c == '\t').reverse

def dropByteOrderMark (content : Text) : Text :=
  (Text.dropPrefix? ['\ufeff'] content).getD content

def fence : Text := "\x60\x60\x60"

/-- The fenced code block of the selected lines. -/
def fencedBlock (request : IncludeRequest) (indent : Text) (selected : List Text) : Text :=
  let body := selected.flatMap fun line => indent ++ dropIndent request.dedent line
  fence ++ request.language ++ '\n' :: Text.trimEnd body ++ '\n' :: indent ++ fence

/-- The code block for the content of an included file. -/
def includeBlock (request : IncludeRequest) (path indent content : Text) :
    Except RenderError Text := do
  let lines := Text.linesKeepEnds (dropByteOrderMark content)
  pure (fencedBlock request indent (← excerpt request path lines))

/-! ## Expansion -/

variable {m : Type → Type} [Monad m] [Files.Access m]

/-- The code block for an include tag with the given body. -/
def resolveInclude (base indent body : Text) : ExceptT RenderError m Text := do
  let payload := Text.trim body
  match IncludeRequest.read? payload with
  | none => throw (.includeRequest payload)
  | some request =>
    let path := Files.join base request.path
    match ← (Files.Access.read path : m _) with
    | .error e => throw (.includeRead path e)
    | .ok content => MonadExcept.ofExcept (includeBlock request path indent content)

/-- The source with every include tag replaced by its code block. Paths are seen from the directory
`base`. -/
def resolveIncludes (base source : Text) : ExceptT RenderError m Text :=
  Tag.substitute (.plain .literalInclude)
    (fun before span => resolveInclude base (trailingIndent before) span.body) source

end DocPage.Document
