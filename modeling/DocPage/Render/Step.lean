import DocPage.Body.RawMarkup
import DocPage.Component
import DocPage.Math
import DocPage.Render.Error
import DocPage.Render.State

/-!
# Rendering events

`step` takes the state over one event. It is a total function; the only event that can fail is math,
and a failed step has no new state. `run` folds it over a list of events, and `render` also hands
over the finished page.

Headings become components, alert quotes become admonitions, and inside the body region text and raw
markup are escaped so that no opening brace of them stays.
-/

namespace DocPage.Render

/-- What the renderer is given and never changes. -/
structure Settings where
  vocabulary : Body.Vocabulary := .standard
  math : MathRenderer := delimitedMath

/-! ## Leaves -/

/-- The text as it stands in the page. -/
def escapeIn (region : Body.Region) (t : Text) : Text :=
  if region.isInside then Html.escapeBraced t else Html.escape t

namespace State

/-- Text goes to the innermost element that swallows it. A text that is a sentinel moves the region
and is not written. -/
def text (s : State) (t : Text) : State :=
  match s.code with
  | some code => { s with code := some { code with source := code.source ++ t } }
  | none =>
    match s.image with
    | some image => { s with image := some { image with alt := image.alt ++ t } }
    | none =>
      if s.heading.isSome then s.addToHeading t
      else
        match Body.Sentinel.ofChunk? t with
        | some sentinel => { s with region := s.region.pass sentinel }
        | none => s.write (escapeIn s.region t)

def codeSpan (s : State) (t : Text) : State :=
  if s.heading.isSome then s.addToHeading t
  else s.write ("<code>" ++ escapeIn s.region t ++ "</code>")

/-- Raw HTML. Headings drop it. A sentinel is written and moves the region. -/
def rawMarkup (settings : Settings) (s : State) (t : Text) : State :=
  if s.heading.isSome then s
  else
    match Body.Sentinel.ofChunk? t with
    | some sentinel => { s with region := s.region.pass sentinel }.write t
    | none =>
      s.write (if s.region.isInside then Body.escapeChunk settings.vocabulary t else t)

/-- Math. In a heading its source counts as text. -/
def math (settings : Settings) (s : State) (tex : Text) (display : Bool) :
    Except RenderError State :=
  if s.heading.isSome then .ok (s.addToHeading tex)
  else
    match settings.math tex display with
    | .ok html => .ok (s.write html)
    | .error reason => .error (.math tex reason)

/-- A line break of the source. -/
def softBreak (s : State) : State :=
  if s.heading.isSome then s.addToHeading [' '] else s.write ['\n']

def taskMarker (s : State) (checked : Bool) : State :=
  s.write (if checked then "<input type=\"checkbox\" checked disabled> "
    else "<input type=\"checkbox\" disabled> ")

/-! ## Starts -/

def alertLook : Markdown.AlertKind → Admonition
  | .note | .tip | .important => .tip
  | .warning | .caution => .warning

def start (s : State) : Markdown.Start → State
  | .paragraph => s.write "<p>"
  | .heading level => { s with heading := some ⟨level, []⟩ }
  | .blockQuote (some alert) =>
    { s with quotes := some (alertLook alert) :: s.quotes }.write (alertLook alert).openTag
  | .blockQuote none => { s with quotes := none :: s.quotes }.write "<blockquote>"
  | .codeBlock (.fenced info) => { s with code := some ⟨Code.infoLanguage? info, []⟩ }
  | .codeBlock .indented => { s with code := some ⟨none, []⟩ }
  | .list none => s.write "<ul>"
  | .list (some 1) => s.write "<ol>"
  | .list (some first) => s.write ("<ol start=\"" ++ Text.ofNat first ++ "\">")
  | .item => s.write "<li>"
  | .footnoteDefinition | .htmlBlock | .metadataBlock => s
  | .definitionList => s.write "<dl>"
  | .definitionTitle => s.write "<dt>"
  | .definitionBody => s.write "<dd>"
  | .table alignments => { s with table := { alignments } }.write "<table>"
  | .tableHead =>
    { s with table := { s.table with inHead := true, cellIndex := 0 } }.write "<thead><tr>"
  | .tableRow => { s with table := { s.table with cellIndex := 0 } }.write "<tr>"
  | .tableCell => s.write ('<' :: s.table.cellTag ++ s.table.cellAttribute ++ ['>'])
  | .emphasis => s.writeInline "<em>"
  | .strong => s.writeInline "<strong>"
  | .strikethrough => s.writeInline "<s>"
  | .superscript => s.writeInline "<sup>"
  | .subscript => s.writeInline "<sub>"
  | .link destination _ =>
    s.writeInline ("<a href=\"" ++ escapeIn s.region destination ++ "\">")
  | .image source title => { s with image := some ⟨source, title, []⟩ }

/-! ## Ends -/

/-- The end of a paragraph. A paragraph that wrote nothing is dropped. -/
def closeParagraph (s : State) : State :=
  match Text.dropSuffix? "<p>" s.output with
  | some output => { s with output }
  | none => s.write "</p>"

/-- The heading that the open heading becomes, and the slug when its anchor is derived. -/
def headingOf (derivedSlugs : List Text) (h : OpenHeading) : Outline.Heading × Option Text :=
  let (title, explicit) := Outline.splitAnchor (Text.trim h.text)
  match explicit with
  | some slug => (⟨title, slug, h.level⟩, none)
  | none =>
    let base := Outline.slugOf title
    (⟨title, numberedAnchor derivedSlugs base, h.level⟩, some base)

def headingComponent (h : Outline.Heading) : Text :=
  ((Component.mk "Heading" []).prop "title" (.string h.title)
    |>.prop "local" (.string h.anchor)
    |>.prop "headingTag" (.string ('h' :: Text.ofNat h.depth))).selfClosing

/-- The end of a heading: its component is written and noted with its offset. -/
def closeHeading (s : State) : State :=
  match s.heading with
  | none => s
  | some h =>
    let (heading, slug) := headingOf s.derivedSlugs h
    -- The offset is the size of the page before the component is written.
    { s with
      heading := none
      derivedSlugs := slug.toList ++ s.derivedSlugs
      headings := s.headings.concat ⟨Text.byteSize s.output, heading⟩ }.write
        (headingComponent heading)

/-- The markup of a code block that no processor took. -/
def plainCodeBlock (region : Body.Region) (language : Option Text) (source : Text) : Text :=
  let languageClass : Text := match language with
    | some l => " class=\"language-" ++ Html.escape l ++ "\""
    | none => []
  "<pre><code" ++ languageClass ++ ">" ++ escapeIn region source ++ "</code></pre>"

def closeCodeBlock (s : State) : State :=
  let code := s.code.getD ⟨none, []⟩
  let block : Code.Block := ⟨code.language.getD [], code.source, s.codeBlocks⟩
  let (html, desks) := Code.offer block s.desks
  { s with code := none, codeBlocks := s.codeBlocks + 1, desks }.write
    (html.getD (plainCodeBlock s.region code.language code.source))

def imageMarkup (region : Body.Region) (image : OpenImage) : Text :=
  let title : Text := if image.title.isEmpty then []
    else " title=\"" ++ escapeIn region image.title ++ "\""
  "<img src=\"" ++ escapeIn region image.source ++ "\" alt=\"" ++ escapeIn region image.alt ++
    "\"" ++ title ++ ">"

def closeImage (s : State) : State :=
  match s.image with
  | none => s
  | some image => { s with image := none }.writeInline (imageMarkup s.region image)

def closeQuote (s : State) : State :=
  match s.quotes with
  | some _ :: quotes => { s with quotes }.write Admonition.closeTag
  | none :: quotes => { s with quotes }.write "</blockquote>"
  | [] => s.write "</blockquote>"

def stop (s : State) : Markdown.End → State
  | .paragraph => s.closeParagraph
  | .heading => s.closeHeading
  | .blockQuote => s.closeQuote
  | .codeBlock => s.closeCodeBlock
  | .list ordered => s.write (if ordered then "</ol>" else "</ul>")
  | .item => s.write "</li>"
  | .footnoteDefinition | .htmlBlock | .metadataBlock => s
  | .definitionList => s.write "</dl>"
  | .definitionTitle => s.write "</dt>"
  | .definitionBody => s.write "</dd>"
  | .table => s.write "</tbody></table>"
  | .tableHead => { s with table := { s.table with inHead := false } }.write "</tr></thead><tbody>"
  | .tableRow => s.write "</tr>"
  | .tableCell =>
    { s with table := { s.table with cellIndex := s.table.cellIndex + 1 } }.write
      ("</" ++ s.table.cellTag ++ ">")
  | .image => s.closeImage
  | .emphasis => s.writeInline "</em>"
  | .strong => s.writeInline "</strong>"
  | .strikethrough => s.writeInline "</s>"
  | .superscript => s.writeInline "</sup>"
  | .subscript => s.writeInline "</sub>"
  | .link => s.writeInline "</a>"

end State

/-! ## Events -/

/-- The state after one event. -/
def step (settings : Settings) (s : State) : Markdown.Event → Except RenderError State
  | .start element => .ok (s.start element)
  | .stop element => .ok (s.stop element)
  | .text t => .ok (s.text t)
  | .code t => .ok (s.codeSpan t)
  | .html t => .ok (s.rawMarkup settings t)
  | .math tex display => s.math settings tex display
  | .footnoteReference => .ok s
  | .taskMarker checked => .ok (s.taskMarker checked)
  | .softBreak => .ok s.softBreak
  | .hardBreak => .ok (s.writeInline "<br>")
  | .rule => .ok (s.write "<hr>")

/-- The state after a list of events. When an event fails, the state before it is kept beside the
failure. -/
def run (settings : Settings) (s : State) : List Markdown.Event → Option RenderError × State
  | [] => (none, s)
  | event :: rest =>
    match step settings s event with
    | .ok next => run settings next rest
    -- The rest of the events is never looked at.
    | .error e => (some e, s)

structure Page where
  html : Text
  /-- The headings of the page, in order. -/
  headings : List Entry
  /-- The warnings of all code block processors. -/
  warnings : List Text
  deriving Repr, DecidableEq

namespace Page

/-- The forest of the page's headings. -/
def outline (p : Page) : List Outline.Section :=
  Outline.Heading.forest (p.headings.map Entry.heading)

end Page

/-- Renders a list of events as a page, and gives the state in which the next page starts. After a
failure, what was written stays and comes first on the next page. -/
def render (settings : Settings) (s : State) (events : List Markdown.Event) :
    Except RenderError Page × State :=
  match run settings s events with
  | (none, s) =>
    (.ok ⟨s.output, s.headings, s.desks.flatMap (·.warnings)⟩,
      { s with output := [], headings := [] })
  | (some e, s) => (.error e, s)

end DocPage.Render
