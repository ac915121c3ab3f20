import DocPage.Base64
import DocPage.Code.Highlight
import DocPage.Code.Processor
import DocPage.Code.Prompt
import DocPage.Component

/-!
# Code blocks as components

A code block becomes a component that shows the highlighted code and holds the code to copy in
base64. A block that contains a split marker holds two variants, one after the other, and becomes a
component with two groups.
-/

namespace DocPage.Code

/-! ## Split markers -/

/-- A marker that separates two variants of the same code. -/
inductive Marker where
  | frameworks
  | stringApi
  deriving Repr, DecidableEq

namespace Marker

def literal : Marker → Text
  | frameworks => "===PT-TF-SPLIT==="
  | stringApi => "===STRINGAPI-READINSTRUCTION-SPLIT==="

/-- The name of the variant in front of the marker. -/
def groupA : Marker → Text
  | frameworks => "pt"
  | stringApi => "stringapi"

/-- The name of the variant after the marker. -/
def groupB : Marker → Text
  | frameworks => "tf"
  | stringApi => "readinstruction"

/-- The marker of a block. The frameworks marker is looked for first, wherever it stands. -/
def detect? (source : Text) : Option Marker :=
  [frameworks, stringApi].find? fun marker => Text.contains marker.literal source

def isLineFeed (c : Char) : Bool := c == '\n'

/-- The texts before and after the first marker, without line feeds at their ends. -/
def split (marker : Marker) (source : Text) : Text × Text :=
  match Text.splitOnce? marker.literal source with
  | some (a, b) => (Text.trimWhile isLineFeed a, Text.trimWhile isLineFeed b)
  | none => (Text.trimWhile isLineFeed source, [])

end Marker

/-! ## Components -/

/-- The code to copy: the input of a transcript, or the whole code, in base64. -/
def copyPayload (code : Text) : Text :=
  Base64.encode (typedInput code)

/-- One variant of a split block. -/
def group (highlight : Highlighter) (id segment language : Text) : Json :=
  .object [("id", .string id), ("code", .string (copyPayload segment)),
    ("highlighted", .string (highlight segment language))]

def component (highlight : Highlighter) (language source : Text) : Component :=
  match Marker.detect? source with
  | some marker =>
    let (a, b) := marker.split source
    (Component.mk "CodeBlockFw" []).prop "group1" (group highlight marker.groupA a language)
      |>.prop "group2" (group highlight marker.groupB b language)
  | none =>
    let source := Text.dropRightWhile Marker.isLineFeed source
    (Component.mk "CodeBlock" []).prop "code" (.string (copyPayload source))
      |>.prop "highlighted" (.string (highlight source language))

/-- The markup of a code block; `wrap` tells the component to wrap long lines. -/
def render (highlight : Highlighter) (wrap : Bool) (language source : Text) : Text :=
  ((component highlight language source).expr "wrap" (if wrap then "true" else "false")).selfClosing

/-- The processor that renders every code block as a component. -/
def componentProcessor (highlight : Highlighter) (wrap : Bool) : Processor where
  process _ block := ⟨some (render highlight wrap block.language block.source), []⟩

end DocPage.Code
