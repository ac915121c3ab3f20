import DocPage.Dom.Mark
import DocPage.Dom.Node
import DocPage.Dom.VoidElement

/-!
# Reading a fragment

A fragment is read inside an element `root`, whose tags are written around it. A closing tag closes
the innermost open element, whatever its name; one with no open element is an error. Elements that
are still open at the end are closed there. The fragment is what stands in the first element, which
is the root unless the fragment's own tags close it early.
-/

namespace DocPage.Dom

structure OpenElement where
  name : Text
  start : Text
  /-- What stands inside so far, latest first. -/
  children : List Node
  deriving Repr

/-- A tree under construction. -/
structure Builder where
  /-- The open elements, innermost first. -/
  openElements : List OpenElement := []
  /-- The finished nodes outside all elements, latest first. -/
  nodes : List Node := []
  deriving Repr

/-- Adds a node in front of nodes that come later first. Neighbouring texts are one text. -/
def addNode (node : Node) (nodes : List Node) : List Node :=
  match node, nodes with
  | .text new, .text raw :: rest => .text (raw ++ new) :: rest
  | node, nodes => node :: nodes

/-- Whether a character is a blank of markup. -/
def isMarkupBlank (c : Char) : Bool :=
  c == ' ' || c == '\t' || c == '\n' || c == '\r'

/-- The name at the start of a tag. -/
def tagName (content : Text) : Text :=
  content.takeWhile (!isMarkupBlank ·)

/-- A tag that closes itself, without the blanks and slashes at its end. -/
def wholeTag (content : Text) : Text :=
  Text.trimEnd (Text.dropRightWhile (· == '/') (Text.trimEnd content))

namespace Builder

def add (b : Builder) (node : Node) : Builder :=
  match b.openElements with
  | e :: rest => { b with openElements := { e with children := addNode node e.children } :: rest }
  | [] => { b with nodes := addNode node b.nodes }

def close? (b : Builder) : Option Builder :=
  match b.openElements with
  | e :: rest =>
    some ({ b with openElements := rest }.add (.element e.name e.start false e.children.reverse))
  | [] => none

/-- Adds what a mark says. -/
def step? (b : Builder) : Mark → Option Builder
  | .text raw => some (if raw.isEmpty then b else b.add (.text raw))
  | .start content =>
    some { b with openElements := ⟨tagName content, Text.trimEnd content, []⟩ :: b.openElements }
  | .whole content => some (b.add (.element (tagName content) (wholeTag content) true []))
  | .stop => b.close?
  | .passed => some b

/-- The finished nodes, after all open elements are closed. -/
def finish (b : Builder) : List Node :=
  (Nat.repeat (fun b => b.close?.getD b) b.openElements.length b).nodes.reverse

end Builder

def nodesOf? (marks : List Mark) : Option (List Node) :=
  (marks.foldlM Builder.step? {}).map Builder.finish

/-- The nodes of a fragment of HTML; `none` when it cannot be read. -/
def fragment? (html : Text) : Option (List Node) := do
  let wrapped := "<root>".toList ++ closeVoidTags html ++ "</root>".toList
  let nodes ← nodesOf? (← Mark.readAll? wrapped)
  (nodes.find? (!·.isText)).map Node.children

end DocPage.Dom
