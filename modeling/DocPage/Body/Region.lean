import DocPage.Text.Scan

/-!
# The body region

Sentinels in a document mark where its body starts and ends. The region is an automaton with three
states that only moves forward: before the body, inside it, after it. Inside the body no opening
brace may reach the component compiler.

A sentinel is a comment or a bare token. `Region.advance` reads all sentinels of a text, and
`Sentinel.ofChunk?` recognises a chunk that is a sentinel and nothing else.
-/

namespace DocPage.Body

/-- A mark in the text: the body starts or stops here. -/
inductive Sentinel where
  | start
  | stop
  deriving Repr, DecidableEq

namespace Sentinel

def startComment : Text := "<!--HF DOCBUILD BODY START-->"

def stopComment : Text := "<!--HF DOCBUILD BODY END-->"

def startToken : Text := "HF_DOC_BODY_START"

def stopToken : Text := "HF_DOC_BODY_END"

/-- The spellings of the sentinels. No two of them start at one position of a text. -/
def spellings : List (Text × Sentinel) :=
  [(startComment, start), (stopComment, stop), (startToken, start), (stopToken, stop)]

/-- The sentinel at the start of a text. -/
def matcher : Matcher Sentinel := fun t =>
  spellings.findSome? fun (spelling, sentinel) =>
    if Text.startsWith spelling t then some (spelling.length, sentinel) else none

def all (t : Text) : List Sentinel :=
  Text.values matcher t

/-- The sentinel that a chunk consists of, up to blanks around it. -/
def ofChunk? (chunk : Text) : Option Sentinel :=
  spellings.lookup (Text.trim chunk)

end Sentinel

/-- Where a position stands with respect to the body. -/
inductive Region where
  | before
  | inside
  | after
  deriving Repr, DecidableEq, Inhabited

namespace Region

/-- The region after a sentinel. The body starts once and stops once; a stop in front of the start
means nothing. -/
def pass : Region → Sentinel → Region
  | before, .start => inside
  | inside, .stop => after
  | region, _ => region

/-- The region after all sentinels of a text. -/
def advance (region : Region) (t : Text) : Region :=
  (Sentinel.all t).foldl pass region

def isInside (region : Region) : Bool :=
  region == inside

end Region

end DocPage.Body
