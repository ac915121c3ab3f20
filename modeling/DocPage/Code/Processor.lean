import DocPage.Text.Basic

/-!
# Code block processors

A processor may take over the rendering of a code block. Processors are asked in order and the first
that answers with markup wins. A processor answers in the light of the blocks it was offered before,
so that it can keep any state of its own.
-/

namespace DocPage.Code

structure Block where
  /-- The language of the fence, empty when there is none. -/
  language : Text
  source : Text
  /-- The position among the code blocks of the document, from zero. -/
  index : Nat
  deriving Repr, DecidableEq

/-- What a processor makes of a block. -/
structure Answer where
  /-- The markup of the block; `none` leaves the block to the next processor. -/
  html : Option Text
  warnings : List Text := []
  deriving Repr, DecidableEq

/-- A processor: from the blocks it was offered before, latest first, and a block to its answer. -/
structure Processor where
  process : (earlier : List Block) → Block → Answer

/-- A processor at work, with what it was offered and what it warned of so far. -/
structure Desk where
  processor : Processor
  /-- The blocks offered so far, latest first. -/
  offered : List Block := []
  warnings : List Text := []

/-- Offers a block to the processors in order, until one takes it. -/
def offer (block : Block) : List Desk → Option Text × List Desk
  | [] => (none, [])
  | desk :: rest =>
    let answer := desk.processor.process desk.offered block
    let desk := { desk with
      offered := block :: desk.offered, warnings := desk.warnings ++ answer.warnings }
    match answer.html with
    | some html => (some html, desk :: rest)
    | none =>
      let (html, rest) := offer block rest
      (html, desk :: rest)

/-- The language of a fence: the first word of its info string. -/
def infoLanguage? (info : Text) : Option Text :=
  Text.firstWord? info

end DocPage.Code
