import DocPage.Text.Basic

/-!
# Scanning a text for a pattern

A `Matcher` says, at the start of a text, whether a match stands there, how long it is, and what it
means. `pieces` walks a text from left to right and cuts it into the matches, which do not overlap,
and the single characters between them. Searching, replacing and collecting are maps over the
pieces.
-/

namespace DocPage

/-- Recognises a match at the start of a text: its length (at least one) and its value. -/
abbrev Matcher (α : Type) := Text → Option (Nat × α)

/-- Takes a value from the start of a text, and gives the text after it. -/
abbrev Reader (α : Type) := Text → Option (α × Text)

/-- A part of a scanned text. -/
inductive Piece (α : Type) where
  /-- A character that belongs to no match. -/
  | plain (c : Char)
  /-- A match, as written, with its value. -/
  | hit (span : Text) (value : α)
  deriving Repr, DecidableEq

namespace Piece

variable {α : Type}

/-- The text that the piece was cut from. -/
def source : Piece α → Text
  | plain c => [c]
  | hit span _ => span

def value? : Piece α → Option α
  | plain _ => none
  | hit _ value => some value

end Piece

namespace Text

variable {α : Type}

/-- `pieces` in the middle of its work: the next `skip` characters belong to the last match. -/
def piecesFrom (m : Matcher α) : (skip : Nat) → Text → List (Piece α)
  | _, [] => []
  | skip + 1, _ :: t => piecesFrom m skip t
  | 0, c :: t =>
    match m (c :: t) with
    | some (length, value) => .hit ((c :: t).take length) value :: piecesFrom m (length - 1) t
    | none => .plain c :: piecesFrom m 0 t

/-- The text cut into the matches, found from left to right, and the characters between them. -/
def pieces (m : Matcher α) (t : Text) : List (Piece α) :=
  piecesFrom m 0 t

def values (m : Matcher α) (t : Text) : List α :=
  (pieces m t).filterMap Piece.value?

/-- The text with `f` of every match in its place; `f` sees the match as written and its value. -/
def mapMatches (m : Matcher α) (f : Text → α → Text) (t : Text) : Text :=
  (pieces m t).flatMap fun
    | .plain c => [c]
    | .hit span value => f span value

end Text

end DocPage
