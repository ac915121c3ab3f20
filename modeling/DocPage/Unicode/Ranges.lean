/-!
# Sets of characters given by code point ranges

A character class of the Unicode standard is a sorted list of closed ranges of code points.
`Ranges.contains` walks the list and stops at the first range that lies beyond the character.
-/

namespace DocPage.Unicode

/-- A set of characters, as closed ranges of code points in increasing order. -/
abbrev Ranges := List (Nat × Nat)

/-- Membership of a code point; ranges beyond the code point are not looked at. -/
def Ranges.contains : Ranges → Nat → Bool
  | [], _ => false
  | (first, last) :: rest, n =>
    if n < first then false else if n ≤ last then true else Ranges.contains rest n

end DocPage.Unicode
