import DocPage.Text.Basic

/-!
# Code points

Characters named by their number, in decimal or hexadecimal digits.
-/

namespace DocPage.Html

def isHexDigit (c : Char) : Bool :=
  c.isDigit || ('a' ≤ c.toLower && c.toLower ≤ 'f')

def hexDigitValue (c : Char) : Nat :=
  if c.isDigit then c.toNat - '0'.toNat else c.toLower.toNat - 'a'.toNat + 10

def hexValue (digits : Text) : Nat :=
  digits.foldl (fun n d => 16 * n + hexDigitValue d) 0

def charOfCode? (n : Nat) : Option Char :=
  if h : n.isValidChar then some (Char.ofNatAux n h) else none

end DocPage.Html
