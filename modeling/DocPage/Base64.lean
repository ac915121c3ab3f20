import DocPage.Text.Basic

/-!
# Base64

The standard alphabet with padding, over the UTF-8 bytes of a text.
-/

namespace DocPage.Base64

def alphabet : Text :=
  "ABCDEFGHIJKLMNOPQRSTUVWXYZabcdefghijklmnopqrstuvwxyz0123456789+/"

def digit (n : Nat) : Char :=
  alphabet.getD n '='

/-- Three bytes become four digits; one or two bytes at the end are filled up with `=`. -/
def encodeBytes : List Nat → Text
  | [] => []
  | [a] => [digit (a / 4), digit (a % 4 * 16), '=', '=']
  | [a, b] => [digit (a / 4), digit (a % 4 * 16 + b / 16), digit (b % 16 * 4), '=']
  | a :: b :: c :: rest =>
    digit (a / 4) :: digit (a % 4 * 16 + b / 16) :: digit (b % 16 * 4 + c / 64) ::
      digit (c % 64) :: encodeBytes rest

/-- The bytes of a character in UTF-8. -/
def utf8Bytes (c : Char) : List Nat :=
  (String.utf8EncodeChar c).map UInt8.toNat

def encode (t : Text) : Text :=
  encodeBytes (t.flatMap utf8Bytes)

end DocPage.Base64
