import DocPage.Html.CodePoint
import DocPage.Text.Scan

/-!
# Reading JSON

Readers take a value from the start of a text and give the text after it. They accept exactly JSON:
no comments, no trailing commas, no control characters in strings, and no half of a surrogate pair
in a string that is wanted. A value that nobody wants is only passed over.
-/

namespace DocPage.Json

def isJsonBlank (c : Char) : Bool :=
  c == ' ' || c == '\t' || c == '\n' || c == '\r'

def dropBlanks (t : Text) : Text :=
  t.dropWhile isJsonBlank

/-- Takes blanks and a given character. -/
def dropMark? (c : Char) (t : Text) : Option Text :=
  Text.dropPrefix? [c] (dropBlanks t)

/-! ## Strings -/

/-- The value of four hexadecimal digits. -/
def hexUnit? (a b c d : Char) : Option Nat :=
  if [a, b, c, d].all Html.isHexDigit then some (Html.hexValue [a, b, c, d]) else none

/-- The character that one escape of four hexadecimal digits stands for. -/
def loneUnit? (unit : Nat) : Option Char :=
  if 0xD800 ≤ unit && unit < 0xE000 then none else Html.charOfCode? unit

/-- The character that two escapes of four hexadecimal digits stand for together. -/
def pairedUnits? (high low : Nat) : Option Char :=
  if 0xD800 ≤ high && high < 0xDC00 && 0xDC00 ≤ low && low < 0xE000 then
    Html.charOfCode? (0x10000 + (high - 0xD800) * 0x400 + (low - 0xDC00))
  else none

/-- The character that a letter after a backslash stands for. -/
def escapedChar? : Char → Option Char
  | '"' => some '"'
  | '\\' => some '\\'
  | '/' => some '/'
  | 'b' => some '\x08'
  | 'f' => some '\x0c'
  | 'n' => some '\n'
  | 'r' => some '\r'
  | 't' => some '\t'
  | _ => none

/-- Takes the rest of a string after its opening quote. -/
def stringRest? : Reader Text
  | [] => none
  | '"' :: t => some ([], t)
  | '\\' :: 'u' :: a :: b :: c :: d :: '\\' :: 'u' :: e :: f :: g :: h :: t =>
    match hexUnit? a b c d with
    | none => none
    | some unit =>
      match loneUnit? unit with
      | some char =>
        (stringRest? ('\\' :: 'u' :: e :: f :: g :: h :: t)).map fun (s, rest) => (char :: s, rest)
      | none =>
        match (hexUnit? e f g h).bind (pairedUnits? unit) with
        | some char => (stringRest? t).map fun (s, rest) => (char :: s, rest)
        | none => none
  | '\\' :: 'u' :: a :: b :: c :: d :: t =>
    match (hexUnit? a b c d).bind loneUnit? with
    | some char => (stringRest? t).map fun (s, rest) => (char :: s, rest)
    | none => none
  | '\\' :: c :: t =>
    match escapedChar? c with
    | some char => (stringRest? t).map fun (s, rest) => (char :: s, rest)
    | none => none
  | c :: t => if c.toNat < 0x20 then none else (stringRest? t).map fun (s, rest) => (c :: s, rest)

def string? : Reader Text := fun t => (dropMark? '"' t).bind stringRest?

/-- Passes over the rest of a string after its opening quote. -/
def skipString? : Text → Option Text
  | [] => none
  | '"' :: t => some t
  | '\\' :: 'u' :: a :: b :: c :: d :: t =>
    if (hexUnit? a b c d).isSome then skipString? t else none
  | '\\' :: c :: t => if (escapedChar? c).isSome then skipString? t else none
  | c :: t => if c.toNat < 0x20 then none else skipString? t

/-! ## Numbers -/

/-- Drops decimal digits, of which there is at least one. -/
def dropDigits? (t : Text) : Option Text :=
  if t.head?.any Char.isDigit then some (t.dropWhile Char.isDigit) else none

/-- Takes the digits of an integer, which have no leading zero. -/
def digits? : Reader Text := fun t =>
  let digits := t.takeWhile Char.isDigit
  match digits with
  | [] => none
  | '0' :: _ :: _ => none
  | _ => some (digits, t.drop digits.length)

/-- Passes over the exponent of a number. -/
def skipExponent? (t : Text) : Option Text :=
  match t with
  | 'e' :: rest | 'E' :: rest =>
    match rest with
    | '+' :: rest | '-' :: rest => dropDigits? rest
    | rest => dropDigits? rest
  | t => some t

/-- Passes over the fraction and the exponent of a number. -/
def skipFraction? (t : Text) : Option Text :=
  match t with
  | '.' :: rest => (dropDigits? rest).bind skipExponent?
  | t => skipExponent? t

/-- Passes over a number. -/
def skipNumber? (t : Text) : Option Text := do
  let (_, rest) ← digits? ((Text.dropPrefix? ['-'] t).getD t)
  skipFraction? rest

/-- Takes an unsigned 64-bit number: digits without a sign, a fraction or an exponent. -/
def word? : Reader Nat := fun t => do
  let (digits, rest) ← digits? (dropBlanks t)
  let value ← Text.toWord? digits
  if rest.head?.any fun c => c == '.' || c == 'e' || c == 'E' then none else some (value, rest)

/-! ## Values that nobody wants -/

mutual

/-- Passes over a value. `fuel` bounds the number of values in it. -/
def skipValue? : (fuel : Nat) → Text → Option Text
  | 0, _ => none
  | fuel + 1, t =>
    match dropBlanks t with
    | '"' :: t => skipString? t
    | '[' :: t =>
      match dropMark? ']' t with
      | some rest => some rest
      | none => skipItems? fuel t
    | '{' :: t =>
      match dropMark? '}' t with
      | some rest => some rest
      | none => skipFields? fuel t
    | 'n' :: t => Text.dropPrefix? "ull" t
    | 't' :: t => Text.dropPrefix? "rue" t
    | 'f' :: t => Text.dropPrefix? "alse" t
    | t => skipNumber? t

/-- Passes over the items of an array and its closing bracket. -/
def skipItems? : (fuel : Nat) → Text → Option Text
  | 0, _ => none
  | fuel + 1, t =>
    match skipValue? fuel t with
    | none => none
    | some rest =>
      match dropBlanks rest with
      | ',' :: rest => skipItems? fuel rest
      | ']' :: rest => some rest
      | _ => none

/-- Passes over the fields of an object and its closing brace. -/
def skipFields? : (fuel : Nat) → Text → Option Text
  | 0, _ => none
  | fuel + 1, t =>
    match ((dropMark? '"' t).bind skipString?).bind (dropMark? ':') with
    | none => none
    | some rest =>
      match skipValue? fuel rest with
      | none => none
      | some rest =>
        match dropBlanks rest with
        | ',' :: rest => skipFields? fuel rest
        | '}' :: rest => some rest
        | _ => none

end

/-- Passes over the value at the start of a text. -/
def skip? (t : Text) : Option Text :=
  skipValue? (2 * t.length + 2) t

/-- Takes a string, or `null` for none. -/
def optionalString? : Reader (Option Text) := fun t =>
  match Text.dropPrefix? "null" (dropBlanks t) with
  | some rest => some (none, rest)
  | none => (string? t).map fun (s, rest) => (some s, rest)

end DocPage.Json
