import DocPage.Html.CodePoint
import DocPage.Text.Scan
import DocPage.Toml.Value

/-!
# Bare values

Booleans, numbers, dates and times are written without quotes. Underscores may stand between digits,
and a decimal number has no leading zero. Integers fit 128 bits, and floats do not overflow double
precision.

## Architecture

- **Digits**: `groupedDigits?`
- **Numbers**: `integer?`, `isFloat`
- **Dates and times**: `isMoment`
- **All of them**: `scalar?`
-/

namespace DocPage.Toml

/-! ## Digits -/

/-- The digits of a text in which single underscores stand between digits. -/
def groupedDigits? (isDigit : Char → Bool) (t : Text) : Option Text :=
  let groups := Text.splitAll '_' t
  if groups.all fun g => !g.isEmpty && g.all isDigit then some groups.flatten else none

/-- The digits of a decimal number without a leading zero. -/
def plainDigits? (t : Text) : Option Text := do
  let digits ← groupedDigits? Char.isDigit t
  if digits.head? == some '0' && digits.length != 1 then none else some digits

def valueIn (base : Nat) (digits : Text) : Nat :=
  digits.foldl (fun n d => base * n + Html.hexDigitValue d) 0

/-! ## Numbers -/

/-- Whether a number is negative, and the text after its sign. -/
def splitSign : Text → Bool × Text
  | '-' :: t => (true, t)
  | '+' :: t => (false, t)
  | t => (false, t)

/-- The magnitude of an integer, with an optional sign in decimal and without one in other bases. -/
def signedMagnitude? (t : Text) : Option (Bool × Nat) :=
  match t with
  | '0' :: 'x' :: t => (groupedDigits? Html.isHexDigit t).map fun ds => (false, valueIn 16 ds)
  | '0' :: 'o' :: t =>
    (groupedDigits? (fun c => '0' ≤ c && c ≤ '7') t).map fun ds => (false, valueIn 8 ds)
  | '0' :: 'b' :: t =>
    (groupedDigits? (fun c => c == '0' || c == '1') t).map fun ds => (false, valueIn 2 ds)
  | t =>
    let (negative, t) := splitSign t
    (plainDigits? t).map fun ds => (negative, valueIn 10 ds)

/-- The value of an integer that fits 128 bits, with or without a sign. -/
def integer? (t : Text) : Option Int := do
  let (negative, n) ← signedMagnitude? t
  if negative then if n ≤ Nat.pow 2 127 then some (-n) else none
  else if n < Nat.pow 2 128 then some n else none

/-- The value of an exponent after its `e`. -/
def exponent? (t : Text) : Option Int := do
  let (negative, t) := splitSign t
  let n ← (groupedDigits? Char.isDigit t).map (valueIn 10)
  some (if negative then -n else n)

/-- The digits and the exponent of a float, where the digits count whole units of the exponent. It
has a fraction, an exponent or both. -/
def floatParts? (t : Text) : Option (Text × Int) := do
  let number := t.takeWhile fun c => c != 'e' && c != 'E'
  let whole := number.takeWhile (· != '.')
  let digits ← plainDigits? whole
  let fraction ← if whole.length = number.length then some []
    else groupedDigits? Char.isDigit (number.drop (whole.length + 1))
  let exponent ← if number.length = t.length then some 0 else exponent? (t.drop (number.length + 1))
  if whole.length = t.length then none
  else some (digits ++ fraction, exponent - fraction.length)

/-- Whether a decimal number rounds to a finite number in double precision. The number of its digits
decides unless it is near the limit. -/
def fitsDouble (digits : Text) (exponent : Int) : Bool :=
  let digits := digits.dropWhile (· == '0')
  let n := valueIn 10 digits
  let limit := Nat.pow 2 1024 - Nat.pow 2 970
  let size := exponent + digits.length
  digits.isEmpty || size < 309 ||
    (size == 309 && n * Nat.pow 10 exponent.toNat < limit * Nat.pow 10 (-exponent).toNat)

def isFloat (t : Text) : Bool :=
  let (_, t) := splitSign t
  t == "inf".toList || t == "nan".toList ||
    (floatParts? t).any fun (digits, exponent) => fitsDouble digits exponent

/-! ## Dates and times -/

/-- Takes a number of exactly `n` decimal digits between two bounds. -/
def boundedNumber? (n low high : Nat) : Text → Option Text := fun t =>
  let digits := t.take n
  let value := Text.digitsValue digits
  if digits.length = n && digits.all Char.isDigit && low ≤ value && value ≤ high then
    some (t.drop n)
  else none

def daysInMonth (year month : Nat) : Nat :=
  if month = 2 then
    if year % 4 = 0 ∧ (year % 100 ≠ 0 ∨ year % 400 = 0) then 29 else 28
  else if month ∈ [4, 6, 9, 11] then 30 else 31

def date? (t : Text) : Option Text := do
  let rest ← boundedNumber? 4 0 9999 t
  let rest ← Text.dropPrefix? ['-'] rest
  let afterMonth ← boundedNumber? 2 1 12 rest
  let day ← Text.dropPrefix? ['-'] afterMonth
  let days := daysInMonth (Text.digitsValue (t.take 4)) (Text.digitsValue (rest.take 2))
  boundedNumber? 2 1 days day

def hoursAndMinutes? (t : Text) : Option Text := do
  boundedNumber? 2 0 59 (← Text.dropPrefix? [':'] (← boundedNumber? 2 0 23 t))

/-- Takes a time of day. Its seconds may be left out, and may have a fraction. -/
def time? (t : Text) : Option Text := do
  match ← hoursAndMinutes? t with
  | ':' :: t =>
    match ← boundedNumber? 2 0 60 t with
    | '.' :: t => if (t.head?.any Char.isDigit) then some (t.dropWhile Char.isDigit) else none
    | rest => some rest
  | rest => some rest

/-- Takes the offset of a time from universal time. -/
def offset? : Text → Option Text
  | c :: t =>
    if c == 'Z' || c == 'z' then some t
    else if c == '+' || c == '-' then hoursAndMinutes? t
    else none
  | [] => none

/-- Whether the text is a date, a time, or both with an optional offset. -/
def isMoment (t : Text) : Bool :=
  match date? t with
  | none => time? t == some []
  | some [] => true
  | some (separator :: t) =>
    (separator == 'T' || separator == 't' || separator == ' ') &&
      (time? t).any fun rest => rest.isEmpty || offset? rest == some []

/-! ## All bare values -/

/-- The value of a text without quotes. -/
def scalar? (t : Text) : Option Value :=
  if t == "true".toList then some (.boolean true)
  else if t == "false".toList then some (.boolean false)
  else if isMoment t then some (.moment t)
  else
    match integer? t with
    | some n => some (.integer n)
    | none => if isFloat t then some (.float t) else none

/-- Whether a character can stand in a bare value. -/
def isScalarChar (c : Char) : Bool :=
  c.isAlphanum || c == '+' || c == '-' || c == '_' || c == '.' || c == ':'

/-- Takes a bare value. One blank may stand between a date and a time. -/
def takeScalar? : Reader Value := fun t =>
  let first := t.takeWhile isScalarChar
  let rest := t.drop first.length
  let second := rest.tail.takeWhile isScalarChar
  let written :=
    if date? first == some [] && rest.head? == some ' ' && second.head?.any Char.isDigit then
      first ++ ' ' :: second
    else first
  (scalar? written).map fun value => (value, t.drop written.length)

end DocPage.Toml
