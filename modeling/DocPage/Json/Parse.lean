import DocPage.Json.Basic
import DocPage.Json.Read

/-!
# Reading JSON values

The readers of `Json.Read` pass over a value that nobody wants; here a value is kept. Numbers with a
fraction or an exponent have no value in `Json` and are not taken.
-/

namespace DocPage.Json

def integer? : Reader Int := fun t => do
  let unsigned := Text.dropPrefix? ['-'] t
  let (digits, rest) ← digits? (unsigned.getD t)
  let value : Int := Text.digitsValue digits
  if rest.head?.any fun c => c == '.' || c == 'e' || c == 'E' then none
  else some (if unsigned.isSome then -value else value, rest)

mutual

/-- Takes a value. `fuel` bounds the number of values in it. -/
def value? : (fuel : Nat) → Reader Json
  | 0, _ => none
  | fuel + 1, t =>
    match dropBlanks t with
    | '"' :: t => (stringRest? t).map fun (s, rest) => (.string s, rest)
    | '[' :: t =>
      match dropMark? ']' t with
      | some rest => some (.array [], rest)
      | none => (items? fuel t).map fun (items, rest) => (.array items, rest)
    | '{' :: t =>
      match dropMark? '}' t with
      | some rest => some (.object [], rest)
      | none => (fields? fuel t).map fun (fields, rest) => (.object fields, rest)
    | 'n' :: t => (Text.dropPrefix? "ull" t).map fun rest => (.null, rest)
    | 't' :: t => (Text.dropPrefix? "rue" t).map fun rest => (.bool true, rest)
    | 'f' :: t => (Text.dropPrefix? "alse" t).map fun rest => (.bool false, rest)
    | t => (integer? t).map fun (n, rest) => (.int n, rest)

/-- Takes the items of an array and its closing bracket. -/
def items? : (fuel : Nat) → Reader (List Json)
  | 0, _ => none
  | fuel + 1, t =>
    match value? fuel t with
    | none => none
    | some (item, rest) =>
      match dropBlanks rest with
      | ',' :: rest => (items? fuel rest).map fun (items, rest) => (item :: items, rest)
      | ']' :: rest => some ([item], rest)
      | _ => none

/-- Takes the fields of an object and its closing brace. -/
def fields? : (fuel : Nat) → Reader (List (Text × Json))
  | 0, _ => none
  | fuel + 1, t =>
    match string? t with
    | none => none
    | some (key, rest) =>
      match (dropMark? ':' rest).bind (value? fuel) with
      | none => none
      | some (value, rest) =>
        match dropBlanks rest with
        | ',' :: rest => (fields? fuel rest).map fun (fields, rest) => ((key, value) :: fields, rest)
        | '}' :: rest => some ([(key, value)], rest)
        | _ => none

end

/-- The value that a whole text is written for. -/
def parse? (t : Text) : Option Json := do
  let (value, rest) ← value? (2 * t.length + 2) t
  if (dropBlanks rest).isEmpty then some value else none

end DocPage.Json
