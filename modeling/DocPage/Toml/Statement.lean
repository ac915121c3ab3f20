import DocPage.Toml.Quoted
import DocPage.Toml.Scalar
import DocPage.Toml.Table

/-!
# Statements of TOML

A document is a sequence of headers and of keys with values, one to a line. Comments run from a
number sign to the end of the line.

## Architecture

- **Between statements**: `dropFiller?`, `endsLine`
- **Keys**: `keyPath?`
- **Values**: `value?`, with arrays and tables in braces
- **Statements**: `statements?`
-/

namespace DocPage.Toml

/-! ## Between statements -/

/-- The text after blanks, line breaks and comments. -/
def dropFiller? : (inComment : Bool) → Text → Option Text
  | _, [] => some []
  | inComment, c :: t =>
    if c = '\n' then dropFiller? false t
    else if inComment then if isLineChar c then dropFiller? true t else none
    else if c = '#' then dropFiller? true t
    else if isLineBlank c then dropFiller? false t
    else some (c :: t)

def dropLineBlanks (t : Text) : Text :=
  t.dropWhile isLineBlank

/-- Whether nothing but blanks and a comment stands before the next line break. -/
def endsLine (t : Text) : Bool :=
  match dropLineBlanks t with
  | [] => true
  | c :: _ => c == '\n' || c == '#'

/-! ## Keys -/

/-- Whether a character can stand in a key without quotes. -/
def isKeyChar (c : Char) : Bool :=
  c.isAlphanum || c == '_' || c == '-'

/-- Takes one key, in quotes or without. -/
def singleKey? : Reader Text := fun t =>
  let bare := t.takeWhile isKeyChar
  if bare.isEmpty then key? t else some (bare, t.drop bare.length)

/-- Takes keys that dots separate, with blanks around them. `fuel` bounds their number. -/
def keyPathFrom? : (fuel : Nat) → Reader KeyPath
  | 0, _ => none
  | fuel + 1, t => do
    let (first, t) ← singleKey? (dropLineBlanks t)
    match dropLineBlanks t with
    | '.' :: t =>
      let (path, rest) ← keyPathFrom? fuel t
      some (⟨first :: path.parents, path.last⟩, rest)
    | rest => some (⟨[], first⟩, rest)

/-- Takes keys that dots separate, with blanks around them. -/
def keyPath? : Reader KeyPath := fun t =>
  keyPathFrom? t.length t

/-! ## Values -/

/-- Takes items that commas separate, and the character that closes them. The last item may have a
comma after it. `fuel` bounds their number. -/
def itemsFrom? {α : Type} (item : Reader α) (close : Char) : (fuel : Nat) → Reader (List α)
  | 0, _ => none
  | fuel + 1, t => do
    match ← dropFiller? false t with
    | [] => none
    | c :: t =>
      if c = close then some ([], t)
      else
        let (first, t) ← item (c :: t)
        match ← dropFiller? false t with
        | [] => none
        | c :: t =>
          if c = close then some ([first], t)
          else if c = ',' then
            (itemsFrom? item close fuel t).map fun (items, rest) => (first :: items, rest)
          else none

/-- Takes items up to the character that closes them. -/
def items? {α : Type} (item : Reader α) (close : Char) : Reader (List α) := fun t =>
  itemsFrom? item close (t.length + 1) t

/-- Takes keys and the value after an equals sign. -/
def pair? (value : Reader Value) : Reader (KeyPath × Value) := fun t => do
  let (path, t) ← keyPath? t
  let t ← Text.dropPrefix? ['='] t
  let (v, rest) ← value (dropLineBlanks t)
  some ((path, v), rest)

/-- Takes a string or a bare value. -/
def plainValue? : Reader Value := fun t =>
  match t with
  | '"' :: _ | '\'' :: _ => (quoted? t).map fun (s, rest) => (.string s, rest)
  | _ => takeScalar? t

/-- Takes a value in which arrays and tables nest at most `depth` deep. -/
def valueWithin? : (depth : Nat) → Reader Value
  | 0 => fun t =>
    match t with
    | '[' :: _ | '\x7b' :: _ => none
    | _ => plainValue? t
  | depth + 1 => fun t =>
    match t with
    | '[' :: t =>
      (items? (valueWithin? depth) ']' t).map fun (items, rest) => (.array false items, rest)
    | '\x7b' :: t => do
      let (pairs, rest) ← items? (pair? (valueWithin? depth)) '\x7d' t
      some (.table .inline (← inlineEntries? pairs), rest)
    | _ => plainValue? t

/-- How deep arrays and tables may nest in a value. -/
def maxNesting : Nat := 80

def value? : Reader Value :=
  valueWithin? maxNesting

/-! ## Statements -/

inductive Statement where
  /-- A key with its value. -/
  | pair (path : KeyPath) (value : Value)
  /-- The header of a table. -/
  | table (path : KeyPath)
  /-- The header of an item of an array of tables. -/
  | item (path : KeyPath)
  deriving Repr

/-- Takes a header after its opening brackets. -/
def header? (close : Text) : Reader KeyPath := fun t => do
  let (path, t) ← keyPath? t
  some (path, ← Text.dropPrefix? close t)

def statement? : Reader Statement
  | '[' :: '[' :: t => (header? "]]" t).map fun (path, rest) => (.item path, rest)
  | '[' :: t => (header? "]" t).map fun (path, rest) => (.table path, rest)
  | t => (pair? value? t).map fun ((path, v), rest) => (.pair path v, rest)

/-- The statements of a document. `fuel` bounds their number. -/
def statementsFrom? : (fuel : Nat) → Text → Option (List Statement)
  | 0, _ => none
  | fuel + 1, t => do
    match ← dropFiller? false t with
    | [] => some []
    | t =>
      let (first, t) ← statement? t
      if endsLine t then (statementsFrom? fuel t).map (first :: ·) else none

def statements? (t : Text) : Option (List Statement) :=
  statementsFrom? (t.length + 1) t

end DocPage.Toml
