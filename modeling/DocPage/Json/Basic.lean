import DocPage.Text.Basic

/-!
# JSON values

Values without fractions, and their two written forms.

- `compact` takes the way to write a string as a parameter. With `attrString` the result is safe
  inside a template attribute: no quote but the delimiters of strings, no `<` and no `>`.
- `pretty` indents by two blanks and writes plain strings.

Fields of an object keep their order.
-/

namespace DocPage

inductive Json where
  | null
  | bool (b : Bool)
  | int (n : Int)
  | string (t : Text)
  | array (items : List Json)
  | object (fields : List (Text × Json))
  deriving Repr, Inhabited

namespace Json

/-! ## Strings -/

def hexDigit (n : Nat) : Char :=
  Nat.digitChar n

/-- The escape `\u` with four hexadecimal digits. -/
def unicodeEscape (c : Char) : Text :=
  ['\\', 'u', hexDigit (c.toNat / 4096 % 16), hexDigit (c.toNat / 256 % 16),
    hexDigit (c.toNat / 16 % 16), hexDigit (c.toNat % 16)]

/-- How a character is written inside a JSON string. -/
def escapeChar (c : Char) : Text :=
  if c = '"' then "\\\""
  else if c = '\\' then "\\\\"
  else if c = '\x08' then "\\b"
  else if c = '\t' then "\\t"
  else if c = '\n' then "\\n"
  else if c = '\x0c' then "\\f"
  else if c = '\r' then "\\r"
  else if c.toNat < 0x20 then unicodeEscape c
  else [c]

/-- How a character is written inside a string of an attribute: quotes and angle brackets become
`\u` escapes, so that they neither end the attribute nor its tag. -/
def escapeAttrChar (c : Char) : Text :=
  if c = '"' ∨ c = '<' ∨ c = '>' then unicodeEscape c else escapeChar c

/-- A string literal over a way to write its characters. -/
def quoted (escape : Char → Text) (t : Text) : Text :=
  '"' :: t.flatMap escape ++ ['"']

def plainString : Text → Text := quoted escapeChar

/-- A string literal that is safe inside an attribute. -/
def attrString : Text → Text := quoted escapeAttrChar

/-- The digits of an integer, with a minus sign in front when it is negative. -/
def intText : Int → Text
  | .ofNat n => Text.ofNat n
  | .negSucc n => '-' :: Text.ofNat (n + 1)

/-! ## The compact form -/

mutual

/-- The value without blanks; `string` writes the strings. -/
def compact (string : Text → Text) : Json → Text
  | null => "null"
  | bool true => "true"
  | bool false => "false"
  | int n => intText n
  | .string t => string t
  | array items => '[' :: compactItems string items ++ [']']
  | object fields => '{' :: compactFields string fields ++ ['}']

/-- The items of an array, separated by commas. -/
def compactItems (string : Text → Text) : List Json → Text
  | [] => []
  | [item] => compact string item
  | item :: rest => compact string item ++ ',' :: compactItems string rest

/-- The fields of an object, separated by commas. -/
def compactFields (string : Text → Text) : List (Text × Json) → Text
  | [] => []
  | [(key, value)] => string key ++ ':' :: compact string value
  | (key, value) :: rest =>
    string key ++ ':' :: compact string value ++ ',' :: compactFields string rest

end

/-- The value as it stands in an attribute of a component. -/
def toAttr (value : Json) : Text :=
  compact attrString value

/-! ## The indented form -/

/-- A line break followed by two blanks for each level. -/
def newline (level : Nat) : Text :=
  '\n' :: List.replicate (2 * level) ' '

mutual

/-- The value indented by two blanks a level; it starts at `level`. -/
def prettyAt (level : Nat) : Json → Text
  | null => "null"
  | bool true => "true"
  | bool false => "false"
  | int n => intText n
  | .string t => plainString t
  | array [] => "[]"
  | array (item :: rest) => '[' :: prettyItems (level + 1) (item :: rest) ++ newline level ++ [']']
  | object [] => "{}"
  | object (field :: rest) =>
    '{' :: prettyFields (level + 1) (field :: rest) ++ newline level ++ ['}']

/-- The items of an array, each on a line of its own. -/
def prettyItems (level : Nat) : List Json → Text
  | [] => []
  | [item] => newline level ++ prettyAt level item
  | item :: rest => newline level ++ prettyAt level item ++ ',' :: prettyItems level rest

/-- The fields of an object, each on a line of its own. -/
def prettyFields (level : Nat) : List (Text × Json) → Text
  | [] => []
  | [(key, value)] => newline level ++ plainString key ++ ": " ++ prettyAt level value
  | (key, value) :: rest =>
    newline level ++ plainString key ++ ": " ++ prettyAt level value ++
      ',' :: prettyFields level rest

end

/-- The value indented by two blanks a level. -/
def pretty (value : Json) : Text :=
  prettyAt 0 value

end Json

end DocPage
