import DocPage.Unicode.Blank

/-!
# Texts

A text is the list of its characters, so that every function of the library recurses on it and every
law about it is an induction. Positions that a reader of the output sees are byte offsets in UTF-8;
`byteSize` measures them.

## Architecture

- **Prefixes and suffixes**: `dropPrefix?`, `dropSuffix?`
- **Search**: `splitOnce?` cuts at the first occurrence, `contains` asks for one
- **Replacement**: `replace` replaces every occurrence, from left to right
- **Trimming**: `trim`, `trimStart`, `trimEnd` and the general `dropRightWhile`
- **Lines**: `lines` drops the line ends, `linesKeepEnds` keeps them
-/

namespace DocPage

/-- A text: the list of its characters. -/
abbrev Text := List Char

/-- A string literal stands for the text of its characters. -/
instance : Coe String Text := ⟨String.toList⟩

namespace Text

/-- What holds of all characters of a text is decided along the text, not along all characters. -/
instance decidableForallMem {p : Char → Prop} [DecidablePred p] (t : Text) :
    Decidable (∀ c ∈ t, p c) :=
  List.decidableBAll p t

instance decidableForallMemOption {p : Char → Prop} [DecidablePred p] (o : Option Char) :
    Decidable (∀ c ∈ o, p c) :=
  Option.decidableForallMem o

/-! ## Sizes -/

/-- The number of bytes of the text in UTF-8. -/
def byteSize (t : Text) : Nat :=
  t.foldr (fun c n => c.utf8Size + n) 0

/-! ## Prefixes and suffixes -/

/-- What follows the prefix `p`, when the text starts with it. -/
def dropPrefix? : (p t : Text) → Option Text
  | [], t => some t
  | _ :: _, [] => none
  | a :: p, c :: t => if a = c then dropPrefix? p t else none

theorem length_of_dropPrefix? {p t rest : Text} (h : dropPrefix? p t = some rest) :
    t.length = p.length + rest.length := by
  induction p generalizing t with
  | nil => simp only [dropPrefix?, Option.some.injEq] at h; simp [h]
  | cons a p ih =>
    cases t with
    | nil => simp [dropPrefix?] at h
    | cons c t =>
      by_cases hc : a = c
      · simp only [dropPrefix?, hc, if_true] at h
        have := ih h
        simp only [List.length_cons]; omega
      · simp [dropPrefix?, hc] at h

def startsWith (p t : Text) : Bool :=
  (dropPrefix? p t).isSome

/-- What precedes the suffix `s`, when the text ends with it. -/
def dropSuffix? (s t : Text) : Option Text :=
  (dropPrefix? s.reverse t.reverse).map List.reverse

def endsWith (s t : Text) : Bool :=
  (dropSuffix? s t).isSome

/-! ## Search -/

/-- The texts before and after the first occurrence of `needle`. -/
def splitOnce? (needle : Text) : Text → Option (Text × Text)
  | [] => if needle.isEmpty then some ([], []) else none
  | c :: t =>
    match dropPrefix? needle (c :: t) with
    | some rest => some ([], rest)
    | none => (splitOnce? needle t).map fun (before, after) => (c :: before, after)

theorem length_of_splitOnce? {needle t before after : Text}
    (h : splitOnce? needle t = some (before, after)) :
    t.length = before.length + needle.length + after.length := by
  induction t generalizing before with
  | nil =>
    by_cases hn : needle = []
    · subst hn; simp [splitOnce?] at h; simp [h.1, h.2]
    · simp [splitOnce?, hn] at h
  | cons c t ih =>
    unfold splitOnce? at h
    split at h
    · rename_i rest hrest
      have := length_of_dropPrefix? hrest
      simp only [Option.some.injEq, Prod.mk.injEq] at h
      obtain ⟨rfl, rfl⟩ := h
      simp only [List.length_nil]; omega
    · cases hs : splitOnce? needle t with
      | none => simp [hs] at h
      | some pair =>
        obtain ⟨b, a⟩ := pair
        simp only [hs, Option.map_some, Option.some.injEq, Prod.mk.injEq] at h
        obtain ⟨rfl, rfl⟩ := h
        have := ih hs
        simp only [List.length_cons]; omega

def contains (needle t : Text) : Bool :=
  (splitOnce? needle t).isSome

/-! ## Replacement -/

/-- `replace` in the middle of its work: the next `skip` characters belong to an occurrence that has
been replaced already. -/
def replaceFrom (needle new : Text) : (skip : Nat) → Text → Text
  | _, [] => []
  | skip + 1, _ :: t => replaceFrom needle new skip t
  | 0, c :: t =>
    if startsWith needle (c :: t) then new ++ replaceFrom needle new (needle.length - 1) t
    else c :: replaceFrom needle new 0 t

/-- The text with every occurrence of `needle` (not empty) replaced, from left to right. -/
def replace (needle new t : Text) : Text :=
  replaceFrom needle new 0 t

/-! ## Trimming -/

/-- The text without its longest suffix of characters in `p`. -/
def dropRightWhile (p : Char → Bool) (t : Text) : Text :=
  (t.reverse.dropWhile p).reverse

/-- The text without its longest prefix and suffix of characters in `p`. -/
def trimWhile (p : Char → Bool) (t : Text) : Text :=
  dropRightWhile p (t.dropWhile p)

def trimStart (t : Text) : Text :=
  t.dropWhile Unicode.isBlank

def trimEnd (t : Text) : Text :=
  dropRightWhile Unicode.isBlank t

/-- The text without the blanks at either end. -/
def trim (t : Text) : Text :=
  trimWhile Unicode.isBlank t

/-! ## Lines and words -/

/-- The lines of the text, each with the line feed that ends it; the last line may have none. -/
def linesKeepEnds : Text → List Text
  | [] => []
  | c :: t =>
    if c = '\n' then [c] :: linesKeepEnds t
    else
      match linesKeepEnds t with
      | [] => [[c]]
      | line :: rest => (c :: line) :: rest

/-- A line without its line feed, and without a carriage return before that line feed. -/
def dropLineEnd (line : Text) : Text :=
  match dropSuffix? ['\n'] line with
  | some body => (dropSuffix? ['\r'] body).getD body
  | none => line

/-- The lines of the text without their ends. -/
def lines (t : Text) : List Text :=
  (linesKeepEnds t).map dropLineEnd

/-- The parts of the text between the occurrences of `sep`. -/
def splitAll (sep : Char) : Text → List Text
  | [] => [[]]
  | c :: t =>
    if c = sep then [] :: splitAll sep t
    else
      match splitAll sep t with
      | [] => [[c]]
      | part :: rest => (c :: part) :: rest

/-- The first word of the text: its first longest run of characters that are not blank. -/
def firstWord? (t : Text) : Option Text :=
  match (trimStart t).takeWhile (!Unicode.isBlank ·) with
  | [] => none
  | word => some word

/-- The texts joined, with `sep` between neighbours. -/
def join (sep : Text) : List Text → Text
  | [] => []
  | [t] => t
  | t :: rest => t ++ sep ++ join sep rest

/-- The text with `f` applied to each of its lines; only line feeds separate lines. -/
def mapLines (f : Text → Text) (t : Text) : Text :=
  join ['\n'] ((splitAll '\n' t).map f)

/-! ## Case -/

def toAsciiLower (t : Text) : Text :=
  t.map Char.toLower

/-- Equality up to the case of the letters `a` to `z`. -/
def eqIgnoreAsciiCase (a b : Text) : Bool :=
  toAsciiLower a == toAsciiLower b

/-! ## Numbers -/

/-- The decimal digits of a number. -/
def ofNat (n : Nat) : Text :=
  Nat.toDigits 10 n

def digitsValue (ds : Text) : Nat :=
  ds.foldl (fun n d => 10 * n + (d.toNat - '0'.toNat)) 0

/-- The largest number that fits 64 bits. -/
def wordMax : Nat := Nat.pow 2 64 - 1

/-- Reads an unsigned 64-bit number: an optional plus sign and at least one decimal digit. -/
def toWord? (t : Text) : Option Nat :=
  let digits := (dropPrefix? ['+'] t).getD t
  if digits.isEmpty || !digits.all Char.isDigit then none
  else if digitsValue digits ≤ wordMax then some (digitsValue digits) else none

end Text

end DocPage
