import DocPage.Json.Read

/-!
# What an include asks for

The body of an include tag is a JSON object that names a file, and maybe the lines to take from it,
how far to dedent them, and the language of the block. The fields may also be given as an array, in
their order, of which the last two may be missing. Other fields of the object mean nothing; none of
the known ones may be given twice.
-/

namespace DocPage.Document

structure IncludeRequest where
  path : Text
  /-- The lines after the last one that ends with this anchor. -/
  startAfter : Option Text := none
  /-- The lines before the last one that ends with this anchor. -/
  endBefore : Option Text := none
  /-- The most characters to drop from the start of each line. -/
  dedent : Nat := 0
  language : Text := []
  deriving Repr, DecidableEq

/-- The fields of a request read so far. -/
structure RequestFields where
  path : Option Text := none
  startAfter : Option (Option Text) := none
  endBefore : Option (Option Text) := none
  dedent : Option Nat := none
  language : Option Text := none

namespace RequestFields

/-- The request, when its path was given. -/
def request? (f : RequestFields) : Option IncludeRequest :=
  f.path.map fun path =>
    { path, startAfter := f.startAfter.join, endBefore := f.endBefore.join,
      dedent := f.dedent.getD 0, language := f.language.getD [] }

/-- Takes the value of a field that was not given before. -/
def fill? {α : Type} (given : Option α) (reader : Reader α) (store : α → RequestFields) :
    Reader RequestFields := fun t =>
  if given.isSome then none else (reader t).map fun (value, rest) => (store value, rest)

/-- Takes the value of the field with a given name. -/
def value? (f : RequestFields) (name : Text) : Reader RequestFields :=
  if name = "path".toList then fill? f.path Json.string? fun v => { f with path := some v }
  else if name = "start-after".toList then
    fill? f.startAfter Json.optionalString? fun v => { f with startAfter := some v }
  else if name = "end-before".toList then
    fill? f.endBefore Json.optionalString? fun v => { f with endBefore := some v }
  else if name = "dedent".toList then fill? f.dedent Json.word? fun v => { f with dedent := some v }
  else if name = "language".toList then
    fill? f.language Json.string? fun v => { f with language := some v }
  else fun t => (Json.skip? t).map fun rest => (f, rest)

/-- Takes fields and the closing brace. `fuel` bounds their number. -/
def fields? : (fuel : Nat) → RequestFields → Reader RequestFields
  | 0, _, _ => none
  | fuel + 1, f, t => do
    let (name, rest) ← Json.string? t
    let rest ← Json.dropMark? ':' rest
    let (f, rest) ← f.value? name rest
    match Json.dropBlanks rest with
    | ',' :: rest => fields? fuel f rest
    | '}' :: rest => some (f, rest)
    | _ => none

end RequestFields

/-- Takes a request that is given as an object, after the opening brace. -/
def IncludeRequest.ofFields? : Reader IncludeRequest := fun t =>
  match Json.dropMark? '}' t with
  | some _ => none
  | none =>
    match RequestFields.fields? (t.length + 1) {} t with
    | some (f, rest) => f.request?.map fun request => (request, rest)
    | none => none

/-- Takes a comma and a value, or a default where the array ends. -/
def nextOr? {α : Type} (default : α) (reader : Reader α) : Reader α := fun t =>
  match Json.dropBlanks t with
  | ',' :: rest => reader rest
  | ']' :: rest => some (default, ']' :: rest)
  | _ => none

/-- Takes a request that is given as an array, after the opening bracket. -/
def IncludeRequest.ofItems? : Reader IncludeRequest := fun t => do
  let (path, rest) ← Json.string? t
  let rest ← Json.dropMark? ',' rest
  let (startAfter, rest) ← Json.optionalString? rest
  let rest ← Json.dropMark? ',' rest
  let (endBefore, rest) ← Json.optionalString? rest
  let (dedent, rest) ← nextOr? 0 Json.word? rest
  let (language, rest) ← nextOr? [] Json.string? rest
  let rest ← Json.dropMark? ']' rest
  some (⟨path, startAfter, endBefore, dedent, language⟩, rest)

/-- The request that a payload makes. -/
def IncludeRequest.read? (payload : Text) : Option IncludeRequest :=
  let taken := match Json.dropBlanks payload with
    | '{' :: t => ofFields? t
    | '[' :: t => ofItems? t
    | _ => none
  match taken with
  | some (request, rest) => if (Json.dropBlanks rest).isEmpty then some request else none
  | none => none

end DocPage.Document
