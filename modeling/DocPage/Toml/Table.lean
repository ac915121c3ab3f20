import DocPage.Toml.Value

/-!
# Tables that grow

The statements of a document add to its tables. No key is given twice, and a table is defined in one
way only: by one header, by dotted keys in one place, or in braces.

## Architecture

- **Places**: `within?` works on the table that a path of keys leads to
- **Additions**: `put?` adds a value, `openTable?` and `openItem?` start a table
-/

namespace DocPage.Toml

/-! ## Places -/

/-- The entries with another value for a key that they have. -/
def setEntry (key : Text) (value : Value) (entries : Entries) : Entries :=
  entries.map fun (k, v) => (k, if k = key then value else v)

/-- The entries after `work` on the table that a path leads to. Tables that are missing on the way
are made. A path of `dotted` keys enters only tables that no header names; a path of a header enters
all but those in braces, and the last item of an array that grows. -/
def within? (dotted : Bool) (work : Origin → Entries → Option Entries) :
    (path : List Text) → Origin → Entries → Option Entries
  | [], origin, entries => work origin entries
  | key :: path, _, entries =>
    match entries.lookup key with
    | none =>
      let origin : Origin := if dotted then .dotted else .implied
      (within? dotted work path origin []).map fun inner =>
        entries.concat (key, .table origin inner)
    | some (.table origin inner) =>
      if origin = .inline ∨ (dotted ∧ origin = .header) then none
      else
        (within? dotted work path origin inner).map fun inner =>
          setEntry key (.table origin inner) entries
    | some (.array true items) =>
      match items.getLast? with
      | some (.table origin inner) =>
        (within? dotted work path origin inner).map fun inner =>
          setEntry key (.array true (items.dropLast.concat (.table origin inner))) entries
      | _ => none
    | some _ => none

/-! ## Additions -/

/-- A path of keys: those in front of the last one, and the last one. -/
structure KeyPath where
  parents : List Text
  last : Text
  deriving Repr, DecidableEq

def KeyPath.keys (path : KeyPath) : List Text :=
  path.parents.concat path.last

/-- Adds a value at a path of keys, seen from a table of the given origin. A table holds either keys
of its own place or the ends of dotted keys. -/
def put? (path : KeyPath) (value : Value) : Origin → Entries → Option Entries :=
  within? true (fun origin entries =>
    if (origin == .dotted) == path.parents.isEmpty || (entries.lookup path.last).isSome then none
    else some (entries.concat (path.last, value))) path.parents

/-- Starts the table that a header names. -/
def openTable? (path : KeyPath) : Entries → Option Entries :=
  within? false (fun _ entries =>
    match entries.lookup path.last with
    | none => some (entries.concat (path.last, .table .header []))
    | some (.table .implied inner) => some (setEntry path.last (.table .header inner) entries)
    | some _ => none) path.parents .header

/-- Starts a table as the next item of the array that a header in double brackets names. -/
def openItem? (path : KeyPath) : Entries → Option Entries :=
  within? false (fun _ entries =>
    match entries.lookup path.last with
    | none => some (entries.concat (path.last, .array true [.table .header []]))
    | some (.array true items) =>
      some (setEntry path.last (.array true (items.concat (.table .header []))) entries)
    | some _ => none) path.parents .header

/-- The entries of a table in braces. -/
def inlineEntries? (pairs : List (KeyPath × Value)) : Option Entries :=
  pairs.foldlM (fun entries (path, value) => put? path value .header entries) []

end DocPage.Toml
