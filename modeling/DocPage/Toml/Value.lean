import DocPage.Text.Basic

/-!
# Values of TOML

A TOML document is a table, and tables grow while the document is read. How a table came about
decides which later statement may still add to it.
-/

namespace DocPage.Toml

/-- How a table came about. -/
inductive Origin where
  /-- A header names a table inside it, and no header names the table itself yet. -/
  | implied
  /-- A dotted key made it. -/
  | dotted
  /-- A header names it, or it is the whole document. -/
  | header
  /-- It is written in braces. Nothing adds to it. -/
  | inline
  deriving Repr, DecidableEq

/-- A value. Numbers that are not whole, dates and times are kept as they are written. -/
inductive Value where
  | string (t : Text)
  | boolean (b : Bool)
  | integer (n : Int)
  | float (written : Text)
  | moment (written : Text)
  /-- An array; it `grows` when headers in double brackets add its items. -/
  | array (grows : Bool) (items : List Value)
  | table (origin : Origin) (entries : List (Text × Value))
  deriving Repr, Inhabited

/-- The keys of a table with their values, in the order in which they are written. -/
abbrev Entries := List (Text × Value)

namespace Value

def string? : Value → Option Text
  | string t => some t
  | _ => none

def boolean? : Value → Option Bool
  | boolean b => some b
  | _ => none

end Value

end DocPage.Toml
