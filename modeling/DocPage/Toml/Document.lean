import DocPage.Toml.Statement

/-!
# Documents of TOML

A document is read statement by statement. Keys stand in the table of the last header. A mark of the
byte order may come first, and lines may also end in a carriage return and a line feed.
-/

namespace DocPage.Toml

/-- A document that is being read: its entries, and the keys of the last header. -/
structure Draft where
  entries : Entries := []
  current : List Text := []
  deriving Repr

/-- The document after one more statement. -/
def Draft.add? (d : Draft) : Statement → Option Draft
  | .pair path value =>
    (within? false (put? path value) d.current .header d.entries).map fun entries =>
      { d with entries }
  | .table path => (openTable? path d.entries).map fun entries => ⟨entries, path.keys⟩
  | .item path => (openItem? path d.entries).map fun entries => ⟨entries, path.keys⟩

def byteOrderMark : Char := '\ufeff'

/-- The text with line feeds for line ends, and without a mark of the byte order. -/
def plainLines (t : Text) : Text :=
  Text.replace "\r\n" "\n" ((Text.dropPrefix? [byteOrderMark] t).getD t)

def document? (t : Text) : Option Entries := do
  let draft ← (← statements? (plainLines t)).foldlM Draft.add? {}
  some draft.entries

end DocPage.Toml
