import DocPage.Proofs.Json.Attribute

/-!
# Indented JSON

The indented form is JSON for the value as well. Each line break with the blanks behind it stands
where the grammar allows blanks, so the reader gives the value back, also when blanks follow it.

## Architecture

- **Strings**: `written_plainString`
- **Values**: `written_prettyAt`, by recursion on the value, for every level
- **Reading**: `parse?_pretty_append`
-/

namespace DocPage.Json

/-! ## Strings -/

/-- A character as it is written in a plain string spells that character. -/
theorem stringBody_escapeChar (c : Char) {t s : Text} (h : StringBody t s) :
    StringBody (escapeChar c ++ t) (c :: s) := by
  -- As in an attribute, but a character of markup may stand for itself here.
  rcases escapeChar_cases c with ⟨hc, hlow⟩ | ⟨letter, hc, hletter, -⟩ | ⟨hc, hquote, hslash, hlow⟩
  · rw [hc]
    apply StringBody.unit _ h
    rw [hexUnit?_unicodeEscape (by omega), Char.ofNat_toNat]
  · rw [hc]
    exact .escape hletter h
  · rw [hc]
    exact .plain hquote hslash hlow h

theorem stringBody_plain (s : Text) : StringBody (s.flatMap escapeChar) s :=
  .flatMap (fun c _ _ => stringBody_escapeChar c) s

/-! ## Values -/

theorem blanks_newline (level : Nat) : Blanks (newline level) := by
  intro c hc
  -- A line break and the blanks of its level are all blanks.
  rcases List.mem_cons.mp hc with rfl | hc
  · rfl
  · rw [List.eq_of_mem_replicate hc]
    rfl

/-- A value on a line of its own. -/
theorem Written.element_on_line {v : Json} {t right : Text} (h : Written (.value v) t)
    (level : Nat) (hright : Blanks right) : Written (.element v) (newline level ++ t ++ right) :=
  .element (blanks_newline level) h hright

/-- A field on a line of its own; a blank stands between the colon and the value. -/
theorem Written.field_on_line {key t right : Text} {v : Json} (h : Written (.value v) t)
    (level : Nat) (hright : Blanks right) :
    Written (.field key v) (newline level ++ plainString key ++ ": ".toList ++ t ++ right) := by
  have hblank : Blanks [' '] := by
    intro c hc
    rw [List.mem_singleton.mp hc]
    rfl
  have hfield := Written.field (blanks_newline level) (stringBody_plain key) Blanks.nil
    (Written.element hblank h hright)
  simpa [plainString, quoted] using hfield

mutual

/-- The indented form is written for the value. -/
theorem written_prettyAt : ∀ (level : Nat) (v : Json), Written (.value v) (prettyAt level v)
  | _, .null => .null
  | _, .bool true => .yes
  | _, .bool false => .no
  | _, .int n => .int (isInteger_intText n)
  | _, .string s => .string (stringBody_plain s)
  | _, .array [] => .emptyArray Blanks.nil
  | level, .array (v :: vs) => by
    -- The break in front of the closing bracket belongs to the last item, so what comes behind that
    -- item is a parameter of the induction.
    have hitems := written_prettyItems (level + 1) (v :: vs) (List.cons_ne_nil v vs)
      (blanks_newline level)
    exact .array hitems
  | _, .object [] => .emptyObject Blanks.nil
  | level, .object (field :: fs) => by
    have hfields := written_prettyFields (level + 1) (field :: fs) (List.cons_ne_nil field fs)
      (blanks_newline level)
    exact .object hfields

theorem written_prettyItems : ∀ (level : Nat) (vs : List Json), vs ≠ [] → ∀ {right : Text},
    Blanks right → Written (.items vs) (prettyItems level vs ++ right)
  | _, [], h, _, _ => absurd rfl h
  | level, [v], _, _, hright =>
    .lastItem ((written_prettyAt level v).element_on_line level hright)
  | level, v :: w :: vs, _, right, hright => by
    -- Between two items there is only the comma, and the next break belongs to the next item.
    have hfirst := (written_prettyAt level v).element_on_line level Blanks.nil
    have hrest := written_prettyItems level (w :: vs) (List.cons_ne_nil w vs) hright
    have h := hfirst.item hrest
    simpa [prettyItems] using h

theorem written_prettyFields : ∀ (level : Nat) (fs : List (Text × Json)), fs ≠ [] →
    ∀ {right : Text}, Blanks right → Written (.fields fs) (prettyFields level fs ++ right)
  | _, [], h, _, _ => absurd rfl h
  | level, [(_, v)], _, _, hright =>
    .lastField ((written_prettyAt level v).field_on_line level hright)
  | level, (key, v) :: field :: fs, _, right, hright => by
    have hfirst : Written (.field key v) _ :=
      (written_prettyAt level v).field_on_line level Blanks.nil
    have hrest := written_prettyFields level (field :: fs) (List.cons_ne_nil field fs) hright
    have h := hfirst.moreFields hrest
    simpa [prettyFields] using h

end

/-! ## Reading -/

/-- The indented form is read as the value, whatever blanks follow it. -/
theorem parse?_pretty_append (v : Json) {blanks : Text} (h : Blanks blanks) :
    parse? (v.pretty ++ blanks) = some v := by
  -- The value stands alone, so its level is zero.
  apply parse?_of_written
  exact Written.element Blanks.nil (written_prettyAt 0 v) h

end DocPage.Json
