import DocPage.Proofs.Json.Grammar
import Mathlib.Data.Nat.Digits.Defs

/-!
# JSON inside an attribute

The compact form with attribute strings is JSON for the value, so a reader of JSON gives the value
back. It stays inside the attribute as well: it has no angle bracket, and a quote in it starts or
ends a string literal and is never escaped.

## Architecture

- **Characters**: what one written character spells, and which characters it avoids
- **Grammar**: `written_compact`, by recursion on the value
- **Delimiters**: `QuotesDelimit`, and `compact_pieces` for what holds of all pieces
-/

namespace DocPage.Json

/-! ## Characters -/

/-- Neither a quote nor an angle bracket. -/
def IsHarmless (c : Char) : Prop := c ≠ '"' ∧ c ≠ '<' ∧ c ≠ '>'

instance (c : Char) : Decidable (IsHarmless c) :=
  inferInstanceAs (Decidable (_ ∧ _))

/-- In a string a character is written in hexadecimal digits, by a letter behind a backslash, or as
it is. -/
theorem escapeChar_cases (c : Char) :
    (escapeChar c = unicodeEscape c ∧ c.toNat < 0x20) ∨
    (∃ letter, escapeChar c = ['\\', letter] ∧ escapedChar? letter = some c ∧
      (c ≠ '"' → IsHarmless letter)) ∨
    (escapeChar c = [c] ∧ c ≠ '"' ∧ c ≠ '\\' ∧ 0x20 ≤ c.toNat) := by
  unfold escapeChar
  -- The cases in the order in which the writer asks for them.
  split_ifs with hquote hslash hback htab hline hfeed hreturn hlow
  · exact .inr (.inl ⟨'"', rfl, by rw [hquote]; rfl, absurd hquote⟩)
  · exact .inr (.inl ⟨'\\', rfl, by rw [hslash]; rfl, fun _ => by decide⟩)
  · exact .inr (.inl ⟨'b', rfl, by rw [hback]; rfl, fun _ => by decide⟩)
  · exact .inr (.inl ⟨'t', rfl, by rw [htab]; rfl, fun _ => by decide⟩)
  · exact .inr (.inl ⟨'n', rfl, by rw [hline]; rfl, fun _ => by decide⟩)
  · exact .inr (.inl ⟨'f', rfl, by rw [hfeed]; rfl, fun _ => by decide⟩)
  · exact .inr (.inl ⟨'r', rfl, by rw [hreturn]; rfl, fun _ => by decide⟩)
  · -- The control characters without an escape of one letter.
    exact .inl ⟨rfl, hlow⟩
  · exact .inr (.inr ⟨rfl, hquote, hslash, by omega⟩)

/-- In an attribute quotes and angle brackets are written in hexadecimal digits as well. -/
theorem escapeAttrChar_cases (c : Char) :
    (escapeAttrChar c = unicodeEscape c ∧ c.toNat < 0x40) ∨
    (∃ letter, escapeAttrChar c = ['\\', letter] ∧ escapedChar? letter = some c ∧
      IsHarmless letter) ∨
    (escapeAttrChar c = [c] ∧ c ≠ '\\' ∧ 0x20 ≤ c.toNat ∧ IsHarmless c) := by
  unfold escapeAttrChar
  split
  · next hmarkup =>
    refine .inl ⟨rfl, ?_⟩
    rcases hmarkup with rfl | rfl | rfl
    all_goals decide
  next hmarkup =>
  -- What is left was written as in any other string, so its cases are reused.
  have hharmless : IsHarmless c := by simpa [IsHarmless] using hmarkup
  rcases escapeChar_cases c with ⟨hc, hlow⟩ | ⟨letter, hc, hletter, hplain⟩ |
    ⟨hc, -, hslash, hlow⟩
  · exact .inl ⟨hc, by omega⟩
  · exact .inr (.inl ⟨letter, hc, hletter, hplain hharmless.1⟩)
  · exact .inr (.inr ⟨hc, hslash, hlow, hharmless⟩)

/-- Four hexadecimal digits spell the character that they are written for. -/
theorem hexUnit?_unicodeEscape {n : Nat} (h : n < 0x40) :
    (hexUnit? (hexDigit (n / 4096 % 16)) (hexDigit (n / 256 % 16)) (hexDigit (n / 16 % 16))
      (hexDigit (n % 16))).bind loneUnit? = some (Char.ofNat n) := by
  -- There are only 64 such characters, and each is computed.
  revert n
  decide +kernel

/-- A character as it is written in an attribute spells that character. -/
theorem stringBody_escapeAttrChar (c : Char) {t s : Text} (h : StringBody t s) :
    StringBody (escapeAttrChar c ++ t) (c :: s) := by
  -- Each way to write a character is one rule of the grammar.
  rcases escapeAttrChar_cases c with ⟨hc, hlow⟩ | ⟨letter, hc, hletter, -⟩ | ⟨hc, hslash, hlow, hc'⟩
  · rw [hc]
    refine StringBody.unit ?_ h
    rw [hexUnit?_unicodeEscape hlow, Char.ofNat_toNat]
  · rw [hc]
    exact .escape hletter h
  · rw [hc]
    exact .plain hc'.1 hslash hlow h

/-- A way to write characters that spells each of them spells whole texts. -/
theorem StringBody.flatMap {escape : Char → Text}
    (hescape : ∀ c t s, StringBody t s → StringBody (escape c ++ t) (c :: s)) (s : Text) :
    StringBody (s.flatMap escape) s := by
  induction s with
  | nil => exact .nil
  | cons c s ih => exact hescape c _ s ih

theorem stringBody_flatMap (s : Text) : StringBody (s.flatMap escapeAttrChar) s :=
  .flatMap (fun c _ _ => stringBody_escapeAttrChar c) s

theorem isHarmless_hexDigit : ∀ n < 16, IsHarmless (hexDigit n) := by
  decide +kernel

theorem isHarmless_unicodeEscape {c : Char} : ∀ d ∈ unicodeEscape c, IsHarmless d := by
  intro d hd
  -- Four of the six characters are digits, and the others are fixed.
  simp only [unicodeEscape, List.mem_cons, List.not_mem_nil, or_false] at hd
  rcases hd with rfl | rfl | rfl | rfl | rfl | rfl
  · decide
  · decide
  all_goals exact isHarmless_hexDigit _ (Nat.mod_lt _ (by decide))

/-- A character is written in an attribute without quotes and angle brackets. -/
theorem isHarmless_escapeAttrChar {c : Char} : ∀ d ∈ escapeAttrChar c, IsHarmless d := by
  intro d hd
  rcases escapeAttrChar_cases c with ⟨hc, -⟩ | ⟨letter, hc, -, hletter⟩ | ⟨hc, -, -, hc'⟩
  · exact isHarmless_unicodeEscape d (hc ▸ hd)
  · rw [hc] at hd
    rcases List.mem_pair.mp hd with rfl | rfl
    · decide
    · exact hletter
  · rw [hc] at hd
    rwa [List.mem_singleton.mp hd]

theorem isHarmless_flatMap (s : Text) : ∀ d ∈ s.flatMap escapeAttrChar, IsHarmless d := by
  intro d hd
  obtain ⟨c, -, hd⟩ := List.mem_flatMap.mp hd
  exact isHarmless_escapeAttrChar d hd

/-! ## Integers -/

/-- The digits of a positive number do not start with zero. -/
theorem head?_toDigits_ne {n : Nat} (h : 0 < n) : (Nat.toDigits 10 n).head? ≠ some '0' := by
  -- The first digit of `n` is the first digit of `n / 10`, until one digit is left.
  induction n using Nat.strong_induction_on with
  | _ n ih =>
    by_cases hsmall : n < 10
    · rw [Nat.toDigits_of_lt_base hsmall]
      exact (by decide : ∀ d < 10, 0 < d → [Nat.digitChar d].head? ≠ some '0') n hsmall h
    · rw [Nat.toDigits_of_base_le (by decide) (by omega),
        List.head?_append_of_ne_nil _ Nat.toDigits_ne_nil]
      exact ih (n / 10) (by omega) (by omega)

theorem isDigits_ofNat (n : Nat) : IsDigits (Text.ofNat n) where
  ne_nil := Nat.toDigits_ne_nil
  isDigit _ hd := Text.isDigit_of_mem_ofNat hd
  eq_zero hzero := by
    by_cases hpos : 0 < n
    · exact absurd hzero (head?_toDigits_ne hpos)
    -- A number with a leading zero is zero.
    · obtain rfl : n = 0 := by omega
      rfl

theorem isInteger_intText (n : Int) : IsInteger (intText n) n := by
  cases n with
  | ofNat n =>
    have h := IsInteger.natural (isDigits_ofNat n)
    rwa [Text.digitsValue_ofNat] at h
  | negSucc n =>
    have h := IsInteger.negative (isDigits_ofNat (n + 1))
    rwa [Text.digitsValue_ofNat] at h

/-- A letter, a digit or a mark: what a compact form has outside of its strings. -/
def IsPlain (c : Char) : Prop :=
  c.isAlphanum = true ∨ c ∈ ['[', ']', '\x7b', '\x7d', ':', ',', '-']

instance (c : Char) : Decidable (IsPlain c) :=
  inferInstanceAs (Decidable (_ ∨ _))

theorem IsPlain.ne {c d : Char} (h : IsPlain c) (hd : d.isAlphanum = false)
    (hmark : d ∉ ['[', ']', '\x7b', '\x7d', ':', ',', '-']) : c ≠ d := by
  rintro rfl
  rcases h with h | h
  · rw [hd] at h
    cases h
  · exact hmark h

theorem IsPlain.isHarmless {c : Char} (h : IsPlain c) : IsHarmless c :=
  ⟨h.ne (by decide) (by decide), h.ne (by decide) (by decide), h.ne (by decide) (by decide)⟩

theorem isPlain_intText (n : Int) : ∀ c ∈ intText n, IsPlain c := by
  have hdigits : ∀ k : Nat, ∀ c ∈ Text.ofNat k, IsPlain c := by
    intro k c hc
    have hdigit := (isDigits_ofNat k).isDigit c hc
    -- Digits are letters or digits, so they are plain whatever the number.
    exact .inl (by simp [Char.isAlphanum, hdigit])
  cases n with
  | ofNat n => exact hdigits n
  | negSucc n =>
    intro c hc
    rcases List.mem_cons.mp hc with rfl | hc
    · exact .inr (by simp)
    · exact hdigits _ c hc

theorem isHarmless_intText (n : Int) : ∀ c ∈ intText n, IsHarmless c :=
  fun c hc => (isPlain_intText n c hc).isHarmless

/-! ## Grammar -/

theorem Written.element_of_value {v : Json} {t : Text} (h : Written (.value v) t) :
    Written (.element v) t := by
  have helement := Written.element Blanks.nil h Blanks.nil
  rwa [List.append_nil] at helement

theorem written_attrString (s : Text) : Written (.value (.string s)) (attrString s) :=
  .string (stringBody_flatMap s)

theorem written_field {key t : Text} {v : Json} (h : Written (.value v) t) :
    Written (.field key v) (attrString key ++ ':' :: t) := by
  have hfield := Written.field Blanks.nil (stringBody_flatMap key) Blanks.nil h.element_of_value
  simpa [attrString, quoted] using hfield

mutual

/-- The compact form is written for the value. -/
theorem written_compact : ∀ v : Json, Written (.value v) (compact attrString v)
  | .null => .null
  | .bool true => .yes
  | .bool false => .no
  | .int n => .int (isInteger_intText n)
  | .string s => written_attrString s
  | .array [] => .emptyArray Blanks.nil
  | .array (v :: vs) => .array (written_compactItems (v :: vs) (List.cons_ne_nil v vs))
  | .object [] => .emptyObject Blanks.nil
  | .object (field :: fs) => .object (written_compactFields (field :: fs) (List.cons_ne_nil field fs))

theorem written_compactItems :
    ∀ vs : List Json, vs ≠ [] → Written (.items vs) (compactItems attrString vs)
  | [], h => absurd rfl h
  | [v], _ => .lastItem (written_compact v).element_of_value
  | v :: w :: vs, _ =>
    .item (written_compact v).element_of_value
      (written_compactItems (w :: vs) (List.cons_ne_nil w vs))

theorem written_compactFields :
    ∀ fs : List (Text × Json), fs ≠ [] → Written (.fields fs) (compactFields attrString fs)
  | [], h => absurd rfl h
  | [(_, v)], _ => .lastField (written_field (written_compact v))
  | (key, v) :: field :: fs, _ => by
    have hfirst : Written (.field key v) _ := written_field (written_compact v)
    have h := hfirst.moreFields (written_compactFields (field :: fs) (List.cons_ne_nil field fs))
    simpa [compactFields] using h

end

/-! ## Delimiters -/

/-- Every quote of the text starts or ends a string literal. -/
inductive QuotesDelimit : Text → Prop where
  | nil : QuotesDelimit []
  | plain {c : Char} {t : Text} : c ≠ '"' → QuotesDelimit t → QuotesDelimit (c :: t)
  | literal {body s t : Text} : '"' ∉ body → StringBody body s → QuotesDelimit t →
      QuotesDelimit ('"' :: body ++ '"' :: t)

namespace QuotesDelimit

theorem append {t u : Text} (ht : QuotesDelimit t) (hu : QuotesDelimit u) :
    QuotesDelimit (t ++ u) := by
  induction ht with
  | nil => exact hu
  | plain hc _ ih => exact .plain hc ih
  -- The literal stays whole, and the second text comes behind what is behind it.
  | literal hquote hbody _ ih =>
    rw [List.append_assoc]
    exact .literal hquote hbody ih

theorem of_notMem {t : Text} (h : '"' ∉ t) : QuotesDelimit t := by
  induction t with
  | nil => exact .nil
  | cons c t ih =>
    obtain ⟨hc, ht⟩ := List.ne_and_not_mem_of_not_mem_cons h
    exact .plain (Ne.symm hc) (ih ht)

theorem attrString (s : Text) : QuotesDelimit (Json.attrString s) :=
  .literal (fun h => (isHarmless_flatMap s _ h).1 rfl) (stringBody_flatMap s) .nil

end QuotesDelimit

/-- What holds of plain texts and of string literals, and of two texts in a row, holds of every
compact form. -/
theorem compact_pieces {string : Text → Text} {P : Text → Prop}
    (plain : ∀ t, (∀ c ∈ t, IsPlain c) → P t) (literal : ∀ s, P (string s))
    (append : ∀ t u, P t → P u → P (t ++ u)) (v : Json) : P (compact string v) := by
  -- Brackets, commas and colons are plain texts of one character.
  have hmark : ∀ c, IsPlain c → P [c] := fun c hc =>
    plain [c] fun d hd => List.mem_singleton.mp hd ▸ hc
  -- An enclosed text is put together from three, and a joined one as well.
  have henclosed : ∀ c d t, IsPlain c → IsPlain d → P t → P (c :: t ++ [d]) :=
    fun c d t hc hd ht => append (c :: t) [d] (append [c] t (hmark c hc) ht) (hmark d hd)
  have hjoined : ∀ c t u, IsPlain c → P t → P u → P (t ++ c :: u) :=
    fun c t u hc ht hu => append t (c :: u) ht (append [c] u (hmark c hc) hu)
  refine compact.induct (fun v => P (compact string v)) (fun fs => P (compactFields string fs))
    (fun vs => P (compactItems string vs)) ?null ?yes ?no ?int ?string ?array ?object
    ?noItems ?lastItem ?item ?noFields ?lastField ?field v
  case null => exact plain "null" (by decide)
  case yes => exact plain "true" (by decide)
  case no => exact plain "false" (by decide)
  case int => exact fun n => plain _ (isPlain_intText n)
  case string => exact literal
  case array => exact fun vs hvs => henclosed '[' ']' _ (by decide) (by decide) hvs
  case object => exact fun fs hfs => henclosed '\x7b' '\x7d' _ (by decide) (by decide) hfs
  case noItems => exact plain [] fun _ h => nomatch h
  case lastItem => exact fun v hv => hv
  case item =>
    intro v vs hvs hv hrest
    -- The writer looks ahead for a further item, so its equation for that case is named.
    rw [compactItems.eq_3 string v vs hvs]
    exact hjoined ',' _ _ (by decide) hv hrest
  case noFields => exact plain [] fun _ h => nomatch h
  case lastField => exact fun key v hv => hjoined ':' _ _ (by decide) (literal key) hv
  case field =>
    intro key v fs hfs hv hrest
    rw [compactFields.eq_3 string key v fs hfs]
    exact hjoined ',' _ _ (by decide) (hjoined ':' _ _ (by decide) (literal key) hv) hrest

/-- Plain texts are harmless. -/
theorem compact_induction {string : Text → Text} {P : Text → Prop}
    (harmless : ∀ t, (∀ c ∈ t, IsHarmless c) → P t) (literal : ∀ s, P (string s))
    (append : ∀ t u, P t → P u → P (t ++ u)) (v : Json) : P (compact string v) :=
  compact_pieces (fun t ht => harmless t fun c hc => (ht c hc).isHarmless) literal append v

/-- The text stays inside an attribute: it has no angle bracket, and its quotes delimit strings. -/
def AttributeSafe (t : Text) : Prop := '<' ∉ t ∧ '>' ∉ t ∧ QuotesDelimit t

theorem attributeSafe_append {t u : Text} (ht : AttributeSafe t) (hu : AttributeSafe u) :
    AttributeSafe (t ++ u) := by
  refine ⟨?_, ?_, ht.2.2.append hu.2.2⟩
  · exact fun h => (List.mem_append.mp h).elim ht.1 hu.1
  · exact fun h => (List.mem_append.mp h).elim ht.2.1 hu.2.1

theorem attributeSafe_of_isHarmless {t : Text} (h : ∀ c ∈ t, IsHarmless c) : AttributeSafe t :=
  ⟨fun hmem => (h _ hmem).2.1 rfl, fun hmem => (h _ hmem).2.2 rfl,
    .of_notMem fun hmem => (h _ hmem).1 rfl⟩

theorem attributeSafe_attrString (s : Text) : AttributeSafe (attrString s) := by
  have hbody := attributeSafe_of_isHarmless (isHarmless_flatMap s)
  have hangle : ∀ c, c ≠ '"' → c ∉ s.flatMap escapeAttrChar → c ∉ attrString s := by
    -- The delimiters are quotes, and everything between them is harmless.
    intro c hquote hc hmem
    rcases List.mem_append.mp hmem with hmem | hmem
    · exact hc ((List.mem_cons.mp hmem).resolve_left hquote)
    · exact hquote (List.mem_singleton.mp hmem)
  exact ⟨hangle '<' (by decide) hbody.1, hangle '>' (by decide) hbody.2.1, .attrString s⟩

/-- No angle bracket opens in an attribute. -/
theorem openingAngle_notMem_toAttr (v : Json) : '<' ∉ v.toAttr :=
  compact_induction (P := fun t => '<' ∉ t) (fun _ h hmem => (h _ hmem).2.1 rfl)
    (fun s => (attributeSafe_attrString s).1)
    (fun _ _ ht hu hmem => (List.mem_append.mp hmem).elim ht hu) v

/-- A line feed is written by a letter. -/
theorem newline_notMem_attrString (s : Text) : '\n' ∉ attrString s := by
  have hchar : ∀ c : Char, '\n' ∉ escapeAttrChar c := by
    intro c hmem
    -- The line feed has an escape of one letter, so none of the three ways writes it.
    rcases escapeAttrChar_cases c with ⟨hc, -⟩ | ⟨letter, hc, hletter, -⟩ | ⟨hc, -, hlow, -⟩
    · have hdigit : ∀ n < 16, '\n' ≠ hexDigit n := by decide +kernel
      rw [hc] at hmem
      simp [unicodeEscape, hdigit, Nat.mod_lt] at hmem
    · rw [hc] at hmem
      rcases List.mem_pair.mp hmem with heq | rfl
      · cases heq
      · cases hletter
    · rw [hc, List.mem_singleton] at hmem
      subst hmem
      exact absurd hlow (by decide)
  intro hmem
  simp only [attrString, quoted, List.mem_append, List.mem_cons, List.mem_flatMap] at hmem
  rcases hmem with (heq | ⟨c, -, hc⟩) | heq
  · cases heq
  · exact hchar c hc
  · simp at heq

/-- An attribute stands on one line. -/
theorem newline_notMem_toAttr (v : Json) : '\n' ∉ v.toAttr :=
  compact_pieces (P := fun t => '\n' ∉ t)
    (fun _ h hmem => (h _ hmem).ne (by decide) (by decide) rfl) newline_notMem_attrString
    (fun _ _ ht hu hmem => (List.mem_append.mp hmem).elim ht hu) v

/-- A value in an attribute is safe and lossless: there is no angle bracket, every quote delimits a
string literal, the text is JSON for this value and for no other, and the reader gives it back. -/
theorem toAttr_safe_and_lossless (v : Json) :
    '<' ∉ v.toAttr ∧ '>' ∉ v.toAttr ∧ QuotesDelimit v.toAttr ∧
      (∀ w, Written (.element w) v.toAttr ↔ w = v) ∧ parse? v.toAttr = some v := by
  have hwritten : Written (.element v) v.toAttr := (written_compact v).element_of_value
  -- Safety goes along the shape of the text, and losslessness along the grammar.
  obtain ⟨hopen, hclose, hquotes⟩ : AttributeSafe v.toAttr :=
    compact_induction (fun _ => attributeSafe_of_isHarmless) attributeSafe_attrString
      (fun _ _ => attributeSafe_append) v
  refine ⟨hopen, hclose, hquotes, fun w => ⟨fun hw => written_unique hw hwritten, ?_⟩,
    parse?_of_written hwritten⟩
  rintro rfl
  exact hwritten

/-- The quote of the text is written in digits, and only the two delimiters are quotes. -/
example : (Json.array [.string "a\"<b>".toList]).toAttr =
    "[\"a\\u0022\\u003cb\\u003e\"]".toList := by
  decide +kernel

end DocPage.Json
