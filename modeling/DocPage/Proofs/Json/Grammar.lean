import DocPage.Json.Parse
import DocPage.Proofs.Text.Search
import Mathlib.Data.List.TakeWhile

/-!
# The grammar of JSON

Which texts are written for which values is said here without the readers. Blanks may stand between
the tokens, a string may spell its characters by any of the escapes, and a number has no leading
zero. The reader takes every such text; so a text is written for one value at most, and any reader
that respects the grammar gives that value.

## Architecture

- **Strings and integers**: `StringBody` and `IsInteger`, each with what its reader makes of it
- **Values**: `Written`, one relation for values, for the items of arrays and for the fields of
  objects
- **Reading**: `Form.Taken` with a lemma for each rule, `parse?_of_written`, and `written_unique`
  from it
-/

namespace DocPage.Json

/-! ## Blanks -/

def Blanks (t : Text) : Prop := ∀ c ∈ t, isJsonBlank c = true

theorem Blanks.nil : Blanks [] := fun _ h => nomatch h

theorem dropBlanks_append {blanks : Text} (h : Blanks blanks) (t : Text) :
    dropBlanks (blanks ++ t) = dropBlanks t :=
  List.dropWhile_append_of_pos h

theorem dropBlanks_cons {c : Char} (h : isJsonBlank c = false) (t : Text) :
    dropBlanks (c :: t) = c :: t :=
  List.dropWhile_cons_of_neg (by simp [h])

/-- A mark behind blanks is taken. -/
theorem dropMark?_append {blanks : Text} (h : Blanks blanks) {mark : Char}
    (hmark : isJsonBlank mark = false) (t : Text) :
    dropMark? mark (blanks ++ mark :: t) = some t := by
  unfold dropMark?
  rw [dropBlanks_append h, dropBlanks_cons hmark]
  exact Text.dropPrefix?_append [mark] t

/-! ## Strings -/

/-- What stands between the quotes of a string literal, and the text that it spells. -/
inductive StringBody : (body spelled : Text) → Prop where
  | nil : StringBody [] []
  | plain {c : Char} {t s : Text} : c ≠ '"' → c ≠ '\\' → 0x20 ≤ c.toNat → StringBody t s →
      StringBody (c :: t) (c :: s)
  | escape {letter c : Char} {t s : Text} : escapedChar? letter = some c → StringBody t s →
      StringBody ('\\' :: letter :: t) (c :: s)
  | unit {a b c d char : Char} {t s : Text} : (hexUnit? a b c d).bind loneUnit? = some char →
      StringBody t s → StringBody ('\\' :: 'u' :: a :: b :: c :: d :: t) (char :: s)
  | pair {a b c d e f g h char : Char} {high low : Nat} {t s : Text} :
      hexUnit? a b c d = some high → hexUnit? e f g h = some low →
      pairedUnits? high low = some char → StringBody t s →
      StringBody ('\\' :: 'u' :: a :: b :: c :: d :: '\\' :: 'u' :: e :: f :: g :: h :: t)
        (char :: s)

/-- The first half of a pair stands for no character. -/
theorem loneUnit?_of_pairedUnits? {high low : Nat} {char : Char}
    (h : pairedUnits? high low = some char) : loneUnit? high = none := by
  unfold pairedUnits? at h
  split at h
  · next hrange =>
    simp only [Bool.and_eq_true, decide_eq_true_eq] at hrange
    -- The range of a first half is exactly what a character alone must not be in.
    unfold loneUnit?
    rw [if_pos (by simp only [Bool.and_eq_true, decide_eq_true_eq]; omega)]
  · cases h

theorem stringRest?_plain {c : Char} (hquote : c ≠ '"') (hslash : c ≠ '\\') (hlow : 0x20 ≤ c.toNat)
    (t : Text) : stringRest? (c :: t) = (stringRest? t).map fun (s, rest) => (c :: s, rest) := by
  rw [stringRest?.eq_def]
  -- The reader's cases for a quote and for a backslash are excluded by the character.
  split
  · next heq => cases heq
  · next heq => exact absurd (List.cons.inj heq).1 hquote
  · next heq => exact absurd (List.cons.inj heq).1 hslash
  · next heq => exact absurd (List.cons.inj heq).1 hslash
  · next heq => exact absurd (List.cons.inj heq).1 hslash
  · next heq =>
    cases heq
    rw [if_neg (by omega)]

theorem stringRest?_escape {letter c : Char} (h : escapedChar? letter = some c) (t : Text) :
    stringRest? ('\\' :: letter :: t) = (stringRest? t).map fun (s, rest) => (c :: s, rest) := by
  -- The letter `u` is none of the short escapes; it asks for four digits.
  have hu : letter ≠ 'u' := by
    rintro rfl
    cases h
  rw [stringRest?.eq_def]
  split
  · next heq => cases heq
  · next heq => exact absurd (List.cons.inj heq).1 (by decide)
  · next heq => exact absurd (List.cons.inj (List.cons.inj heq).2).1 hu
  · next heq => exact absurd (List.cons.inj (List.cons.inj heq).2).1 hu
  · next heq =>
    cases heq
    rw [h]
  · next hno heq =>
    cases heq
    exact absurd rfl (hno _ _ rfl)

theorem stringRest?_unit {a b c d char : Char} (h : (hexUnit? a b c d).bind loneUnit? = some char)
    (t : Text) : stringRest? ('\\' :: 'u' :: a :: b :: c :: d :: t) =
      (stringRest? t).map fun (s, rest) => (char :: s, rest) := by
  obtain ⟨unit, hunit, hchar⟩ := Option.bind_eq_some_iff.mp h
  rw [stringRest?.eq_def]
  split
  · next heq => cases heq
  · next heq => exact absurd (List.cons.inj heq).1 (by decide)
  · next heq =>
    -- Another escape follows, but this one is complete by itself.
    cases heq
    rw [hunit]
    dsimp only
    rw [hchar]
  · next heq =>
    cases heq
    rw [h]
  · next hshort heq =>
    cases heq
    exact absurd rfl (hshort a b c d t rfl)
  · next hescape heq =>
    cases heq
    exact absurd rfl (hescape 'u' (a :: b :: c :: d :: t) rfl)

theorem stringRest?_pair {a b c d e f g h char : Char} {high low : Nat}
    (hhigh : hexUnit? a b c d = some high) (hlow : hexUnit? e f g h = some low)
    (hpair : pairedUnits? high low = some char) (t : Text) :
    stringRest? ('\\' :: 'u' :: a :: b :: c :: d :: '\\' :: 'u' :: e :: f :: g :: h :: t) =
      (stringRest? t).map fun (s, rest) => (char :: s, rest) := by
  rw [stringRest?]
  rw [hhigh]
  dsimp only
  -- The reader asks first whether the unit stands for a character by itself, and it does not.
  rw [loneUnit?_of_pairedUnits? hpair, hlow]
  dsimp only [Option.bind_some]
  rw [hpair]

/-- A string is taken up to its closing quote. -/
theorem stringRest?_append {t s : Text} (h : StringBody t s) (rest : Text) :
    stringRest? (t ++ '"' :: rest) = some (s, rest) := by
  -- On the body; the closing quote follows in each case, since the body goes on behind a character.
  induction h with
  | nil => rw [List.nil_append, stringRest?]
  | plain hquote hslash hlow _ ih =>
    rw [List.cons_append, stringRest?_plain hquote hslash hlow, ih]
    rfl
  | escape hchar _ ih =>
    simp only [List.cons_append]
    rw [stringRest?_escape hchar, ih]
    rfl
  | unit hchar _ ih =>
    simp only [List.cons_append]
    rw [stringRest?_unit hchar, ih]
    rfl
  | pair hhigh hlow hpair _ ih =>
    simp only [List.cons_append]
    rw [stringRest?_pair hhigh hlow hpair, ih]
    rfl

/-! ## Integers -/

/-- Decimal digits without a leading zero. -/
structure IsDigits (ds : Text) : Prop where
  ne_nil : ds ≠ []
  isDigit : ∀ d ∈ ds, d.isDigit = true
  eq_zero : ds.head? = some '0' → ds = ['0']

/-- How an integer is written. -/
inductive IsInteger : Text → Int → Prop where
  | natural {ds : Text} : IsDigits ds → IsInteger ds (Text.digitsValue ds)
  | negative {ds : Text} : IsDigits ds → IsInteger ('-' :: ds) (-(Text.digitsValue ds : Int))

/-- What may follow a value: nothing, a blank, a comma or a closing bracket. -/
def Follows (rest : Text) : Prop :=
  ∀ c, rest.head? = some c → isJsonBlank c = true ∨ c = ',' ∨ c = ']' ∨ c = '}'

theorem Follows.ne {rest : Text} (h : Follows rest) {c : Char} (hc : rest.head? = some c) :
    c.isDigit = false ∧ c ≠ '.' ∧ c ≠ 'e' ∧ c ≠ 'E' := by
  rcases h c hc with hblank | rfl | rfl | rfl
  · simp only [isJsonBlank, Bool.or_eq_true, beq_iff_eq] at hblank
    -- Neither blanks nor the marks between values can go on with a number.
    rcases hblank with ((rfl | rfl) | rfl) | rfl
    all_goals decide
  all_goals decide

/-- Digits are taken up to where no digit follows. -/
theorem digits?_append {ds rest : Text} (hds : IsDigits ds) (hrest : Follows rest) :
    digits? (ds ++ rest) = some (ds, rest) := by
  have htake : (ds ++ rest).takeWhile Char.isDigit = ds :=
    Text.takeWhile_append_of_boundary hds.isDigit fun c hc => (hrest.ne hc).1
  unfold digits?
  rw [htake]
  dsimp only
  rw [List.drop_left]
  -- The reader refuses no digits at all and a zero in front of other digits.
  split
  · exact absurd rfl hds.ne_nil
  · exact absurd (hds.eq_zero rfl) (by simp)
  · rfl

theorem integer?_append {t rest : Text} {n : Int} (ht : IsInteger t n) (hrest : Follows rest) :
    integer? (t ++ rest) = some (n, rest) := by
  -- A fraction or an exponent would follow the digits at once.
  have hend : (rest.head?.any fun c => c == '.' || c == 'e' || c == 'E') = false := by
    cases hhead : rest.head? with
    | none => rfl
    | some c =>
      obtain ⟨-, h1, h2, h3⟩ := hrest.ne hhead
      simp [h1, h2, h3]
  unfold integer?
  cases ht with
  | natural hds =>
    -- The sign is asked for first, and no digit is one.
    have hsign : Text.dropPrefix? ['-'] (t ++ rest) = none := by
      cases t with
      | nil => exact absurd rfl hds.ne_nil
      | cons d ds =>
        have hne : '-' ≠ d := by
          rintro rfl
          exact absurd (hds.isDigit '-' List.mem_cons_self) (by decide)
        simp [Text.dropPrefix?, hne]
    simp [hsign, digits?_append hds hrest, hend]
  | @negative ds hds =>
    have hsign : Text.dropPrefix? ['-'] ('-' :: ds ++ rest) = some (ds ++ rest) := rfl
    rw [hsign]
    simp [digits?_append hds hrest, hend]

/-! ## Values -/

/-- What a text may be written for: a value, a value with blanks around it, the items of an array,
a field of an object, or the fields of an object. -/
inductive Form where
  | value (v : Json)
  | element (v : Json)
  | items (vs : List Json)
  | field (key : Text) (v : Json)
  | fields (fs : List (Text × Json))

/-- The text is written for the form. -/
inductive Written : Form → Text → Prop where
  | null : Written (.value .null) "null"
  | yes : Written (.value (.bool true)) "true"
  | no : Written (.value (.bool false)) "false"
  | int {t : Text} {n : Int} : IsInteger t n → Written (.value (.int n)) t
  | string {body s : Text} : StringBody body s → Written (.value (.string s)) ('"' :: body ++ ['"'])
  | emptyArray {blanks : Text} : Blanks blanks →
      Written (.value (.array [])) ('[' :: blanks ++ [']'])
  | array {vs : List Json} {t : Text} : Written (.items vs) t →
      Written (.value (.array vs)) ('[' :: t ++ [']'])
  | emptyObject {blanks : Text} : Blanks blanks →
      Written (.value (.object [])) ('{' :: blanks ++ ['}'])
  | object {fs : List (Text × Json)} {t : Text} : Written (.fields fs) t →
      Written (.value (.object fs)) ('{' :: t ++ ['}'])
  | element {v : Json} {left t right : Text} : Blanks left → Written (.value v) t → Blanks right →
      Written (.element v) (left ++ t ++ right)
  | lastItem {v : Json} {t : Text} : Written (.element v) t → Written (.items [v]) t
  | item {v : Json} {vs : List Json} {t ts : Text} : Written (.element v) t →
      Written (.items vs) ts → Written (.items (v :: vs)) (t ++ ',' :: ts)
  | field {key : Text} {v : Json} {left body middle t : Text} : Blanks left →
      StringBody body key → Blanks middle → Written (.element v) t →
      Written (.field key v) (left ++ '"' :: body ++ '"' :: middle ++ ':' :: t)
  | lastField {key : Text} {v : Json} {t : Text} : Written (.field key v) t →
      Written (.fields [(key, v)]) t
  | moreFields {key : Text} {v : Json} {fs : List (Text × Json)} {t ts : Text} :
      Written (.field key v) t → Written (.fields fs) ts →
      Written (.fields ((key, v) :: fs)) (t ++ ',' :: ts)

/-- What the readers have to make of a text that is written for the form, whatever follows it. The
blanks behind a value are left to the next reader. -/
def Form.Taken : Form → Text → Prop
  | .value v, t => ∀ fuel rest, 2 * t.length ≤ fuel → Follows rest →
      value? fuel (t ++ rest) = some (v, rest)
  | .element v, t => ∀ fuel rest, 2 * t.length ≤ fuel → Follows rest →
      ∃ left, value? fuel (t ++ rest) = some (v, left) ∧ dropBlanks left = dropBlanks rest
  | .items vs, t => ∀ fuel rest, 2 * t.length < fuel →
      items? fuel (t ++ ']' :: rest) = some (vs, rest)
  | .field key v, t => ∀ fuel rest, 2 * t.length ≤ fuel → Follows rest →
      ∃ behind left, string? (t ++ rest) = some (key, behind) ∧
        (dropMark? ':' behind).bind (value? fuel) = some (v, left) ∧
        dropBlanks left = dropBlanks rest
  | .fields fs, t => ∀ fuel rest, 2 * t.length < fuel →
      fields? fuel (t ++ '}' :: rest) = some (fs, rest)

/-- The first character of a value is no blank and closes nothing. -/
theorem Written.exists_cons {v : Json} {t : Text} (h : Written (.value v) t) :
    ∃ c u, t = c :: u ∧ isJsonBlank c = false ∧ c ≠ ']' ∧ c ≠ '}' := by
  -- All but a number begin with a fixed character.
  cases h with
  | null | yes | no => exact ⟨_, _, rfl, by decide⟩
  | string | emptyArray | array | emptyObject | object => exact ⟨_, _, rfl, by decide⟩
  | int hint =>
    cases hint with
    | natural hds =>
      cases t with
      | nil => exact absurd rfl hds.ne_nil
      | cons d ds =>
        have hdigit := hds.isDigit d List.mem_cons_self
        have hne : ∀ c : Char, c.isDigit = false → d ≠ c := by
          rintro c hc rfl
          rw [hc] at hdigit
          cases hdigit
        refine ⟨d, ds, rfl, ?_, hne _ (by decide), hne _ (by decide)⟩
        simp [isJsonBlank, hne]
    | negative => exact ⟨_, _, rfl, by decide⟩

/-- A digit or a minus sign starts no other value. -/
theorem value?_of_isInteger {t rest : Text} {n : Int} (ht : IsInteger t n) (hrest : Follows rest)
    (fuel : Nat) : value? (fuel + 1) (t ++ rest) = some (.int n, rest) := by
  obtain ⟨c, u, rfl, hblank, -, -⟩ := (Written.int ht).exists_cons
  have htaken := integer?_append ht hrest
  -- The reader looks at the first character only to choose the kind of value.
  have hfirst : c = '-' ∨ c.isDigit = true := by
    cases ht with
    | natural hds => exact .inr (hds.isDigit c List.mem_cons_self)
    | negative => exact .inl rfl
  have hne : ∀ d : Char, d ≠ '-' → d.isDigit = false → c ≠ d := by
    rintro d hminus hd rfl
    rcases hfirst with rfl | hdigit
    · exact hminus rfl
    · rw [hd] at hdigit
      cases hdigit
  rw [value?, List.cons_append, dropBlanks_cons hblank]
  -- None of the other values begins with a digit or a minus sign.
  split
  case h_7 =>
    rw [← List.cons_append, htaken]
    rfl
  all_goals
    next heq => exact absurd (List.cons.inj heq).1 (hne _ (by decide) (by decide))

theorem value?_string (fuel : Nat) (t : Text) :
    value? (fuel + 1) ('"' :: t) = (stringRest? t).map fun (s, rest) => (.string s, rest) := rfl

theorem value?_emptyArray {t rest : Text} (h : dropMark? ']' t = some rest) (fuel : Nat) :
    value? (fuel + 1) ('[' :: t) = some (.array [], rest) := by
  rw [value?, dropBlanks_cons (by decide)]
  simp [h]

theorem value?_array {t : Text} (h : dropMark? ']' t = none) (fuel : Nat) :
    value? (fuel + 1) ('[' :: t) = (items? fuel t).map fun (items, rest) => (.array items, rest) := by
  rw [value?, dropBlanks_cons (by decide)]
  simp [h]

theorem value?_emptyObject {t rest : Text} (h : dropMark? '}' t = some rest) (fuel : Nat) :
    value? (fuel + 1) ('{' :: t) = some (.object [], rest) := by
  rw [value?, dropBlanks_cons (by decide)]
  simp [h]

theorem value?_object {t : Text} (h : dropMark? '}' t = none) (fuel : Nat) :
    value? (fuel + 1) ('{' :: t) =
      (fields? fuel t).map fun (fields, rest) => (.object fields, rest) := by
  rw [value?, dropBlanks_cons (by decide)]
  simp [h]

theorem value?_append_of_blanks {blanks : Text} (h : Blanks blanks) (fuel : Nat) (t : Text) :
    value? fuel (blanks ++ t) = value? fuel t := by
  -- The reader drops blanks before it does anything else.
  cases fuel with
  | zero => rfl
  | succ fuel => rw [value?, value?, dropBlanks_append h]

/-- Blanks in front of a mark do not hide it, and nothing else is taken for it. -/
theorem dropMark?_eq_none {mark c : Char} (hblank : isJsonBlank c = false) (hne : c ≠ mark)
    {blanks : Text} (h : Blanks blanks) (t : Text) : dropMark? mark (blanks ++ c :: t) = none := by
  unfold dropMark?
  rw [dropBlanks_append h, dropBlanks_cons hblank]
  simp [Text.dropPrefix?, Ne.symm hne]

/-- Items and fields start with blanks and then with something that does not close them. -/
theorem Written.exists_blanks_cons {form : Form} {t : Text} (h : Written form t) :
    ∃ blanks c u, Blanks blanks ∧ t = blanks ++ c :: u ∧ isJsonBlank c = false ∧ c ≠ ']' ∧
      c ≠ '}' := by
  induction h with
  | null | yes | no => exact ⟨[], _, _, .nil, rfl, by decide⟩
  | string | emptyArray | array | emptyObject | object => exact ⟨[], _, _, .nil, rfl, by decide⟩
  | int hint =>
    obtain ⟨c, u, rfl, hc⟩ := (Written.int hint).exists_cons
    exact ⟨[], c, u, .nil, rfl, hc⟩
  | @element v left t right hleft hvalue _ _ =>
    obtain ⟨c, u, rfl, hc⟩ := hvalue.exists_cons
    exact ⟨left, c, u ++ right, hleft, by simp, hc⟩
  | lastItem _ ih | lastField _ ih => exact ih
  | item _ _ ih _ | moreFields _ _ ih _ =>
    -- What an item begins with is what its list begins with.
    obtain ⟨blanks, c, u, hblanks, rfl, hc⟩ := ih
    exact ⟨blanks, c, _, hblanks, by simp; rfl, hc⟩
  | @field key v left body middle t hleft _ _ _ _ =>
    exact ⟨left, '"', body ++ '"' :: middle ++ ':' :: t, hleft, by simp, by decide⟩

theorem Follows.close {c : Char} (h : c = ',' ∨ c = ']' ∨ c = '}') (rest : Text) :
    Follows (c :: rest) := by
  intro d hd
  cases hd
  exact .inr h

/-! ## Reading -/

namespace Form.Taken

/-- A value is not empty, so that there is fuel for it. -/
theorem value_of_succ {v : Json} {t : Text} (hne : t ≠ [])
    (h : ∀ fuel rest, 2 * t.length ≤ fuel + 1 → Follows rest →
      value? (fuel + 1) (t ++ rest) = some (v, rest)) : (Form.value v).Taken t := by
  intro fuel rest hfuel hrest
  have hlength := List.length_pos_iff.mpr hne
  cases fuel with
  | zero => omega
  | succ fuel => exact h fuel rest hfuel hrest

theorem int {t : Text} {n : Int} (h : IsInteger t n) : (Form.value (.int n)).Taken t := by
  have hne : t ≠ [] := by
    obtain ⟨c, u, rfl, -⟩ := (Written.int h).exists_cons
    exact List.cons_ne_nil c u
  exact value_of_succ hne fun fuel rest _ hrest => value?_of_isInteger h hrest fuel

theorem string {body s : Text} (h : StringBody body s) :
    (Form.value (.string s)).Taken ('"' :: body ++ ['"']) := by
  refine value_of_succ (by simp) fun fuel rest _ _ => ?_
  have hcut : '"' :: body ++ ['"'] ++ rest = '"' :: (body ++ '"' :: rest) := by simp
  rw [hcut, value?_string, stringRest?_append h]
  rfl

theorem emptyArray {blanks : Text} (h : Blanks blanks) :
    (Form.value (.array [])).Taken ('[' :: blanks ++ [']']) := by
  refine value_of_succ (by simp) fun fuel rest _ _ => ?_
  have hcut : '[' :: blanks ++ [']'] ++ rest = '[' :: (blanks ++ ']' :: rest) := by simp
  rw [hcut]
  exact value?_emptyArray (dropMark?_append h (by decide) rest) fuel

theorem array {vs : List Json} {t : Text} (hitems : Written (.items vs) t)
    (h : (Form.items vs).Taken t) : (Form.value (.array vs)).Taken ('[' :: t ++ [']']) := by
  refine value_of_succ (by simp) fun fuel rest hfuel _ => ?_
  have hcut : '[' :: t ++ [']'] ++ rest = '[' :: (t ++ ']' :: rest) := by simp
  -- The brackets leave two characters, which pay for the array and for the step into its items.
  have hlength : 2 * t.length < fuel := by
    simp only [List.length_append, List.length_cons, List.length_nil] at hfuel
    omega
  -- The first item keeps the array from looking empty.
  obtain ⟨blanks, c, u, hblanks, ht, hblank, hne, -⟩ := hitems.exists_blanks_cons
  have hopen : dropMark? ']' (t ++ ']' :: rest) = none := by
    rw [ht, List.append_assoc, List.cons_append]
    exact dropMark?_eq_none hblank hne hblanks _
  rw [hcut, value?_array hopen, h fuel rest hlength]
  rfl

theorem emptyObject {blanks : Text} (h : Blanks blanks) :
    (Form.value (.object [])).Taken ('{' :: blanks ++ ['}']) := by
  refine value_of_succ (by simp) fun fuel rest _ _ => ?_
  have hcut : '{' :: blanks ++ ['}'] ++ rest = '{' :: (blanks ++ '}' :: rest) := by simp
  rw [hcut]
  exact value?_emptyObject (dropMark?_append h (by decide) rest) fuel

theorem object {fs : List (Text × Json)} {t : Text} (hfields : Written (.fields fs) t)
    (h : (Form.fields fs).Taken t) : (Form.value (.object fs)).Taken ('{' :: t ++ ['}']) := by
  refine value_of_succ (by simp) fun fuel rest hfuel _ => ?_
  have hcut : '{' :: t ++ ['}'] ++ rest = '{' :: (t ++ '}' :: rest) := by simp
  have hlength : 2 * t.length < fuel := by
    simp only [List.length_append, List.length_cons, List.length_nil] at hfuel
    omega
  -- The first key keeps the object from looking empty.
  obtain ⟨blanks, c, u, hblanks, ht, hblank, -, hne⟩ := hfields.exists_blanks_cons
  have hopen : dropMark? '}' (t ++ '}' :: rest) = none := by
    rw [ht, List.append_assoc, List.cons_append]
    exact dropMark?_eq_none hblank hne hblanks _
  rw [hcut, value?_object hopen, h fuel rest hlength]
  rfl

theorem element {v : Json} {left t right : Text} (hleft : Blanks left)
    (h : (Form.value v).Taken t) (hright : Blanks right) :
    (Form.element v).Taken (left ++ t ++ right) := by
  intro fuel rest hfuel hrest
  -- The reader of the value leaves the blanks behind it, which may follow any value.
  have hbehind : Follows (right ++ rest) := by
    cases right with
    | nil => exact hrest
    | cons c right =>
      intro d hd
      cases hd
      exact .inl (hright c List.mem_cons_self)
  have hlength : 2 * t.length ≤ fuel := by
    simp only [List.length_append] at hfuel
    omega
  refine ⟨right ++ rest, ?_, dropBlanks_append hright rest⟩
  rw [List.append_assoc, List.append_assoc, value?_append_of_blanks hleft]
  exact h fuel (right ++ rest) hlength hbehind

theorem lastItem {v : Json} {t : Text} (h : (Form.element v).Taken t) :
    (Form.items [v]).Taken t := by
  intro fuel rest hfuel
  -- An item spends a unit of fuel, and the list has one more than the text asks for.
  cases fuel with
  | zero => omega
  | succ fuel =>
    -- The closing bracket stands behind the last item, with blanks in between.
    obtain ⟨left, hvalue, hleft⟩ := h fuel (']' :: rest) (by omega) (.close (by simp) rest)
    rw [items?, hvalue]
    dsimp only
    rw [hleft, dropBlanks_cons (by decide)]
    rfl

theorem item {v : Json} {vs : List Json} {t ts : Text} (h : (Form.element v).Taken t)
    (hs : (Form.items vs).Taken ts) : (Form.items (v :: vs)).Taken (t ++ ',' :: ts) := by
  intro fuel rest hfuel
  cases fuel with
  | zero => omega
  | succ fuel =>
    rw [List.length_append, List.length_cons] at hfuel
    -- A comma stands behind the item, and the other items behind the comma.
    obtain ⟨left, hvalue, hleft⟩ :=
      h fuel (',' :: (ts ++ ']' :: rest)) (by omega) (.close (by simp) _)
    rw [List.append_assoc, List.cons_append, items?, hvalue]
    dsimp only
    rw [hleft, dropBlanks_cons (by decide)]
    show (items? fuel (ts ++ ']' :: rest)).map _ = _
    rw [hs fuel rest (by omega)]
    rfl

theorem field {key : Text} {v : Json} {left body middle t : Text} (hleft : Blanks left)
    (hbody : StringBody body key) (hmiddle : Blanks middle) (h : (Form.element v).Taken t) :
    (Form.field key v).Taken (left ++ '"' :: body ++ '"' :: middle ++ ':' :: t) := by
  intro fuel rest hfuel hrest
  simp only [List.length_append, List.length_cons] at hfuel
  obtain ⟨behind, hvalue, hbehind⟩ := h fuel rest (by omega) hrest
  have hcut : left ++ '"' :: body ++ '"' :: middle ++ ':' :: t ++ rest =
      left ++ '"' :: (body ++ '"' :: (middle ++ ':' :: (t ++ rest))) := by
    simp
  -- The key is taken as a string, then the colon, and the value in the end.
  refine ⟨middle ++ ':' :: (t ++ rest), behind, ?_, ?_, hbehind⟩
  · unfold string?
    rw [hcut, dropMark?_append hleft (by decide)]
    exact stringRest?_append hbody _
  · rw [dropMark?_append hmiddle (by decide)]
    exact hvalue

theorem lastField {key : Text} {v : Json} {t : Text} (h : (Form.field key v).Taken t) :
    (Form.fields [(key, v)]).Taken t := by
  intro fuel rest hfuel
  cases fuel with
  | zero => omega
  | succ fuel =>
    -- The last field is followed by the closing brace, with blanks in between.
    obtain ⟨behind, left, hkey, hvalue, hleft⟩ :=
      h fuel ('}' :: rest) (by omega) (.close (by simp) rest)
    rw [fields?, hkey]
    dsimp only
    rw [hvalue]
    dsimp only
    rw [hleft, dropBlanks_cons (by decide)]
    rfl

theorem moreFields {key : Text} {v : Json} {fs : List (Text × Json)} {t ts : Text}
    (h : (Form.field key v).Taken t) (hs : (Form.fields fs).Taken ts) :
    (Form.fields ((key, v) :: fs)).Taken (t ++ ',' :: ts) := by
  intro fuel rest hfuel
  cases fuel with
  | zero => omega
  | succ fuel =>
    rw [List.length_append, List.length_cons] at hfuel
    -- A comma stands behind the field, and the other fields behind the comma.
    obtain ⟨behind, left, hkey, hvalue, hleft⟩ :=
      h fuel (',' :: (ts ++ '}' :: rest)) (by omega) (.close (by simp) _)
    rw [List.append_assoc, List.cons_append, fields?, hkey]
    dsimp only
    rw [hvalue]
    dsimp only
    rw [hleft, dropBlanks_cons (by decide)]
    show (fields? fuel (ts ++ '}' :: rest)).map _ = _
    rw [hs fuel rest (by omega)]
    rfl

end Form.Taken

/-- The readers take whatever the grammar writes. -/
theorem Written.taken {form : Form} {t : Text} (h : Written form t) : form.Taken t := by
  -- By induction on the grammar. A value takes one unit of fuel and so does a place in a list, and
  -- each has a character of its own, hence the factor two.
  induction h with
  | null | yes | no => exact .value_of_succ (by decide) fun _ _ _ _ => rfl
  | int hint => exact .int hint
  | string hbody => exact .string hbody
  | emptyArray hblanks => exact .emptyArray hblanks
  | array hitems ih => exact .array hitems ih
  | emptyObject hblanks => exact .emptyObject hblanks
  | object hfields ih => exact .object hfields ih
  | element hleft _ hright ih => exact .element hleft ih hright
  | lastItem _ ih => exact .lastItem ih
  | item _ _ ih ihs => exact .item ih ihs
  | field hleft hbody hmiddle _ ih => exact .field hleft hbody hmiddle ih
  | lastField _ ih => exact .lastField ih
  | moreFields _ _ ih ihs => exact .moreFields ih ihs

/-- A JSON text is read as the value that it is written for. -/
theorem parse?_of_written {v : Json} {t : Text} (h : Written (.element v) t) :
    parse? t = some v := by
  -- Nothing follows the text, and twice its length is enough fuel.
  obtain ⟨left, hvalue, hleft⟩ := h.taken (2 * t.length + 2) [] (by omega) fun _ h => nomatch h
  rw [List.append_nil] at hvalue
  have hempty : dropBlanks left = [] := hleft
  unfold parse?
  rw [hvalue]
  simp [hempty]

/-- A JSON text is written for one value only. -/
theorem written_unique {v w : Json} {t : Text} (hv : Written (.element v) t)
    (hw : Written (.element w) t) : v = w := by
  have h := parse?_of_written hv
  rw [parse?_of_written hw] at h
  exact (Option.some.inj h).symm

end DocPage.Json
