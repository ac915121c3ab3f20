import DocPage.Base64

/-!
# Base64 read back

A reader of base64 takes four digits at a time and gives three bytes for them, or fewer where the
digits at the end of the text are filled up. The bytes of a text in UTF-8 come back from its base64
form, and with them the text.

## Architecture

- **Digits**: `digitValue?`, which undoes `digit`
- **Groups**: `groupBytes?`, for four characters
- **Texts**: `decode?`, and `decode?_encode`
-/

namespace DocPage.Base64

/-! ## Digits -/

def digitValue? (d : Char) : Option Nat :=
  alphabet.idxOf? d

theorem digitValue?_digit {n : Nat} (h : n < 64) : digitValue? (digit n) = some n := by
  -- There are only 64 digits, and each is tried.
  revert n
  decide +kernel

theorem digitValue?_filler : digitValue? '=' = none := by
  decide +kernel

/-! ## Groups -/

/-- The bytes of four characters. The last one, or the last two, may fill up the group. -/
def groupBytes? (d e f g : Char) : Option (List Nat) :=
  match digitValue? d, digitValue? e, digitValue? f, digitValue? g with
  | some a, some b, some c, some n =>
    some [a * 4 + b / 16, b % 16 * 16 + c / 4, c % 4 * 64 + n]
  | some a, some b, some c, none =>
    if g = '=' then some [a * 4 + b / 16, b % 16 * 16 + c / 4] else none
  | some a, some b, none, none => if f = '=' ∧ g = '=' then some [a * 4 + b / 16] else none
  | _, _, _, _ => none

section Groups

variable {a b c : Nat}

theorem groupBytes?_three (ha : a < 256) (hb : b < 256) (hc : c < 256) :
    groupBytes? (digit (a / 4)) (digit (a % 4 * 16 + b / 16)) (digit (b % 16 * 4 + c / 64))
      (digit (c % 64)) = some [a, b, c] := by
  unfold groupBytes?
  rw [digitValue?_digit (by omega), digitValue?_digit (by omega), digitValue?_digit (by omega),
    digitValue?_digit (by omega)]
  -- Each byte is cut into two parts that stand in neighbouring digits.
  simp only [Option.some.injEq, List.cons.injEq, and_true]
  omega

theorem groupBytes?_two (ha : a < 256) (hb : b < 256) :
    groupBytes? (digit (a / 4)) (digit (a % 4 * 16 + b / 16)) (digit (b % 16 * 4)) '=' =
      some [a, b] := by
  unfold groupBytes?
  rw [digitValue?_digit (by omega), digitValue?_digit (by omega), digitValue?_digit (by omega),
    digitValue?_filler]
  simp only [if_true, Option.some.injEq, List.cons.injEq, and_true]
  omega

theorem groupBytes?_one (ha : a < 256) :
    groupBytes? (digit (a / 4)) (digit (a % 4 * 16)) '=' '=' = some [a] := by
  unfold groupBytes?
  rw [digitValue?_digit (by omega), digitValue?_digit (by omega), digitValue?_filler]
  simp only [and_self, if_true, Option.some.injEq, List.cons.injEq, and_true]
  omega

end Groups

/-! ## Texts -/

/-- The bytes of a sequence of groups. Only the last group may be filled up. -/
def bytes? : Text → Option (List Nat)
  | [] => some []
  | d :: e :: f :: g :: rest => do
    let group ← groupBytes? d e f g
    let more ← bytes? rest
    if group.length < 3 && !rest.isEmpty then none else some (group ++ more)
  | _ => none

/-- The text that a base64 form stands for, if it stands for UTF-8. -/
def decode? (t : Text) : Option Text := do
  let bytes ← bytes? t
  let decoded ← String.fromUTF8? (bytes.map UInt8.ofNat).toByteArray
  some decoded.toList

theorem bytes?_encodeBytes {bytes : List Nat} (h : ∀ b ∈ bytes, b < 256) :
    bytes? (encodeBytes bytes) = some bytes := by
  -- Along the groups of bytes, as they are written.
  induction bytes using encodeBytes.induct with
  | case1 => rfl
  | case2 a =>
    have ha : a < 256 := h a (by simp)
    simp [encodeBytes, bytes?, groupBytes?_one ha]
  | case3 a b =>
    have ha : a < 256 := h a (by simp)
    have hb : b < 256 := h b (by simp)
    simp [encodeBytes, bytes?, groupBytes?_two ha hb]
  | case4 a b c rest ih =>
    simp only [List.forall_mem_cons] at h
    obtain ⟨ha, hb, hc, hrest⟩ := h
    simp [encodeBytes, bytes?, groupBytes?_three ha hb hc, ih hrest]

theorem lt_of_mem_utf8Bytes {t : Text} : ∀ b ∈ t.flatMap utf8Bytes, b < 256 := by
  intro b hb
  obtain ⟨c, -, hb⟩ := List.mem_flatMap.mp hb
  obtain ⟨byte, -, rfl⟩ := List.mem_map.mp hb
  -- Each byte of a text in UTF-8 is one of eight bits.
  exact byte.toNat_lt

theorem map_ofNat_utf8Bytes (t : Text) :
    (t.flatMap utf8Bytes).map UInt8.ofNat = t.flatMap String.utf8EncodeChar := by
  -- Bytes are numbers here; the decoder of the library wants them as bytes again.
  have hbytes : ∀ bytes : List UInt8, (bytes.map UInt8.toNat).map UInt8.ofNat = bytes := by
    intro bytes
    rw [List.map_map]
    exact List.map_id'' (fun _ => UInt8.ofNat_toNat) bytes
  induction t with
  | nil => rfl
  | cons c t ih => rw [List.flatMap_cons, List.map_append, ih, utf8Bytes, hbytes, List.flatMap_cons]

/-- A text comes back from its base64 form. -/
theorem decode?_encode (t : Text) : decode? (encode t) = some t := by
  -- The bytes of a text are always valid, so the decoder gives the text they stand for.
  have hutf8 : String.fromUTF8? t.utf8Encode = some (String.ofList t) := by
    have hvalid : t.utf8Encode.IsValidUTF8 := (String.ofList t).isValidUTF8
    exact dif_pos hvalid
  have hencoded : ((t.flatMap utf8Bytes).map UInt8.ofNat).toByteArray = t.utf8Encode := by
    rw [map_ofNat_utf8Bytes]
    rfl
  unfold decode? encode
  rw [bytes?_encodeBytes lt_of_mem_utf8Bytes]
  simp only [Option.bind_eq_bind, Option.bind_some, hencoded, hutf8, String.toList_ofList]

/-- A text whose bytes do not fill their last group. -/
example : decode? "w6kg".toList = some "é ".toList ∧ decode? "w6k=".toList = some "é".toList := by
  decide +kernel

end DocPage.Base64
