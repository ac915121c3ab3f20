import DocPage.Component
import DocPage.Proofs.Json.Attribute

/-!
# Props read back from an invocation

The props of an invocation stand in a row, each with a blank and its key in front, and those without
a value are left out. A reader that asks for one key after the other tells which ones are there: a
key ends at its equals sign, so no key is taken for another one, and a value is JSON, which ends at
its own last character whatever text it holds.

## Architecture

- **Props**: `writtenProp` and the reader `takeProp?`, for one key
- **Rows of props**: `takeProps`, for keys in a fixed order
- **Invocations**: `values?`, for an invocation that closes itself
-/

namespace DocPage

namespace Component

/-! ## Props -/

/-- A prop as it is written, which is nothing when there is no value. -/
def writtenProp : Text × Option Json → Text
  | (key, some value) => ' ' :: key ++ "=\x7b" ++ value.toAttr ++ "\x7d"
  | (_, none) => []

/-- Takes the prop with the given key. -/
def takeProp? (key : Text) : Reader Json := fun t => do
  let behindKey ← Text.dropPrefix? (' ' :: key ++ "=\x7b") t
  let (value, behindValue) ← Json.value? (2 * behindKey.length + 2) behindKey
  let rest ← Text.dropPrefix? "\x7d" behindValue
  some (value, rest)

theorem props_prop (c : Component) (key : Text) (value : Json) :
    (c.prop key value).props = c.props ++ writtenProp (key, some value) := by
  simp [prop, expr, writtenProp]

theorem props_prop? (c : Component) (key : Text) (value : Option Json) :
    (c.prop? key value).props = c.props ++ writtenProp (key, value) := by
  cases value with
  | none => simp [prop?, writtenProp]
  | some v => exact props_prop c key v

theorem name_prop (c : Component) (key : Text) (value : Json) :
    (c.prop key value).name = c.name := rfl

theorem name_prop? (c : Component) (key : Text) (value : Option Json) :
    (c.prop? key value).name = c.name := by
  cases value <;> rfl

theorem name_flag (c : Component) (key : Text) (set : Bool) : (c.flag key set).name = c.name := by
  cases set <;> rfl

/-- A flag is a prop with the value true, and is left out when it is not set. -/
theorem props_flag (c : Component) (key : Text) (set : Bool) :
    (c.flag key set).props =
      c.props ++ writtenProp (key, if set then some (.bool true) else none) := by
  cases set with
  | false => simp [flag, writtenProp]
  | true => exact props_prop c key (.bool true)

/-- A value is taken up to its end, since a closing brace can follow it. -/
theorem value?_toAttr_append (v : Json) (rest : Text) {fuel : Nat}
    (hfuel : 2 * v.toAttr.length ≤ fuel) :
    Json.value? fuel (v.toAttr ++ '}' :: rest) = some (v, '}' :: rest) :=
  -- A closing brace ends any value, so no more than the value is taken.
  (Json.written_compact v).taken fuel ('}' :: rest) hfuel (.close (by simp) rest)

theorem takeProp?_append (key : Text) (v : Json) (rest : Text) :
    takeProp? key (writtenProp (key, some v) ++ rest) = some (v, rest) := by
  have hcut : writtenProp (key, some v) ++ rest =
      (' ' :: key ++ "=\x7b".toList) ++ (v.toAttr ++ '}' :: rest) := by
    simp [writtenProp]
  -- The reader has enough fuel for the value, since it is given that for the whole rest.
  have hfuel : 2 * v.toAttr.length ≤ 2 * (v.toAttr ++ '}' :: rest).length + 2 := by
    rw [List.length_append]
    omega
  unfold takeProp?
  rw [hcut, Text.dropPrefix?_append]
  simp only [Option.bind_eq_bind, Option.bind_some, value?_toAttr_append v rest hfuel]
  rw [show '}' :: rest = "\x7d".toList ++ rest from rfl, Text.dropPrefix?_append]
  rfl

/-- What a key consists of: no equals sign, which ends it, and no slash, which ends the props. -/
def IsKey (key : Text) : Prop := '=' ∉ key ∧ '/' ∉ key

instance (key : Text) : Decidable (IsKey key) :=
  inferInstanceAs (Decidable (_ ∧ _))

/-- A key is determined by the text that starts with it and an equals sign. -/
theorem IsKey.eq_of_append_eq {key other a b : Text} (hkey : IsKey key) (hother : IsKey other)
    (h : key ++ '=' :: a = other ++ '=' :: b) : key = other := by
  -- The key is the longest run without an equals sign.
  have hrun : ∀ k u : Text, IsKey k → (k ++ '=' :: u).takeWhile (· != '=') = k := by
    intro k u hk
    apply Text.takeWhile_append_of_boundary
    · intro c hc
      simpa using ne_of_mem_of_not_mem hc hk.1
    · simp
  rw [← hrun key a hkey, h, hrun other b hother]

theorem takeProp?_eq_none {key t : Text} (h : ¬ ' ' :: key ++ "=\x7b".toList <+: t) :
    takeProp? key t = none := by
  unfold takeProp?
  rw [Text.dropPrefix?_eq_none_iff.mpr h]
  rfl

/-- The prop with another key is not taken. -/
theorem takeProp?_other {key other : Text} (hkey : IsKey key) (hother : IsKey other)
    (hne : key ≠ other) (v : Json) (rest : Text) :
    takeProp? key (writtenProp (other, some v) ++ rest) = none := by
  apply takeProp?_eq_none
  rintro ⟨behind, h⟩
  apply hne
  -- The text of the other prop would start with this key and its equals sign.
  apply hkey.eq_of_append_eq hother (a := '{' :: behind)
  simpa [writtenProp] using h

/-- The end of the invocation is not taken for a prop. -/
theorem takeProp?_close {key : Text} (hkey : IsKey key) : takeProp? key " />" = none := by
  apply takeProp?_eq_none
  rintro ⟨behind, h⟩
  -- An empty key would have to be followed by an equals sign, and a slash comes instead.
  cases key with
  | nil => simp at h
  | cons c key =>
    have hclose : ' ' :: c :: (key ++ "=\x7b".toList ++ behind) = [' ', '/', '>'] := h
    simp only [List.cons.injEq, true_and] at hclose
    exact hkey.2 (by simp [hclose.1])

/-! ## Rows of props -/

/-- Takes the props with the given keys, in this order; those that are not there have no value. -/
def takeProps : (keys : List Text) → Text → List (Option Json) × Text
  | [], t => ([], t)
  | key :: keys, t =>
    match takeProp? key t with
    | some (value, rest) =>
      let (values, behind) := takeProps keys rest
      (some value :: values, behind)
    | none =>
      let (values, behind) := takeProps keys t
      (none :: values, behind)

/-- A key that is not written is not found. -/
theorem takeProp?_row {key : Text} (hkey : IsKey key) {fields : List (Text × Option Json)}
    (hfields : ∀ f ∈ fields, IsKey f.1) (hnotin : key ∉ fields.map Prod.fst) :
    takeProp? key (fields.flatMap writtenProp ++ " />".toList) = none := by
  -- Only the first prop that is written can be taken, and what comes first is no such prop.
  induction fields with
  | nil => exact takeProp?_close hkey
  | cons field fields ih =>
    obtain ⟨hfield, hrest⟩ := List.forall_mem_cons.mp hfields
    obtain ⟨hne, hlater⟩ := List.ne_and_not_mem_of_not_mem_cons hnotin
    obtain ⟨other, value⟩ := field
    cases value with
    -- A prop that is left out writes nothing, so the rest decides.
    | none => exact ih hrest hlater
    | some v =>
      rw [List.flatMap_cons, List.append_assoc]
      exact takeProp?_other hkey hfield hne v _

/-- The values of a row of props are read back, and where it ends. -/
theorem takeProps_row {fields : List (Text × Option Json)}
    (hkeys : (fields.map Prod.fst).Nodup) (hfields : ∀ f ∈ fields, IsKey f.1) :
    takeProps (fields.map Prod.fst) (fields.flatMap writtenProp ++ " />".toList) =
      (fields.map Prod.snd, " />".toList) := by
  -- Along the row. A prop that is written is taken, and the rest is a shorter row.
  induction fields with
  | nil => rfl
  | cons field fields ih =>
    rw [List.map_cons, List.nodup_cons] at hkeys
    obtain ⟨hkey, hrest⟩ := List.forall_mem_cons.mp hfields
    have htail := ih hkeys.2 hrest
    obtain ⟨key, value⟩ := field
    cases value with
    | none =>
      -- The key of a prop that is left out does not come later.
      have hnone := takeProp?_row hkey hrest hkeys.1
      rw [List.flatMap_cons, writtenProp, List.nil_append, List.map_cons, takeProps, hnone]
      dsimp only
      rw [htail]
      rfl
    | some v =>
      rw [List.flatMap_cons, List.append_assoc, List.map_cons, takeProps, takeProp?_append]
      dsimp only
      rw [htail]
      rfl

/-! ## Invocations -/

/-- The values of the props with the given keys, in this order, of an invocation with a name. -/
def values? (name : Text) (keys : List Text) (markup : Text) : Option (List (Option Json)) := do
  let row ← Text.dropPrefix? ('<' :: name) markup
  let (values, rest) := takeProps keys row
  if rest = " />".toList then some values else none

/-- The values of a row of props are read back from the invocation. -/
theorem values?_selfClosing {c : Component} {fields : List (Text × Option Json)}
    (hprops : c.props = fields.flatMap writtenProp) (hkeys : (fields.map Prod.fst).Nodup)
    (hfields : ∀ f ∈ fields, IsKey f.1) :
    values? c.name (fields.map Prod.fst) c.selfClosing = some (fields.map Prod.snd) := by
  have hmarkup : c.selfClosing =
      ('<' :: c.name) ++ (fields.flatMap writtenProp ++ " />".toList) := by
    simp [selfClosing, hprops]
  unfold values?
  rw [hmarkup, Text.dropPrefix?_append]
  simp only [Option.bind_eq_bind, Option.bind_some, takeProps_row hkeys hfields, if_true]

/-- Only behind a blank there is a prop. -/
theorem takeProps_of_head? {t : Text} (h : t.head? ≠ some ' ') (keys : List Text) :
    takeProps keys t = (keys.map fun _ => none, t) := by
  -- A prop begins with a blank, whatever its key is.
  have hnone : ∀ key, takeProp? key t = none := by
    intro key
    apply takeProp?_eq_none
    rintro ⟨behind, rfl⟩
    exact h rfl
  induction keys with
  | nil => rfl
  | cons key keys ih =>
    rw [takeProps, hnone key]
    dsimp only
    rw [ih]
    rfl

/-- A longer name is another name. -/
theorem values?_of_longer_name {c : Char} (hc : c ≠ ' ') (name rest : Text) (keys : List Text) :
    values? name keys (('<' :: name) ++ c :: rest) = none := by
  unfold values?
  -- Behind the name stands a character that is no blank, so no key is read there.
  rw [Text.dropPrefix?_append, Option.bind_eq_bind, Option.bind_some,
    takeProps_of_head? (by simpa using hc)]
  exact if_neg fun h => hc (List.cons.inj h).1

end Component

end DocPage
