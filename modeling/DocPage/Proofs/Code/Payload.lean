import DocPage.Code.Split
import DocPage.Proofs.Base64
import DocPage.Proofs.Code.Transcript
import DocPage.Proofs.Component
import DocPage.Proofs.Text.Trim

/-!
# What a reader gets of a code block

A code block becomes an invocation whose props hold the code to copy in base64 and the highlighted
code as JSON. `ShownBlock.ofMarkup?` reads the invocation: it decodes both, for the whole block or
for each of the two variants that a marker separates. What it gets is what `Presents` says of the
code of the block.

## Architecture

- **Markers**: `Marker.Cuts`, for the variants of a block, which line feeds behind it do not change
- **Readers**: `Shown.ofMarkup?` and the readers of its parts
- **Blocks**: `Presents`, and the processor
-/

namespace DocPage.Code

/-! ## Markers -/

namespace Marker

/-- The marker is the one that counts in the code: the marker of frameworks, or the other one when
that one does not occur. -/
def Decides (marker : Marker) (code : Text) : Prop :=
  marker.literal <:+: code ∧ (marker = stringApi → ¬ frameworks.literal <:+: code)

/-- The first occurrence of the marker cuts the code into two variants, which are taken without the
line feeds around them. -/
def Cuts (marker : Marker) (code a b : Text) : Prop :=
  ∃ before after, code = before ++ marker.literal ++ after ∧
    (∀ x y, code = x ++ marker.literal ++ y → before.length ≤ x.length) ∧
    Text.CoreWithin isLineFeed before a ∧ Text.CoreWithin isLineFeed after b

variable {marker : Marker} {source code : Text}

theorem detect?_eq_none_iff :
    detect? source = none ↔ ∀ marker : Marker, ¬ marker.literal <:+: source := by
  unfold detect?
  rw [List.find?_eq_none]
  constructor
  · intro h marker
    -- There are two markers, and both are tried.
    have hmem : marker ∈ [frameworks, stringApi] := by cases marker <;> simp
    simpa [Text.contains_iff] using h marker hmem
  · intro h marker _
    simpa [Text.contains_iff] using h marker

theorem detect?_eq_some_iff : detect? source = some marker ↔ marker.Decides source := by
  unfold detect? Decides
  simp only [← Text.contains_iff]
  -- Which of the two occur decides everything, so all four cases are computed.
  cases marker <;> cases hframeworks : Text.contains frameworks.literal source <;>
    cases hstring : Text.contains stringApi.literal source <;>
    simp [List.find?, hframeworks, hstring]

theorem literal_getLast? (marker : Marker) : marker.literal.getLast? = some '=' := by
  cases marker <;> rfl

section Behind

variable {behind before after a b : Text} (hbehind : ∀ c ∈ behind, isLineFeed c = true)

include hbehind

/-- The first occurrence of a marker does not reach into the line feeds behind the code. -/
theorem exists_of_splitOnce?
    (h : Text.splitOnce? marker.literal (code ++ behind) = some (before, after)) :
    ∃ rest, after = rest ++ behind ∧ code = before ++ marker.literal ++ rest := by
  have hsource := Text.eq_of_splitOnce? h
  -- The occurrence ends in the code, or reaches into what stands behind it.
  rcases Text.append_cases hsource with ⟨rest, hcode, hafter⟩ | ⟨reach, hmarker, hreach⟩
  · exact ⟨rest, hafter, hcode⟩
  · -- Characters of the marker in the line feeds would be at its end.
    by_cases hnil : reach = []
    · subst hnil
      exact ⟨[], by simpa using hreach.symm, by simpa using hmarker.symm⟩
    · have hlast : (before ++ marker.literal).getLast? = some '=' := by
        rw [List.getLast?_append, literal_getLast?]
        rfl
      rw [hmarker, List.getLast?_append_of_ne_nil _ hnil] at hlast
      have hmem : '=' ∈ behind := by
        rw [hreach]
        exact List.mem_append_left after (List.mem_of_getLast? hlast)
      exact absurd (hbehind '=' hmem) (by decide)

/-- Behind the code, line feeds do not change which marker counts. -/
theorem decides_of_append (h : marker.Decides (code ++ behind)) : marker.Decides code := by
  obtain ⟨⟨x, y, hxy⟩, hother⟩ := h
  refine ⟨?_, fun hstring hoccurs => hother hstring (hoccurs.trans (List.infix_append' [] code _))⟩
  -- The first occurrence is the one to be moved into the code, since it is found by a reader.
  cases hsplit : Text.splitOnce? marker.literal (code ++ behind) with
  | none => exact absurd ⟨x, y, hxy⟩ (Text.splitOnce?_eq_none_iff.mp hsplit)
  | some pair =>
    obtain ⟨before, after⟩ := pair
    obtain ⟨rest, -, hcode⟩ := exists_of_splitOnce? hbehind hsplit
    exact ⟨before, rest, hcode.symm⟩

/-- Nor do they change its variants. -/
theorem cuts_split (h : marker.Decides (code ++ behind)) :
    marker.Cuts code (marker.split (code ++ behind)).1 (marker.split (code ++ behind)).2 := by
  unfold split
  cases hsplit : Text.splitOnce? marker.literal (code ++ behind) with
  | none => exact absurd h.1 (Text.splitOnce?_eq_none_iff.mp hsplit)
  | some pair =>
    obtain ⟨before, after⟩ := pair
    obtain ⟨rest, rfl, hcode⟩ := exists_of_splitOnce? hbehind hsplit
    refine ⟨before, rest, hcode, fun x y hxy => ?_, Text.trimWhile_eq_iff.mp rfl, ?_⟩
    -- The first occurrence in the longer text is no later than any in the code.
    · refine Text.length_le_of_splitOnce? hsplit (a := y ++ behind) ?_
      rw [hxy, List.append_assoc]
    · show Text.CoreWithin isLineFeed rest (Text.trimWhile isLineFeed (rest ++ behind))
      -- Line feeds behind the code are trimmed with those that it ends in.
      rw [Text.trimWhile_append hbehind]
      exact Text.trimWhile_eq_iff.mp rfl

end Behind

end Marker

/-! ## Readers -/

/-- One variant of a split block, as it is read. -/
structure Variant where
  id : Text
  copied : Text
  highlighted : Text
  deriving Repr, DecidableEq

/-- The content of a block, as it is read. -/
inductive Shown where
  | whole (copied highlighted : Text)
  | variants (a b : Variant)
  deriving Repr, DecidableEq

/-- Reads a variant by the names of its fields, and decodes the code to copy. -/
def Variant.ofJson? : Json → Option Variant
  | .object fields =>
    match fields.lookup "id".toList, fields.lookup "code".toList,
      fields.lookup "highlighted".toList with
    | some (.string id), some (.string payload), some (.string highlighted) =>
      (Base64.decode? payload).map fun copied => ⟨id, copied, highlighted⟩
    | _, _, _ => none
  | _ => none

namespace Shown

/-- The keys of the props of a whole block. -/
def wholeKeys : List Text := ["code".toList, "highlighted".toList, "wrap".toList]

/-- The keys of the props of a block with variants. -/
def variantKeys : List Text := ["group1".toList, "group2".toList, "wrap".toList]

/-- Reads a whole block, and whether its lines wrap. -/
def ofWhole? (markup : Text) : Option (Shown × Bool) :=
  match Component.values? "CodeBlock" wholeKeys markup with
  | some [some (.string payload), some (.string highlighted), some (.bool wrap)] =>
    (Base64.decode? payload).map fun copied => (whole copied highlighted, wrap)
  | _ => none

/-- Reads a block with variants, and whether its lines wrap. -/
def ofVariants? (markup : Text) : Option (Shown × Bool) :=
  match Component.values? "CodeBlockFw" variantKeys markup with
  | some [some first, some second, some (.bool wrap)] => do
    some (variants (← Variant.ofJson? first) (← Variant.ofJson? second), wrap)
  | _ => none

/-- Reads the invocation of a block, and whether its lines wrap. -/
def ofMarkup? (markup : Text) : Option (Shown × Bool) :=
  ofWhole? markup <|> ofVariants? markup

end Shown

/-! ## Blocks -/

/-- What is shown of code in a language: the code without a marker as a whole, and otherwise the two
variants, each with its name, what is copied of it, and its highlighting. -/
inductive Presents (highlight : Highlighter) (language : Text) : (code : Text) → Shown → Prop where
  | whole {code copied : Text} : (∀ marker : Marker, ¬ marker.literal <:+: code) →
      IsCopy code copied →
      Presents highlight language code (.whole copied (highlight code language))
  | variants {code a b copiedA copiedB : Text} {marker : Marker} : marker.Decides code →
      marker.Cuts code a b → IsCopy a copiedA → IsCopy b copiedB →
      Presents highlight language code
        (.variants ⟨marker.groupA, copiedA, highlight a language⟩
          ⟨marker.groupB, copiedB, highlight b language⟩)

/-- The invocation of a block with two props, of which a reader gets the values. -/
theorem values?_block (wrap : Bool) (name : Text) {first second : Text} (a b : Json)
    (hnodup : [first, second, "wrap".toList].Nodup)
    (hkeys : ∀ key ∈ [first, second, "wrap".toList], Component.IsKey key) :
    Component.values? name [first, second, "wrap".toList]
      ((((Component.mk name []).prop first a).prop second b).expr "wrap"
        (if wrap then "true" else "false")).selfClosing =
      some [some a, some b, some (.bool wrap)] := by
  -- A wrapped block says so with the same words as a JSON value would.
  have hwrap : (Json.bool wrap).toAttr = (if wrap then "true".toList else "false".toList) := by
    cases wrap <;> rfl
  have hprops : ((((Component.mk name []).prop first a).prop second b).prop "wrap"
      (.bool wrap)).props = [(first, some a), (second, some b),
        ("wrap".toList, some (.bool wrap))].flatMap Component.writtenProp := by
    simp only [Component.props_prop, List.flatMap_cons, List.flatMap_nil, List.nil_append,
      List.append_nil, List.append_assoc]
  have hread := Component.values?_selfClosing hprops hnodup
    (fun f hf => hkeys f.1 (List.mem_map_of_mem hf))
  rw [Component.prop, hwrap] at hread
  exact hread

/-- A block with variants is not read as a whole, since its invocation has a longer name. -/
theorem ofWhole?_of_name {c : Component} (hname : c.name = "CodeBlockFw".toList) :
    Shown.ofWhole? c.selfClosing = none := by
  have hmarkup : c.selfClosing =
      ('<' :: "CodeBlock".toList) ++ 'F' :: 'w' :: (c.props ++ " />".toList) := by
    rw [Component.selfClosing, hname, List.append_assoc]
    rfl
  unfold Shown.ofWhole?
  rw [hmarkup, Component.values?_of_longer_name (by decide)]

section Blocks

variable (highlight : Highlighter) (wrap : Bool) (language : Text)

theorem ofJson?_group (id segment : Text) :
    Variant.ofJson? (group highlight id segment language) =
      some ⟨id, typedInput segment, highlight segment language⟩ := by
  show (Base64.decode? (Base64.encode (typedInput segment))).map _ = _
  rw [Base64.decode?_encode]
  rfl

/-- A block without a marker is read as a whole. -/
theorem ofMarkup?_render_of_none {source code : Text} (h : Marker.detect? source = none)
    (hcode : Text.CoreInFront Marker.isLineFeed source code) :
    Shown.ofMarkup? (render highlight wrap language source) =
      some (.whole (typedInput code) (highlight code language), wrap) := by
  -- The code is what is left of the source, so it can stand for any text from here on.
  obtain rfl := Text.dropRightWhile_eq_iff.mpr hcode
  unfold render component
  rw [h]
  dsimp only
  generalize Text.dropRightWhile Marker.isLineFeed source = code
  unfold Shown.ofMarkup? Shown.ofWhole? Shown.wholeKeys
  rw [values?_block wrap "CodeBlock" _ _ (by decide) (by decide)]
  dsimp only
  rw [copyPayload, Base64.decode?_encode]
  rfl

/-- A block with a marker is read as two variants. -/
theorem ofMarkup?_render_of_some {source : Text} {marker : Marker}
    (h : Marker.detect? source = some marker) :
    Shown.ofMarkup? (render highlight wrap language source) =
      some (.variants
        ⟨marker.groupA, typedInput (marker.split source).1,
          highlight (marker.split source).1 language⟩
        ⟨marker.groupB, typedInput (marker.split source).2,
          highlight (marker.split source).2 language⟩, wrap) := by
  unfold render component
  rw [h]
  dsimp only
  -- The variants are read as they are written, whatever they hold.
  generalize (marker.split source).1 = a
  generalize (marker.split source).2 = b
  have hnodup : ["group1".toList, "group2".toList, "wrap".toList].Nodup := by decide
  have hread := values?_block wrap "CodeBlockFw" (group highlight marker.groupA a language)
    (group highlight marker.groupB b language) hnodup (by decide)
  unfold Shown.ofMarkup? Shown.ofVariants? Shown.variantKeys
  rw [ofWhole?_of_name rfl, hread]
  dsimp only
  rw [ofJson?_group, ofJson?_group]
  rfl

/-- **Every block is handled, and what is read of it is its code.** The line feeds behind the code
do not count. What is shown is the code without them, as a whole or in the variants that the first
marker separates; what is copied decodes to the code, or to the input of a transcript, and the
highlighting decodes to what the highlighter gave. -/
theorem process_shows_code (earlier : List Block) (block : Block) :
    ∃ html code shown,
      (componentProcessor highlight wrap).process earlier block = ⟨some html, []⟩ ∧
      Text.CoreInFront Marker.isLineFeed block.source code ∧
      Shown.ofMarkup? html = some (shown, wrap) ∧
      Presents highlight block.language code shown := by
  obtain ⟨behind, hsource, hbehind, hlast⟩ :=
    Text.coreInFront_dropRightWhile Marker.isLineFeed block.source
  -- The code is named, since the source occurs in it and around it.
  generalize Text.dropRightWhile Marker.isLineFeed block.source = code at hsource hlast
  have hcode : Text.CoreInFront Marker.isLineFeed block.source code :=
    ⟨behind, hsource, hbehind, hlast⟩
  cases hmarker : Marker.detect? block.source with
  | none =>
    refine ⟨_, code, _, rfl, hcode, ofMarkup?_render_of_none highlight wrap _ hmarker hcode, ?_⟩
    -- A marker in the code would be one in the source.
    refine .whole (fun marker hoccurs => ?_) (isCopy_typedInput code)
    have hprefix : code <+: block.source := ⟨behind, hsource.symm⟩
    exact Marker.detect?_eq_none_iff.mp hmarker marker (hoccurs.trans hprefix.isInfix)
  | some marker =>
    have hdecides := Marker.detect?_eq_some_iff.mp hmarker
    refine ⟨_, code, _, rfl, hcode, ofMarkup?_render_of_some highlight wrap _ hmarker, ?_⟩
    -- The source is the code with line feeds behind it, and these change nothing.
    rw [hsource] at hdecides ⊢
    exact .variants (Marker.decides_of_append hbehind hdecides)
      (Marker.cuts_split hbehind hdecides) (isCopy_typedInput _) (isCopy_typedInput _)

/-- Only the first of two markers separates, and only the first variant is a transcript. -/
example :
    Shown.ofMarkup? (render escaping true "py"
        ">>> a\n1\n===PT-TF-SPLIT===\nb\n===PT-TF-SPLIT===\nc\n") =
      some (.variants ⟨"pt".toList, "a".toList, "&gt;&gt;&gt; a\n1".toList⟩
        ⟨"tf".toList, "b\n===PT-TF-SPLIT===\nc".toList,
          "b\n===PT-TF-SPLIT===\nc".toList⟩, true) := by
  decide +kernel

end Blocks

end DocPage.Code
