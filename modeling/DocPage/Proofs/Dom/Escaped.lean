import DocPage.Html.Escape
import DocPage.Proofs.Dom.Reading

/-!
# Escaped texts read back

Escaping writes each character as itself or as a reference for it, and reading a fragment resolves
references from left to right. Since a character that is written as itself starts neither a tag nor
a reference, and a reference ends at its own semicolon, no two characters are read as one: what was
escaped is the text of the fragment, also when it holds references or markup itself.

## Architecture

- **Spelling**: `Spells`, how a text stands for one character
- **Decoding**: spelled characters decode one by one
- **Fragments**: markup without tags is text, and `textOf_escape` for both ways to escape
-/

namespace DocPage.Dom

/-! ## Spelling -/

/-- The text stands for the character: it is the character itself, unless that would start a tag or
a reference, or it is a reference that resolves to it. -/
inductive Spells (c : Char) : Text → Prop where
  | self : isInsideTag c = true → c ≠ '&' → Spells c [c]
  | reference (body : Text) : (∀ d ∈ body, isReferenceChar d = true) →
      referenceValue? body = some c → Spells c ('&' :: body ++ [';'])

/-- A character of a reference delimits neither markup nor references. -/
theorem delimits_of_isReferenceChar {c : Char} (h : isReferenceChar c = true) :
    isInsideTag c = true ∧ c ≠ '&' ∧ c ≠ ';' := by
  -- A character that no reference has is none of this one.
  have hne : ∀ d : Char, isReferenceChar d = false → c ≠ d := by
    rintro d hd rfl
    rw [h] at hd
    cases hd
  refine ⟨(isInsideTag_iff).mpr ⟨hne '<' rfl, hne '>' rfl⟩, hne '&' rfl, hne ';' rfl⟩

namespace Spells

variable {c : Char} {u : Text}

/-- What stands for a character is text of a fragment. -/
theorem balanced (h : Spells c u) : Balanced u u := by
  cases h with
  | self hinside hamp => exact .char hinside hamp .nil
  | reference body hbody _ =>
    exact .reference (fun d hd => delimits_of_isReferenceChar (hbody d hd)) .nil

theorem notMem (h : Spells c u) : '<' ∉ u := by
  -- Neither form brings a bracket that opens a tag.
  cases h with
  | self hinside _ =>
    intro hmem
    obtain rfl := List.mem_singleton.mp hmem
    cases hinside
  | reference body hbody _ =>
    have hbracket : '<' ∉ body := fun hmem => absurd (hbody '<' hmem) (by decide)
    simp [hbracket]

end Spells

/-! ## Decoding -/

/-- A reference is matched up to its semicolon, whatever follows. -/
theorem referenceMatcher_append {c : Char} {body : Text}
    (hbody : ∀ d ∈ body, isReferenceChar d = true) (hvalue : referenceValue? body = some c)
    (after : Text) : referenceMatcher ('&' :: body ++ [';'] ++ after) =
      some (('&' :: body ++ [';']).length, c) := by
  -- The body of a reference ends where its semicolon stands.
  have htake : (body ++ ';' :: after).takeWhile isReferenceChar = body := by
    refine Text.takeWhile_append_of_boundary hbody fun d hd => ?_
    cases hd
    decide
  have hspelled : '&' :: body ++ [';'] ++ after = ['&'] ++ (body ++ ';' :: after) := by simp
  unfold referenceMatcher
  rw [hspelled, Text.dropPrefix?_append]
  simp [htake, hvalue, Text.dropPrefix?]

/-- A character that is spelled decodes to itself, in front of any text. -/
theorem decode_append_of_spells {c : Char} {u : Text} (h : Spells c u) (after : Text) :
    decode (u ++ after) = c :: decode after := by
  unfold decode Text.mapMatches
  cases h with
  | self hinside hamp =>
    -- The ampersand is the only character at which a reference starts.
    have hnone : referenceMatcher (c :: after) = none := by
      have hdrop : Text.dropPrefix? ['&'] (c :: after) = none := by
        simp [Text.dropPrefix?, Ne.symm hamp]
      unfold referenceMatcher
      rw [hdrop]
      rfl
    rw [List.singleton_append, Text.pieces_cons_of_none hnone]
    rfl
  | reference body hbody hvalue =>
    have hne : '&' :: body ++ [';'] ≠ [] := List.cons_ne_nil _ _
    rw [Text.pieces_append_of_match hne (referenceMatcher_append hbody hvalue after)]
    rfl

/-! ## Fragments -/

/-- Markup that opens no bracket has no elements, so it is text. -/
theorem rawTextOf_eq_htmlOf {nodes : List Node} (h : '<' ∉ Node.htmlOf nodes) :
    Node.rawTextOf nodes = Node.htmlOf nodes := by
  -- Along the siblings: each is a text, since an element would open a bracket.
  induction nodes with
  | nil => rfl
  | cons node nodes ih =>
    rw [Node.htmlOf, List.mem_append, not_or] at h
    rw [Node.rawTextOf, Node.htmlOf, ih h.2]
    cases node with
    | text raw => rfl
    | element name start selfClosing children =>
      -- The markup of an element starts with a bracket.
      refine absurd ?_ h.1
      rw [Node.html]
      split <;> simp

section Characters

variable {f : Char → Text} (hf : ∀ c, Spells c (f c))
include hf

theorem balanced_flatMap (t : Text) : Balanced (t.flatMap f) (t.flatMap f) := by
  induction t with
  | nil => exact .nil
  | cons c t ih => exact (hf c).balanced.append ih

theorem decode_flatMap (t : Text) : decode (t.flatMap f) = t := by
  induction t with
  | nil => rfl
  | cons c t ih => rw [List.flatMap_cons, decode_append_of_spells (hf c), ih]

/-- A text that is spelled character by character is the text of the fragment that it makes. -/
theorem textOf_flatMap (t : Text) :
    ∃ nodes, fragment? (t.flatMap f) = some nodes ∧ textOf nodes = t := by
  -- Spelled texts are balanced, so they can be read, and what is read has their markup.
  obtain ⟨nodes, hnodes, hhtml⟩ := fragment?_of_balanced (balanced_flatMap hf t)
  have hbracket : '<' ∉ t.flatMap f := by
    intro hmem
    obtain ⟨c, -, hc⟩ := List.mem_flatMap.mp hmem
    exact (hf c).notMem hc
  rw [← hhtml] at hbracket
  refine ⟨nodes, hnodes, ?_⟩
  rw [textOf, rawTextOf_eq_htmlOf hbracket, hhtml, decode_flatMap hf]

end Characters

theorem spells_escapeChar (c : Char) : Spells c (Html.escapeChar c) := by
  unfold Html.escapeChar
  split
  · exact .reference "amp" (by decide) rfl
  · exact .reference "lt" (by decide) rfl
  · exact .reference "gt" (by decide) rfl
  · exact .reference "quot" (by decide) rfl
  · exact .reference "#x27" (by decide) (by decide)
  -- Any other character stands for itself; that it opens nothing was ruled out before.
  · next hamp hopen hclose _ _ => exact .self ((isInsideTag_iff).mpr ⟨hopen, hclose⟩) hamp

theorem spells_escapeBracedChar (c : Char) : Spells c (Html.escapeBracedChar c) := by
  unfold Html.escapeBracedChar
  split
  · next hbrace =>
    subst hbrace
    exact .reference "lcub" (by decide) rfl
  · exact spells_escapeChar c

/-- **Escaping a text and reading its text back are inverse.**

Escaped text is a fragment that can be read, and the text of the fragment is what was escaped, with
or without its braces hidden. -/
theorem textOf_escape (t : Text) :
    (∃ nodes, fragment? (Html.escape t) = some nodes ∧ textOf nodes = t) ∧
      ∃ nodes, fragment? (Html.escapeBraced t) = some nodes ∧ textOf nodes = t :=
  ⟨textOf_flatMap spells_escapeChar t, textOf_flatMap spells_escapeBracedChar t⟩

/-- What looks like an escaped reference is text like any other. -/
example : Html.escapeBraced "&amp;#x27;\x7b<".toList = "&amp;amp;#x27;&lcub;&lt;".toList ∧
    decode "&amp;amp;#x27;&lcub;&lt;".toList = "&amp;#x27;\x7b<".toList := by
  decide

end DocPage.Dom
