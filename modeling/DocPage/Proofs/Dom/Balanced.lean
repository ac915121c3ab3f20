import DocPage.Dom.Fragment
import DocPage.Proofs.Text.Scan
import DocPage.Proofs.Text.Trim

/-!
# Balanced markup

Markup is balanced when every element in it is closed by the end tag of its own name, around content
that is balanced too. Beside the markup stands its closed form, which differs in the void tags only:
those are written `<br />` in place of `<br>`. Closing the void tags of balanced markup gives exactly
this closed form.

## Architecture

- **Tags**: what may stand behind the name of a tag, with the quotes in it, and which names an
  element may have
- **Balanced markup**: `Balanced`, a relation between the markup and its closed form
- **Void tags**: `closeVoidTags_append`
-/

namespace DocPage.Dom

/-! ## Tags -/

theorem isInsideTag_iff {c : Char} : isInsideTag c = true ↔ c ≠ '<' ∧ c ≠ '>' := by
  simp [isInsideTag]

/-- The quote that is open behind a character of a tag. -/
def nextQuote (quote : Option Char) (c : Char) : Option Char :=
  match quote with
  | some q => if c = q then none else some q
  | none => if c = '"' ∨ c = '\'' then some c else none

/-- What may stand behind the name of a tag: nothing, or attributes with a blank in front of them.
There are no angle brackets, every quote is closed, and the end is neither a slash nor a blank. -/
structure IsAttributes (t : Text) : Prop where
  head : ∀ c ∈ t.head?, c = ' '
  last : ∀ c ∈ t.getLast?, c ≠ '/' ∧ Unicode.isBlank c = false
  isInside : ∀ c ∈ t, isInsideTag c = true
  closed : t.foldl nextQuote none = none

instance (t : Text) : Decidable (IsAttributes t) :=
  decidable_of_iff ((∀ c ∈ t.head?, c = ' ') ∧
      (∀ c ∈ t.getLast?, c ≠ '/' ∧ Unicode.isBlank c = false) ∧
      (∀ c ∈ t, isInsideTag c = true) ∧ t.foldl nextQuote none = none)
    ⟨fun ⟨hhead, hlast, hinside, hclosed⟩ => ⟨hhead, hlast, hinside, hclosed⟩,
      fun h => ⟨h.head, h.last, h.isInside, h.closed⟩⟩

namespace IsAttributes

theorem nil : IsAttributes [] := by decide

theorem append {a b : Text} (ha : IsAttributes a) (hb : IsAttributes b) :
    IsAttributes (a ++ b) := by
  refine ⟨?_, ?_, ?_, ?_⟩
  -- An end that is empty leaves its condition to the other part.
  · cases a with
    | nil => exact hb.head
    | cons c a => exact ha.head
  · cases b with
    | nil =>
      rw [List.append_nil]
      exact ha.last
    | cons c b =>
      rw [List.getLast?_append_of_ne_nil _ (List.cons_ne_nil c b)]
      exact hb.last
  · intro c hc
    exact (List.mem_append.mp hc).elim (ha.isInside c) (hb.isInside c)
  -- Behind the first attributes every quote is closed, so the others start afresh.
  · rw [List.foldl_append, ha.closed]
    exact hb.closed

end IsAttributes

theorem foldl_nextQuote_none {t : Text} (h : ∀ c ∈ t, c ≠ '"' ∧ c ≠ '\'') :
    t.foldl nextQuote none = none := by
  induction t with
  | nil => rfl
  | cons c t ih =>
    obtain ⟨⟨hdouble, hsingle⟩, hrest⟩ := List.forall_mem_cons.mp h
    simpa [nextQuote, hdouble, hsingle] using ih hrest

theorem foldl_nextQuote_some {q : Char} {t : Text} (h : ∀ c ∈ t, c ≠ q) :
    t.foldl nextQuote (some q) = some q := by
  induction t with
  | nil => rfl
  | cons c t ih =>
    obtain ⟨hne, hrest⟩ := List.forall_mem_cons.mp h
    simpa [nextQuote, hne] using ih hrest

/-- An attribute with a value between quotes, which may stand in braces. -/
theorem isAttributes_of_value {front value back : Text} (hhead : front.head? = some ' ')
    (hfront : ∀ c ∈ front, isInsideTag c = true ∧ c ≠ '"' ∧ c ≠ '\'')
    (hvalue : ∀ c ∈ value, isInsideTag c = true ∧ c ≠ '"')
    (hback : back = ['"'] ∨ back = ['"', '\x7d']) : IsAttributes (front ++ '"' :: value ++ back) := by
  -- The back ends the attribute, so the conditions on the last character are about it.
  have hback_ne : back ≠ [] := by
    rcases hback with rfl | rfl
    all_goals decide
  refine ⟨?_, ?_, ?_, ?_⟩
  · cases front with
    | nil => cases hhead
    | cons c front =>
      intro d hd
      exact (Option.some.inj (hhead.symm.trans hd)).symm
  · rw [List.getLast?_append_of_ne_nil _ hback_ne]
    rcases hback with rfl | rfl
    all_goals decide
  · have hinside : ∀ c ∈ back, isInsideTag c = true := by
      rcases hback with rfl | rfl
      all_goals decide
    intro c hc
    rcases List.mem_append.mp hc with hc | hc
    · rcases List.mem_append.mp hc with hc | hc
      · exact (hfront c hc).1
      · rcases List.mem_cons.mp hc with rfl | hc
        · decide
        · exact (hvalue c hc).1
    · exact hinside c hc
  -- The quote that opens the value is closed by the back, since no other one stands between them.
  · rw [List.foldl_append, List.foldl_append, foldl_nextQuote_none fun c hc => (hfront c hc).2,
      List.foldl_cons]
    show List.foldl nextQuote (List.foldl nextQuote (some '"') value) back = none
    rw [foldl_nextQuote_some fun c hc => (hvalue c hc).2]
    rcases hback with rfl | rfl
    all_goals rfl

/-- A name of letters that is not the name of a void element. -/
structure IsElementName (name : Text) : Prop where
  ne_nil : name ≠ []
  isAlpha : ∀ c ∈ name, c.isAlpha = true
  not_void : name ∉ voidNames

instance (name : Text) : Decidable (IsElementName name) :=
  decidable_of_iff (name ≠ [] ∧ (∀ c ∈ name, c.isAlpha = true) ∧ name ∉ voidNames)
    ⟨fun ⟨hne, halpha, hvoid⟩ => ⟨hne, halpha, hvoid⟩, fun h => ⟨h.ne_nil, h.isAlpha, h.not_void⟩⟩

/-- The names of the void elements of a page. -/
def pageVoidNames : List Text :=
  ["br".toList, "hr".toList, "img".toList, "input".toList]

/-! ## Balanced markup -/

/-- The markup is balanced, and `closed` is the same markup with its void tags closed. -/
inductive Balanced : (markup closed : Text) → Prop where
  | nil : Balanced [] []
  | char {c : Char} {t u : Text} : isInsideTag c = true → c ≠ '&' → Balanced t u →
      Balanced (c :: t) (c :: u)
  | reference {body t u : Text} : (∀ c ∈ body, isInsideTag c = true ∧ c ≠ '&' ∧ c ≠ ';') →
      Balanced t u → Balanced ('&' :: body ++ ';' :: t) ('&' :: body ++ ';' :: u)
  | void {name attributes t u : Text} : name ∈ pageVoidNames → IsAttributes attributes →
      Balanced t u →
      Balanced ('<' :: name ++ attributes ++ '>' :: t) ('<' :: name ++ attributes ++ " />" ++ u)
  | component {name attributes t u : Text} : IsElementName name → IsAttributes attributes →
      Balanced t u →
      Balanced ('<' :: name ++ attributes ++ " />" ++ t) ('<' :: name ++ attributes ++ " />" ++ u)
  | element {name attributes inner innerClosed t u : Text} : IsElementName name →
      IsAttributes attributes → Balanced inner innerClosed → Balanced t u →
      Balanced ('<' :: name ++ attributes ++ '>' :: inner ++ '<' :: '/' :: name ++ '>' :: t)
        ('<' :: name ++ attributes ++ '>' :: innerClosed ++ '<' :: '/' :: name ++ '>' :: u)

namespace Balanced

theorem append {a ac b bc : Text} (ha : Balanced a ac) (hb : Balanced b bc) :
    Balanced (a ++ b) (ac ++ bc) := by
  -- On the first markup; what stands behind it is carried along in each case.
  induction ha with
  | nil => exact hb
  | char hinside hamp _ ih => exact .char hinside hamp ih
  | reference hbody _ ih =>
    have h := Balanced.reference hbody ih
    simpa only [List.cons_append, List.append_assoc] using h
  | void hname hattributes _ ih =>
    have h := Balanced.void hname hattributes ih
    simpa only [List.cons_append, List.append_assoc] using h
  | component hname hattributes _ ih =>
    have h := Balanced.component hname hattributes ih
    simpa only [List.cons_append, List.append_assoc] using h
  | element hname hattributes hinner _ _ ih =>
    have h := Balanced.element hname hattributes hinner ih
    simpa only [List.cons_append, List.append_assoc] using h

end Balanced

/-! ## Void tags -/

theorem voidTagMatcher_of_ne {c : Char} (hc : c ≠ '<') (t : Text) :
    voidTagMatcher (c :: t) = none := by
  have hdrop : Text.dropPrefix? ['<'] (c :: t) = none := by simp [Text.dropPrefix?, Ne.symm hc]
  unfold voidTagMatcher
  rw [hdrop]
  rfl

theorem closeVoidTags_cons {c : Char} {t : Text} (h : voidTagMatcher (c :: t) = none) :
    closeVoidTags (c :: t) = c :: closeVoidTags t := by
  unfold closeVoidTags Text.mapMatches
  rw [Text.pieces_cons_of_none h]
  rfl

/-- A text without opening brackets is left alone. -/
theorem closeVoidTags_append_of_notMem {t : Text} (h : '<' ∉ t) (after : Text) :
    closeVoidTags (t ++ after) = t ++ closeVoidTags after := by
  induction t with
  | nil => rfl
  | cons c t ih =>
    obtain ⟨hne, ht⟩ := List.ne_and_not_mem_of_not_mem_cons h
    rw [List.cons_append, closeVoidTags_cons (voidTagMatcher_of_ne (Ne.symm hne) _), ih ht]
    rfl

/-! ### Void tags of one name -/

/-- What the matcher looks for behind the `<`: a void tag with the given name. -/
def voidTagNamed? (rest name : Text) : Option (Nat × Text) := do
  let afterName ← Text.dropPrefix? name rest
  let inside := afterName.takeWhile isInsideTag
  let _ ← Text.dropPrefix? ['>'] (afterName.drop inside.length)
  let attributes ← voidAttributes? inside
  some (1 + name.length + inside.length + 1, '<' :: name ++ attributes ++ " />".toList)

theorem voidTagMatcher_cons (rest : Text) :
    voidTagMatcher ('<' :: rest) = voidNames.findSome? (voidTagNamed? rest) := by
  unfold voidTagMatcher
  rw [show Text.dropPrefix? ['<'] ('<' :: rest) = some rest from rfl]
  rfl

theorem isAlpha_of_mem_voidNames : ∀ name ∈ voidNames, ∀ c ∈ name, c.isAlpha = true := by
  decide

theorem isInsideTag_of_isAlpha {c : Char} (h : c.isAlpha = true) : isInsideTag c = true := by
  exact (isInsideTag_iff).mpr ⟨Text.ne_of_isAlpha h (by decide), Text.ne_of_isAlpha h (by decide)⟩

/-- A name of letters in front of no letter is the name of no other void element. -/
theorem voidTagNamed?_of_ne {name tail other : Text} (hname : ∀ c ∈ name, c.isAlpha = true)
    (htail : ∀ c ∈ tail.head?, c.isAlpha = false) (hother : ∀ c ∈ other, c.isAlpha = true)
    (hne : other ≠ name) : voidTagNamed? (name ++ tail) other = none := by
  unfold voidTagNamed?
  -- Both names start the same text, and one of them is longer.
  cases hdrop : Text.dropPrefix? other (name ++ tail) with
  | none => rfl
  | some afterName =>
    have hsplit : name ++ tail = other ++ afterName := (Text.dropPrefix?_eq_some_iff).mp hdrop
    rcases Text.append_cases hsplit with ⟨u, rfl, rfl⟩ | ⟨u, rfl, rfl⟩
    · -- The name goes on behind `other`, so a letter stands where attributes would start.
      cases u with
      | nil => exact absurd (List.append_nil other).symm hne
      | cons c u =>
        have hc : c.isAlpha = true := hname c (by simp)
        have hslash : c ≠ '/' := by
          rintro rfl
          cases hc
        simp [isInsideTag_of_isAlpha hc, voidAttributes?, Text.isBlank_of_isAlpha hc, hslash]
    · -- `other` goes on behind the name, which is followed by no letter.
      cases u with
      | nil => exact absurd (List.append_nil name) hne
      | cons c u =>
        have hc : c.isAlpha = true := hother c (by simp)
        rw [htail c rfl] at hc
        cases hc

theorem voidAttributes?_of_isAttributes {attributes : Text} (h : IsAttributes attributes) :
    voidAttributes? attributes = some attributes := by
  cases attributes with
  | nil => rfl
  | cons c t =>
    obtain rfl : c = ' ' := h.head c rfl
    -- Behind the leading blank nothing is cut off, neither a slash nor blanks.
    have hlast : ∀ d ∈ t.getLast?, d ≠ '/' ∧ Unicode.isBlank d = false := by
      intro d hd
      -- The last character of the rest is that of the attributes, unless there is only the blank.
      cases t with
      | nil => cases hd
      | cons e t => exact h.last d (by simpa using hd)
    have hslash : Text.dropSuffix? ['/'] t = none := by
      cases hdrop : Text.dropSuffix? ['/'] t with
      | none => rfl
      | some front =>
        have ht := (Text.dropSuffix?_eq_some_iff).mp hdrop
        exact absurd rfl (hlast '/' (by simp [ht])).1
    have htrim : Text.dropRightWhile Unicode.isBlank t = t :=
      Text.trimEnd_eq_self fun d hd => (hlast d hd).2
    have hblank : Unicode.isBlank ' ' = true := by decide
    rw [voidAttributes?, if_pos hblank, hslash, Option.getD_none, htrim]

theorem takeWhile_isInsideTag_append {inside : Text} (h : ∀ c ∈ inside, isInsideTag c = true)
    (t : Text) : (inside ++ '>' :: t).takeWhile isInsideTag = inside := by
  refine Text.takeWhile_append_of_boundary h fun c hc => ?_
  cases hc
  decide

theorem voidTagNamed?_self {name attributes : Text} (h : IsAttributes attributes) (t : Text) :
    voidTagNamed? (name ++ (attributes ++ '>' :: t)) name =
      some (1 + name.length + attributes.length + 1, '<' :: name ++ attributes ++ " />".toList) := by
  unfold voidTagNamed?
  rw [Text.dropPrefix?_append]
  simp [takeWhile_isInsideTag_append h.isInside, voidAttributes?_of_isAttributes h,
    Text.dropPrefix?]

/-- What stands behind a name in a tag is no letter. -/
theorem IsAttributes.head_append {attributes : Text} (h : IsAttributes attributes) {c : Char}
    (hc : c.isAlpha = false) (t : Text) :
    ∀ d ∈ (attributes ++ c :: t).head?, d.isAlpha = false := by
  cases attributes with
  | nil =>
    intro d hd
    cases hd
    exact hc
  | cons e attributes =>
    intro d hd
    obtain rfl : d = ' ' := h.head d hd
    decide

/-- A name that no void element has starts no void tag. -/
theorem voidTagMatcher_of_isElementName {name tail : Text} (hname : IsElementName name)
    (htail : ∀ c ∈ tail.head?, c.isAlpha = false) :
    voidTagMatcher ('<' :: (name ++ tail)) = none := by
  rw [voidTagMatcher_cons, List.findSome?_eq_none_iff]
  -- Each void name is told apart, since the name here is none of them.
  intro other hother
  refine voidTagNamed?_of_ne hname.isAlpha htail (isAlpha_of_mem_voidNames other hother) ?_
  rintro rfl
  exact hname.not_void hother

theorem findSome?_eq_of_unique {α β : Type} {f : α → Option β} {a : α} {b : β} {l : List α}
    (ha : a ∈ l) (hb : f a = some b) (hother : ∀ x ∈ l, x ≠ a → f x = none) :
    l.findSome? f = some b := by
  induction l with
  | nil => cases ha
  | cons x l ih =>
    -- The value is found at its place, and nothing in front of it gives one.
    obtain ⟨hx, hrest⟩ := List.forall_mem_cons.mp hother
    by_cases hxa : x = a
    · subst hxa
      rw [List.findSome?_cons_of_isSome (by simp [hb]), hb]
    · rw [List.findSome?_cons_of_isNone (by simp [hx hxa])]
      exact ih ((List.mem_cons.mp ha).resolve_left (Ne.symm hxa)) hrest

theorem voidTagMatcher_void {name attributes : Text} (hname : name ∈ voidNames)
    (h : IsAttributes attributes) (t : Text) :
    voidTagMatcher ('<' :: (name ++ (attributes ++ '>' :: t))) =
      some (1 + name.length + attributes.length + 1, '<' :: name ++ attributes ++ " />".toList) := by
  rw [voidTagMatcher_cons]
  refine findSome?_eq_of_unique hname (voidTagNamed?_self h t) fun other hother hne => ?_
  exact voidTagNamed?_of_ne (isAlpha_of_mem_voidNames name hname) (h.head_append (by decide) t)
    (isAlpha_of_mem_voidNames other hother) hne

theorem voidTagMatcher_close (t : Text) : voidTagMatcher ('<' :: '/' :: t) = none := rfl

/-! ### Closing -/

theorem closeVoidTags_void {name attributes : Text} (hname : name ∈ voidNames)
    (h : IsAttributes attributes) (t : Text) :
    closeVoidTags ('<' :: name ++ attributes ++ '>' :: t) =
      '<' :: name ++ attributes ++ " />".toList ++ closeVoidTags t := by
  -- The match spans the whole tag, so the scan goes on behind it.
  have hmatch : voidTagMatcher (('<' :: name ++ attributes ++ ['>']) ++ t) =
      some (('<' :: name ++ attributes ++ ['>']).length,
        '<' :: name ++ attributes ++ " />".toList) := by
    have := voidTagMatcher_void hname h t
    simp only [List.cons_append, List.append_assoc, List.nil_append, List.length_cons,
      List.length_append, List.length_nil] at this ⊢
    rw [this]
    congr 2
    omega
  have hspan : '<' :: name ++ attributes ++ '>' :: t = ('<' :: name ++ attributes ++ ['>']) ++ t := by
    simp
  rw [hspan]
  unfold closeVoidTags Text.mapMatches
  rw [Text.pieces_append_of_match (by simp) hmatch]
  rfl

/-- Behind a bracket that starts no void tag, the rest of a tag is left alone. -/
theorem closeVoidTags_tag {inside after : Text} (hinside : '<' ∉ inside)
    (h : voidTagMatcher ('<' :: (inside ++ after)) = none) :
    closeVoidTags ('<' :: (inside ++ after)) = '<' :: (inside ++ closeVoidTags after) := by
  rw [closeVoidTags_cons h, closeVoidTags_append_of_notMem hinside]

theorem notMem_of_isAlpha {name : Text} (h : ∀ c ∈ name, c.isAlpha = true) : '<' ∉ name :=
  fun hmem => absurd (h '<' hmem) (by decide)

theorem IsAttributes.notMem {attributes : Text} (h : IsAttributes attributes) :
    '<' ∉ attributes :=
  fun hmem => absurd (h.isInside '<' hmem) (by decide)

/-- The opening tag of an element is left alone, whether it closes itself or not. -/
theorem closeVoidTags_opening {name attributes finish : Text} (hname : IsElementName name)
    (h : IsAttributes attributes) (hfinish : finish = ['>'] ∨ finish = [' ', '/', '>']) (t : Text) :
    closeVoidTags ('<' :: name ++ attributes ++ finish ++ t) =
      '<' :: name ++ attributes ++ finish ++ closeVoidTags t := by
  -- No bracket stands in the tag behind its first one.
  have hinside : '<' ∉ name ++ attributes ++ finish := by
    have hend : '<' ∉ finish := by
      rcases hfinish with rfl | rfl
      all_goals decide
    simp [notMem_of_isAlpha hname.isAlpha, h.notMem, hend]
  have htail : ∀ c ∈ (attributes ++ (finish ++ t)).head?, c.isAlpha = false := by
    rcases hfinish with rfl | rfl
    all_goals exact h.head_append (by decide) _
  have hnone : voidTagMatcher ('<' :: (name ++ attributes ++ finish ++ t)) = none := by
    rw [List.append_assoc, List.append_assoc]
    exact voidTagMatcher_of_isElementName hname htail
  exact closeVoidTags_tag hinside hnone

theorem closeVoidTags_closing {name : Text} (hname : IsElementName name) (t : Text) :
    closeVoidTags ('<' :: '/' :: name ++ '>' :: t) = '<' :: '/' :: name ++ '>' :: closeVoidTags t := by
  -- An end tag begins with a slash, which no void tag does.
  have hinside : '<' ∉ '/' :: name ++ ['>'] := by
    simp [notMem_of_isAlpha hname.isAlpha]
  have h := closeVoidTags_tag hinside (voidTagMatcher_close (name ++ ['>'] ++ t))
  simpa using h

theorem mem_voidNames_of_mem_pageVoidNames {name : Text} (h : name ∈ pageVoidNames) :
    name ∈ voidNames := by
  revert name
  decide

/-- Closing the void tags of balanced markup gives its closed form, whatever follows. -/
theorem closeVoidTags_append {markup closed : Text} (h : Balanced markup closed) (after : Text) :
    closeVoidTags (markup ++ after) = closed ++ closeVoidTags after := by
  -- By induction on the pieces, with any text behind them: the content of an element is followed by
  -- its closing tag.
  induction h generalizing after with
  | nil => rfl
  | @char c t u hinside _ _ ih =>
    have hne : '<' ∉ [c] := by
      simpa using ((isInsideTag_iff).mp hinside).1.symm
    have hc := closeVoidTags_append_of_notMem hne (t ++ after)
    rw [ih] at hc
    exact hc
  | @reference body t u hbody _ ih =>
    have hne : '<' ∉ '&' :: body ++ [';'] := by
      have hnotMem : '<' ∉ body := fun hmem => absurd (hbody '<' hmem).1 (by decide)
      simp [hnotMem]
    have hc := closeVoidTags_append_of_notMem hne (t ++ after)
    rw [ih] at hc
    simpa using hc
  | @void name attributes t u hname hattributes _ ih =>
    have hc := closeVoidTags_void (mem_voidNames_of_mem_pageVoidNames hname) hattributes (t ++ after)
    rw [ih] at hc
    simpa using hc
  | @component name attributes t u hname hattributes _ ih =>
    have hc := closeVoidTags_opening hname hattributes (.inr rfl) (t ++ after)
    rw [ih] at hc
    simpa using hc
  | @element name attributes inner innerClosed t u hname hattributes _ _ ihInner ih =>
    -- The opening tag, the content, the closing tag and what follows, from left to right.
    have hc := closeVoidTags_opening hname hattributes (.inl rfl)
      (inner ++ ('<' :: '/' :: name ++ '>' :: (t ++ after)))
    rw [ihInner, closeVoidTags_closing hname, ih] at hc
    simpa using hc

/-- The closed form is what closing the void tags gives. -/
theorem closeVoidTags_of_balanced {markup closed : Text} (h : Balanced markup closed) :
    closeVoidTags markup = closed := by
  have hc := closeVoidTags_append h []
  rw [List.append_nil] at hc
  rw [hc]
  exact List.append_nil closed

end DocPage.Dom
