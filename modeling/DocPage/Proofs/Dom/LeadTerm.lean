import DocPage.Dom.LeadTerm
import DocPage.Proofs.Dom.Reading

/-!
# Descriptions behind lead terms

An item is read in three steps. A paragraph that opens it is unwrapped; the first bold element
directly in what is left is the lead term; and the description starts behind the first separator in
the texts that stand beside the lead term, behind it. So the description is an end of the markup of
the item: it starts in a text or at a node, and what comes after its start is kept whole.

## Architecture

- **Separators**: `FirstSeparator`, the first separator of a text, and `afterSeparator?`
- **Siblings**: `KeptBehindSeparator`, what is left of nodes behind the first separator among them
- **Paragraphs**: `Unwraps`, the content of an item and what stands after it
- **Descriptions**: `DescribesLead`, and `afterLeadTerm?` as this relation
-/

namespace DocPage.Dom

/-! ## Separators -/

/-- What may stand between a term and its description: two hyphens or an em dash. -/
def IsSeparator (sep : Text) : Prop :=
  sep = ['-', '-'] ∨ sep = ['\u2014']

def Unseparated (t : Text) : Prop :=
  ∀ before sep after, IsSeparator sep → t ≠ before ++ sep ++ after

/-- The text is cut at its first separator: every other one starts no earlier. -/
structure FirstSeparator (t before sep after : Text) : Prop where
  isSeparator : IsSeparator sep
  eq_append : t = before ++ sep ++ after
  first : ∀ b s a, IsSeparator s → t = b ++ s ++ a → before.length ≤ b.length

theorem IsSeparator.ne_nil {sep : Text} (h : IsSeparator sep) : sep ≠ [] := by
  rcases h with rfl | rfl <;> simp

theorem afterSeparator?_append {sep : Text} (h : IsSeparator sep) (t : Text) :
    afterSeparator? (sep ++ t) = some t := by
  rcases h with rfl | rfl <;> simp [afterSeparator?]

/-- Where no separator starts, the search goes on at the next character. -/
theorem afterSeparator?_cons {c : Char} {t : Text}
    (h : ∀ sep after, IsSeparator sep → c :: t ≠ sep ++ after) :
    afterSeparator? (c :: t) = afterSeparator? t := by
  -- Two of the equations of the search are for separators, and the text starts with neither.
  rw [afterSeparator?.eq_def]
  split
  · next heq => exact absurd heq (h ['-', '-'] _ (.inl rfl))
  · next heq => exact absurd heq (h ['\u2014'] _ (.inr rfl))
  · next heq =>
    obtain ⟨-, rfl⟩ := List.cons.inj heq
    rfl
  · next heq => cases heq

theorem FirstSeparator.tail {c : Char} {t before sep after : Text}
    (h : FirstSeparator (c :: t) (c :: before) sep after) : FirstSeparator t before sep after := by
  refine ⟨h.isSeparator, ?_, ?_⟩
  · simpa using h.eq_append
  · intro b s a hs ht
    simpa using h.first (c :: b) s a hs (by simp [ht])

/-- The text behind its first separator is what the search gives. -/
theorem FirstSeparator.afterSeparator?_eq {t before sep after : Text}
    (h : FirstSeparator t before sep after) : afterSeparator? t = some after := by
  -- On the text in front of the separator, which is passed a character at a time.
  induction before generalizing t with
  | nil =>
    have ht : t = sep ++ after := by simpa using h.eq_append
    rw [ht]
    exact afterSeparator?_append h.isSeparator after
  | cons c before ih =>
    obtain rfl : t = c :: (before ++ sep ++ after) := by simpa using h.eq_append
    -- A separator at the start would be an earlier one.
    have hstart : ∀ s a, IsSeparator s → c :: (before ++ sep ++ after) ≠ s ++ a := by
      intro s a hs heq
      simpa using h.first [] s a hs heq
    rw [afterSeparator?_cons hstart]
    exact ih h.tail

theorem Unseparated.tail {c : Char} {t : Text} (h : Unseparated (c :: t)) : Unseparated t := by
  intro before sep after hsep ht
  exact h (c :: before) sep after hsep (by simp [ht])

theorem Unseparated.afterSeparator?_eq {t : Text} (h : Unseparated t) :
    afterSeparator? t = none := by
  induction t with
  | nil => rfl
  | cons c t ih =>
    rw [afterSeparator?_cons (fun sep after hsep => h [] sep after hsep)]
    exact ih h.tail

/-- A text has no separator, or it has a first one. -/
theorem unseparated_or_exists_first (t : Text) :
    Unseparated t ∨ ∃ before sep after, FirstSeparator t before sep after := by
  -- The first separator is at the start, or it is the first one of the rest.
  induction t with
  | nil =>
    left
    intro before sep after hsep heq
    simp [hsep.ne_nil] at heq
  | cons c t ih =>
    by_cases hstart : ∃ sep after, IsSeparator sep ∧ c :: t = sep ++ after
    · obtain ⟨sep, after, hsep, heq⟩ := hstart
      exact .inr ⟨[], sep, after, hsep, heq, fun b s a _ _ => Nat.zero_le b.length⟩
    · -- Any separator of the whole text is one of its tail.
      have htail : ∀ b s a, IsSeparator s → c :: t = b ++ s ++ a →
          ∃ b', b = c :: b' ∧ t = b' ++ s ++ a := by
        intro b s a hs heq
        cases b with
        | nil => exact absurd ⟨s, a, hs, heq⟩ hstart
        | cons d b =>
          obtain ⟨rfl, ht⟩ := List.cons.inj heq
          exact ⟨b, rfl, ht⟩
      rcases ih with hnone | ⟨before, sep, after, hfirst⟩
      · left
        intro b s a hs heq
        obtain ⟨b', -, ht⟩ := htail b s a hs heq
        exact hnone b' s a hs ht
      · right
        refine ⟨c :: before, sep, after, hfirst.isSeparator, by simp [hfirst.eq_append], ?_⟩
        intro b s a hs heq
        obtain ⟨b', rfl, ht⟩ := htail b s a hs heq
        simpa using hfirst.first b' s a hs ht

/-! ## Siblings -/

/-- No text directly among the nodes has a separator. What stands inside of elements is not asked
for. -/
def NoSeparatorAmong (nodes : List Node) : Prop :=
  ∀ raw, Node.text raw ∈ nodes → Unseparated raw

/-- What is kept of nodes behind the first separator in the texts directly among them; without a
separator, all of them. -/
inductive KeptBehindSeparator : (nodes kept : List Node) → Prop where
  | all {nodes : List Node} : NoSeparatorAmong nodes → KeptBehindSeparator nodes nodes
  /-- The text with the separator is cut, and the nodes behind it are kept whole. -/
  | cut {front rest : List Node} {raw before sep after : Text} : NoSeparatorAmong front →
      FirstSeparator raw before sep after →
      KeptBehindSeparator (front ++ .text raw :: rest) (.text after :: rest)

theorem cutAtSeparator?_append {front : List Node} (h : NoSeparatorAmong front)
    (rest : List Node) : cutAtSeparator? (front ++ rest) = cutAtSeparator? rest := by
  -- None of the nodes in front is cut, whether it is a text or an element.
  induction front with
  | nil => rfl
  | cons node front ih =>
    have hfront : NoSeparatorAmong front := fun raw hmem => h raw (List.mem_cons_of_mem _ hmem)
    cases node with
    | text raw =>
      have hraw := (h raw List.mem_cons_self).afterSeparator?_eq
      simp [cutAtSeparator?, hraw, ih hfront]
    | element => simp [cutAtSeparator?, ih hfront]

theorem KeptBehindSeparator.eq {nodes kept : List Node} (h : KeptBehindSeparator nodes kept) :
    kept = (cutAtSeparator? nodes).getD nodes := by
  cases h with
  | all hnone =>
    -- With nothing behind the nodes, the search ends without a cut.
    have hcut := cutAtSeparator?_append hnone []
    simp only [List.append_nil] at hcut
    simp [hcut, cutAtSeparator?]
  | cut hfront hfirst =>
    rw [cutAtSeparator?_append hfront]
    simp [cutAtSeparator?, hfirst.afterSeparator?_eq]

theorem KeptBehindSeparator.cons {node : Node} {nodes kept : List Node}
    (hnode : ∀ raw, node = .text raw → Unseparated raw) (h : KeptBehindSeparator nodes kept) :
    ∃ kept', KeptBehindSeparator (node :: nodes) kept' := by
  have hmore : ∀ front, NoSeparatorAmong front → NoSeparatorAmong (node :: front) := by
    intro front hfront raw hmem
    rcases List.mem_cons.mp hmem with heq | hmem
    · exact hnode raw heq.symm
    · exact hfront raw hmem
  cases h with
  | all hnone => exact ⟨_, .all (hmore _ hnone)⟩
  | @cut front rest raw _ _ after hfront hfirst =>
    have hcut : KeptBehindSeparator (node :: front ++ .text raw :: rest) (.text after :: rest) :=
      .cut (hmore front hfront) hfirst
    exact ⟨_, hcut⟩

theorem exists_keptBehindSeparator (nodes : List Node) :
    ∃ kept, KeptBehindSeparator nodes kept := by
  induction nodes with
  | nil => exact ⟨[], .all fun _ hmem => nomatch hmem⟩
  | cons node nodes ih =>
    obtain ⟨kept, hkept⟩ := ih
    -- An element is passed, and a text may be the one that is cut.
    cases node with
    | element => exact hkept.cons (fun _ heq => nomatch heq)
    | text raw =>
      rcases unseparated_or_exists_first raw with hraw | ⟨before, sep, after, hfirst⟩
      · apply hkept.cons
        rintro raw' ⟨⟩
        exact hraw
      · have hnone : NoSeparatorAmong [] := fun _ hmem => nomatch hmem
        exact ⟨.text after :: nodes, .cut hnone hfirst⟩

theorem keptBehindSeparator_iff {nodes kept : List Node} :
    KeptBehindSeparator nodes kept ↔ kept = (cutAtSeparator? nodes).getD nodes := by
  constructor
  · exact KeptBehindSeparator.eq
  · rintro rfl
    -- There is something that is kept, and it is what the search gives.
    obtain ⟨kept, hkept⟩ := exists_keptBehindSeparator nodes
    rwa [← hkept.eq]

/-- What is kept is an end of the markup. -/
theorem KeptBehindSeparator.htmlOf_suffix {nodes kept : List Node}
    (h : KeptBehindSeparator nodes kept) : Node.htmlOf kept <:+ Node.htmlOf nodes := by
  cases h with
  | all => exact List.suffix_refl _
  | @cut front rest raw before sep after _ hfirst =>
    refine ⟨Node.htmlOf front ++ before ++ sep, ?_⟩
    simp [htmlOf_append, Node.htmlOf, Node.html, hfirst.eq_append]

/-! ## Paragraphs -/

/-- A paragraph is the first element of the item, and the text in front of it is blank. -/
structure OpensWithParagraph (item : List Node) (paragraph : Node) (after : List Node) : Prop where
  exists_blank : ∃ lead, item = lead ++ paragraph :: after ∧ (∀ n ∈ lead, n.isText = true) ∧
    (Node.rawTextOf lead).all Unicode.isBlank = true
  isParagraph : paragraph.isNamed "p" = true

/-- The content of an item and what stands after it: a paragraph that opens the item is
unwrapped. -/
inductive Unwraps : (item content after : List Node) → Prop where
  | paragraph {item after : List Node} {paragraph : Node} :
      OpensWithParagraph item paragraph after → Unwraps item paragraph.children after
  | plain {item : List Node} : (∀ paragraph after, ¬ OpensWithParagraph item paragraph after) →
      Unwraps item item []

theorem isText_eq_false_of_isNamed {n : Node} {name : Text} (h : n.isNamed name = true) :
    n.isText = false := by
  cases n with
  | text => cases h
  | element => rfl

theorem OpensWithParagraph.itemContent_eq {item after : List Node} {paragraph : Node}
    (h : OpensWithParagraph item paragraph after) :
    itemContent item = (paragraph.children, after) := by
  obtain ⟨lead, rfl, htext, hblank⟩ := h.exists_blank
  have helement := isText_eq_false_of_isNamed h.isParagraph
  -- The blank text ends where the paragraph starts, since that is an element.
  have htake : (lead ++ paragraph :: after).takeWhile Node.isText = lead := by
    rw [List.takeWhile_append_of_pos htext, List.takeWhile_cons_of_neg (by simp [helement]),
      List.append_nil]
  unfold itemContent
  rw [htake]
  dsimp only
  rw [List.drop_left]
  exact if_pos (by rw [hblank, h.isParagraph]; rfl)

/-- The item is unwrapped only if a paragraph opens it. -/
theorem itemContent_eq_self {item : List Node}
    (h : ∀ paragraph after, ¬ OpensWithParagraph item paragraph after) :
    itemContent item = (item, []) := by
  unfold itemContent
  dsimp only
  split
  · next first after hdrop =>
    split
    · next hopens =>
      rw [Bool.and_eq_true] at hopens
      -- What was passed in front of the paragraph was blank text, so the paragraph opens the item.
      have hitem : item = item.takeWhile Node.isText ++ first :: after := by
        rw [← hdrop]
        exact (List.prefix_iff_eq_append.mp (List.takeWhile_prefix Node.isText)).symm
      exact absurd ⟨⟨_, hitem, fun n hn => List.mem_takeWhile_imp hn, hopens.1⟩, hopens.2⟩
        (h first after)
    · rfl
  · rfl

theorem unwraps_iff {item content after : List Node} :
    Unwraps item content after ↔ itemContent item = (content, after) := by
  constructor
  · intro h
    cases h with
    | paragraph hopens => exact hopens.itemContent_eq
    | plain hnone => exact itemContent_eq_self hnone
  · intro h
    -- Whether a paragraph opens the item decides both sides.
    by_cases hopens : ∃ paragraph after, OpensWithParagraph item paragraph after
    · obtain ⟨paragraph, after', hopens⟩ := hopens
      rw [hopens.itemContent_eq] at h
      cases h
      exact .paragraph hopens
    · have hnone : ∀ paragraph after, ¬ OpensWithParagraph item paragraph after :=
        fun paragraph after' hopens' => hopens ⟨paragraph, after', hopens'⟩
      rw [itemContent_eq_self hnone] at h
      cases h
      exact .plain hnone

theorem exists_unwraps (item : List Node) : ∃ content after, Unwraps item content after :=
  ⟨_, _, unwraps_iff.mpr rfl⟩

theorem Unwraps.unique {item content after content' after' : List Node}
    (h : Unwraps item content after) (h' : Unwraps item content' after') :
    content = content' ∧ after = after' := by
  have hsame := (unwraps_iff.mp h).symm.trans (unwraps_iff.mp h')
  exact Prod.mk.inj hsame

/-! ## Descriptions -/

/-- The first bold element directly among the nodes, with what stands in front of it and what
behind it. -/
structure FirstBold (content front : List Node) (lead : Node) (rest : List Node) : Prop where
  eq_append : content = front ++ lead :: rest
  front : ∀ child ∈ front, child.isNamed "strong" = false
  isBold : lead.isNamed "strong" = true

/-- What an item says of its lead term: `front` stands in front of the term in the content. -/
inductive DescribesLead (item front : List Node) (lead : Node) : (description : Text) → Prop where
  | intro {content after rest kept : List Node} : Unwraps item content after →
      FirstBold content front lead rest → KeptBehindSeparator rest kept →
      DescribesLead item front lead (Text.trim (Node.htmlOf kept ++ Node.htmlOf after))

theorem FirstBold.dropWhile_eq {content front rest : List Node} {lead : Node}
    (h : FirstBold content front lead rest) :
    content.dropWhile (!·.isNamed "strong") = lead :: rest := by
  -- No child in front is bold, so none stops the search.
  have hfront : ∀ child ∈ front, (!child.isNamed "strong") = true := by
    intro child hchild
    rw [h.front child hchild]
    rfl
  rw [h.eq_append, List.dropWhile_append_of_pos hfront]
  apply List.dropWhile_cons_of_neg
  rw [h.isBold]
  decide

/-- The search for a bold child stops at the first one. -/
theorem firstBold_of_dropWhile {content rest : List Node} {lead : Node}
    (h : content.dropWhile (!·.isNamed "strong") = lead :: rest) :
    FirstBold content (content.takeWhile (!·.isNamed "strong")) lead rest := by
  refine ⟨?_, ?_, ?_⟩
  · rw [← h, List.takeWhile_append_dropWhile]
  · intro child hchild
    simpa using List.mem_takeWhile_imp hchild
  -- The search has stopped, and it stops at bold children only.
  · have hhead := List.head?_dropWhile_not (fun n : Node => !n.isNamed "strong") content
    rw [h] at hhead
    simpa using hhead

theorem afterLeadTerm?_eq_none_iff {item content after : List Node}
    (h : Unwraps item content after) :
    afterLeadTerm? item = none ↔ ∀ child ∈ content, child.isNamed "strong" = false := by
  unfold afterLeadTerm?
  rw [unwraps_iff.mp h]
  dsimp only
  split
  · next hnone =>
    have hall := List.dropWhile_eq_nil_iff.mp hnone
    simpa using hall
  · next lead rest hlead =>
    -- The lead term is a bold child.
    have hbold := firstBold_of_dropWhile hlead
    simp only [reduceCtorEq, false_iff]
    intro hall
    have hfalse := hall lead (by rw [hbold.eq_append]; simp)
    rw [hbold.isBold] at hfalse
    cases hfalse

theorem afterLeadTerm?_eq_some_iff {item : List Node} {description : Text} :
    afterLeadTerm? item = some description ↔
      ∃ front lead, DescribesLead item front lead description := by
  constructor
  · intro h
    -- There is always a content, whether or not it holds a lead term.
    obtain ⟨content, after, hunwraps⟩ := exists_unwraps item
    unfold afterLeadTerm? at h
    rw [unwraps_iff.mp hunwraps] at h
    dsimp only at h
    split at h
    · cases h
    · next lead rest hlead =>
      cases h
      exact ⟨_, lead, .intro hunwraps (firstBold_of_dropWhile hlead)
        (keptBehindSeparator_iff.mpr rfl)⟩
  · rintro ⟨front, lead, ⟨hcontent, hbold, hkept⟩⟩
    unfold afterLeadTerm?
    rw [unwraps_iff.mp hcontent]
    dsimp only
    rw [hbold.dropWhile_eq]
    simp [hkept.eq]

/-- The description of an item. Of its content, the paragraph that opens the item or else the item
itself, an end is kept: what follows the first separator that stands directly in the content behind
the first bold child, or all that follows this child where there is no separator. After an unwrapped
paragraph comes the rest of the item. There is no description exactly if no child of the content is
bold. -/
theorem description_is_end_of_content (item : List Node) : ∃ content after,
    Unwraps item content after ∧
      (afterLeadTerm? item = none ↔ ∀ child ∈ content, child.isNamed "strong" = false) ∧
      ∀ description, afterLeadTerm? item = some description ↔
        ∃ front lead rest kept, FirstBold content front lead rest ∧
          KeptBehindSeparator rest kept ∧ Node.htmlOf kept <:+ Node.htmlOf content ∧
          description = Text.trim (Node.htmlOf kept ++ Node.htmlOf after) := by
  obtain ⟨content, after, hunwraps⟩ := exists_unwraps item
  refine ⟨content, after, hunwraps, afterLeadTerm?_eq_none_iff hunwraps, fun description => ?_⟩
  rw [afterLeadTerm?_eq_some_iff]
  constructor
  · rintro ⟨front, lead, ⟨hunwraps', hbold, hkept⟩⟩
    -- The content of an item is unique, so the two ways to unwrap it agree.
    obtain ⟨rfl, rfl⟩ := hunwraps.unique hunwraps'
    refine ⟨front, lead, _, _, hbold, hkept, ?_, rfl⟩
    apply hkept.htmlOf_suffix.trans
    -- What is left out of the content is in front of the lead term, and the term itself.
    refine ⟨Node.htmlOf front ++ lead.html, ?_⟩
    simp [hbold.eq_append, htmlOf_append, Node.htmlOf]
  · rintro ⟨front, lead, rest, kept, hbold, hkept, -, rfl⟩
    exact ⟨front, lead, .intro hunwraps hbold hkept⟩

/-- The separator in the code is no text of the item, and the second one is kept. -/
example : afterLeadTerm? [.element "strong" "strong" false [.text "flag"], .text " (",
    .element "code" "code" false [.text "a--b"], .text ") \u2014 x -- y"] =
      some "x -- y".toList := by
  decide +kernel

end DocPage.Dom
