import DocPage.Proofs.Dom.Balanced

/-!
# Reading balanced markup

A reader of a fragment takes one mark after another and keeps the open elements on a stack. The
closed form of balanced markup adds nodes to the innermost open element and leaves the rest of the
stack as it was, and the markup of the added nodes is the closed form again. So a page of balanced
markup can be read, and what is read spells it with its void tags closed.

## Architecture

- **Marks**: `Reads`, the course of a reader over a part of a text
- **Tags and texts**: the mark that each piece of balanced markup gives
- **Fragments**: `reads_balanced`, and `fragment?_of_balanced` from it
-/

namespace DocPage.Dom

/-! ## Marks -/

namespace Mark

theorem readAllFrom?_cons {fuel : Nat} {t rest : Text} {mark : Mark} (h : read? t = some (mark, rest)) :
    readAllFrom? (fuel + 1) t = (readAllFrom? fuel rest).map (mark :: ·) := by
  cases t with
  | nil => cases h
  | cons c t => simp only [readAllFrom?, h]

/-- More fuel than enough changes nothing. -/
theorem readAllFrom?_mono {fuel more : Nat} {t : Text} {marks : List Mark}
    (h : readAllFrom? fuel t = some marks) (hle : fuel ≤ more) :
    readAllFrom? more t = some marks := by
  induction fuel generalizing more t marks with
  | zero =>
    -- Without fuel only the empty text is read.
    cases t with
    | nil => cases more <;> exact h
    | cons c t => cases h
  | succ fuel ih =>
    -- There is fuel left on both sides, so both read the same mark.
    obtain ⟨more, rfl⟩ := Nat.exists_eq_succ_of_ne_zero (n := more) (by omega)
    cases t with
    | nil => exact h
    | cons c t =>
      cases hread : read? (c :: t) with
      | none => simp [readAllFrom?, hread] at h
      | some found =>
        obtain ⟨mark, rest⟩ := found
        rw [readAllFrom?_cons hread] at h ⊢
        obtain ⟨later, hlater, rfl⟩ := Option.map_eq_some_iff.mp h
        rw [ih hlater (by omega)]
        rfl

/-- One mark, and then the marks of the text behind it. -/
theorem readAll?_cons {t rest : Text} {mark : Mark} {marks : List Mark}
    (h : read? t = some (mark, rest)) (hlt : rest.length < t.length)
    (hrest : readAll? rest = some marks) : readAll? t = some (mark :: marks) := by
  -- Each mark takes a character at least, so the text has fuel for the rest.
  obtain ⟨fuel, hfuel⟩ := Nat.exists_eq_succ_of_ne_zero (n := t.length) (by omega)
  unfold readAll?
  rw [hfuel, readAllFrom?_cons h, readAllFrom?_mono hrest (by omega)]
  rfl

/-- The marks behind the first one are read from the text behind it. -/
theorem exists_of_readAll? {t rest : Text} {mark : Mark} {marks : List Mark}
    (h : read? t = some (mark, rest)) (hall : readAll? t = some marks) :
    ∃ later, marks = mark :: later ∧ readAllFrom? t.length rest = some later := by
  unfold readAll? at hall
  cases t with
  | nil => cases h
  | cons c t =>
    rw [List.length_cons, readAllFrom?_cons h] at hall
    obtain ⟨later, hlater, rfl⟩ := Option.map_eq_some_iff.mp hall
    exact ⟨later, rfl, readAllFrom?_mono hlater (Nat.le_succ _)⟩

end Mark

/-- Reading the part of `t` in front of `t'` takes the builder from `b` to `b'`. -/
def Reads (b : Builder) (t : Text) (b' : Builder) (t' : Text) : Prop :=
  ∀ marks last, Mark.readAll? t' = some marks → marks.foldlM Builder.step? b' = some last →
    ∃ all, Mark.readAll? t = some all ∧ all.foldlM Builder.step? b = some last

namespace Reads

variable {b b' b'' : Builder} {t t' t'' : Text}

theorem refl (b : Builder) (t : Text) : Reads b t b t :=
  fun marks _ hmarks hlast => ⟨marks, hmarks, hlast⟩

theorem trans (h : Reads b t b' t') (h' : Reads b' t' b'' t'') : Reads b t b'' t'' := by
  intro marks last hmarks hlast
  obtain ⟨later, hlater, hbuilt⟩ := h' marks last hmarks hlast
  exact h later last hlater hbuilt

theorem mark {mark : Mark} (h : Mark.read? t = some (mark, t')) (hlt : t'.length < t.length)
    (hstep : b.step? mark = some b') : Reads b t b' t' := by
  -- The rest is read as it would be by itself, with one mark in front.
  intro marks last hmarks hlast
  refine ⟨mark :: marks, Mark.readAll?_cons h hlt hmarks, ?_⟩
  rw [List.foldlM_cons, hstep]
  exact hlast

end Reads

/-! ## Texts -/

/-- Whether a character belongs to a text, where neither a tag nor a reference starts. -/
def isTextChar (c : Char) : Bool := c != '<' && c != '&'

/-- A text is read up to where no character of a text follows. -/
theorem read?_text {c : Char} {run rest : Text} (hc : isTextChar c = true)
    (hrun : ∀ d ∈ run, isTextChar d = true) (hrest : ∀ d ∈ rest.head?, isTextChar d = false) :
    Mark.read? (c :: (run ++ rest)) = some (.text (c :: run), rest) := by
  have htake : (c :: (run ++ rest)).takeWhile isTextChar = c :: run :=
    Text.takeWhile_append_of_boundary (List.forall_mem_cons.mpr ⟨hc, hrun⟩) hrest
  have hdrop : (c :: (run ++ rest)).drop (c :: run).length = rest := List.drop_left
  have hne : c ≠ '<' ∧ c ≠ '&' := by simpa [isTextChar] using hc
  rw [Mark.read?.eq_def]
  split
  case h_1 hnil => cases hnil
  case h_9 hread =>
    cases hread
    show some (Mark.text ((c :: (run ++ rest)).takeWhile isTextChar),
      (c :: (run ++ rest)).drop ((c :: (run ++ rest)).takeWhile isTextChar).length) = _
    rw [htake, hdrop]
  case h_8 hread => exact absurd (List.cons.inj hread).1 hne.2
  -- In all other cases a tag starts.
  all_goals
    next hread => exact absurd (List.cons.inj hread).1 hne.1

theorem addNode_text_append (a b : Text) (nodes : List Node) :
    addNode (.text (a ++ b)) nodes = addNode (.text b) (addNode (.text a) nodes) := by
  -- The newest node comes first; only a text can be joined with what is added.
  cases nodes with
  | nil => rfl
  | cons node nodes =>
    cases node with
    | text raw => simp [addNode]
    | element => rfl

theorem add_text_append (b : Builder) (a t : Text) :
    b.add (.text (a ++ t)) = (b.add (.text a)).add (.text t) := by
  obtain ⟨openElements, nodes⟩ := b
  cases openElements with
  | nil => simp [Builder.add, addNode_text_append a t]
  | cons e es => simp [Builder.add, addNode_text_append a t]

theorem exists_run (p : Char → Bool) (t : Text) :
    ∃ run rest, t = run ++ rest ∧ (∀ c ∈ run, p c = true) ∧ ∀ c ∈ rest.head?, p c = false := by
  -- The longest run ends where a character of another kind comes.
  refine ⟨t.takeWhile p, t.dropWhile p, List.takeWhile_append_dropWhile.symm,
    fun c hc => List.mem_takeWhile_imp hc, fun c hc => ?_⟩
  have hhead := List.head?_dropWhile_not p t
  rw [Option.mem_def.mp hc] at hhead
  exact hhead

/-- A text may be taken character by character, because neighbouring texts are joined. -/
theorem reads_char {c : Char} (hc : isTextChar c = true) (b : Builder) (t : Text) :
    Reads b (c :: t) (b.add (.text [c])) t := by
  obtain ⟨run, rest, rfl, hrun, hrest⟩ := exists_run isTextChar t
  cases run with
  | nil => exact Reads.mark (read?_text hc hrun hrest) (Nat.lt_succ_self _) rfl
  | cons d run =>
    -- The mark at `d` grows by `c`, and joining gives the same text from both.
    intro marks last hmarks hlast
    obtain ⟨hd, hrun'⟩ := List.forall_mem_cons.mp hrun
    obtain ⟨later, rfl, hlater⟩ := Mark.exists_of_readAll? (read?_text hd hrun' hrest) hmarks
    refine ⟨.text (c :: d :: run) :: later, ?_, ?_⟩
    · unfold Mark.readAll?
      rw [List.length_cons, Mark.readAllFrom?_cons (read?_text hc hrun hrest)]
      show (Mark.readAllFrom? (d :: (run ++ rest)).length rest).map _ = _
      rw [hlater]
      rfl
    · rw [List.foldlM_cons] at hlast ⊢
      show later.foldlM Builder.step? (b.add (.text ([c] ++ d :: run))) = some last
      rw [add_text_append]
      exact hlast

theorem htmlOf_append (a b : List Node) : Node.htmlOf (a ++ b) = Node.htmlOf a ++ Node.htmlOf b := by
  induction a with
  | nil => rfl
  | cons node a ih => simp [Node.htmlOf, ih]

/-- Joining a text with its neighbour does not change the markup. -/
theorem htmlOf_reverse_addNode (node : Node) (nodes : List Node) :
    Node.htmlOf (addNode node nodes).reverse = Node.htmlOf nodes.reverse ++ node.html := by
  unfold addNode
  split
  · simp [htmlOf_append, Node.htmlOf, Node.html]
  · simp [htmlOf_append, Node.htmlOf]

/-! ## References -/

theorem reads_reference {body : Text} (h : ∀ c ∈ body, isInsideTag c = true ∧ c ≠ '&' ∧ c ≠ ';')
    (b : Builder) (t : Text) :
    Reads b ('&' :: body ++ ';' :: t) (b.add (.text ('&' :: body ++ [';']))) t := by
  have hread : Mark.read? ('&' :: (body ++ ';' :: t)) =
      some (.text ('&' :: body ++ [';']), t) := by
    -- The body is what stands in front of the semicolon, since it holds none itself.
    have htake : (body ++ ';' :: t).takeWhile (fun c => c != ';' && c != '&' && c != '<') = body := by
      refine Text.takeWhile_append_of_boundary (fun c hc => ?_) fun c hc => ?_
      · obtain ⟨hinside, hamp, hsemicolon⟩ := h c hc
        simp [hamp, hsemicolon, ((isInsideTag_iff).mp hinside).1]
      · cases hc
        decide
    show Mark.reference? (body ++ ';' :: t) = _
    unfold Mark.reference?
    rw [htake]
    dsimp only
    rw [List.drop_left]
    rfl
  refine Reads.mark hread ?_ rfl
  simp only [List.cons_append, List.length_cons, List.length_append]
  omega

/-! ## Tags -/

theorem tagContent?_append {quote : Option Char} {inside : Text}
    (hinside : ∀ c ∈ inside, isInsideTag c = true) (hclosed : inside.foldl nextQuote quote = none)
    (t : Text) : Mark.tagContent? quote (inside ++ '>' :: t) = some (inside, t) := by
  -- Along the inside of the tag, with the quote that is open at the time.
  induction inside generalizing quote with
  | nil =>
    obtain rfl : quote = none := hclosed
    rfl
  | cons c inside ih =>
    obtain ⟨hc, hrest⟩ := List.forall_mem_cons.mp hinside
    have hangle : c ≠ '>' := ((isInsideTag_iff).mp hc).2
    have htail := ih hrest hclosed
    rw [List.cons_append]
    cases quote with
    | none =>
      rw [Mark.tagContent?, if_neg hangle]
      show (Mark.tagContent? (nextQuote none c) (inside ++ '>' :: t)).map _ = _
      rw [htail]
      rfl
    -- Inside quotes a bracket would be read as a character, but there is none here.
    | some q =>
      rw [Mark.tagContent?]
      show (Mark.tagContent? (nextQuote (some q) c) (inside ++ '>' :: t)).map _ = _
      rw [htail]
      rfl

/-- What stands between the brackets of an opening tag: a name of letters, and attributes. -/
structure IsTag (name content : Text) : Prop where
  exists_cons : ∃ c rest, content = c :: rest ∧ c.isAlpha = true
  last : ∀ c ∈ content.getLast?, c ≠ '/' ∧ Unicode.isBlank c = false
  isInside : ∀ c ∈ content, isInsideTag c = true
  closed : content.foldl nextQuote none = none
  tagName_append : ∀ t : Text, (∀ c ∈ t.head?, c = ' ') → tagName (content ++ t) = name

theorem isTag_append {name attributes : Text} (hne : name ≠ [])
    (halpha : ∀ c ∈ name, c.isAlpha = true) (h : IsAttributes attributes) :
    IsTag name (name ++ attributes) := by
  have hletter : ∀ c ∈ name, ∀ d : Char, d.isAlpha = false → c ≠ d :=
    fun c hc d hd => Text.ne_of_isAlpha (halpha c hc) hd
  refine ⟨?_, ?_, ?_, ?_, ?_⟩
  · cases name with
    | nil => exact absurd rfl hne
    | cons c name => exact ⟨c, name ++ attributes, rfl, halpha c List.mem_cons_self⟩
  -- The end of the content is that of the attributes, or that of the name without them.
  · cases attributes with
    | nil =>
      rw [List.append_nil]
      intro c hc
      have hmem := List.mem_of_getLast? hc
      exact ⟨hletter c hmem '/' (by decide), Text.isBlank_of_isAlpha (halpha c hmem)⟩
    | cons d attributes =>
      rw [List.getLast?_append_of_ne_nil _ (List.cons_ne_nil d attributes)]
      exact h.last
  · intro c hc
    rcases List.mem_append.mp hc with hc | hc
    · exact isInsideTag_of_isAlpha (halpha c hc)
    · exact h.isInside c hc
  · -- No quote is opened in the name, so the quotes of the attributes count alone.
    have hquotes : ∀ c ∈ name, c ≠ '"' ∧ c ≠ '\'' := fun c hc =>
      ⟨hletter c hc '"' (by decide), hletter c hc '\'' (by decide)⟩
    rw [List.foldl_append, foldl_nextQuote_none hquotes]
    exact h.closed
  · intro t ht
    unfold tagName
    rw [List.append_assoc]
    have hblank : ∀ c ∈ name, (!isMarkupBlank c) = true := by
      intro c hc
      have hne := hletter c hc
      simp [isMarkupBlank, hne ' ' (by decide), hne '\t' (by decide), hne '\n' (by decide),
        hne '\r' (by decide)]
    refine Text.takeWhile_append_of_boundary hblank ?_
    -- The name ends at the first blank, of the attributes or behind them.
    cases attributes with
    | nil =>
      intro c hc
      obtain rfl := ht c hc
      decide
    | cons d attributes =>
      intro c hc
      obtain rfl := h.head c hc
      decide

namespace IsTag

variable {name content : Text}

theorem tagName_eq (h : IsTag name content) : tagName content = name := by
  -- The name ends at the end of the tag as well, where no character follows it.
  have htag := h.tagName_append [] (fun _ hc => nomatch hc)
  rwa [List.append_nil] at htag

theorem trimEnd_eq (h : IsTag name content) : Text.trimEnd content = content :=
  Text.trimEnd_eq_self fun c hc => (h.last c hc).2

theorem read?_eq (h : IsTag name content) (t : Text) :
    Mark.read? ('<' :: (content ++ t)) = Mark.opening? (content ++ t) := by
  obtain ⟨c, rest, rfl, hc⟩ := h.exists_cons
  rw [List.cons_append, Mark.read?.eq_def]
  split
  case h_1 hnil => cases hnil
  case h_7 hread =>
    cases hread
    rfl
  case h_8 hread => exact absurd (List.cons.inj hread).1 (by decide)
  case h_9 hangle _ hread =>
    obtain ⟨rfl, -⟩ := List.cons.inj hread
    exact absurd rfl hangle
  -- The other marks go on with a character that is no letter.
  all_goals
    next hread =>
      exact absurd (List.cons.inj (List.cons.inj hread).2).1 (Text.ne_of_isAlpha hc (by decide))

theorem opening?_start (h : IsTag name content) (t : Text) :
    Mark.opening? (content ++ '>' :: t) = some (.start content, t) := by
  -- Without a slash at its end the tag does not close itself.
  have hslash : Text.dropSuffix? ['/'] content = none := by
    cases hdrop : Text.dropSuffix? ['/'] content with
    | none => rfl
    | some front =>
      have hcontent := (Text.dropSuffix?_eq_some_iff).mp hdrop
      exact absurd rfl (h.last '/' (by simp [hcontent])).1
  unfold Mark.opening?
  rw [tagContent?_append h.isInside h.closed]
  simp [hslash]

theorem opening?_whole (h : IsTag name content) (t : Text) :
    Mark.opening? (content ++ " />".toList ++ t) = some (.whole (content ++ [' ']), t) := by
  -- The slash and the blank in front of it are inside of the tag.
  have hinside : ∀ c ∈ content ++ [' ', '/'], isInsideTag c = true := by
    have hend : ∀ c ∈ [' ', '/'], isInsideTag c = true := by decide
    exact fun c hc => (List.mem_append.mp hc).elim (h.isInside c) (hend c)
  have hclosed : (content ++ [' ', '/']).foldl nextQuote none = none := by
    rw [List.foldl_append, h.closed]
    rfl
  have hslash : Text.dropSuffix? ['/'] (content ++ [' ', '/']) = some (content ++ [' ']) :=
    (Text.dropSuffix?_eq_some_iff).mpr (by simp)
  have hspelled : content ++ " />".toList ++ t = (content ++ [' ', '/']) ++ '>' :: t := by simp
  unfold Mark.opening?
  rw [hspelled, tagContent?_append hinside hclosed]
  simp [hslash]

theorem wholeTag_eq (h : IsTag name content) : wholeTag (content ++ [' ']) = content := by
  have hblank : Text.Blank [' '] := by
    unfold Text.Blank
    decide
  have hslash : Text.dropRightWhile (· == '/') content = content :=
    Text.dropRightWhile_eq_self fun c hc => by simp [(h.last c hc).1]
  unfold wholeTag
  rw [Text.trimEnd_append_of_blank _ hblank, h.trimEnd_eq, hslash, h.trimEnd_eq]

theorem reads_start (h : IsTag name content) (b : Builder) (t : Text) :
    Reads b ('<' :: (content ++ '>' :: t))
      { b with openElements := ⟨name, content, []⟩ :: b.openElements } t := by
  have hread : Mark.read? ('<' :: (content ++ '>' :: t)) = some (.start content, t) :=
    (h.read?_eq _).trans (h.opening?_start t)
  -- The tag goes on top of the stack, with no children yet.
  refine Reads.mark hread ?_ ?_
  · simp only [List.length_cons, List.length_append]
    omega
  · simp only [Builder.step?, h.tagName_eq, h.trimEnd_eq]

/-- A tag that closes itself is kept as it stands. -/
theorem reads_whole (h : IsTag name content) (b : Builder) (t : Text) :
    Reads b ('<' :: (content ++ " />".toList ++ t)) (b.add (.element name content true [])) t := by
  have hread : Mark.read? ('<' :: (content ++ " />".toList ++ t)) =
      some (.whole (content ++ [' ']), t) := by
    have hopening := h.opening?_whole t
    rw [List.append_assoc] at hopening ⊢
    exact (h.read?_eq _).trans hopening
  have hname : tagName (content ++ [' ']) = name := by
    refine h.tagName_append [' '] fun c hc => ?_
    cases hc
    rfl
  refine Reads.mark hread ?_ ?_
  · simp only [List.length_cons, List.length_append]
    omega
  · simp only [Builder.step?, hname, h.wholeTag_eq]

end IsTag

/-- A closing tag closes the innermost open element. -/
theorem reads_stop {name : Text} (h : ∀ c ∈ name, c.isAlpha = true) {b b' : Builder}
    (hclose : b.close? = some b') (t : Text) : Reads b ('<' :: '/' :: (name ++ '>' :: t)) b' t := by
  have hquotes : ∀ c ∈ name, c ≠ '"' ∧ c ≠ '\'' := fun c hc =>
    ⟨Text.ne_of_isAlpha (h c hc) (by decide), Text.ne_of_isAlpha (h c hc) (by decide)⟩
  have hread : Mark.read? ('<' :: '/' :: (name ++ '>' :: t)) = some (.stop, t) := by
    -- Behind the slash the tag is read as any other one, and its name is not looked at.
    show (Mark.tagContent? none (name ++ '>' :: t)).map _ = _
    rw [tagContent?_append (fun c hc => isInsideTag_of_isAlpha (h c hc))
      (foldl_nextQuote_none hquotes)]
    rfl
  refine Reads.mark hread ?_ hclose
  simp only [List.length_cons, List.length_append]
  omega

/-! ## Fragments -/

/-- Reading the text brings nodes with just this markup to the innermost open element. -/
def ReadsInside (closed : Text) : Prop :=
  ∀ (e : OpenElement) (es : List OpenElement) (nodes : List Node) (after : Text), ∃ children,
    Node.htmlOf children.reverse = Node.htmlOf e.children.reverse ++ closed ∧
      Reads ⟨e :: es, nodes⟩ (closed ++ after) ⟨{ e with children } :: es, nodes⟩ after

namespace ReadsInside

theorem nil : ReadsInside [] :=
  fun e _ _ _ => ⟨e.children, (List.append_nil _).symm, .refl _ _⟩

/-- The general step: a piece that adds one node, and what is read behind it. -/
theorem of_add {piece u : Text} (node : Node) (hu : ReadsInside u) (hhtml : node.html = piece)
    (hpiece : ∀ b t, Reads b (piece ++ t) (b.add node) t) : ReadsInside (piece ++ u) := by
  intro e es nodes after
  obtain ⟨children, hchildren, hreads⟩ :=
    hu { e with children := addNode node e.children } es nodes after
  refine ⟨children, ?_, ?_⟩
  · rw [hchildren, htmlOf_reverse_addNode, hhtml, List.append_assoc]
  · rw [List.append_assoc]
    exact (hpiece _ _).trans hreads

theorem char {c : Char} {u : Text} (hinside : isInsideTag c = true) (hamp : c ≠ '&')
    (hu : ReadsInside u) : ReadsInside (c :: u) := by
  -- A character that is inside a tag and no ampersand is text.
  have hc : isTextChar c = true := by
    simp [isTextChar, ((isInsideTag_iff).mp hinside).1, hamp]
  exact of_add (.text [c]) hu rfl (reads_char hc)

theorem reference {body u : Text} (hbody : ∀ c ∈ body, isInsideTag c = true ∧ c ≠ '&' ∧ c ≠ ';')
    (hu : ReadsInside u) : ReadsInside ('&' :: body ++ ';' :: u) := by
  have h : ReadsInside (('&' :: body ++ [';']) ++ u) := by
    -- A reference is kept as it is written, so it is one piece of text.
    refine of_add (.text ('&' :: body ++ [';'])) hu rfl fun b t => ?_
    simpa using reads_reference hbody b t
  simpa using h

theorem whole {name content u : Text} (htag : IsTag name content) (hu : ReadsInside u) :
    ReadsInside ('<' :: content ++ " />".toList ++ u) :=
  of_add (.element name content true []) hu rfl fun b t => htag.reads_whole b t

theorem element {name content inner u : Text} (htag : IsTag name content)
    (hname : ∀ c ∈ name, c.isAlpha = true) (hinner : ReadsInside inner) (hu : ReadsInside u) :
    ReadsInside ('<' :: content ++ '>' :: inner ++ '<' :: '/' :: name ++ '>' :: u) := by
  intro e es nodes after
  -- The content is read inside a new element, on top of the stack.
  obtain ⟨inside, hinside, hreadsInside⟩ :=
    hinner ⟨name, content, []⟩ (e :: es) nodes ('<' :: '/' :: (name ++ '>' :: (u ++ after)))
  have hinsideHtml : Node.htmlOf inside.reverse = inner := hinside
  -- Its closing tag makes it a child of `e`, and what follows is read inside `e` again.
  obtain ⟨children, hchildren, hreads⟩ :=
    hu ⟨e.name, e.start, addNode (.element name content false inside.reverse) e.children⟩
      es nodes after
  refine ⟨children, ?_, ?_⟩
  · rw [hchildren, htmlOf_reverse_addNode]
    simp [Node.html, hinsideHtml]
  · have hstart := htag.reads_start ⟨e :: es, nodes⟩
      (inner ++ '<' :: '/' :: (name ++ '>' :: (u ++ after)))
    have hstop : Reads ⟨⟨name, content, inside⟩ :: e :: es, nodes⟩ _ _ _ :=
      reads_stop hname rfl (u ++ after)
    have hall := ((hstart.trans hreadsInside).trans hstop).trans hreads
    simpa using hall

end ReadsInside

theorem isTag_of_mem_pageVoidNames {name attributes : Text} (hname : name ∈ pageVoidNames)
    (h : IsAttributes attributes) : IsTag name (name ++ attributes) := by
  refine isTag_append ?_ ?_ h
  · rintro rfl
    revert hname
    decide
  · exact isAlpha_of_mem_voidNames name (mem_voidNames_of_mem_pageVoidNames hname)

/-- The closed form of balanced markup is read as nodes that spell it. -/
theorem readsInside_of_balanced {markup closed : Text} (h : Balanced markup closed) :
    ReadsInside closed := by
  -- Each rule of balanced markup has its reading; the void tags are closed by now.
  induction h with
  | nil => exact .nil
  | char hinside hamp _ ih => exact .char hinside hamp ih
  | reference hbody _ ih => exact .reference hbody ih
  | void hname hattributes _ ih => exact .whole (isTag_of_mem_pageVoidNames hname hattributes) ih
  | component hname hattributes _ ih =>
    exact .whole (isTag_append hname.ne_nil hname.isAlpha hattributes) ih
  | element hname hattributes _ _ ihInner ih =>
    exact .element (isTag_append hname.ne_nil hname.isAlpha hattributes) hname.isAlpha ihInner ih

/-- Balanced markup is a fragment, and the markup of its nodes is the closed form. -/
theorem fragment?_of_balanced {markup closed : Text} (h : Balanced markup closed) :
    ∃ nodes, fragment? markup = some nodes ∧ Node.htmlOf nodes = closed := by
  -- The fragment is read inside a root element, which holds its nodes at the end.
  obtain ⟨children, hhtml, hreads⟩ :=
    readsInside_of_balanced h ⟨"root".toList, "root".toList, []⟩ [] [] "</root>".toList
  have hroot : IsTag "root".toList "root".toList :=
    isTag_append (by decide) (by decide) IsAttributes.nil
  -- The root is opened, filled and closed, and nothing is left behind it.
  have hstart := hroot.reads_start {} (closed ++ "</root>".toList)
  have hstop : Reads ⟨[⟨"root".toList, "root".toList, children⟩], []⟩ "</root>".toList
      ⟨[], [.element "root".toList "root".toList false children.reverse]⟩ [] :=
    reads_stop (by decide : ∀ c ∈ "root".toList, c.isAlpha = true) rfl []
  obtain ⟨marks, hmarks, hbuilt⟩ := ((hstart.trans hreads).trans hstop) [] _ rfl rfl
  have hnodes : nodesOf? marks =
      some [.element "root".toList "root".toList false children.reverse] := by
    unfold nodesOf?
    rw [hbuilt]
    rfl
  -- The fragment is read with its void tags closed, which is what balanced markup becomes.
  have hwrapped : Mark.readAll? ("<root>".toList ++ closeVoidTags markup ++ "</root>".toList) =
      some marks := by
    rw [closeVoidTags_of_balanced h]
    exact hmarks
  refine ⟨children.reverse, ?_, hhtml⟩
  unfold fragment?
  dsimp only
  rw [hwrapped, Option.bind_eq_bind, Option.bind_some, hnodes]
  rfl

end DocPage.Dom
