import DocPage.Proofs.Dom.Reading
import DocPage.Proofs.Json.Attribute
import DocPage.Proofs.Markdown.Nesting
import DocPage.Proofs.Render.Headings

/-!
# Well-nested events give balanced markup

Every element that an event opens on the page is closed by the event that ends it, and what is
copied from the document is escaped. So well-nested events without raw HTML give balanced markup,
which is read back as nodes that spell the page, with the void tags closed.

## Architecture

- **Markup**: texts, attributes and components as balanced markup, and how such markup can end
- **Runs**: `Writes`, what events do to the page from every state, with one lemma for each way in
  which events are nested
- **Pages**: `page_reads_back`
-/

namespace DocPage.Render

open Markdown (Event WellNested Site enclose)
open Dom (Balanced IsAttributes IsElementName)

/-! ## Markup -/

def IsBalanced (t : Text) : Prop := ∃ closed, Balanced t closed

namespace IsBalanced

theorem nil : IsBalanced [] := ⟨[], .nil⟩

theorem append {a b : Text} (ha : IsBalanced a) (hb : IsBalanced b) : IsBalanced (a ++ b) := by
  obtain ⟨ac, ha⟩ := ha
  obtain ⟨bc, hb⟩ := hb
  exact ⟨ac ++ bc, ha.append hb⟩

theorem char {c : Char} (hinside : Dom.isInsideTag c = true) (hamp : c ≠ '&') :
    IsBalanced [c] :=
  ⟨[c], .char hinside hamp .nil⟩

theorem reference (body : Text) (h : ∀ c ∈ body, Dom.isInsideTag c = true ∧ c ≠ '&' ∧ c ≠ ';') :
    IsBalanced ('&' :: body ++ [';']) :=
  ⟨_, .reference h .nil⟩

/-- An element around balanced markup. -/
theorem element {name attributes inner : Text} (hname : IsElementName name)
    (hattributes : IsAttributes attributes) (hinner : IsBalanced inner) :
    IsBalanced ('<' :: name ++ attributes ++ '>' :: inner ++ '<' :: '/' :: name ++ ['>']) := by
  obtain ⟨closed, hinner⟩ := hinner
  exact ⟨_, .element hname hattributes hinner .nil⟩

theorem void {name attributes : Text} (hname : name ∈ Dom.pageVoidNames)
    (hattributes : IsAttributes attributes) : IsBalanced ('<' :: name ++ attributes ++ ['>']) :=
  ⟨_, .void hname hattributes .nil⟩

/-! ### Escaped texts -/

theorem escapeChar (c : Char) : IsBalanced (Html.escapeChar c) := by
  unfold Html.escapeChar
  -- Five characters are written as references; every other one is no bracket and no ampersand.
  split
  · exact reference "amp".toList (by decide)
  · exact reference "lt".toList (by decide)
  · exact reference "gt".toList (by decide)
  · exact reference "quot".toList (by decide)
  · exact reference "#x27".toList (by decide)
  · next hamp hopen hclose _ _ =>
    exact char ((Dom.isInsideTag_iff).mpr ⟨hopen, hclose⟩) hamp

theorem escapeBracedChar (c : Char) : IsBalanced (Html.escapeBracedChar c) := by
  unfold Html.escapeBracedChar
  split
  · exact reference "lcub".toList (by decide)
  · exact escapeChar c

theorem flatMap {f : Char → Text} (hf : ∀ c, IsBalanced (f c)) (t : Text) :
    IsBalanced (t.flatMap f) := by
  induction t with
  | nil => exact nil
  | cons c t ih => exact (hf c).append ih

/-- Escaped text is balanced, inside the body and outside of it. -/
theorem escapeIn (region : Body.Region) (t : Text) : IsBalanced (escapeIn region t) := by
  unfold Render.escapeIn
  split
  · exact flatMap escapeBracedChar t
  · exact flatMap escapeChar t

end IsBalanced

/-! ### Attributes -/

/-- What may stand between the quotes of an attribute. -/
def IsValue (t : Text) : Prop := ∀ c ∈ t, Dom.isInsideTag c = true ∧ c ≠ '"'

instance (t : Text) : Decidable (IsValue t) :=
  inferInstanceAs (Decidable (∀ c ∈ t, _))

theorem IsValue.append {t u : Text} (ht : IsValue t) (hu : IsValue u) : IsValue (t ++ u) :=
  fun c hc => (List.mem_append.mp hc).elim (ht c) (hu c)

theorem IsValue.notMem_lt {t : Text} (h : IsValue t) : '<' ∉ t :=
  fun hmem => ((Dom.isInsideTag_iff).mp (h _ hmem).1).1 rfl

theorem isValue_escapeChar (c : Char) : IsValue (Html.escapeChar c) := by
  unfold Html.escapeChar IsValue
  split
  -- A character that is written as it is is neither a quote nor a bracket.
  case h_6 hopen hclose hquote _ =>
    intro d hd
    rw [List.mem_singleton.mp hd]
    exact ⟨(Dom.isInsideTag_iff).mpr ⟨hopen, hclose⟩, hquote⟩
  all_goals decide

theorem isValue_flatMap {f : Char → Text} (hf : ∀ c, IsValue (f c)) (t : Text) :
    IsValue (t.flatMap f) := by
  intro d hd
  obtain ⟨c, -, hd⟩ := List.mem_flatMap.mp hd
  exact hf c d hd

theorem isValue_escape (t : Text) : IsValue (Html.escape t) :=
  isValue_flatMap isValue_escapeChar t

theorem isValue_escapeIn (region : Body.Region) (t : Text) : IsValue (escapeIn region t) := by
  unfold Render.escapeIn
  split
  · refine isValue_flatMap (fun c => ?_) t
    unfold Html.escapeBracedChar
    split
    · decide
    · exact isValue_escapeChar c
  · exact isValue_escape t

/-- An attribute in front of which a blank stands. -/
theorem isAttributes_quoted (front : Text) {value : Text} (hvalue : IsValue value)
    (hhead : front.head? = some ' ')
    (hfront : ∀ c ∈ front, Dom.isInsideTag c = true ∧ c ≠ '"' ∧ c ≠ '\'') :
    IsAttributes (front ++ '"' :: value ++ ['"']) :=
  Dom.isAttributes_of_value hhead hfront hvalue (.inl rfl)

/-- A prop with a string is one more attribute of a component. -/
theorem isAttributes_prop {c : Component} (hc : IsAttributes c.props) {key : Text}
    (hkey : ∀ d ∈ ' ' :: key ++ "=\x7b".toList, Dom.isInsideTag d = true ∧ d ≠ '"' ∧ d ≠ '\'')
    (t : Text) : IsAttributes (c.prop key (.string t)).props := by
  have hvalue : IsValue (t.flatMap Json.escapeAttrChar) := by
    intro d hd
    -- The string of an attribute is escaped so that it has neither quotes nor angle brackets.
    obtain ⟨hquote, hangles⟩ := Json.isHarmless_flatMap t d hd
    exact ⟨(Dom.isInsideTag_iff).mpr hangles, hquote⟩
  -- The quotes of the literal are the quotes of the attribute, between its two braces.
  have hprop := Dom.isAttributes_of_value rfl hkey hvalue (.inr rfl)
  have h := hc.append hprop
  have hjson : (Json.string t).toAttr = '"' :: t.flatMap Json.escapeAttrChar ++ ['"'] := rfl
  have hprops : (c.prop key (.string t)).props = c.props ++ (' ' :: key ++ "=\x7b".toList ++
      '"' :: t.flatMap Json.escapeAttrChar ++ ['"', '\x7d']) := by
    simp [Component.prop, Component.expr, hjson]
  rwa [hprops]

theorem isBalanced_headingComponent (h : Outline.Heading) :
    IsBalanced (State.headingComponent h) := by
  have hattributes : IsAttributes (((Component.mk "Heading" []).prop "title" (.string h.title)
      |>.prop "local" (.string h.anchor)
      |>.prop "headingTag" (.string ('h' :: Text.ofNat h.depth))).props) := by
    -- Each prop is an attribute behind those in front of it, and the name starts with a capital.
    refine isAttributes_prop (isAttributes_prop (isAttributes_prop IsAttributes.nil ?_ _) ?_ _) ?_ _
    all_goals decide
  have hcomponent := Balanced.component (by decide : IsElementName "Heading".toList) hattributes .nil
  rw [List.append_nil] at hcomponent
  exact ⟨_, hcomponent⟩

theorem isBalanced_plainCodeBlock (region : Body.Region) (language : Option Text) (source : Text) :
    IsBalanced (State.plainCodeBlock region language source) := by
  -- Both ways to write the block differ in the attributes of its inner element only.
  have hblock : ∀ attributes : Text, IsAttributes attributes →
      IsBalanced ("<pre><code".toList ++ attributes ++ ">".toList ++ escapeIn region source ++
        "</code></pre>".toList) := by
    intro attributes hattributes
    have hcode := IsBalanced.element (by decide : IsElementName "code".toList) hattributes
      (.escapeIn region source)
    have hpre := IsBalanced.element (by decide : IsElementName "pre".toList) .nil hcode
    simpa using hpre
  unfold State.plainCodeBlock
  cases language with
  | none => exact hblock [] .nil
  | some l =>
    -- The class is the language behind a fixed text, and the language is escaped.
    have hvalue : IsValue ("language-".toList ++ Html.escape l) :=
      IsValue.append (by decide) (isValue_escape l)
    have hclass := isAttributes_quoted " class=" hvalue rfl (by decide)
    refine hblock _ ?_
    simpa using hclass

theorem isBalanced_imageMarkup (region : Body.Region) (image : OpenImage) :
    IsBalanced (State.imageMarkup region image) := by
  have hvalue := isValue_escapeIn region
  have hsource := isAttributes_quoted " src=" (hvalue image.source) rfl (by decide)
  have halt := isAttributes_quoted " alt=" (hvalue image.alt) rfl (by decide)
  have htitle := isAttributes_quoted " title=" (hvalue image.title) rfl (by decide)
  have himg : ∀ attributes : Text, IsAttributes attributes →
      IsBalanced ('<' :: "img".toList ++ attributes ++ ['>']) :=
    fun _ => IsBalanced.void (by decide)
  -- Without a title the tag has two attributes, with one it has three.
  unfold State.imageMarkup
  split
  · simpa using himg _ (hsource.append halt)
  · simpa using himg _ ((hsource.append halt).append htitle)

theorem exists_openTag (look : Admonition) :
    ∃ attributes, IsAttributes attributes ∧
      look.openTag = '<' :: "div".toList ++ attributes ++ ['>'] := by
  have hclass : IsValue ("course-tip".toList ++ look.modifier ++
      " bg-gradient-to-br dark:bg-gradient-to-r before:border-".toList ++ look.color ++
      "-500 dark:before:border-".toList ++ look.color ++ "-800 from-".toList ++ look.color ++
      "-50 dark:from-gray-900 to-white dark:to-gray-950 border border-".toList ++ look.color ++
      "-50 text-".toList ++ look.color ++ "-700 dark:text-gray-400".toList) := by
    cases look
    all_goals decide +kernel
  refine ⟨_, isAttributes_quoted " class=" hclass rfl (by decide), ?_⟩
  -- The literals at both ends are cut where the attribute starts and ends.
  have hopen : "<div class=\"course-tip".toList =
      '<' :: ("div".toList ++ (" class=".toList ++ '"' :: "course-tip".toList)) := rfl
  have hclose : "-700 dark:text-gray-400\">".toList =
      "-700 dark:text-gray-400".toList ++ ['"', '>'] := rfl
  unfold Admonition.openTag
  rw [hopen, hclose]
  simp only [List.append_assoc, List.cons_append, List.nil_append]

/-! ### The ends of balanced markup -/

/-- The text does not end with the start tag of a paragraph, whatever stands in front of it. -/
def EndsOtherwise (t : Text) : Prop := ∀ front output : Text, front ++ t ≠ output ++ "<p>".toList

namespace EndsOtherwise

theorem append {t : Text} (h : EndsOtherwise t) (front : Text) : EndsOtherwise (front ++ t) := by
  intro before output heq
  rw [← List.append_assoc] at heq
  exact h _ _ heq

theorem of_last {c : Char} (hc : c ≠ '>') (front : Text) : EndsOtherwise (front ++ [c]) := by
  intro before output heq
  -- The tag ends with a bracket, so the last character tells the two texts apart.
  have hlast := congrArg List.getLast? heq
  rw [← List.append_assoc, List.getLast?_concat] at hlast
  rw [List.getLast?_append_of_ne_nil _ (by decide)] at hlast
  exact hc (Option.some.inj hlast)

/-- A tag whose inside is not `p` ends with its own bracket. -/
theorem of_tag {inside : Text} (hinside : '<' ∉ inside) (hne : inside ≠ ['p']) (front : Text) :
    EndsOtherwise (front ++ '<' :: inside ++ ['>']) := by
  intro before output heq
  -- Without the last bracket on both sides, the last `<` starts the two insides.
  have hcut : (before ++ front) ++ '<' :: inside = output ++ '<' :: ['p'] := by
    have hspelled : output ++ "<p>".toList = (output ++ '<' :: ['p']) ++ ['>'] := by simp
    rw [hspelled, ← List.append_assoc] at heq
    simpa using List.append_cancel_right heq
  exact hne (Text.eq_of_append_cons_eq hcut hinside (by decide))

/-- A piece in front of balanced markup ends otherwise when it does so alone. -/
theorem append_of_nil {piece t : Text} (hpiece : EndsOtherwise piece)
    (ht : t ≠ [] → EndsOtherwise t) : EndsOtherwise (piece ++ t) := by
  cases t with
  | nil => rwa [List.append_nil]
  | cons c t => exact (ht (List.cons_ne_nil c t)).append piece

end EndsOtherwise

/-- Balanced markup closes a paragraph that it opens. -/
theorem endsOtherwise_of_balanced {t closed : Text} (h : Balanced t closed) :
    t ≠ [] → EndsOtherwise t := by
  -- Each piece is looked at alone; in front of more markup, the end of that markup decides.
  induction h with
  | nil => exact fun h => absurd rfl h
  | @char c t u hinside _ _ ih =>
    -- No bracket ends the piece.
    intro _
    exact (EndsOtherwise.of_last ((Dom.isInsideTag_iff).mp hinside).2 []).append_of_nil ih
  | @reference body t u _ _ ih =>
    -- The semicolon ends the piece.
    intro _
    have hpiece := EndsOtherwise.of_last (c := ';') (by decide) ('&' :: body)
    simpa using hpiece.append_of_nil ih
  | @void name attributes t u hname hattributes _ ih =>
    intro _
    have halpha := Dom.isAlpha_of_mem_voidNames name (Dom.mem_voidNames_of_mem_pageVoidNames hname)
    -- The tag has no bracket inside, and it reads `p` only if the name does.
    have hinside : '<' ∉ name ++ attributes := by
      simp [Dom.notMem_of_isAlpha halpha, hattributes.notMem]
    -- No void element has a name of one letter.
    have hlength : ∀ name ∈ Dom.pageVoidNames, 2 ≤ name.length := by decide
    have hne : name ++ attributes ≠ ['p'] := by
      intro heq
      have hshort := congrArg List.length heq
      rw [List.length_append] at hshort
      have := hlength name hname
      simp only [List.length_singleton] at hshort
      omega
    simpa using (EndsOtherwise.of_tag hinside hne []).append_of_nil ih
  | @component name attributes t u hname hattributes _ ih =>
    intro _
    have hinside : '<' ∉ name ++ attributes ++ [' ', '/'] := by
      simp [Dom.notMem_of_isAlpha hname.isAlpha, hattributes.notMem]
    have hne : name ++ attributes ++ [' ', '/'] ≠ ['p'] := by
      -- The tag closes itself, so a slash stands in front of its last bracket.
      intro heq
      have hlast := congrArg List.getLast? heq
      rw [List.getLast?_append_of_ne_nil _ (by decide)] at hlast
      exact absurd hlast (by decide)
    simpa using (EndsOtherwise.of_tag hinside hne []).append_of_nil ih
  | @element name attributes inner innerClosed t u hname _ _ _ _ ih =>
    intro _
    have hinside : '<' ∉ '/' :: name := by
      simp [Dom.notMem_of_isAlpha hname.isAlpha]
    -- The last tag is the closing one, whatever the content ends with.
    have hne : '/' :: name ≠ ['p'] := fun heq => absurd (List.cons.inj heq).1 (by decide)
    have hpiece := EndsOtherwise.of_tag hinside hne ('<' :: name ++ attributes ++ '>' :: inner)
    simpa using hpiece.append_of_nil ih

/-! ## Runs -/

/-- A renderer without processors that may take events of this site: no code block is open, and a
heading at most in a line. -/
structure Ready (site : Site) (s : State) : Prop where
  code : s.code = none
  desks : s.desks = []
  heading : site ≠ .line → s.heading = none

/-- What events of this site leave as it was. -/
structure Keeps (site : Site) (s next : State) : Prop where
  code : next.code = none
  desks : next.desks = []
  heading : next.heading.isSome = s.heading.isSome
  quotes : next.quotes = s.quotes
  table : site = .line → next.table = s.table

/-- Balanced markup was added to the page, and all else that counts is as it was. -/
structure Wrote (site : Site) (s next : State) : Prop extends Keeps site s next where
  output : ∃ markup, next.output = s.output ++ markup ∧ IsBalanced markup

namespace Keeps

variable {site inner : Site} {s s' s'' : State}

theorem ready (h : Keeps site s s') (hs : Ready site s) : Ready site s' where
  code := h.code
  desks := h.desks
  heading hsite := by
    have hnone := h.heading
    rw [hs.heading hsite] at hnone
    exact Option.isNone_iff_eq_none.mp (Option.isSome_eq_false_iff.mp hnone)

theorem refl (hs : Ready site s) : Keeps site s s :=
  ⟨hs.code, hs.desks, rfl, rfl, fun _ => rfl⟩

theorem trans (h : Keeps site s s') (h' : Keeps site s' s'') : Keeps site s s'' :=
  ⟨h'.code, h'.desks, h'.heading.trans h.heading, h'.quotes.trans h.quotes,
    fun hsite => (h'.table hsite).trans (h.table hsite)⟩

end Keeps

/-- In a block no heading is open, so the renderer is ready for every site there. -/
theorem Ready.of_ne {site inner : Site} {s : State} (hs : Ready site s) (hsite : site ≠ .line) :
    Ready inner s :=
  ⟨hs.code, hs.desks, fun _ => hs.heading hsite⟩

namespace Wrote

variable {site : Site} {s s' s'' : State}

/-- Nothing was added to the page. -/
theorem silent (h : Keeps site s s') (houtput : s'.output = s.output) : Wrote site s s' :=
  ⟨h, [], houtput.trans (List.append_nil _).symm, .nil⟩

theorem refl (hs : Ready site s) : Wrote site s s :=
  silent (.refl hs) rfl

theorem trans (h : Wrote site s s') (h' : Wrote site s' s'') : Wrote site s s'' := by
  -- The two markups follow one another on the page.
  obtain ⟨m, houtput, hm⟩ := h.output
  obtain ⟨m', houtput', hm'⟩ := h'.output
  refine ⟨h.toKeeps.trans h'.toKeeps, m ++ m', ?_, hm.append hm'⟩
  rw [houtput', houtput, List.append_assoc]

theorem write (hs : Ready site s) {t : Text} (ht : IsBalanced t) : Wrote site s (s.write t) :=
  ⟨⟨hs.code, hs.desks, rfl, rfl, fun _ => rfl⟩, t, rfl, ht⟩

theorem writeInline (hs : Ready site s) {t : Text} (ht : IsBalanced t) :
    Wrote site s (s.writeInline t) := by
  unfold State.writeInline
  split
  · exact refl hs
  · exact write hs ht

theorem addToHeading (hs : Ready site s) (t : Text) : Wrote site s (s.addToHeading t) := by
  refine silent ⟨hs.code, hs.desks, ?_, rfl, fun _ => rfl⟩ rfl
  simp [State.addToHeading]

/-! ### Leaves -/

/-- Text is escaped, kept for an image or a heading, or a sentinel that only moves the region. -/
theorem text (hs : Ready site s) (t : Text) : Wrote site s (s.text t) := by
  unfold State.text
  split
  · next hcode =>
    -- No code block is open, for code blocks hold their source and nothing else.
    rw [hs.code] at hcode
    cases hcode
  · split
    · -- The alternative text of the open image grows.
      exact silent ⟨hs.code, hs.desks, rfl, rfl, fun _ => rfl⟩ rfl
    · split
      · exact addToHeading hs t
      · split
        · -- A sentinel changes the region, and with it only how later texts are escaped.
          exact silent ⟨hs.code, hs.desks, rfl, rfl, fun _ => rfl⟩ rfl
        · exact write hs (.escapeIn _ t)

theorem codeSpan (hs : Ready site s) (t : Text) : Wrote site s (s.codeSpan t) := by
  unfold State.codeSpan
  split
  · exact addToHeading hs t
  -- The code is an element around escaped text.
  · have hcode := IsBalanced.element (by decide : IsElementName "code".toList) .nil
      (.escapeIn s.region t)
    refine write hs ?_
    simpa using hcode

theorem math (hs : Ready site s) {settings : Settings} (hmath : settings.math = delimitedMath)
    (tex : Text) (display : Bool) :
    ∃ next, s.math settings tex display = .ok next ∧ Wrote site s next := by
  unfold State.math
  split
  -- A formula in a heading is kept for its title.
  · exact ⟨_, rfl, addToHeading hs tex⟩
  · have hspan : IsElementName "span".toList := by decide
    have htex : IsBalanced (Html.escapeBraced tex) := .flatMap .escapeBracedChar tex
    -- The delimiters are `\[ \]` and `\( \)`; a backslash and a bracket are two loose characters.
    have hdelimiter : ∀ c, Dom.isInsideTag c = true ∧ c ≠ '&' → IsBalanced ['\\', c] :=
      fun c hc => (IsBalanced.char (by decide) (by decide)).append (.char hc.1 hc.2)
    rw [hmath]
    refine ⟨_, rfl, write hs ?_⟩
    cases display with
    | true =>
      have hinner := ((hdelimiter '[' (by decide)).append htex).append (hdelimiter ']' (by decide))
      have h := IsBalanced.element hspan
        (by decide : IsAttributes " class=\"math math-display\"".toList) hinner
      simpa using h
    | false =>
      have hinner := ((hdelimiter '(' (by decide)).append htex).append (hdelimiter ')' (by decide))
      have h := IsBalanced.element hspan
        (by decide : IsAttributes " class=\"math math-inline\"".toList) hinner
      simpa using h

theorem softBreak (hs : Ready site s) : Wrote site s s.softBreak := by
  unfold State.softBreak
  split
  · exact addToHeading hs [' ']
  · exact write hs (.char (by decide) (by decide))

theorem taskMarker (hs : Ready site s) (checked : Bool) : Wrote site s (s.taskMarker checked) := by
  -- Both boxes are void elements with a blank behind them.
  have hinput : ∀ attributes, IsAttributes attributes →
      IsBalanced ('<' :: "input".toList ++ attributes ++ ['>'] ++ [' ']) := fun _ hattributes =>
    (IsBalanced.void (by decide) hattributes).append (.char (by decide) (by decide))
  cases checked with
  | true =>
    have h := hinput " type=\"checkbox\" checked disabled".toList (by decide)
    refine write hs ?_
    simpa using h
  | false =>
    have h := hinput " type=\"checkbox\" disabled".toList (by decide)
    refine write hs ?_
    simpa using h

end Wrote

/-! ### Enclosing elements -/

/-- In this state the element encloses its content between two tags of one name. -/
def Encloses (site inner : Site) (element : Markdown.Start) (s : State) : Prop :=
  ∃ name attributes, IsElementName name ∧ IsAttributes attributes ∧
    (s.start element).output = s.output ++ ('<' :: name ++ attributes ++ ['>']) ∧
    Ready inner (s.start element) ∧
    ∀ next, Keeps inner (s.start element) next →
      (next.stop element.closing).output = next.output ++ ('<' :: '/' :: name ++ ['>']) ∧
        Keeps site s (next.stop element.closing)

/-- Both tags are written and nothing else happens. -/
theorem encloses_written {element : Markdown.Start} {name attributes : Text} {s : State}
    (hname : IsElementName name) (hattributes : IsAttributes attributes)
    (hstart : s.start element = s.write ('<' :: name ++ attributes ++ ['>']))
    (hstop : ∀ next : State,
      next.stop element.closing = next.write ('<' :: '/' :: name ++ ['>']))
    (hs : Ready .blocks s) : Encloses .blocks .blocks element s := by
  -- The tags are the two that are written; what the renderer keeps is not touched in between.
  refine ⟨name, attributes, hname, hattributes, ?_, ?_, fun next hnext => ?_⟩
  · rw [hstart]
    rfl
  · rw [hstart]
    exact ⟨hs.code, hs.desks, hs.heading⟩
  · rw [hstart] at hnext
    rw [hstop]
    exact ⟨rfl, hnext.code, hnext.desks, hnext.heading, hnext.quotes, nofun⟩

theorem encloses_list (first : Option Nat) (s : State) (hs : Ready .blocks s) :
    Encloses .blocks .blocks (.list first) s := by
  have hol : IsElementName "ol".toList := by decide
  have hnumbered : ∀ n : Nat, IsAttributes (" start=".toList ++ '"' :: Text.ofNat n ++ ['"']) := by
    intro n
    refine isAttributes_quoted " start=" (fun c hc => ?_) rfl (by decide)
    obtain ⟨hquote, hangles⟩ := Json.isHarmless_intText (.ofNat n) c hc
    exact ⟨(Dom.isInsideTag_iff).mpr hangles, hquote⟩
  -- The number is shown when it is not one, so four cases for two kinds of tags.
  match first with
  | none => exact encloses_written (by decide : IsElementName "ul".toList) .nil rfl (fun _ => rfl) hs
  | some 1 => exact encloses_written hol .nil rfl (fun _ => rfl) hs
  | some 0 =>
    refine encloses_written hol (hnumbered 0) ?_ (fun _ => rfl) hs
    simp [State.start]
  | some (n + 2) =>
    refine encloses_written hol (hnumbered (n + 2)) ?_ (fun _ => rfl) hs
    simp [State.start]

/-- A quote is noted when it starts, so that its end knows which tag to write. -/
theorem encloses_blockQuote (alert : Option Markdown.AlertKind) (s : State) (hs : Ready .blocks s) :
    Encloses .blocks .blocks (.blockQuote alert) s := by
  cases alert with
  -- A plain quote and an alert differ in the tag, and the end has to know which of them it closes.
  | none =>
    refine ⟨"blockquote".toList, [], by decide, .nil, rfl, ⟨hs.code, hs.desks, hs.heading⟩, ?_⟩
    intro next hnext
    -- The content left the quotes as they were, so this one is the innermost.
    have hquotes : next.quotes = none :: s.quotes := hnext.quotes
    show next.closeQuote.output = _ ∧ Keeps .blocks s next.closeQuote
    unfold State.closeQuote
    rw [hquotes]
    exact ⟨rfl, hnext.code, hnext.desks, hnext.heading, rfl, nofun⟩
  | some alert =>
    obtain ⟨attributes, hattributes, htag⟩ := exists_openTag (State.alertLook alert)
    refine ⟨"div".toList, attributes, by decide, hattributes, ?_,
      ⟨hs.code, hs.desks, hs.heading⟩, ?_⟩
    · rw [← htag]
      rfl
    intro next hnext
    have hquotes : next.quotes = some (State.alertLook alert) :: s.quotes := hnext.quotes
    show next.closeQuote.output = _ ∧ Keeps .blocks s next.closeQuote
    unfold State.closeQuote
    rw [hquotes]
    exact ⟨rfl, hnext.code, hnext.desks, hnext.heading, rfl, nofun⟩

theorem encloses_tableRow (s : State) (hs : Ready .rows s) : Encloses .rows .cells .tableRow s :=
  ⟨"tr".toList, [], by decide, .nil, rfl, ⟨hs.code, hs.desks, fun _ => hs.heading nofun⟩,
    fun _ hnext => ⟨rfl, hnext.code, hnext.desks, hnext.heading, hnext.quotes, nofun⟩⟩

/-- Nothing in a line changes the table, so a cell ends with the tag with which it starts. -/
theorem encloses_tableCell (s : State) (hs : Ready .cells s) :
    Encloses .cells .line .tableCell s := by
  have hname : IsElementName s.table.cellTag := by
    unfold Table.cellTag
    split
    all_goals decide
  have hattributes : IsAttributes s.table.cellAttribute := by
    unfold Table.cellAttribute alignAttribute
    split
    all_goals decide
  -- The tags of a cell depend on the table, which the content of the cell leaves alone.
  refine ⟨_, _, hname, hattributes, rfl, ⟨hs.code, hs.desks, nofun⟩, fun next hnext => ?_⟩
  have htable : next.table = s.table := hnext.table rfl
  refine ⟨?_, hnext.code, hnext.desks, hnext.heading, hnext.quotes, nofun⟩
  rw [← htable]
  rfl

section Runs

variable {settings : Settings} {site : Site}

theorem run_enclose {element : Markdown.Start} {content : List Event} {s next : State}
    (h : run settings (s.start element) content = (none, next)) :
    run settings s (enclose element content) = (none, next.stop element.closing) := by
  have hstop : run settings next [.stop element.closing] = (none, next.stop element.closing) :=
    run_singleton rfl
  show run settings (s.start element) (content ++ [Event.stop element.closing]) = _
  rw [run_append h, hstop]

/-- From every state that is ready, the events add balanced markup to the page. -/
def Writes (settings : Settings) (site : Site) (events : List Event) : Prop :=
  ∀ s, Ready site s → ∃ next, run settings s events = (none, next) ∧ Wrote site s next

namespace Writes

theorem nil : Writes settings site [] :=
  fun s hs => ⟨s, rfl, .refl hs⟩

theorem append {a b : List Event} (ha : Writes settings site a) (hb : Writes settings site b) :
    Writes settings site (a ++ b) := by
  intro s hs
  obtain ⟨s', hrun, hwrote⟩ := ha s hs
  -- The first part leaves the renderer ready for the second one.
  obtain ⟨s'', hrun', hwrote'⟩ := hb s' (hwrote.toKeeps.ready hs)
  exact ⟨s'', by rw [run_append hrun, hrun'], hwrote.trans hwrote'⟩

/-- What may stand in a line may stand among blocks. -/
theorem blocks_of_line {events : List Event} (h : Writes settings .line events) :
    Writes settings .blocks events := by
  intro s hs
  -- The line was written with no heading open, as everywhere among blocks.
  obtain ⟨next, hrun, hwrote⟩ := h s (hs.of_ne nofun)
  have hkeeps : Keeps .blocks s next :=
    ⟨hwrote.code, hwrote.desks, hwrote.heading, hwrote.quotes, nofun⟩
  exact ⟨next, hrun, hkeeps, hwrote.output⟩

theorem leaf (hmath : settings.math = delimitedMath) {event : Event} (h : event.isLeaf = true) :
    Writes settings site [event] := by
  intro s hs
  -- Only leaves are looked at: raw HTML is excluded, and a rule is a block.
  cases event with
  | text t => exact ⟨_, run_singleton rfl, .text hs t⟩
  | code t => exact ⟨_, run_singleton rfl, .codeSpan hs t⟩
  | math tex display =>
    obtain ⟨next, hstep, hwrote⟩ := Wrote.math hs hmath tex display
    exact ⟨next, run_singleton hstep, hwrote⟩
  | footnoteReference => exact ⟨s, run_singleton rfl, .refl hs⟩
  | taskMarker checked => exact ⟨_, run_singleton rfl, .taskMarker hs checked⟩
  | softBreak => exact ⟨_, run_singleton rfl, .softBreak hs⟩
  | hardBreak =>
    have hbr : IsBalanced "<br>".toList :=
      IsBalanced.void (by decide : "br".toList ∈ Dom.pageVoidNames) .nil
    exact ⟨_, run_singleton rfl, .writeInline hs hbr⟩
  | start | stop | html | rule => cases h

theorem rule : Writes settings .blocks [.rule] := by
  have hhr : IsBalanced "<hr>".toList :=
    IsBalanced.void (by decide : "hr".toList ∈ Dom.pageVoidNames) .nil
  exact fun s hs => ⟨_, run_singleton rfl, .write hs hhr⟩

/-! ### Spans -/

/-- A span writes its two tags, or neither of them when a heading is open. -/
theorem tagged {element : Markdown.Start} {content : List Event} {name : Text}
    (hname : IsElementName name)
    (hstart : ∀ s : State, ∃ attributes, IsAttributes attributes ∧
      s.start element = s.writeInline ('<' :: name ++ attributes ++ ['>']))
    (hstop : ∀ s : State, s.stop element.closing = s.writeInline ('<' :: '/' :: name ++ ['>']))
    (hcontent : Writes settings .line content) :
    Writes settings .line (enclose element content) := by
  intro s hs
  obtain ⟨attributes, hattributes, hopen⟩ := hstart s
  -- The content leaves a heading open or closed, so both tags are written or neither is.
  cases hheading : s.heading.isSome with
  | true =>
    -- In a heading both tags are dropped, and only the content is left.
    have hsilent : s.start element = s := by
      rw [hopen, State.writeInline, if_pos hheading]
    obtain ⟨next, hrun, hwrote⟩ := hcontent s hs
    have hstill : next.stop element.closing = next := by
      rw [hstop, State.writeInline, if_pos (hwrote.heading.trans hheading)]
    rw [← hsilent] at hrun
    refine ⟨_, run_enclose hrun, ?_⟩
    rw [hstill]
    exact hwrote
  | false =>
    -- Elsewhere they are written, and the content stands between them.
    have hwritten : s.start element = s.write ('<' :: name ++ attributes ++ ['>']) := by
      rw [hopen, State.writeInline, if_neg (by simp [hheading])]
    obtain ⟨next, hrun, hwrote⟩ := hcontent (s.write ('<' :: name ++ attributes ++ ['>']))
      ⟨hs.code, hs.desks, nofun⟩
    have hnone : ¬ next.heading.isSome = true := by
      rw [hwrote.heading]
      simpa [State.write] using hheading
    obtain ⟨markup, houtput, hbalanced⟩ := hwrote.output
    rw [← hwritten] at hrun
    refine ⟨_, run_enclose hrun, ?_⟩
    rw [hstop, State.writeInline, if_neg hnone]
    refine ⟨⟨hwrote.code, hwrote.desks, hwrote.heading, hwrote.quotes, hwrote.table⟩, _, ?_,
      .element hname hattributes hbalanced⟩
    show next.output ++ _ = _
    rw [houtput]
    simp [State.write]

/-- An image writes its tag at its end, where its alternative text is complete. -/
theorem image {source title : Text} {content : List Event}
    (hcontent : Writes settings .line content) :
    Writes settings .line (enclose (.image source title) content) := by
  intro s hs
  obtain ⟨next, hrun, hwrote⟩ :=
    hcontent (s.start (.image source title)) ⟨hs.code, hs.desks, nofun⟩
  refine ⟨_, run_enclose hrun, ?_⟩
  -- Starting an image changes nothing that counts, so the content was written behind `s`.
  have hfront : Wrote .line s next :=
    ⟨⟨hwrote.code, hwrote.desks, hwrote.heading, hwrote.quotes, hwrote.table⟩, hwrote.output⟩
  show Wrote .line s next.closeImage
  unfold State.closeImage
  split
  -- An image inside has taken the place, and nothing is written here.
  · exact hfront
  · next image _ =>
    have hclosed : Wrote .line s { next with image := none } :=
      ⟨⟨hwrote.code, hwrote.desks, hwrote.heading, hwrote.quotes, hwrote.table⟩, hwrote.output⟩
    have hready : Ready .line { next with image := none } := ⟨hwrote.code, hwrote.desks, nofun⟩
    exact hclosed.trans (.writeInline hready (isBalanced_imageMarkup next.region image))

theorem span {element : Markdown.Start} {content : List Event} (h : element.isSpan = true)
    (hcontent : Writes settings .line content) :
    Writes settings .line (enclose element content) := by
  -- All spans but links and images are two bare tags.
  have hbare : ∀ {name : Text}, IsElementName name →
      (∀ s : State, s.start element = s.writeInline ('<' :: name ++ ['>'])) →
      (∀ s : State, s.stop element.closing = s.writeInline ('<' :: '/' :: name ++ ['>'])) →
      Writes settings .line (enclose element content) := by
    intro name hname hstart hstop
    -- A bare tag has no attributes.
    refine tagged hname (fun s => ⟨[], .nil, ?_⟩) hstop hcontent
    rw [hstart, List.append_nil]
  cases element with
  | emphasis => exact hbare (by decide : IsElementName "em".toList) (fun _ => rfl) fun _ => rfl
  | strong => exact hbare (by decide : IsElementName "strong".toList) (fun _ => rfl) fun _ => rfl
  | strikethrough => exact hbare (by decide : IsElementName "s".toList) (fun _ => rfl) fun _ => rfl
  | superscript => exact hbare (by decide : IsElementName "sup".toList) (fun _ => rfl) fun _ => rfl
  | subscript => exact hbare (by decide : IsElementName "sub".toList) (fun _ => rfl) fun _ => rfl
  | link destination title =>
    refine tagged (by decide : IsElementName "a".toList) (fun s => ?_) (fun _ => rfl) hcontent
    have hhref := isAttributes_quoted " href=" (isValue_escapeIn s.region destination) rfl
      (by decide)
    refine ⟨_, hhref, ?_⟩
    simp [State.start]
  | image source title => exact image hcontent
  | _ => cases h

/-! ### Blocks -/

theorem enclosed {inner : Site} {element : Markdown.Start} {content : List Event}
    (h : ∀ s, Ready site s → Encloses site inner element s)
    (hcontent : Writes settings inner content) :
    Writes settings site (enclose element content) := by
  intro s hs
  obtain ⟨name, attributes, hname, hattributes, hstart, hready, hstop⟩ := h s hs
  obtain ⟨next, hrun, hwrote⟩ := hcontent _ hready
  -- The content kept what the end of the element looks at.
  obtain ⟨hclosing, hkeeps⟩ := hstop next hwrote.toKeeps
  obtain ⟨markup, houtput, hbalanced⟩ := hwrote.output
  refine ⟨_, run_enclose hrun, hkeeps, _, ?_, .element hname hattributes hbalanced⟩
  rw [hclosing, houtput, hstart]
  simp

/-- An element without markup of its own. -/
theorem bare {element : Markdown.Start} {content : List Event}
    (hstart : ∀ s : State, s.start element = s) (hstop : ∀ s : State, s.stop element.closing = s)
    (hcontent : Writes settings site content) :
    Writes settings site (enclose element content) := by
  intro s hs
  obtain ⟨next, hrun, hwrote⟩ := hcontent s hs
  rw [← hstart s] at hrun
  refine ⟨_, run_enclose hrun, ?_⟩
  rwa [hstop]

theorem container {element : Markdown.Start} {content : List Event} (h : element.isContainer = true)
    (hcontent : Writes settings .blocks content) :
    Writes settings .blocks (enclose element content) := by
  -- As for spans, most containers are two bare tags.
  have hbare : ∀ {name : Text}, IsElementName name →
      (∀ s : State, s.start element = s.write ('<' :: name ++ ['>'])) →
      (∀ s : State, s.stop element.closing = s.write ('<' :: '/' :: name ++ ['>'])) →
      Writes settings .blocks (enclose element content) := by
    intro name hname hstart hstop
    refine enclosed (fun s => encloses_written hname .nil ?_ hstop) hcontent
    rw [hstart, List.append_nil]
  cases element with
  | blockQuote alert => exact enclosed (encloses_blockQuote alert) hcontent
  | list first => exact enclosed (encloses_list first) hcontent
  | item => exact hbare (by decide : IsElementName "li".toList) (fun _ => rfl) fun _ => rfl
  | definitionList => exact hbare (by decide : IsElementName "dl".toList) (fun _ => rfl) fun _ => rfl
  | definitionTitle => exact hbare (by decide : IsElementName "dt".toList) (fun _ => rfl) fun _ => rfl
  | definitionBody => exact hbare (by decide : IsElementName "dd".toList) (fun _ => rfl) fun _ => rfl
  | footnoteDefinition | htmlBlock | metadataBlock => exact bare (fun _ => rfl) (fun _ => rfl) hcontent
  | _ => cases h

/-- A paragraph that wrote nothing is dropped; its content cannot look like its start tag. -/
theorem paragraph {content : List Event} (hcontent : Writes settings .line content) :
    Writes settings .blocks (enclose .paragraph content) := by
  intro s hs
  obtain ⟨next, hrun, hwrote⟩ := hcontent (s.write "<p>") ⟨hs.code, hs.desks, nofun⟩
  obtain ⟨markup, houtput, hbalanced⟩ := hwrote.output
  have hkeeps : ∀ output : Text, Keeps .blocks s { next with output } := fun _ =>
    ⟨hwrote.code, hwrote.desks, hwrote.heading, hwrote.quotes, nofun⟩
  refine ⟨_, run_enclose hrun, ?_⟩
  show Wrote .blocks s next.closeParagraph
  unfold State.closeParagraph
  -- The start tag is dropped exactly when it is the last thing on the page.
  by_cases hmarkup : markup = []
  · subst hmarkup
    have hdrop : Text.dropSuffix? "<p>".toList next.output = some s.output :=
      (Text.dropSuffix?_eq_some_iff).mpr (by simpa [State.write] using houtput)
    rw [hdrop]
    exact .silent (hkeeps s.output) rfl
  · have hdrop : Text.dropSuffix? "<p>".toList next.output = none := by
      cases hcases : Text.dropSuffix? "<p>".toList next.output with
      | none => rfl
      | some output =>
        have hends := (Text.dropSuffix?_eq_some_iff).mp hcases
        -- Balanced markup that is not empty does not end like the start tag.
        obtain ⟨closed, hbalanced⟩ := hbalanced
        rw [houtput] at hends
        exact absurd hends (endsOtherwise_of_balanced hbalanced hmarkup _ _)
    rw [hdrop]
    have helement := IsBalanced.element (by decide : IsElementName "p".toList) .nil hbalanced
    refine ⟨hkeeps _, _, ?_, helement⟩
    show next.output ++ _ = _
    rw [houtput]
    simp [State.write]

/-- Of a heading only a component is left, behind what its line wrote before. -/
theorem heading {level : Nat} {content : List Event} (hcontent : Writes settings .line content) :
    Writes settings .blocks (enclose (.heading level) content) := by
  intro s hs
  obtain ⟨next, hrun, hwrote⟩ :=
    hcontent (s.start (.heading level)) ⟨hs.code, hs.desks, nofun⟩
  obtain ⟨markup, houtput, hbalanced⟩ := hwrote.output
  refine ⟨_, run_enclose hrun, ?_⟩
  show Wrote .blocks s next.closeHeading
  obtain ⟨heading, hheading⟩ := Option.isSome_iff_exists.mp hwrote.heading
  -- Its title is kept from the line, and escaped as a prop of the component.
  have hcomponent := isBalanced_headingComponent (State.headingOf next.derivedSlugs heading).1
  have hnone : s.heading = none := hs.heading nofun
  unfold State.closeHeading
  rw [hheading]
  refine ⟨⟨hwrote.code, hwrote.desks, ?_, hwrote.quotes, nofun⟩, markup ++ _, ?_,
    hbalanced.append hcomponent⟩
  · rw [hnone]
    rfl
  · show next.output ++ _ = _
    rw [houtput, List.append_assoc]
    rfl

theorem run_source {s : State} {language : Option Text} {read : Text}
    (hcode : s.code = some ⟨language, read⟩) (source : List Text) :
    run settings s (source.map .text) =
      (none, { s with code := some ⟨language, read ++ source.flatten⟩ }) := by
  induction source generalizing s read with
  -- Along the source, whose texts all go to the open code block.
  | nil =>
    rw [List.flatten_nil, List.append_nil, ← hcode]
    rfl
  | cons t source ih =>
    have htext : s.text t = { s with code := some ⟨language, read ++ t⟩ } := by
      unfold State.text
      rw [hcode]
    show run settings (s.text t) (source.map .text) = _
    rw [htext, ih rfl, List.flatten_cons, List.append_assoc]

/-- No processor is asked, so a code block becomes plain markup. -/
theorem code {kind : Markdown.CodeBlockKind} {source : List Text} :
    Writes settings .blocks (enclose (.codeBlock kind) (source.map .text)) := by
  intro s hs
  -- With or without an info string, the start opens a code block and writes nothing.
  obtain ⟨language, hstart⟩ : ∃ language,
      s.start (.codeBlock kind) = { s with code := some ⟨language, []⟩ } := by
    cases kind with
    | indented => exact ⟨_, rfl⟩
    | fenced info => exact ⟨_, rfl⟩
  have hrun : run settings { s with code := some ⟨language, []⟩ } (source.map .text) = _ :=
    run_source rfl source
  rw [← hstart] at hrun
  refine ⟨_, run_enclose hrun, ?_⟩
  rw [hstart]
  have hplain := isBalanced_plainCodeBlock s.region language ([] ++ source.flatten)
  show Wrote .blocks s (State.closeCodeBlock _)
  unfold State.closeCodeBlock
  dsimp only
  rw [hs.desks]
  exact ⟨⟨rfl, rfl, rfl, rfl, nofun⟩, _, rfl, hplain⟩

/-- The head and the rows of a table stand in two groups of their own. -/
theorem table {alignments : List Markdown.Alignment} {head rows : List Event}
    (hhead : Writes settings .cells head) (hrows : Writes settings .rows rows) :
    Writes settings .blocks (enclose (.table alignments) (enclose .tableHead head ++ rows)) := by
  intro s hs
  -- The state inside the table differs from the one around it in the table only.
  have hnone : s.heading = none := hs.heading nofun
  have hready : Ready .cells ((s.start (.table alignments)).start .tableHead) :=
    ⟨hs.code, hs.desks, fun _ => hnone⟩
  obtain ⟨first, hrunHead, hwroteHead⟩ := hhead _ hready
  obtain ⟨headMarkup, houtputHead, hbalancedHead⟩ := hwroteHead.output
  have hready' : Ready .rows (first.stop .tableHead) :=
    ⟨hwroteHead.code, hwroteHead.desks, (hwroteHead.toKeeps.ready hready).heading ∘ fun _ => nofun⟩
  obtain ⟨last, hrunRows, hwroteRows⟩ := hrows _ hready'
  obtain ⟨rowsMarkup, houtputRows, hbalancedRows⟩ := hwroteRows.output
  have hrun : run settings (s.start (.table alignments)) (enclose .tableHead head ++ rows) =
      (none, last) := by
    rw [run_append (run_enclose hrunHead)]
    exact hrunRows
  refine ⟨_, run_enclose hrun, ?_⟩
  -- From the inside to the outside: the head in its row, the rows, and both in the table.
  have hthead := IsBalanced.element (by decide : IsElementName "thead".toList) .nil
    (.element (by decide : IsElementName "tr".toList) .nil hbalancedHead)
  have htbody := IsBalanced.element (by decide : IsElementName "tbody".toList) .nil hbalancedRows
  have htable := IsBalanced.element (by decide : IsElementName "table".toList) .nil
    (hthead.append htbody)
  refine ⟨⟨hwroteRows.code, hwroteRows.desks, ?_, ?_, nofun⟩, _, ?_, htable⟩
  · exact hwroteRows.heading.trans hwroteHead.heading
  · exact hwroteRows.quotes.trans hwroteHead.quotes
  · show last.output ++ _ = _
    rw [houtputRows]
    show first.output ++ _ ++ _ ++ _ = _
    rw [houtputHead]
    simp [State.start, State.write]

end Writes

/-- **What well-nested events do to the page**, by induction on their nesting. -/
theorem writes_of_wellNested (hmath : settings.math = delimitedMath) {events : List Event}
    (h : WellNested site events) : Writes settings site events := by
  induction h with
  | nil => exact .nil
  | append _ _ iha ihb => exact iha.append ihb
  | leaf hleaf => exact .leaf hmath hleaf
  | span hspan _ ih => exact .span hspan ih
  | line _ ih => exact ih.blocks_of_line
  | rule => exact .rule
  | paragraph _ ih => exact .paragraph ih
  | heading _ ih => exact .heading ih
  | code => exact .code
  | container hcontainer _ ih => exact .container hcontainer ih
  | table _ _ ihHead ihRows => exact .table ihHead ihRows
  | row _ ih => exact .enclosed encloses_tableRow ih
  | cell _ ih => exact .enclosed encloses_tableCell ih

end Runs

/-! ## Pages -/

/-- **A page of well-nested events is balanced and can be read back.**

Every element on the page is closed by the end tag of its name. Reading the page succeeds, and the
markup of what is read is the page with its void tags closed. -/
theorem page_reads_back (vocabulary : Body.Vocabulary) (region : Body.Region) (events : List Event)
    (h : WellNested .blocks events) : ∃ page closed nodes,
      (render ⟨vocabulary, delimitedMath⟩ (fresh region []) events).1 = .ok page ∧
        Balanced page.html closed ∧ Dom.fragment? page.html = some nodes ∧
        Dom.Node.htmlOf nodes = closed := by
  have hready : Ready .blocks (fresh region []) := ⟨rfl, rfl, fun _ => rfl⟩
  have hwrites : Writes ⟨vocabulary, delimitedMath⟩ .blocks events := writes_of_wellNested rfl h
  obtain ⟨last, hrun, hwrote⟩ := hwrites _ hready
  obtain ⟨markup, houtput, closed, hbalanced⟩ := hwrote.output
  -- The reader of markup succeeds on everything that is balanced.
  obtain ⟨nodes, hnodes, hhtml⟩ := Dom.fragment?_of_balanced hbalanced
  have hpage : last.output = markup := houtput
  refine ⟨⟨last.output, last.headings, last.desks.flatMap (·.warnings)⟩, closed, nodes, ?_, ?_, ?_,
    hhtml⟩
  · unfold render
    rw [hrun]
  · rw [hpage]
    exact hbalanced
  · rw [hpage]
    exact hnodes

/-- A heading with a checkbox in it, an alert with a dropped paragraph and an image in a link, an
ordered list with a line and a fence, and a table. -/
def nestedEvents : List Event :=
  enclose (.heading 2) ([.text "a < b".toList] ++ [.taskMarker true]) ++
    (enclose (.blockQuote (some .note))
      (enclose .paragraph [.text "HF_DOC_BODY_START".toList] ++
        enclose .paragraph (enclose (.link "/?x=1&y=\"".toList [])
          (enclose (.image "i.png".toList "<t>".toList)
            ([.text "alt".toList] ++ enclose .emphasis [.hardBreak])))) ++
    (enclose (.list (some 3)) (enclose .item ([.math "x > y".toList true] ++
      enclose (.codeBlock (.fenced "rust".toList)) (["fn f() \x7b\x7d\n".toList].map .text))) ++
    enclose (.table [.center]) (enclose .tableHead (enclose .tableCell [.code "c".toList]) ++
      enclose .tableRow (enclose .tableCell [.text "d".toList]))))

theorem wellNested_nestedEvents : WellNested .blocks nestedEvents :=
  .append (.heading (.append (.leaf rfl) (.leaf rfl))) <|
  .append (.container rfl (.append (.paragraph (.leaf rfl)) (.paragraph (.span rfl
    (.span rfl (.append (.leaf rfl) (.span rfl (.leaf rfl)))))))) <|
  .append (.container rfl (.container rfl (.append (.line (.leaf rfl)) .code))) <|
  .table (.cell (.leaf rfl)) (.row (.cell (.leaf rfl)))

theorem nestedEvents_read_back : WellNested .blocks nestedEvents ∧ ∃ page closed nodes,
    (render ⟨.standard, delimitedMath⟩ (fresh .before []) nestedEvents).1 = .ok page ∧
      Balanced page.html closed ∧ Dom.fragment? page.html = some nodes ∧
      Dom.Node.htmlOf nodes = closed :=
  ⟨wellNested_nestedEvents, page_reads_back .standard .before nestedEvents wellNested_nestedEvents⟩

end DocPage.Render
