import DocPage.Admonition
import DocPage.Proofs.Text.Scan
import Mathlib.Data.List.TakeWhile

/-!
# Rewriting admonitions keeps the content

Each of the two passes cuts its text into elements and the gaps between them. It puts a container in
the place of each element, with the body of the element in it, and leaves the gaps as they are. What
an element looks like is said here without a search: a tip or a version note from its opening tag to
its closing tag, or a note that has no closing tag, whose body is empty. Since no element may start
inside a gap, a text can be cut in one way only.

## Architecture

- **Cuts**: `Cuts` relates a text and its gaps and elements, for any kind of elements
- **Passes**: `Recognises` is all that a matcher must do for a pass to follow the only cut
- **Tips**: `IsTip`, which `tipMatcher` recognises
- **Version notes**: `IsNote`, which `anyNoteMatcher` recognises
- **Both passes**: `expandAll_keeps_content`
-/

namespace DocPage.Admonition

/-! ## Cuts -/

/-- An element of a text, and what its container shows besides its body. -/
structure Element where
  opening : Text
  body : Text
  /-- The closing tag; an element that stands alone has none. -/
  closing : Text
  look : Admonition
  /-- What stands in front of the body in the container. -/
  caption : Text

namespace Element

def source (e : Element) : Text :=
  e.opening ++ e.body ++ e.closing

def container (e : Element) : Text :=
  e.look.openTag ++ e.caption ++ e.body ++ "</div>"

end Element

/-- A text as elements, each with the gap in front of it, and the gap behind the last one. -/
structure Cut where
  elements : List (Text × Element)
  last : Text

namespace Cut

def source (cut : Cut) : Text :=
  cut.elements.flatMap (fun (gap, e) => gap ++ e.source) ++ cut.last

def rewritten (cut : Cut) : Text :=
  cut.elements.flatMap (fun (gap, e) => gap ++ e.container) ++ cut.last

end Cut

section Cuts

variable (Is : Element → Text → Prop)

/-- No element starts in the gap, when `behind` stands behind it. `Is e rest` says that `e` is an
element in front of `rest`. -/
def NoneStarts (gap behind : Text) : Prop :=
  ∀ u v e rest, gap = u ++ v → v ≠ [] → v ++ behind = e.source ++ rest → ¬ Is e rest

/-- The text is cut into elements and gaps in which no element starts. -/
inductive Cuts : Text → Cut → Prop where
  | last {gap : Text} : NoneStarts Is gap [] → Cuts gap ⟨[], gap⟩
  | element {gap rest : Text} {e : Element} {cut : Cut} : NoneStarts Is gap (e.source ++ rest) →
      Is e rest → Cuts rest cut →
      Cuts (gap ++ (e.source ++ rest)) ⟨(gap, e) :: cut.elements, cut.last⟩

variable {Is}

theorem noneStarts_nil (behind : Text) : NoneStarts Is [] behind := by
  intro u v e rest hgap hv
  exact absurd (List.nil_eq_append_iff.mp hgap).2 hv

theorem NoneStarts.cons {c : Char} {gap behind : Text}
    (hhere : ∀ e rest, c :: (gap ++ behind) = e.source ++ rest → ¬ Is e rest)
    (h : NoneStarts Is gap behind) : NoneStarts Is (c :: gap) behind := by
  intro u v e rest hgap hv heq
  -- Either the element starts at the first character of the gap, or behind it.
  cases u with
  | nil =>
    rw [List.nil_append] at hgap
    rw [← hgap] at heq
    exact hhere e rest heq
  | cons d u => exact h u v e rest (List.cons.inj hgap).2 hv heq

/-- A cut text is its gaps and elements. -/
theorem Cuts.source_eq {t : Text} {cut : Cut} (h : Cuts Is t cut) : t = cut.source := by
  induction h with
  | last _ => rfl
  | element _ _ _ ih =>
    rw [ih]
    simp [Cut.source]

end Cuts

/-! ## Passes -/

/-- The matcher finds an element wherever one stands, with a value from which `f` makes the
container. An element is not empty, and the text determines it. -/
structure Recognises {α : Type} (m : Matcher α) (f : α → Text) (Is : Element → Text → Prop) :
    Prop where
  sound {t : Text} {n : Nat} {value : α} : m t = some (n, value) →
    ∃ e rest, Is e rest ∧ t = e.source ++ rest ∧ n = e.source.length
  complete {e : Element} {rest : Text} : Is e rest →
    ∃ value, m (e.source ++ rest) = some (e.source.length, value) ∧ f value = e.container
  source_ne_nil {e : Element} {rest : Text} : Is e rest → e.source ≠ []
  unique {e e' : Element} {rest rest' : Text} : Is e rest → Is e' rest' →
    e.source ++ rest = e'.source ++ rest' → e = e'

namespace Recognises

variable {α : Type} {m : Matcher α} {f : α → Text} {Is : Element → Text → Prop}

theorem proper (h : Recognises m f Is) : m.Proper := by
  intro t n value hmatch
  obtain ⟨e, rest, he, ht, hn⟩ := h.sound hmatch
  exact ⟨e.source, rest, ht, h.source_ne_nil he, hn⟩

theorem eq_none (h : Recognises m f Is) {t : Text}
    (hnone : ∀ e rest, t = e.source ++ rest → ¬ Is e rest) : m t = none := by
  rw [Option.eq_none_iff_forall_ne_some]
  rintro ⟨n, value⟩ hmatch
  obtain ⟨e, rest, he, ht, -⟩ := h.sound hmatch
  exact hnone e rest ht he

theorem not_of_eq_none (h : Recognises m f Is) {t : Text} (hnone : m t = none) (e : Element)
    (rest : Text) (ht : t = e.source ++ rest) : ¬ Is e rest := by
  intro he
  obtain ⟨value, hmatch, -⟩ := h.complete he
  rw [← ht, hnone] at hmatch
  cases hmatch

theorem exists_cuts (h : Recognises m f Is) (t : Text) : ∃ cut, Cuts Is t cut := by
  -- Along the pieces of the scan, which are those of the cut.
  induction t using Text.pieces_induction h.proper with
  | nil => exact ⟨_, .last (noneStarts_nil [])⟩
  | plain c t hnone ih =>
    -- The character goes to the gap at the start of the text.
    have hhere := h.not_of_eq_none hnone
    obtain ⟨cut, hcut⟩ := ih
    cases hcut with
    | last hgap => exact ⟨_, .last (.cons (by simpa using hhere) hgap)⟩
    | element hgap he hrest => exact ⟨_, .element (.cons hhere hgap) he hrest⟩
  | hit span after value _ hhit ih =>
    obtain ⟨cut, hcut⟩ := ih
    obtain ⟨e, rest, he, ht, hlength⟩ := h.sound hhit
    -- The match is an element in front of what was not yet scanned.
    obtain ⟨rfl, rfl⟩ := List.append_inj ht hlength
    exact ⟨_, Cuts.element (noneStarts_nil _) he hcut⟩

/-- Two cuts of a text are the same. -/
theorem cuts_unique (h : Recognises m f Is) {t : Text} {cut cut' : Cut} (hcut : Cuts Is t cut)
    (hcut' : Cuts Is t cut') : cut = cut' := by
  -- On the first cut. In each case the second one is compared with it from the front.
  induction hcut generalizing cut' with
  | @last gap hgap =>
    generalize ht : gap = t at hcut'
    cases hcut' with
    | last _ => rfl
    | @element gap' rest e cut' _ he _ =>
      -- The element would start inside the gap.
      have hne := List.append_ne_nil_of_left_ne_nil (h.source_ne_nil he) rest
      exact absurd he (hgap gap' _ e rest ht hne (List.append_nil _))
  | @element gap rest e cut hgap he _ ih =>
    generalize ht : gap ++ (e.source ++ rest) = t at hcut'
    cases hcut' with
    | last hgap' =>
      have hne := List.append_ne_nil_of_left_ne_nil (h.source_ne_nil he) rest
      exact absurd he (hgap' gap _ e rest ht.symm hne (List.append_nil _))
    | @element gap' rest' e' cut' hgap' he' hrest' =>
      -- Neither element starts inside the gap in front of the other one.
      have hsame : gap = gap' ∧ e.source ++ rest = e'.source ++ rest' := by
        rcases Text.append_cases ht with ⟨u, hu, hrest⟩ | ⟨u, hu, hrest⟩
        · by_cases hnil : u = []
          · subst hnil
            exact ⟨by simpa using hu, hrest.symm⟩
          · exact absurd he' (hgap gap' u e' rest' hu hnil hrest.symm)
        · by_cases hnil : u = []
          · subst hnil
            exact ⟨by simpa using hu.symm, hrest⟩
          · exact absurd he (hgap' gap u e rest hu hnil hrest.symm)
      obtain ⟨rfl, hsources⟩ := hsame
      obtain rfl := h.unique he he' hsources
      obtain rfl := List.append_cancel_left hsources
      -- With the same element cut off, the rests are the same text.
      rw [ih hrest']

theorem mapMatches_gap (h : Recognises m f Is) {gap behind : Text}
    (hgap : NoneStarts Is gap behind) : Text.mapMatches m (fun _ => f) (gap ++ behind) =
      gap ++ Text.mapMatches m (fun _ => f) behind := by
  -- No element starts in the gap, so the scan copies it character by character.
  induction gap with
  | nil => rfl
  | cons c gap ih =>
    have hnone : m (c :: (gap ++ behind)) = none :=
      h.eq_none fun e rest => hgap [] (c :: gap) e rest rfl (List.cons_ne_nil c gap)
    have hrest : NoneStarts Is gap behind :=
      fun u v e rest hu => hgap (c :: u) v e rest (congrArg (c :: ·) hu)
    have hpieces := ih hrest
    unfold Text.mapMatches at hpieces ⊢
    rw [List.cons_append, Text.pieces_cons_of_none hnone, List.flatMap_cons, hpieces]
    rfl

/-- The pass puts each element of the cut into its container. -/
theorem mapMatches_eq (h : Recognises m f Is) {t : Text} {cut : Cut} (hcut : Cuts Is t cut) :
    Text.mapMatches m (fun _ => f) t = cut.rewritten := by
  -- Along the cut: a gap that is copied, an element that is exchanged, and the rest.
  induction hcut with
  | @last gap hgap =>
    have hlast := h.mapMatches_gap hgap
    rw [List.append_nil] at hlast
    rw [hlast]
    exact List.append_nil gap
  | @element gap rest e cut hgap he _ ih =>
    obtain ⟨value, hmatch, hvalue⟩ := h.complete he
    have helement : Text.mapMatches m (fun _ => f) (e.source ++ rest) =
        e.container ++ cut.rewritten := by
      rw [← ih]
      unfold Text.mapMatches
      rw [Text.pieces_append_of_match (h.source_ne_nil he) hmatch, List.flatMap_cons, ← hvalue]
    rw [h.mapMatches_gap hgap, helement]
    simp [Cut.rewritten]

/-- A pass follows the only cut of its text. -/
theorem exists_only_cut (h : Recognises m f Is) (t : Text) :
    ∃ cut, (∀ cut', Cuts Is t cut' ↔ cut' = cut) ∧ t = cut.source ∧
      Text.mapMatches m (fun _ => f) t = cut.rewritten := by
  obtain ⟨cut, hcut⟩ := h.exists_cuts t
  have honly : ∀ cut', Cuts Is t cut' ↔ cut' = cut :=
    fun cut' => ⟨fun hcut' => h.cuts_unique hcut' hcut, fun heq => heq ▸ hcut⟩
  exact ⟨cut, honly, hcut.source_eq, h.mapMatches_eq hcut⟩

end Recognises

/-! ## Tips -/

/-- The opening tag of a tip. -/
def tipTag : Admonition → Text
  | tip => "<Tip>"
  | warning => "<Tip warning=\x7btrue\x7d>"

/-- A tip ends at its first closing tag, whatever stands behind it. -/
inductive IsTip : Element → Text → Prop where
  | intro (look : Admonition) {body : Text} (behind : Text) : ¬ "</Tip>".toList <:+: body →
      IsTip ⟨tipTag look, body, "</Tip>", look, []⟩ behind

/-- What a pass makes of a tip. -/
def tipContainer : Admonition × Text → Text :=
  fun (kind, body) => kind.openTag ++ body ++ closeTag

/-- A body ends at the first closing tag. -/
theorem splitOnce?_tip {body : Text} (h : ¬ "</Tip>".toList <:+: body) (behind : Text) :
    Text.splitOnce? "</Tip>" (body ++ "</Tip>" ++ behind) = some (body, behind) :=
  Text.splitOnce?_append behind (by decide : '<' ∉ "/Tip>".toList) h

theorem tipMatcher_sound {t : Text} {n : Nat} {value : Admonition × Text}
    (h : tipMatcher t = some (n, value)) :
    ∃ e rest, IsTip e rest ∧ t = e.source ++ rest ∧ n = e.source.length := by
  obtain ⟨rest, hrest, h⟩ := Option.bind_eq_some_iff.mp h
  obtain ⟨inner, hinner, h⟩ := Option.bind_eq_some_iff.mp h
  obtain ⟨⟨body, after⟩, hcut, h⟩ := Option.bind_eq_some_iff.mp h
  cases h
  have hbody := Text.not_infix_of_splitOnce? (by decide) hcut
  obtain rfl := Text.eq_of_splitOnce? hcut
  rw [Text.dropPrefix?_eq_some_iff] at hrest hinner
  -- The opening tag is what was read in front of the body.
  have htag : ∃ look, t = tipTag look ++ (body ++ "</Tip>" ++ after) := by
    cases hwarned : Text.dropPrefix? " warning=\x7btrue\x7d" rest with
    | none =>
      rw [hwarned, Option.getD_none] at hinner
      exact ⟨tip, by rw [hrest, hinner]; rfl⟩
    | some behind =>
      rw [hwarned, Option.getD_some] at hinner
      rw [Text.dropPrefix?_eq_some_iff] at hwarned
      exact ⟨warning, by rw [hrest, hwarned, hinner]; rfl⟩
  obtain ⟨look, rfl⟩ := htag
  refine ⟨_, after, .intro look after hbody, ?_, ?_⟩
  -- What is read off the text is what the element is written as.
  · simp [Element.source]
  · simp only [Element.source, List.length_append]
    omega

/-- The matcher reads an opening tag as it is written. -/
theorem tipTag_read (look : Admonition) (rest : Text) :
    ∃ inner, Text.dropPrefix? "<Tip" (tipTag look ++ rest) = some inner ∧
      Text.dropPrefix? ">" ((Text.dropPrefix? " warning=\x7btrue\x7d" inner).getD inner) =
        some rest ∧
      (if (Text.dropPrefix? " warning=\x7btrue\x7d" inner).isSome then warning else tip) =
        look := by
  -- A warning has one more prop in its opening tag, and the reader asks for it first.
  cases look with
  | tip => exact ⟨'>' :: rest, Text.dropPrefix?_append "<Tip".toList _, rfl, rfl⟩
  | warning =>
    refine ⟨" warning=\x7btrue\x7d".toList ++ '>' :: rest,
      Text.dropPrefix?_append "<Tip".toList _, ?_⟩
    rw [Text.dropPrefix?_append]
    exact ⟨Text.dropPrefix?_append [ '>'] rest, rfl⟩

theorem tipMatcher_append (look : Admonition) {body : Text} (hbody : ¬ "</Tip>".toList <:+: body)
    (rest : Text) : tipMatcher (tipTag look ++ body ++ "</Tip>" ++ rest) =
      some ((tipTag look ++ body ++ "</Tip>").length, (look, body)) := by
  obtain ⟨inner, hinner, hrest, hlook⟩ := tipTag_read look (body ++ "</Tip>" ++ rest)
  generalize htext : tipTag look ++ body ++ "</Tip>" ++ rest = t
  have hlength : t.length - rest.length = (tipTag look ++ body ++ "</Tip>").length := by
    rw [← htext, List.length_append, Nat.add_sub_cancel]
  rw [show tipTag look ++ (body ++ "</Tip>" ++ rest) = t by simp [← htext]] at hinner
  simp only [tipMatcher, hinner, hrest, splitOnce?_tip hbody rest, hlook, hlength,
    Option.bind_eq_bind, Option.bind_some]

theorem tipTag_ne_nil (look : Admonition) : tipTag look ≠ [] := by
  cases look with
  | tip => exact List.cons_ne_nil '<' _
  | warning => exact List.cons_ne_nil '<' _

theorem recognises_tips : Recognises tipMatcher tipContainer IsTip where
  sound := tipMatcher_sound
  complete {e rest} h := by
    cases h with
    | @intro look body _ hbody =>
      refine ⟨_, tipMatcher_append look hbody rest, ?_⟩
      simp [tipContainer, Element.container, closeTag]
  source_ne_nil h := by
    cases h with
    | intro look _ _ => simp [Element.source, tipTag_ne_nil]
  unique {e e' rest rest'} h h' heq := by
    cases h with
    | @intro look body _ hbody =>
      cases h' with
      | @intro look' body' _ hbody' =>
        -- The matcher reads the kind and the body off the text.
        have hread := tipMatcher_append look hbody rest
        have hread' := tipMatcher_append look' hbody' rest'
        simp only [Element.source] at heq
        rw [heq, hread', Option.some.injEq, Prod.mk.injEq, Prod.mk.injEq] at hread
        obtain ⟨-, rfl, rfl⟩ := hread
        rfl

/-! ## Version notes -/

def noteTagEnd (blank closesItself : Bool) : Text :=
  (if blank then " ".toList else []) ++ (if closesItself then "/>" else ">").toList

def noteTag (label version : Text) (blank closesItself : Bool) : Text :=
  '<' :: label ++ " version=\"" ++ (version ++ '"' :: noteTagEnd blank closesItself)

def noteClosing (label : Text) : Text :=
  "</" ++ label ++ ">"

/-- A version note. Only a deprecation warns. -/
def noteElement (label version : Text) (blank closesItself : Bool) (body closing : Text) :
    Element where
  opening := noteTag label version blank closesItself
  body := body
  closing := closing
  look := if label = "Deprecated".toList then warning else tip
  caption := "<p class=\"font-medium\">" ++ label ++ " in " ++ version ++ "</p>"

/-- A version number as a note may have it. -/
def IsVersion (version : Text) : Prop :=
  version ≠ [] ∧ ∀ c ∈ version, isVersionChar c = true

/-- A version note ends at the first closing tag for its label. It stands alone, with no body, when
its opening tag closes itself or no closing tag follows. -/
inductive IsNote : Element → Text → Prop where
  | closed {label version body : Text} (blank : Bool) (behind : Text) : label ∈ noteLabels →
      IsVersion version → ¬ noteClosing label <:+: body →
      IsNote (noteElement label version blank false body (noteClosing label)) behind
  | closesItself {label version : Text} (blank : Bool) (behind : Text) : label ∈ noteLabels →
      IsVersion version → IsNote (noteElement label version blank true [] []) behind
  | unclosed {label version : Text} (blank : Bool) {behind : Text} : label ∈ noteLabels →
      IsVersion version → ¬ noteClosing label <:+: behind →
      IsNote (noteElement label version blank false [] []) behind

theorem noteElement_source (label version : Text) (blank closesItself : Bool)
    (body closing : Text) : (noteElement label version blank closesItself body closing).source =
      noteTag label version blank closesItself ++ body ++ closing := rfl

/-! ### Opening tags -/

theorem isAlpha_of_mem_label : ∀ label ∈ noteLabels, ∀ c ∈ label, c.isAlpha = true := by
  decide

theorem noteTagEnd?_eq_some_iff {t rest : Text} {closesItself : Bool} :
    noteTagEnd? t = some (closesItself, rest) ↔
      ∃ blank, t = noteTagEnd blank closesItself ++ rest := by
  constructor
  · intro h
    have hblank : ∃ blank : Bool,
        t = (if blank then " ".toList else []) ++ (Text.dropPrefix? " " t).getD t := by
      cases hdrop : Text.dropPrefix? " " t with
      -- No blank was read, so none is written.
      | none => exact ⟨false, rfl⟩
      | some inner => exact ⟨true, Text.dropPrefix?_eq_some_iff.mp hdrop⟩
    obtain ⟨blank, hblank⟩ := hblank
    unfold noteTagEnd? at h
    dsimp only at h
    generalize (Text.dropPrefix? " " t).getD t = inner at h hblank
    refine ⟨blank, ?_⟩
    rw [hblank, noteTagEnd, List.append_assoc]
    split at h
    · cases h
      rfl
    · cases h
      rfl
    · cases h
  · rintro ⟨blank, rfl⟩
    cases blank <;> cases closesItself <;> rfl

/-- The parts of an opening tag can be read off the text. -/
theorem noteTag_inj {label label' version version' rest rest' : Text}
    {blank blank' closesItself closesItself' : Bool} (hlabel : label ∈ noteLabels)
    (hlabel' : label' ∈ noteLabels) (hversion : IsVersion version) (hversion' : IsVersion version')
    (h : noteTag label version blank closesItself ++ rest =
      noteTag label' version' blank' closesItself' ++ rest') :
    label = label' ∧ version = version' ∧ blank = blank' ∧ closesItself = closesItself' ∧
      rest = rest' := by
  -- Each part ends where the next one begins, so they are compared from the front.
  simp only [noteTag, List.cons_append, List.append_assoc, List.cons.injEq, true_and] at h
  obtain ⟨rfl, hbehind⟩ := Text.run_append_inj h (isAlpha_of_mem_label label hlabel)
    (isAlpha_of_mem_label label' hlabel') (by simp) (by simp)
  have hquoted := List.append_cancel_left hbehind
  obtain ⟨rfl, hend⟩ := Text.run_append_inj hquoted hversion.2 hversion'.2
    (by simp [isVersionChar]) (by simp [isVersionChar])
  have htags := (List.cons.inj hend).2
  have hread : noteTagEnd? (noteTagEnd blank closesItself ++ rest) = some (closesItself, rest) :=
    noteTagEnd?_eq_some_iff.mpr ⟨blank, rfl⟩
  -- The end of a tag is read in one way, whether or not a blank stands in it.
  rw [htags, noteTagEnd?_eq_some_iff.mpr ⟨blank', rfl⟩] at hread
  cases hread
  have hblank := List.append_cancel_right (List.append_cancel_right htags)
  refine ⟨rfl, rfl, ?_, rfl, rfl⟩
  cases blank <;> cases blank' <;> first | rfl | cases hblank

/-! ### Reading -/

/-- The version note that an opening tag starts when `behind` stands behind the tag. -/
def noteBefore (label version : Text) (blank closesItself : Bool) (behind : Text) : Element :=
  match if closesItself then none else Text.splitOnce? (noteClosing label) behind with
  | some (body, _) => noteElement label version blank closesItself body (noteClosing label)
  | none => noteElement label version blank closesItself [] []

theorem eq_of_closing {label behind body after : Text} {closesItself : Bool}
    (h : (if closesItself then none else Text.splitOnce? (noteClosing label) behind) =
      some (body, after)) : behind = body ++ noteClosing label ++ after := by
  -- A tag that closes itself has no closing tag to look for.
  split at h
  · cases h
  · exact Text.eq_of_splitOnce? h

/-- The note is a start of the text. -/
theorem noteBefore_source_prefix (label version : Text) (blank closesItself : Bool)
    (behind : Text) : ∃ after,
      (noteBefore label version blank closesItself behind).source ++ after =
        noteTag label version blank closesItself ++ behind := by
  unfold noteBefore
  split
  · rename_i body after hcut
    refine ⟨after, ?_⟩
    rw [noteElement_source, eq_of_closing hcut]
    simp only [List.append_assoc]
  · exact ⟨behind, by simp only [noteElement_source, List.append_nil]⟩

theorem isNote_iff {e : Element} {rest : Text} : IsNote e rest ↔
    ∃ label ∈ noteLabels, ∃ version blank closesItself behind, IsVersion version ∧
      e = noteBefore label version blank closesItself behind ∧
      e.source ++ rest = noteTag label version blank closesItself ++ behind := by
  -- Which of the three forms a note has is decided by the text behind its opening tag.
  constructor
  · intro h
    cases h with
    | @closed label version body blank _ hlabel hversion hbody =>
      have hcut : Text.splitOnce? (noteClosing label) (body ++ noteClosing label ++ rest) =
          some (body, rest) := by
        have hletters : '<' ∉ '/' :: (label ++ ">".toList) := by
          intro hmem
          rw [List.mem_cons, List.mem_append] at hmem
          rcases hmem with hslash | hlabelled | hlast
          · cases hslash
          · exact absurd (isAlpha_of_mem_label label hlabel _ hlabelled) (by decide)
          · exact absurd hlast (by decide)
        exact Text.splitOnce?_append rest hletters hbody
      refine ⟨label, hlabel, version, blank, false, body ++ noteClosing label ++ rest, hversion,
        ?_, ?_⟩
      · simp only [noteBefore, Bool.false_eq_true, if_false, hcut]
      · simp only [noteElement_source, List.append_assoc]
    | @closesItself label version blank _ hlabel hversion =>
      refine ⟨label, hlabel, version, blank, true, rest, hversion, rfl, ?_⟩
      simp only [noteElement_source, List.append_nil]
    | @unclosed label version blank _ hlabel hversion hnone =>
      have hcut := Text.splitOnce?_eq_none_iff.mpr hnone
      refine ⟨label, hlabel, version, blank, false, rest, hversion, ?_, ?_⟩
      · simp only [noteBefore, Bool.false_eq_true, if_false, hcut]
      · simp only [noteElement_source, List.append_nil]
  -- The source is needed for a note without a closing tag only, to tell what stands behind it.
  · rintro ⟨label, hlabel, version, blank, closesItself, behind, hversion, rfl, hsource⟩
    unfold noteBefore at hsource ⊢
    cases closesItself with
    | true => exact .closesItself blank rest hlabel hversion
    | false =>
      simp only [Bool.false_eq_true, if_false] at hsource ⊢
      cases hcut : Text.splitOnce? (noteClosing label) behind with
      | some cut =>
        have hne : noteClosing label ≠ [] := List.cons_ne_nil '<' _
        exact .closed blank rest hlabel hversion (Text.not_infix_of_splitOnce? hne hcut)
      | none =>
        rw [hcut] at hsource
        simp only [noteElement_source, List.append_nil] at hsource
        obtain rfl := List.append_cancel_left hsource
        exact .unclosed blank hlabel hversion (Text.splitOnce?_eq_none_iff.mp hcut)

/-- The matcher for a label reads an opening tag and what stands behind it as they are written. -/
theorem noteMatcher_append {label version : Text} (hversion : IsVersion version)
    (blank closesItself : Bool) (behind : Text) :
    noteMatcher label (noteTag label version blank closesItself ++ behind) =
      some ((noteBefore label version blank closesItself behind).source.length,
        ⟨label, version, (noteBefore label version blank closesItself behind).body⟩) := by
  have hopening : Text.dropPrefix? ('<' :: label ++ " version=\"")
      (noteTag label version blank closesItself ++ behind) =
        some (version ++ '"' :: (noteTagEnd blank closesItself ++ behind)) := by
    rw [Text.dropPrefix?_eq_some_iff]
    simp only [noteTag, List.append_assoc, List.cons_append]
  have hrun : (version ++ '"' :: (noteTagEnd blank closesItself ++ behind)).takeWhile
      isVersionChar = version :=
    Text.takeWhile_append_of_boundary hversion.2 (by simp [isVersionChar])
  have hquote : Text.dropPrefix? "\"" ('"' :: (noteTagEnd blank closesItself ++ behind)) =
      some (noteTagEnd blank closesItself ++ behind) := Text.dropPrefix?_append [ '"'] _
  have hend : noteTagEnd? (noteTagEnd blank closesItself ++ behind) =
      some (closesItself, behind) := noteTagEnd?_eq_some_iff.mpr ⟨blank, rfl⟩
  have hversion' : version.isEmpty = false := by simpa using hversion.1
  have hclosing : "</".toList ++ label ++ ">".toList = noteClosing label := rfl
  generalize htext : noteTag label version blank closesItself ++ behind = t at hopening
  simp only [noteMatcher, hopening, Option.bind_eq_bind, Option.bind_some, hrun, hversion',
    Bool.false_eq_true, if_false, List.drop_left, hquote, hend, noteBefore]
  subst htext
  rw [hclosing]
  cases hcut : if closesItself then none else (noteClosing label).splitOnce? behind with
  | some parts =>
    -- The note is the text without what stands behind its closing tag.
    obtain ⟨body, after⟩ := parts
    rw [eq_of_closing hcut]
    simp only [noteElement_source, List.length_append, Option.some.injEq, Prod.mk.injEq]
    exact ⟨by omega, rfl⟩
  | none =>
    dsimp only
    rw [List.length_append, Nat.add_sub_cancel, noteElement_source, List.append_nil,
      List.append_nil]
    rfl

theorem exists_noteTag_of_noteMatcher {label t : Text} {n : Nat} {note : ChangeNote}
    (h : noteMatcher label t = some (n, note)) : ∃ version blank closesItself behind,
      IsVersion version ∧ t = noteTag label version blank closesItself ++ behind := by
  unfold noteMatcher at h
  obtain ⟨rest, hopening, h⟩ := Option.bind_eq_some_iff.mp h
  dsimp only at h
  split at h
  · cases h
  · rename_i hversion
    obtain ⟨quoted, hquote, h⟩ := Option.bind_eq_some_iff.mp h
    obtain ⟨⟨closesItself, behind⟩, hend, -⟩ := Option.bind_eq_some_iff.mp h
    rw [Text.dropPrefix?_eq_some_iff] at hopening hquote
    obtain ⟨blank, hend⟩ := noteTagEnd?_eq_some_iff.mp hend
    refine ⟨rest.takeWhile isVersionChar, blank, closesItself, behind, ⟨?_, ?_⟩, ?_⟩
    · simpa using hversion
    · intro c hc
      exact List.mem_takeWhile_imp hc
    · have hrest := List.prefix_iff_eq_append.mp (List.takeWhile_prefix isVersionChar (l := rest))
      rw [hquote, hend] at hrest
      generalize rest.takeWhile isVersionChar = version at hrest
      rw [hopening, ← hrest]
      simp only [noteTag, List.append_assoc, List.cons_append]
      rfl

/-- An opening tag has only one label, so the matcher for any label does as the one for this
label. -/
theorem anyNoteMatcher_append {label version : Text} (hlabel : label ∈ noteLabels)
    (hversion : IsVersion version) (blank closesItself : Bool) (behind : Text) :
    anyNoteMatcher (noteTag label version blank closesItself ++ behind) =
      some ((noteBefore label version blank closesItself behind).source.length,
        ⟨label, version, (noteBefore label version blank closesItself behind).body⟩) := by
  have hread := @noteMatcher_append label version hversion blank closesItself behind
  unfold anyNoteMatcher
  cases hany : noteLabels.findSome? (noteMatcher · (noteTag label version blank closesItself ++
      behind)) with
  | none =>
    rw [List.findSome?_eq_none_iff.mp hany label hlabel] at hread
    cases hread
  | some found =>
    obtain ⟨n, note⟩ := found
    obtain ⟨label', hlabel', hread'⟩ := List.exists_of_findSome?_eq_some hany
    obtain ⟨version', blank', closesItself', behind', hversion', htags⟩ :=
      exists_noteTag_of_noteMatcher hread'
    obtain ⟨rfl, -⟩ := noteTag_inj hlabel hlabel' hversion hversion' htags
    rw [← hread', hread]

theorem noteBefore_container (label version : Text) (blank closesItself : Bool) (behind : Text) :
    ChangeNote.render ⟨label, version, (noteBefore label version blank closesItself behind).body⟩ =
      (noteBefore label version blank closesItself behind).container := by
  have hcontainer : ∀ body closing, ChangeNote.render ⟨label, version, body⟩ =
      (noteElement label version blank closesItself body closing).container := by
    intro body closing
    simp only [ChangeNote.render, ChangeNote.kind, Element.container, noteElement, closeTag,
      List.append_assoc]
  unfold noteBefore
  -- The container does not depend on the closing tag, so either form has the same one.
  split
  · exact hcontainer _ _
  · exact hcontainer _ _

theorem recognises_notes : Recognises anyNoteMatcher ChangeNote.render IsNote where
  sound {t n note} h := by
    -- The first label whose matcher accepts is the one of the note, and its tag tells the parts.
    obtain ⟨label, hlabel, hread⟩ := List.exists_of_findSome?_eq_some h
    obtain ⟨version, blank, closesItself, behind, hversion, rfl⟩ :=
      exists_noteTag_of_noteMatcher hread
    rw [noteMatcher_append hversion] at hread
    cases hread
    obtain ⟨after, hafter⟩ := noteBefore_source_prefix label version blank closesItself behind
    exact ⟨_, after, isNote_iff.mpr ⟨label, hlabel, version, blank, closesItself, behind, hversion,
      rfl, hafter⟩, hafter.symm, rfl⟩
  complete {e rest} h := by
    obtain ⟨label, hlabel, version, blank, closesItself, behind, hversion, rfl, hsource⟩ :=
      isNote_iff.mp h
    rw [hsource]
    exact ⟨_, anyNoteMatcher_append hlabel hversion blank closesItself behind,
      noteBefore_container label version blank closesItself behind⟩
  source_ne_nil h := by
    cases h <;> exact List.cons_ne_nil '<' _
  unique {e e' rest rest'} h h' heq := by
    obtain ⟨label, hlabel, version, blank, closesItself, behind, hversion, rfl, hsource⟩ :=
      isNote_iff.mp h
    obtain ⟨label', hlabel', version', blank', closesItself', behind', hversion', rfl, hsource'⟩ :=
      isNote_iff.mp h'
    -- Both are read off the same text, so their tags agree part by part.
    rw [hsource, hsource'] at heq
    obtain ⟨rfl, rfl, rfl, rfl, rfl⟩ := noteTag_inj hlabel hlabel' hversion hversion' heq
    rfl

/-! ## Both passes -/

/-- Only the container of a warning is orange. -/
theorem orange_openTag_iff (look : Admonition) :
    "orange".toList <:+: look.openTag ↔ look = warning := by
  rw [← Text.contains_iff]
  cases look with
  | tip => exact iff_of_false (by decide +kernel) (by decide)
  | warning => exact iff_of_true (by decide +kernel) rfl

/-- **Rewriting admonitions keeps the content.** The pass over tips, and then the pass over version
notes, cuts its text in the only way there is into elements and gaps in which no element starts, and
puts each element into its container. The gaps and the bodies are kept as they are and in their
order. -/
theorem expandAll_keeps_content (html : Text) : ∃ tips notes : Cut,
    (∀ cut, Cuts IsTip html cut ↔ cut = tips) ∧ html = tips.source ∧
      expandTips html = tips.rewritten ∧
    (∀ cut, Cuts IsNote tips.rewritten cut ↔ cut = notes) ∧ tips.rewritten = notes.source ∧
      expandAll html = notes.rewritten ∧
    ∀ look : Admonition, "orange".toList <:+: look.openTag ↔ look = warning := by
  obtain ⟨tips, htips, hsource, hrewritten⟩ := recognises_tips.exists_only_cut html
  obtain ⟨notes, hnotes, hsource', hrewritten'⟩ :=
    recognises_notes.exists_only_cut tips.rewritten
  -- The pass over tips is the one that its matcher describes, by definition.
  have hexpanded : expandTips html = tips.rewritten := hrewritten
  refine ⟨tips, notes, htips, hsource, hexpanded, hnotes, hsource', ?_, orange_openTag_iff⟩
  rw [expandAll, hexpanded]
  exact hrewritten'

end DocPage.Admonition
