import DocPage.Proofs.Render.Markup

/-!
# What an image makes of its content

An open image takes the texts inside it for its alternative text and is to give a single tag. Only
texts ask for an open image, though: code, breaks and the tags of spans are written at once, in
front of the tag. There is also one place only for an open image. An image inside an image takes it
over and leaves it empty, so that the outer image never gives its tag and the rest of its content is
written like that of a line.

## Architecture

- **Content**: `IsPlain`, what an image holds besides images
- **Steps**: `step_markup` and `step_text_in_image`
- **Runs**: `run_in_image`, and `run_line` by induction on the nesting
- **Tags**: what the tag of an image tells
- **Images**: `run_image`, `run_image_around`, and `image_gives_own_tag_iff`
-/

namespace DocPage.Render

open Markdown (Event Inline Start enclose)

/-! ## Content -/

def isText : Event → Bool
  | .text _ => true
  | _ => false

/-- The texts among events, one behind another. -/
def plainText (events : List Event) : Text :=
  events.flatMap fun
    | .text t => t
    | _ => []

def withoutTexts (events : List Event) : List Event :=
  events.filter fun event => !isText event

def startsImage : Event → Bool
  | .start (.image _ _) => true
  | _ => false

/-- The event stands in a line and neither starts nor ends an image. -/
def IsPlain (event : Event) : Prop :=
  event.isProse = true ∨ ∃ element : Start, element.isSpan = true ∧ element.closing ≠ .image ∧
    (event = .start element ∨ event = .stop element.closing)

theorem mem_takeWhile_append {p : Event → Bool} {a b : List Event} {event : Event}
    (h : event ∈ (a ++ b).takeWhile p) : event ∈ a.takeWhile p ∨ event ∈ b.takeWhile p := by
  -- Either all of `a` is taken and part of `b`, or the taking stops inside `a`.
  by_cases hall : ∀ e ∈ a, p e = true
  · rw [List.takeWhile_append_of_pos hall] at h
    rw [List.takeWhile_eq_self_iff.mpr hall]
    exact List.mem_append.mp h
  · rw [List.takeWhile_append] at h
    split at h
    · next hlength =>
      have hself := (List.takeWhile_prefix p).eq_of_length hlength
      exact absurd (List.takeWhile_eq_self_iff.mp hself) hall
    · exact .inl h

/-- In front of its first image a line is plain: no image ends there. -/
theorem isPlain_of_mem_takeWhile {content : List Event} (h : Inline Event.isProse content) :
    ∀ event ∈ content.takeWhile fun event => !startsImage event, IsPlain event := by
  -- By the structure of the line; the case that needs care is a span, which may be the image.
  induction h with
  | nil => exact List.forall_mem_nil _
  | append _ _ iha ihb =>
    intro event hevent
    exact (mem_takeWhile_append hevent).elim (iha event) (ihb event)
  | part hpart =>
    intro event hevent
    obtain rfl := List.mem_singleton.mp ((List.takeWhile_sublist _).subset hevent)
    exact .inl hpart
  | @span element content hspan _ ih =>
    intro event hevent
    cases hstarts : startsImage (.start element) with
    | true =>
      -- Nothing stands in front of an image that comes first.
      rw [enclose, List.cons_append, List.takeWhile_cons_of_neg (by simp [hstarts])] at hevent
      cases hevent
    | false =>
      have hclosing : element.closing ≠ .image := by
        cases element with
        | image => cases hstarts
        | _ => nofun
      rw [enclose, List.cons_append, List.takeWhile_cons_of_pos (by simp [hstarts])] at hevent
      rcases List.mem_cons.mp hevent with rfl | hinside
      · exact .inr ⟨element, hspan, hclosing, .inl rfl⟩
      · rcases mem_takeWhile_append hinside with hcontent | hlast
        · exact ih event hcontent
        · have hstop := List.mem_singleton.mp ((List.takeWhile_sublist _).subset hlast)
          exact .inr ⟨element, hspan, hclosing, .inr hstop⟩

/-- A line without images is plain. -/
theorem isPlain_of_no_image {content : List Event} (h : Inline Event.isProse content)
    (hnone : ∀ event ∈ content, startsImage event = false) : ∀ event ∈ content, IsPlain event := by
  have hself : content.takeWhile (fun event => !startsImage event) = content :=
    List.takeWhile_eq_self_iff.mpr fun event hevent => by simp [hnone event hevent]
  exact fun event hevent => isPlain_of_mem_takeWhile h event (hself.symm ▸ hevent)

/-! ## Steps -/

section Steps

variable {s : State}

/-- The state with another open image. -/
def State.withImage (s : State) (image : Option OpenImage) : State :=
  { s with image }

theorem withImage_writeInline (hheading : s.heading = none) (image : Option OpenImage) (t : Text) :
    (s.withImage image).writeInline t = (s.write t).withImage image := by
  simp [State.withImage, State.writeInline, State.write, hheading]

/-- Markup goes to the page at once, whatever image is open. -/
theorem step_markup (settings : Settings) (hheading : s.heading = none) {event : Event}
    (hplain : IsPlain event) (htext : isText event = false) :
    ∃ added : Text, added ≠ [] ∧ ∀ image,
      step settings (s.withImage image) event = .ok ((s.write added).withImage image) := by
  -- With no heading open, the tag of a span is written to the page.
  have htag := withImage_writeInline hheading
  rcases hplain with hprose | ⟨element, hspan, hne, rfl | rfl⟩
  · cases event with
    | code t =>
      refine ⟨"<code>" ++ escapeIn s.region t ++ "</code>", by simp, fun image => ?_⟩
      simp [step, State.codeSpan, State.withImage, State.write, hheading]
    | softBreak =>
      refine ⟨['\n'], by simp, fun image => ?_⟩
      simp [step, State.softBreak, State.withImage, State.write, hheading]
    | hardBreak => exact ⟨_, by decide, fun image => congrArg Except.ok (htag image "<br>")⟩
    | text => cases htext
    | _ => cases hprose
  -- The starts of spans that are no images write their tags.
  · cases element with
    | image => exact absurd rfl hne
    | link destination title =>
      refine ⟨"<a href=\"" ++ escapeIn s.region destination ++ "\">", ?_, fun image => ?_⟩
      · simp
      · exact congrArg Except.ok (htag image _)
    | emphasis | strong | strikethrough | superscript | subscript =>
      refine ⟨_, ?_, fun image => congrArg Except.ok (htag image _)⟩
      simp
    | _ => cases hspan
  · cases element with
    | image => exact absurd rfl hne
    | emphasis | strong | strikethrough | superscript | subscript | link =>
      refine ⟨_, ?_, fun image => congrArg Except.ok (htag image _)⟩
      simp
    | _ => cases hspan

/-- Text goes to the open image. -/
theorem step_text_in_image (settings : Settings) (hcode : s.code = none) (image : OpenImage)
    (t : Text) : step settings (s.withImage (some image)) (.text t) =
      .ok (s.withImage (some { image with alt := image.alt ++ t })) := by
  simp [step, State.text, State.withImage, hcode]

/-- Text opens neither a heading nor an image. -/
theorem heading_image_text (hheading : s.heading = none) (t : Text) :
    (s.text t).heading = none ∧ ((s.text t).image ≠ none → s.image ≠ none) := by
  -- The text goes to a code block, to an image, to a heading, or to the page.
  unfold State.text
  split
  · exact ⟨hheading, id⟩
  · split
    · next himage => exact ⟨hheading, fun _ => by simp [himage]⟩
    · split
      · next hopen => simp [hheading] at hopen
      · split
        · exact ⟨hheading, id⟩
        · exact ⟨hheading, id⟩

namespace State

theorem closeImage_image (s : State) : s.closeImage.image = none := by
  unfold closeImage
  split
  · assumption
  · unfold writeInline
    split <;> rfl

theorem closeImage_heading (s : State) : s.closeImage.heading = s.heading := by
  unfold closeImage
  split
  · rfl
  · unfold writeInline
    split <;> rfl

end State

end Steps

/-! ## Runs -/

section Runs

variable {s : State}

/-- **In an open image, texts go to the image and everything else to the page**, where it is what it
is without an image and without the texts. -/
theorem run_in_image (settings : Settings) {events : List Event} (hheading : s.heading = none)
    (hcode : s.code = none) (hplain : ∀ event ∈ events, IsPlain event) : ∃ leak : Text,
      run settings s (withoutTexts events) = (none, s.write leak) ∧
      (∀ image : OpenImage, run settings (s.withImage (some image)) events = (none,
        (s.write leak).withImage (some { image with alt := image.alt ++ plainText events }))) ∧
      (leak = [] ↔ ∀ event ∈ events, isText event = true) := by
  -- Along the events: each of them adds to the image or to the page.
  induction events generalizing s with
  | nil =>
    exact ⟨[], by simp [withoutTexts, run, State.write],
      fun image => by simp [plainText, run, State.write], by simp⟩
  | cons event rest ih =>
    obtain ⟨hevent, hrest⟩ := List.forall_mem_cons.mp hplain
    cases htext : isText event with
    | true =>
      -- The image has a longer text, and the page is the same.
      obtain ⟨leak, hleak, himage, hiff⟩ := ih hheading hcode hrest
      cases event with
      | text t =>
        refine ⟨leak, hleak, fun image => ?_, by simpa [htext] using hiff⟩
        rw [run, step_text_in_image settings hcode]
        simpa [plainText] using himage { image with alt := image.alt ++ t }
      | _ => cases htext
    | false =>
      -- The page is longer in both runs, and the image is the same.
      obtain ⟨added, hne, hstep⟩ := step_markup settings hheading hevent htext
      obtain ⟨leak, hleak, himage, -⟩ := ih (s := s.write added) hheading hcode hrest
      have hwrite : (s.write added).write leak = s.write (added ++ leak) := by simp [State.write]
      have hkept : withoutTexts (event :: rest) = event :: withoutTexts rest := by
        simp [withoutTexts, htext]
      have halt : plainText (event :: rest) = plainText rest := by
        cases event with
        | text => cases htext
        | _ => rfl
      refine ⟨added ++ leak, ?_, fun image => ?_, by simp [hne, htext]⟩
      · have hown : step settings s event = .ok (s.write added) := hstep s.image
        rw [hkept, run, hown, ← hwrite]
        exact hleak
      · rw [run, hstep (some image), halt, ← hwrite]
        exact himage image

/-- **A line that has an image leaves no image open**, and a line without one opens none. -/
theorem run_line (settings : Settings) {content : List Event} (h : Inline Event.isProse content)
    (hheading : s.heading = none) :
    ∃ last, run settings s content = (none, last) ∧ last.heading = none ∧
      (last.image ≠ none → s.image ≠ none ∧ ∀ event ∈ content, startsImage event = false) := by
  -- By the structure of the line; the end of an image inside leaves the place empty.
  induction h generalizing s with
  | nil => exact ⟨s, rfl, hheading, fun himage => ⟨himage, List.forall_mem_nil _⟩⟩
  | append _ _ iha ihb =>
    obtain ⟨mid, hmid, hheading', himage⟩ := iha hheading
    obtain ⟨last, hlast, hheading'', himage'⟩ := ihb hheading'
    refine ⟨last, (run_append hmid).trans hlast, hheading'', fun hopen => ?_⟩
    obtain ⟨hopen', hb⟩ := himage' hopen
    obtain ⟨hopen'', ha⟩ := himage hopen'
    exact ⟨hopen'', List.forall_mem_append.mpr ⟨ha, hb⟩⟩
  | @part event hpart =>
    cases htext : isText event with
    -- Text may go to an open image but opens none.
    | true =>
      cases event with
      | text t =>
        obtain ⟨hheading', himage⟩ := heading_image_text hheading t
        refine ⟨s.text t, run_singleton rfl, hheading', fun hopen => ⟨himage hopen, ?_⟩⟩
        exact List.forall_mem_singleton.mpr rfl
      | _ => cases htext
    | false =>
      obtain ⟨added, -, hstep⟩ := step_markup settings hheading (.inl hpart) htext
      refine ⟨s.write added, run_singleton (hstep s.image), hheading, fun hopen => ⟨hopen, ?_⟩⟩
      refine List.forall_mem_singleton.mpr ?_
      cases event with
      | start => cases hpart
      | _ => rfl
  | @span element content hspan _ ih =>
    by_cases hclosing : element.closing = .image
    · cases element with
      | image source title =>
        -- The end of an image leaves none open, whatever its content did to the place.
        obtain ⟨last, hlast, hheading', -⟩ := ih (s := s.start (.image source title)) hheading
        refine ⟨last.closeImage, run_enclose hlast, last.closeImage_heading.trans hheading', ?_⟩
        exact fun hopen => absurd last.closeImage_image hopen
      | _ => cases hclosing
    · -- Both tags of any other span are markup, which no open image changes.
      have hplain : ∀ event, event = .start element ∨ event = .stop element.closing →
          IsPlain event := fun event hevent => .inr ⟨element, hspan, hclosing, hevent⟩
      obtain ⟨_, -, hstart⟩ := step_markup settings hheading (hplain _ (.inl rfl)) rfl
      have hopened := Except.ok.inj (hstart s.image)
      obtain ⟨last, hlast, hheading', himage⟩ := ih (s := s.start element)
        ((congrArg State.heading hopened).trans hheading)
      obtain ⟨_, -, hstop⟩ := step_markup settings hheading' (hplain _ (.inr rfl)) rfl
      have hclosed := Except.ok.inj (hstop last.image)
      refine ⟨last.stop element.closing, run_enclose hlast,
        (congrArg State.heading hclosed).trans hheading', fun hopen => ?_⟩
      obtain ⟨hopen', hcontent⟩ := himage ((congrArg State.image hclosed) ▸ hopen)
      refine ⟨(congrArg State.image hopened) ▸ hopen', ?_⟩
      refine List.forall_mem_append.mpr ⟨List.forall_mem_cons.mpr ⟨?_, hcontent⟩, ?_⟩
      · cases element with
        | image => exact absurd rfl hclosing
        | _ => rfl
      · exact List.forall_mem_singleton.mpr rfl

end Runs

/-! ## Tags -/

section Tags

variable {region : Body.Region} {a b : OpenImage}

theorem exists_imageMarkup (region : Body.Region) (image : OpenImage) :
    ∃ rest : Text, State.imageMarkup region image =
      '<' :: ("img src=\"".toList ++ (escapeIn region image.source ++ '"' :: rest)) ∧
      '<' ∉ rest := by
  -- An escaped value has no `<`, so the only one is that of the tag.
  have hvalue : ∀ t, '<' ∉ escapeIn region t := fun t => (isValue_escapeIn region t).notMem_lt
  unfold State.imageMarkup
  split
  · exact ⟨" alt=\"" ++ escapeIn region image.alt ++ "\">", by simp, by simp [hvalue]⟩
  · exact ⟨" alt=\"" ++ escapeIn region image.alt ++ "\" title=\"" ++
      escapeIn region image.title ++ "\">", by simp, by simp [hvalue]⟩

/-- The tag of an image tells its source. -/
theorem escapeIn_source_eq (h : State.imageMarkup region a = State.imageMarkup region b) :
    escapeIn region a.source = escapeIn region b.source := by
  obtain ⟨_, ha, -⟩ := exists_imageMarkup region a
  obtain ⟨_, hb, -⟩ := exists_imageMarkup region b
  rw [ha, hb] at h
  -- The source ends at the first quote, since an escaped value has none.
  have hvalue : ∀ t, ∀ c ∈ escapeIn region t, (c != '"') = true := fun t c hc =>
    bne_iff_ne.mpr (isValue_escapeIn region t c hc).2
  have hbehind := List.append_cancel_left (List.cons.inj h).2
  exact (Text.run_append_inj hbehind (hvalue _) (hvalue _) (by simp) (by simp)).1

/-- The tag of an image does not end with that of another one. -/
theorem eq_nil_of_append_imageMarkup {leak : Text}
    (h : leak ++ State.imageMarkup region a = State.imageMarkup region b) : leak = [] := by
  obtain ⟨_, ha, -⟩ := exists_imageMarkup region a
  obtain ⟨rest, hb, hrest⟩ := exists_imageMarkup region b
  cases leak with
  | nil => rfl
  | cons c leak =>
    -- The second `<` would stand inside the tag.
    rw [ha, hb] at h
    have hmem : '<' ∈ "img src=\"".toList ++ (escapeIn region b.source ++ '"' :: rest) := by
      rw [← (List.cons.inj h).2]
      simp
    have hsource := (isValue_escapeIn region b.source).notMem_lt
    simp [hsource, hrest] at hmem

end Tags

/-! ## Images -/

section Images

variable {settings : Settings} {s : State} {content : List Event}

/-- An image without images in it: the rest of its content in front, and a tag with the texts. -/
theorem run_image (settings : Settings) (hheading : s.heading = none) (hcode : s.code = none)
    (hplain : ∀ event ∈ content, IsPlain event) (source title : Text) : ∃ leak : Text,
      run settings s (withoutTexts content) = (none, s.write leak) ∧
      run settings s (enclose (.image source title) content) = (none, State.withImage
        (s.write (leak ++ State.imageMarkup s.region ⟨source, title, plainText content⟩)) none) ∧
      (leak = [] ↔ ∀ event ∈ content, isText event = true) := by
  obtain ⟨leak, hleak, himage, hiff⟩ := run_in_image settings hheading hcode hplain
  refine ⟨leak, hleak, ?_, hiff⟩
  -- Behind the content the image is closed, and its tag is written with all texts.
  rw [run_enclose (himage ⟨source, title, []⟩)]
  simp [State.stop, Start.closing, State.closeImage, State.withImage, State.writeInline,
    State.write, hheading]

/-- An image around another one: only the rest of the content in front of that one is kept from it,
and everything from there on is written as if it stood in a line. -/
theorem run_image_around (settings : Settings) (hheading : s.heading = none) (hcode : s.code = none)
    (h : Inline Event.isProse content) {front rest : List Event} {a b : Text}
    (hcontent : content = front ++ .start (.image a b) :: rest)
    (hfront : ∀ event ∈ front, startsImage event = false) (source title : Text) : ∃ last,
      run settings s (enclose (.image source title) content) = (none, last) ∧
      run settings s (withoutTexts front ++ .start (.image a b) :: rest) = (none, last) := by
  -- What stands in front of the first image is plain, so it goes to the outer image or to the page.
  have htake : content.takeWhile (fun event => !startsImage event) = front := by
    rw [hcontent, List.takeWhile_append_of_pos fun event hevent => by simp [hfront event hevent]]
    simp [startsImage]
  obtain ⟨leak, hleak, himage, -⟩ :=
    run_in_image settings hheading hcode (htake ▸ isPlain_of_mem_takeWhile h)
  obtain ⟨last, hlast, -, hopen⟩ :=
    run_line settings h (s := s.start (.image source title)) hheading
  -- The inner image leaves no image open, so the end of the outer one does nothing.
  have hclosed : last.image = none := by
    by_contra hne
    have hstart := (hopen hne).2 (.start (.image a b)) (by simp [hcontent])
    cases hstart
  refine ⟨last, ?_, ?_⟩
  · rw [run_enclose hlast]
    simp [State.stop, Start.closing, State.closeImage, hclosed]
  · -- The inner image takes the place of whatever image is open.
    have hopened : run settings (s.start (.image source title)) front = (none, _) :=
      himage ⟨source, title, []⟩
    rw [hcontent, run_append hopened] at hlast
    rw [run_append hleak]
    exact hlast

/-- Whatever the source and the title are, the image writes its tag with them and nothing else. -/
def GivesOwnTag (settings : Settings) (s : State) (content : List Event) : Prop :=
  ∀ source title, ∃ alt last,
    run settings s (enclose (.image source title) content) = (none, last) ∧
      last.output = s.output ++ State.imageMarkup s.region ⟨source, title, alt⟩

/-- Nothing of an image around another one tells its source. -/
theorem not_givesOwnTag_around (hheading : s.heading = none) (hcode : s.code = none)
    (h : Inline Event.isProse content) {front rest : List Event} {a b : Text}
    (hcontent : content = front ++ .start (.image a b) :: rest)
    (hfront : ∀ event ∈ front, startsImage event = false) : ¬ GivesOwnTag settings s content := by
  intro hown
  -- Two outer images with different sources write the same.
  have haround := run_image_around settings hheading hcode h hcontent hfront
  obtain ⟨last, hrun, hline⟩ := haround [] []
  obtain ⟨last', hrun', hline'⟩ := haround ['x'] []
  obtain rfl : last = last' := congrArg Prod.snd (hline.symm.trans hline')
  obtain ⟨alt, final, hfinal, houtput⟩ := hown [] []
  obtain ⟨alt', final', hfinal', houtput'⟩ := hown ['x'] []
  obtain rfl : last = final := congrArg Prod.snd (hrun.symm.trans hfinal)
  obtain rfl : last = final' := congrArg Prod.snd (hrun'.symm.trans hfinal')
  have hsource : escapeIn s.region [] = escapeIn s.region ['x'] :=
    escapeIn_source_eq (List.append_cancel_left (houtput.symm.trans houtput'))
  -- The two sources are escaped differently in every region.
  have hne : ∀ region : Body.Region, escapeIn region [] ≠ escapeIn region ['x'] := by
    intro region
    cases region <;> decide
  exact hne s.region hsource

/-- **An image gives exactly its own tag when it holds nothing but texts**, and only then.

Without another image in it, it writes the rest of its content as it stands, and behind that its tag
with all texts in it. With another one it writes no tag of its own: the texts in front of the inner
image are lost, and the inner image and all behind it are written as if they stood in a line. -/
theorem image_gives_own_tag_iff (settings : Settings) (s : State) (hheading : s.heading = none)
    (hcode : s.code = none) {content : List Event} (h : Inline Event.isProse content) :
    (∀ source title,
      ((∀ event ∈ content, startsImage event = false) → ∃ leak : Text,
        run settings s (withoutTexts content) = (none, s.write leak) ∧
        run settings s (enclose (.image source title) content) = (none, State.withImage
          (s.write (leak ++ State.imageMarkup s.region ⟨source, title, plainText content⟩)) none) ∧
        (leak = [] ↔ ∀ event ∈ content, isText event = true)) ∧
      (∀ front a b rest, content = front ++ .start (.image a b) :: rest →
        (∀ event ∈ front, startsImage event = false) → ∃ last,
          run settings s (enclose (.image source title) content) = (none, last) ∧
          run settings s (withoutTexts front ++ .start (.image a b) :: rest) = (none, last))) ∧
    (GivesOwnTag settings s content ↔ ∀ event ∈ content, isText event = true) := by
  -- The two parts for content with and without an image are shown once and used for both
  -- directions.
  have hsingle : (∀ event ∈ content, startsImage event = false) → ∀ source title, _ :=
    fun hnone => run_image settings hheading hcode (isPlain_of_no_image h hnone)
  refine ⟨fun source title => ⟨fun hnone => hsingle hnone source title,
    fun front a b rest hcontent hfront =>
      run_image_around settings hheading hcode h hcontent hfront source title⟩, ?_, ?_⟩
  -- From the tag to the content: an image inside would hide the source, and markup would leak.
  · intro hown
    cases hfind : content.find? startsImage with
    | none =>
      have hnone : ∀ event ∈ content, startsImage event = false := fun event hevent =>
        Bool.eq_false_iff.mpr (List.find?_eq_none.mp hfind event hevent)
      obtain ⟨leak, -, hrun, hiff⟩ := hsingle hnone [] []
      obtain ⟨alt, last, hlast, houtput⟩ := hown [] []
      -- Behind a leak the page would have two tags.
      have hpage : s.output ++
          (leak ++ State.imageMarkup s.region ⟨[], [], plainText content⟩) = last.output :=
        congrArg (fun outcome => outcome.2.output) (hrun.symm.trans hlast)
      exact hiff.mp (eq_nil_of_append_imageMarkup
        (List.append_cancel_left (hpage.trans houtput)))
    | some event =>
      obtain ⟨hstarts, front, rest, hcontent, hfront⟩ := List.find?_eq_some_iff_append.mp hfind
      match event with
      | .start (.image a b) =>
        refine absurd hown (not_givesOwnTag_around hheading hcode h hcontent fun e he => ?_)
        simpa using hfront e he
  -- From the content to the tag: texts alone are no images, and nothing of them leaks.
  · intro htexts source title
    have hnone : ∀ event ∈ content, startsImage event = false := by
      intro event hevent
      cases event with
      | text => rfl
      | _ => cases htexts _ hevent
    obtain ⟨leak, -, hrun, hiff⟩ := hsingle hnone source title
    obtain rfl := hiff.mpr htexts
    exact ⟨plainText content, _, hrun, rfl⟩

end Images

/-- The outer image writes the tag of the inner one, and the text behind it. -/
example : (run {} {} (enclose (.image "y".toList []) ([.text "a ".toList] ++
    (enclose (.image "x".toList []) [.text "b".toList] ++ [.text " c".toList])))).2.output =
      "<img src=\"x\" alt=\"b\"> c".toList := by
  decide +kernel

/-- Two texts, emphasis around text and code, and a break. -/
def mixedContent : List Event :=
  [.text "a".toList] ++ (enclose .emphasis ([.text "<b".toList] ++ [.code "c".toList]) ++
    [.softBreak])

theorem inline_mixedContent : Inline Event.isProse mixedContent :=
  .append (.part rfl) (.append (.span rfl (.append (.part rfl) (.part rfl))) (.part rfl))

/-- The texts are in the tag, and the rest stands in front of it. -/
theorem mixedContent_in_front : Inline Event.isProse mixedContent ∧
    (run {} {} (enclose (.image "i.png".toList []) mixedContent)).2.output =
      "<em><code>c</code></em>\n<img src=\"i.png\" alt=\"a&lt;b\">".toList ∧
    ¬ GivesOwnTag {} {} mixedContent := by
  obtain ⟨hwhat, hiff⟩ := image_gives_own_tag_iff {} {} rfl rfl inline_mixedContent
  refine ⟨inline_mixedContent, ?_, fun hown => ?_⟩
  · obtain ⟨leak, hleak, himage, -⟩ := (hwhat "i.png".toList []).1 (by decide)
    have hwritten : leak = "<em><code>c</code></em>\n".toList := by
      have houtput := congrArg (fun outcome => outcome.2.output) hleak
      exact houtput.symm.trans (by decide +kernel)
    subst hwritten
    rw [himage]
    decide +kernel
  · have hcode := hiff.mp hown (.code "c".toList) (by decide)
    cases hcode

/-- Text and code in an image, as Markdown has them for ``![see `x`](i.png)``. -/
def codeContent : List Event :=
  [.text "see ".toList] ++ [.code "x".toList]

/-- The code is in front of the tag, and its text is not in it. -/
theorem image_code_stays_outside : Inline Event.isProse codeContent ∧
    (run {} {} (enclose (.image "i.png".toList []) codeContent)).2.output =
      "<code>x</code><img src=\"i.png\" alt=\"see \">".toList :=
  ⟨.append (.part rfl) (.part rfl), by decide +kernel⟩

end DocPage.Render
