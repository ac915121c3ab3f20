import DocPage.Document.Cleanup
import DocPage.Proofs.Text.Words

/-!
# Links to images are moved to the published page

A source is its image links and the texts between them. The path of every link is exchanged for the
path on the page, and all else stays. When the strings of the page neither start a group reference
nor hold a character that links start with, the new path stands in the source as it is spelled, and
no link of the old form is left: none inside of the new path, and none at the seams around it.

## Architecture

- **Templates**: `expandTemplate_of_notMem`
- **Links**: `ImageLink` and `LinkedText`; the scan finds exactly the links
- **Seams**: no link begins inside another one, or in a text that ends with the path of images
- **Pages**: `Publication.Plain`, and the path of images on a page
- **Published links**: one law for a link and the texts around it, `publishImageLinks_link`, and one
  for a text without a link, `publishImageLinks_of_linkFree`
-/

namespace DocPage.Document

/-! ## Templates -/

/-- Without a dollar sign, a template stands for itself. -/
theorem expandTemplate_of_notMem {template : Text} (h : '$' ∉ template) (group : Nat → Text) :
    expandTemplate group template = template := by
  induction template with
  | nil => rfl
  | cons c t ih =>
    obtain ⟨hc, hrest⟩ := List.ne_and_not_mem_of_not_mem_cons h
    have hplain : (c != '$') = true := bne_iff_ne.mpr hc.symm
    show (if c != '$' then c :: expandTemplate group t else _) = c :: t
    rw [if_pos hplain, ih hrest]

/-! ## Links -/

/-- A link to an image of the repository: in Markdown, or by an attribute. -/
inductive ImageLink where
  | markdown
  | html

namespace ImageLink

/-- What stands in front of the path. -/
def opening : ImageLink → Text
  | markdown => "("
  | html => "src=\""

def written (link : ImageLink) : Text :=
  link.opening ++ "/imgs/"

end ImageLink

/-- No link to an image of the repository stands in the text. -/
def LinkFree (t : Text) : Prop :=
  ∀ link : ImageLink, ¬ link.written <:+: t

/-- A text as its image links and the texts around them, in which no link stands. -/
inductive LinkedText where
  | last (text : Text) (free : LinkFree text)
  | linked (text : Text) (free : LinkFree text) (link : ImageLink) (rest : LinkedText)

/-- The text, with `path` as the path of all links. -/
def LinkedText.withPath (path : Text) : LinkedText → Text
  | .last text _ => text
  | .linked text _ link rest => text ++ (link.opening ++ path) ++ rest.withPath path

/-- The links of a source, each with what stands in front of its path. -/
def imageLinks : List (Text × Text) :=
  [ImageLink.html, .markdown].map fun link => (link.written, link.opening)

theorem ImageLink.mem_imageLinks (link : ImageLink) :
    (link.written, link.opening) ∈ imageLinks := by
  cases link
  -- Each form is one of the two entries of the list.
  all_goals simp [imageLinks]

theorem exists_link_of_mem {word start : Text} (h : (word, start) ∈ imageLinks) :
    ∃ link : ImageLink, word = link.written ∧ start = link.opening := by
  obtain ⟨link, -, heq⟩ := List.mem_map.mp h
  cases heq
  exact ⟨link, rfl, rfl⟩

theorem linkFree_iff {t : Text} : LinkFree t ↔ FreeOf imageLinks t := by
  constructor
  · rintro h ⟨word, start⟩ hmem
    obtain ⟨link, rfl, rfl⟩ := exists_link_of_mem hmem
    exact h link
  · exact fun h link => h _ link.mem_imageLinks

/-- The scan finds the links of both forms. -/
theorem spells_imageLinks : imageLinkMatcher.Spells imageLinks :=
  show (wordMatcher imageLinks).Spells imageLinks from spells_wordMatcher (by decide) (by decide)

theorem linkFree_nil : LinkFree [] := by
  -- No link is empty, so none occurs in an empty text.
  intro link hoccurs
  exact spells_imageLinks.ne_nil link.mem_imageLinks (List.infix_nil.mp hoccurs)

/-- Where the scan finds no link, none starts. -/
theorem LinkFree.cons {c : Char} {t u : Text} (h : LinkFree t) (hnone : imageLinkMatcher u = none)
    (hu : c :: t <+: u) : LinkFree (c :: t) := by
  intro link hoccurs
  -- A link in the longer text starts at its first character or stands behind it.
  rcases List.infix_cons_iff.mp hoccurs with hstarts | hinside
  · exact spells_imageLinks.eq_none_iff.mp hnone _ link.mem_imageLinks (hstarts.trans hu)
  · exact h link hinside

/-! ## Seams -/

/-- A link does not begin inside another one, whatever its path is. -/
theorem not_straddles_opening (link : ImageLink) (before after : Text) :
    ¬ imageLinkMatcher.Straddles before (link.opening ++ after) := by
  -- No proper end of a link is the start of another one, which is decided for the few there are.
  apply spells_imageLinks.not_straddles_of_apart
  cases link
  all_goals decide

/-- No link begins in a text that ends with the path of images. -/
theorem not_straddles_imagePath (before after : Text) :
    ¬ imageLinkMatcher.Straddles (before ++ imagePath) after :=
  spells_imageLinks.not_straddles_behind (by decide) before after

/-! ## Pages -/

namespace Publication

/-- The strings of the page hold no dollar sign, no opening parenthesis and no quotation mark. -/
def Plain (page : Publication) : Prop :=
  ∀ c ∈ ['$', '(', '"'], c ∉ page.package ∧ c ∉ page.version ∧ c ∉ page.language

instance (page : Publication) : Decidable page.Plain :=
  inferInstanceAs (Decidable (∀ c ∈ ['$', '(', '"'],
    c ∉ page.package ∧ c ∉ page.version ∧ c ∉ page.language))

/-- The path of images on the page, with the strings of the page as they are spelled. -/
def imagesPath (page : Publication) : Text :=
  "/docs/".toList ++ page.package ++ '/' :: page.version ++ '/' :: page.language ++ "/imgs/"

variable {page : Publication}

theorem imageTemplate_eq (page : Publication) : page.imageTemplate = page.imagesPath :=
  rfl

theorem Plain.notMem_imagesPath (hpage : page.Plain) {c : Char} (hc : c ∈ ['$', '(', '"']) :
    c ∉ page.imagesPath := by
  obtain ⟨hpackage, hversion, hlanguage⟩ := hpage c hc
  -- What is fixed in the path holds none of the three characters.
  have hfixed : c ∉ "/docs/".toList ∧ c ≠ '/' ∧ c ∉ "/imgs/".toList :=
    (by decide : ∀ c ∈ ['$', '(', '"'],
      c ∉ "/docs/".toList ∧ c ≠ '/' ∧ c ∉ "/imgs/".toList) c hc
  obtain ⟨hdocs, hslash, himgs⟩ := hfixed
  unfold imagesPath
  simp only [List.mem_append, List.mem_cons, not_or]
  exact ⟨⟨⟨⟨hdocs, hpackage⟩, hslash, hversion⟩, hslash, hlanguage⟩, himgs⟩

/-- Every link holds a character that the path on the page does not hold. -/
theorem Plain.linkFree_imagesPath (hpage : page.Plain) : LinkFree page.imagesPath := by
  intro link hoccurs
  cases link with
  -- The parenthesis of the link would be in the path.
  | markdown =>
    have hmem : '(' ∈ ImageLink.markdown.written := by decide
    exact hpage.notMem_imagesPath (by decide) (hoccurs.subset hmem)
  | html =>
    have hmem : '"' ∈ ImageLink.html.written := by decide
    exact hpage.notMem_imagesPath (by decide) (hoccurs.subset hmem)

/-- The start of a link and the path on a page are no link of the repository. -/
theorem not_straddles_imagesPath (page : Publication) (link : ImageLink) :
    ¬ imageLinkMatcher.Straddles link.opening page.imagesPath := by
  intro hstraddles
  obtain ⟨p, hmem, n, hn, hpos, hstart, hrest⟩ := spells_imageLinks.straddles_iff.mp hstraddles
  -- Whatever is left of a link behind such a start differs from the fixed front of the path.
  have hapart : ∀ p ∈ imageLinks, ∀ n < p.1.length, 0 < n → p.1.take n <:+ link.opening →
      ¬ p.1.drop n <+: "/docs/".toList ∧ ¬ "/docs/".toList <+: p.1.drop n := by
    cases link
    all_goals decide
  obtain ⟨hstarts, hholds⟩ := hapart p hmem n hn hpos hstart
  have hdocs : "/docs/".toList <+: page.imagesPath := by
    unfold imagesPath
    rw [List.append_assoc, List.append_assoc, List.append_assoc]
    exact List.prefix_append _ _
  rcases List.prefix_or_prefix_of_prefix hrest hdocs with hp | hp
  · exact hstarts hp
  · exact hholds hp

theorem Plain.linkFree_link (hpage : page.Plain) (link : ImageLink) :
    LinkFree (link.opening ++ page.imagesPath) := by
  have hopening : FreeOf imageLinks link.opening := by
    -- The opening alone is too short to hold a link.
    have hlong : ∀ p ∈ imageLinks, link.opening.length < p.1.length := by
      cases link
      all_goals decide
    exact fun p hp hoccurs => absurd hoccurs.length_le (Nat.not_le.mpr (hlong p hp))
  rw [linkFree_iff]
  exact spells_imageLinks.freeOf_append hopening (linkFree_iff.mp hpage.linkFree_imagesPath)
    (not_straddles_imagesPath page link)

end Publication

/-! ## Published links -/

section Published

variable {page : Publication}

/-- A text without links stays as it is, whatever the page. -/
theorem publishImageLinks_of_linkFree (page : Publication) {t : Text} (h : LinkFree t) :
    publishImageLinks page t = t :=
  spells_imageLinks.mapMatches_of_freeOf _ (linkFree_iff.mp h)

/-- A link gets the path on the page, and the texts around it are read by themselves. -/
theorem publishImageLinks_link (hpage : page.Plain) (link : ImageLink) (before after : Text) :
    publishImageLinks page (before ++ link.written ++ after) =
      publishImageLinks page before ++ (link.opening ++ page.imagesPath) ++
        publishImageLinks page after := by
  have hseam : ¬ imageLinkMatcher.Straddles before (link.written ++ after) := by
    rw [ImageLink.written, List.append_assoc]
    exact not_straddles_opening link before _
  have hdollar : '$' ∉ page.imageTemplate := by
    rw [page.imageTemplate_eq]
    exact hpage.notMem_imagesPath (by decide)
  unfold publishImageLinks
  -- The link is found at its place, since no other one begins in front of it and reaches into it.
  rw [spells_imageLinks.mapMatches_word _ link.mem_imageLinks hseam,
    expandTemplate_of_notMem hdollar, page.imageTemplate_eq]

/-- Every source is its links and the texts around them. -/
theorem exists_linkedText (source : Text) :
    ∃ parts : LinkedText, source = parts.withPath "/imgs/" := by
  induction source using Text.pieces_induction spells_imageLinks.isLocal.proper with
  | nil => exact ⟨.last [] linkFree_nil, rfl⟩
  | plain c t hnone ih =>
    -- The character goes to the text in front of the first link.
    obtain ⟨parts, rfl⟩ := ih
    cases parts with
    | last text free => exact ⟨.last (c :: text) (free.cons hnone List.prefix_rfl), rfl⟩
    | linked text free link rest =>
      refine ⟨.linked (c :: text) (free.cons hnone ?_) link rest, rfl⟩
      unfold LinkedText.withPath
      rw [List.append_assoc]
      exact List.prefix_append (c :: text) _
  -- The text in front of this link is empty: what was there belongs to an earlier piece.
  | hit span after start hne hhit ih =>
    obtain ⟨parts, rfl⟩ := ih
    obtain ⟨link, rfl, -⟩ := exists_link_of_mem (spells_imageLinks.mem_of_match hhit)
    exact ⟨.linked [] linkFree_nil link parts, rfl⟩

/-- The path of every link is exchanged. -/
theorem publishImageLinks_withPath (hpage : page.Plain) (parts : LinkedText) :
    publishImageLinks page (parts.withPath "/imgs/") = parts.withPath page.imagesPath := by
  induction parts with
  | last text free => exact publishImageLinks_of_linkFree page free
  | linked text free link rest ih =>
    show publishImageLinks page (text ++ link.written ++ rest.withPath "/imgs/") = _
    rw [publishImageLinks_link hpage, publishImageLinks_of_linkFree page free, ih]
    rfl

/-- No link is left, neither in the paths on the page nor at a seam. -/
theorem linkFree_withPath (hpage : page.Plain) (parts : LinkedText) :
    LinkFree (parts.withPath page.imagesPath) := by
  induction parts with
  | last text free => exact free
  | linked text free link rest ih =>
    rw [linkFree_iff] at free ih ⊢
    have hlink := linkFree_iff.mp (hpage.linkFree_link link)
    -- The path ends as the path of images does, and no link begins there.
    have hbehind : ¬ imageLinkMatcher.Straddles (text ++ (link.opening ++ page.imagesPath))
        (rest.withPath page.imagesPath) := by
      unfold Publication.imagesPath
      rw [← List.append_assoc, ← List.append_assoc]
      exact not_straddles_imagePath _ _
    refine spells_imageLinks.freeOf_append ?_ ih hbehind
    exact spells_imageLinks.freeOf_append free hlink (not_straddles_opening link text _)

/-- **Every image link is moved to the published page, and nothing else changes.**

A source is its links and the texts around them, and only the paths of the links are exchanged.
Wherever a link stands in the source, it gets the path on the page, with the strings of the page as
they are spelled, and the texts on its two sides are published by themselves. No link is left, so
nothing is left to do for this page or for any other one. -/
theorem every_image_link_published (hpage : page.Plain) (source : Text) :
    (∃ parts : LinkedText, source = parts.withPath "/imgs/" ∧
      publishImageLinks page source = parts.withPath page.imagesPath) ∧
    (∀ before (link : ImageLink) after, source = before ++ link.written ++ after →
      publishImageLinks page source = publishImageLinks page before ++
        (link.opening ++ page.imagesPath) ++ publishImageLinks page after) ∧
    LinkFree (publishImageLinks page source) ∧
    ∀ other, publishImageLinks other (publishImageLinks page source) =
      publishImageLinks page source := by
  obtain ⟨parts, hsource⟩ := exists_linkedText source
  have hpublished : publishImageLinks page source = parts.withPath page.imagesPath := by
    rw [hsource, publishImageLinks_withPath hpage]
  have hfree : LinkFree (publishImageLinks page source) := by
    rw [hpublished]
    exact linkFree_withPath hpage parts
  refine ⟨⟨parts, hsource, hpublished⟩, ?_, hfree, ?_⟩
  -- These are about any split of the source, and not only about the one that was found.
  · rintro before link after rfl
    exact publishImageLinks_link hpage link before after
  · exact fun other => publishImageLinks_of_linkFree other hfree

/-- A page whose strings spell parts of a link. -/
def seamPage : Publication := ⟨"src=", "/imgs/", "s"⟩

/-- Links next to each other and behind parts of a link. -/
def seamSource : Text := "(/img(/imgs/src=\"/imgs/a.png \"/imgs/(/imgs"

/-- The source as it is published. -/
def seamPublished : Text :=
  "(/img(/docs/src=//imgs//s/imgs/src=\"/docs/src=//imgs//s/imgs/a.png \"/imgs/(/imgs"

theorem seamSource_published : seamPage.Plain ∧
    seamSource = "(/img(/imgs/".toList ++ ImageLink.html.written ++ "a.png \"/imgs/(/imgs" ∧
    publishImageLinks seamPage seamSource = publishImageLinks seamPage "(/img(/imgs/" ++
      (ImageLink.html.opening ++ seamPage.imagesPath) ++
        publishImageLinks seamPage "a.png \"/imgs/(/imgs" ∧
    publishImageLinks seamPage seamSource = seamPublished ∧ LinkFree seamPublished ∧
    ∀ other, publishImageLinks other seamPublished = seamPublished := by
  have hplain : seamPage.Plain := by decide +kernel
  have hpublished : publishImageLinks seamPage seamSource = seamPublished := by decide +kernel
  have hsource : seamSource =
      "(/img(/imgs/".toList ++ ImageLink.html.written ++ "a.png \"/imgs/(/imgs" := by
    decide +kernel
  obtain ⟨-, hlink, hfree, hother⟩ := every_image_link_published hplain seamSource
  have hparts := hlink _ _ _ hsource
  rw [hpublished] at hfree hother
  exact ⟨hplain, hsource, hparts, hpublished, hfree, hother⟩

/-- A parenthesis in front of a slash of the path makes another link. -/
example : publishImageLinks ⟨"p", "(", "imgs"⟩ "(/imgs/a.png" =
    "(/docs/p/(/imgs/imgs/a.png".toList := by
  decide +kernel

end Published

end DocPage.Document
