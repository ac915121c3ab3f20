import DocPage.Document.Include
import DocPage.Files.Tree
import DocPage.Markdown.Lexical
import DocPage.Proofs.Text.Lines
import DocPage.Proofs.Text.Trim
import Mathlib.Data.List.Forall2

/-!
# The lines of an included file

Anchors are looked for at the ends of lines, and the last line with an anchor counts. Between the
anchors of a request stand the lines that are included; the block holds them in order, with the
indentation of the tag and without their own, between two fences. `resolveInclude_copies_lines` says
this of every request, every file and every tree of files, together with what is reported when an
anchor is missing.

## Architecture

- **Anchors**: `Anchored` and `LastAnchored`, which `lastAnchored?` finds
- **Selected lines**: `AtPositions`, and what `excerpt` takes
- **Rows**: `Dedents`, and the body of a block
- **Blocks**: `Included`, which is what resolving an include comes to
-/

namespace DocPage.Document

/-! ## Anchors -/

/-- The line ends with the anchor, but for blanks around it and punctuation behind the anchor. -/
def Anchored (anchor line : Text) : Prop :=
  ∃ trimmed part, Text.CoreWithin Unicode.isBlank line trimmed ∧
    Text.CoreInFront (!isAnchorChar ·) trimmed part ∧ anchor <:+ part

/-- The position is that of the last line with the anchor. -/
def LastAnchored (anchor : Text) (lines : List Text) (i : Nat) : Prop :=
  (∃ line, lines[i]? = some line ∧ Anchored anchor line) ∧
    ∀ j line, i < j → lines[j]? = some line → ¬ Anchored anchor line

def Missing (anchor : Text) (lines : List Text) : Prop := ∀ line ∈ lines, ¬ Anchored anchor line

theorem endsWith_anchorPart_iff {anchor line : Text} :
    Text.endsWith anchor (anchorPart line) = true ↔ Anchored anchor line := by
  have hends : Text.endsWith anchor (anchorPart line) = true ↔ anchor <:+ anchorPart line := by
    unfold Text.endsWith
    rw [Option.isSome_iff_exists]
    constructor
    · rintro ⟨front, hfront⟩
      exact ⟨front, (Text.dropSuffix?_eq_some_iff.mp hfront).symm⟩
    · rintro ⟨front, hfront⟩
      exact ⟨front, Text.dropSuffix?_eq_some_iff.mpr hfront.symm⟩
  -- The part in front of the punctuation is unique, so it is the one that the reader takes.
  rw [hends]
  constructor
  · intro h
    exact ⟨Text.trim line, anchorPart line, Text.trimWhile_eq_iff.mp rfl,
      Text.coreInFront_dropRightWhile _ _, h⟩
  · rintro ⟨trimmed, part, htrimmed, hpart, h⟩
    obtain rfl : Text.trim line = trimmed := Text.trimWhile_eq_iff.mpr htrimmed
    obtain rfl : anchorPart line = part := Text.dropRightWhile_eq_iff.mpr hpart
    exact h

/-- The search starts with the last line. -/
theorem lastAnchored?_concat (anchor : Text) (lines : List Text) (line : Text) :
    lastAnchored? anchor (lines ++ [line]) =
      if Text.endsWith anchor (anchorPart line) then some lines.length
      else lastAnchored? anchor lines := by
  unfold lastAnchored?
  rw [List.reverse_append, List.reverse_singleton, List.singleton_append, List.findIdx?_cons]
  split
  · simp
  -- Positions are counted from the end, so one more line behind changes the count and not the line.
  · rw [Option.map_map]
    apply congrArg (Option.map · _)
    funext fromEnd
    simp only [Function.comp_apply, List.length_append, List.length_singleton]
    omega

section Concat

variable {anchor last : Text} {lines : List Text} {i : Nat}

theorem getElem?_concat_eq_some_iff {line : Text} :
    (lines ++ [last])[i]? = some line ↔
      lines[i]? = some line ∨ (i = lines.length ∧ last = line) := by
  -- In front of the last line, at it, or behind it.
  rcases Nat.lt_trichotomy i lines.length with hinside | rfl | hbehind
  · rw [List.getElem?_append_left hinside]
    simp [hinside.ne]
  · rw [List.getElem?_concat_length, List.getElem?_eq_none (Nat.le_refl _)]
    simp
  · have hlength : (lines ++ [last]).length ≤ i := by
      rw [List.length_append]
      exact hbehind
    rw [List.getElem?_eq_none hlength, List.getElem?_eq_none hbehind.le]
    simp [hbehind.ne']

/-- With the anchor in the last line, no other line counts. -/
theorem lastAnchored_concat_of_anchored (h : Anchored anchor last) :
    LastAnchored anchor (lines ++ [last]) i ↔ i = lines.length := by
  constructor
  -- A line in front of the last one does not count, since the last one has the anchor.
  · rintro ⟨⟨line, hline, -⟩, hafter⟩
    rcases getElem?_concat_eq_some_iff.mp hline with hinside | ⟨rfl, -⟩
    · have hi := (List.getElem?_eq_some_iff.mp hinside).1
      exact absurd h (hafter lines.length last hi List.getElem?_concat_length)
    · rfl
  · rintro rfl
    refine ⟨⟨last, List.getElem?_concat_length, h⟩, fun j line hj hline => ?_⟩
    rcases getElem?_concat_eq_some_iff.mp hline with hinside | ⟨rfl, -⟩
    · exact absurd (List.getElem?_eq_some_iff.mp hinside).1 (Nat.lt_asymm hj)
    · exact absurd hj (Nat.lt_irrefl _)

/-- Without it, the lines in front of the last one count. -/
theorem lastAnchored_concat_of_not (h : ¬ Anchored anchor last) :
    LastAnchored anchor (lines ++ [last]) i ↔ LastAnchored anchor lines i := by
  -- The two differ in the last position only, which cannot be the one looked for.
  unfold LastAnchored
  simp only [getElem?_concat_eq_some_iff]
  constructor
  · rintro ⟨⟨line, hline | ⟨-, rfl⟩, hanchor⟩, hafter⟩
    · exact ⟨⟨line, hline, hanchor⟩, fun j other hj hget => hafter j other hj (.inl hget)⟩
    · exact absurd hanchor h
  · rintro ⟨⟨line, hline, hanchor⟩, hafter⟩
    refine ⟨⟨line, .inl hline, hanchor⟩, fun j other hj hget => ?_⟩
    rcases hget with hget | ⟨-, rfl⟩
    · exact hafter j other hj hget
    · exact h

end Concat

theorem lastAnchored?_eq_some_iff {anchor : Text} {lines : List Text} {i : Nat} :
    lastAnchored? anchor lines = some i ↔ LastAnchored anchor lines i := by
  -- From the end of the list, as the search goes.
  induction lines using List.reverseRecOn with
  | nil =>
    constructor
    · rintro ⟨⟩
    · rintro ⟨⟨line, hline, -⟩, -⟩
      cases hline
  | append_singleton lines last ih =>
    rw [lastAnchored?_concat]
    split
    · next hanchor =>
      rw [lastAnchored_concat_of_anchored (endsWith_anchorPart_iff.mp hanchor), Option.some.injEq,
        eq_comm]
    · next hother =>
      rw [lastAnchored_concat_of_not (mt endsWith_anchorPart_iff.mpr hother), ih]

theorem lastAnchored?_eq_none_iff {anchor : Text} {lines : List Text} :
    lastAnchored? anchor lines = none ↔ Missing anchor lines := by
  unfold lastAnchored? Missing
  simp only [Option.map_eq_none_iff, List.findIdx?_eq_none_iff, List.mem_reverse,
    ← Bool.not_eq_true, endsWith_anchorPart_iff]

/-- The position of an anchor that may be given. -/
inductive Bound (lines : List Text) : (anchor : Option Text) → Option Nat → Prop where
  | open : Bound lines none none
  | anchored {anchor : Text} {i : Nat} : LastAnchored anchor lines i →
      Bound lines (some anchor) (some i)

theorem anchorLine_eq_ok_iff {path : Text} {lines : List Text} {anchor : Option Text}
    {position : Option Nat} :
    anchorLine path lines anchor = .ok position ↔ Bound lines anchor position := by
  cases anchor with
  | none =>
    constructor
    · rintro ⟨⟩
      exact .open
    · rintro ⟨⟩
      rfl
  | some anchor =>
    rw [anchorLine]
    constructor
    -- The search decides; what it finds is the last line with the anchor.
    · intro h
      cases hfound : lastAnchored? anchor lines with
      | none =>
        rw [hfound] at h
        cases h
      | some i =>
        rw [hfound] at h
        cases h
        exact .anchored (lastAnchored?_eq_some_iff.mp hfound)
    · rintro (_ | hlast)
      rw [lastAnchored?_eq_some_iff.mpr hlast]

theorem anchorLine_eq_error_iff {path : Text} {lines : List Text} {anchor : Option Text}
    {e : RenderError} :
    anchorLine path lines anchor = .error e ↔
      ∃ missing, anchor = some missing ∧ Missing missing lines ∧
        e = .includeAnchor missing path := by
  cases anchor with
  | none => simp [anchorLine]
  | some anchor =>
    rw [anchorLine]
    cases hfound : lastAnchored? anchor lines with
    | none =>
      have hmissing := lastAnchored?_eq_none_iff.mp hfound
      constructor
      · rintro ⟨⟩
        exact ⟨anchor, rfl, hmissing, rfl⟩
      · rintro ⟨_, ⟨⟩, -, rfl⟩
        rfl
    | some i =>
      constructor
      · rintro ⟨⟩
      · rintro ⟨_, ⟨⟩, hmissing, -⟩
        rw [lastAnchored?_eq_none_iff.mpr hmissing] at hfound
        cases hfound

/-! ## Selected lines -/

/-- The second list has those lines of the first one that stand at the positions in `P`, in order.
The first line stands at position `i`. -/
inductive AtPositions (P : Nat → Prop) : (i : Nat) → List Text → List Text → Prop where
  | nil {i : Nat} : AtPositions P i [] []
  | take {i : Nat} {line : Text} {lines selected : List Text} : P i →
      AtPositions P (i + 1) lines selected → AtPositions P i (line :: lines) (line :: selected)
  | skip {i : Nat} {line : Text} {lines selected : List Text} : ¬ P i →
      AtPositions P (i + 1) lines selected → AtPositions P i (line :: lines) selected

/-- The position comes after `start` and before `stop`, as far as these are given. -/
def Between (start stop : Option Nat) (i : Nat) : Prop :=
  (∀ k ∈ start, k < i) ∧ ∀ k ∈ stop, i < k

section Selection

variable {P : Nat → Prop} {lines selected : List Text}

theorem AtPositions.unique {i : Nat} {other : List Text} (h : AtPositions P i lines selected)
    (hother : AtPositions P i lines other) : selected = other := by
  -- At each line, both lists take it or both skip it.
  induction h generalizing other with
  | nil =>
    cases hother
    rfl
  | take hi _ ih =>
    cases hother with
    | take _ hrest => rw [ih hrest]
    | skip hnot _ => exact absurd hi hnot
  | skip hnot _ ih =>
    cases hother with
    | take hi _ => exact absurd hi hnot
    | skip _ hrest => exact ih hrest

/-- Dropping lines in front and behind leaves the lines of a range. -/
theorem atPositions_drop_take (first stop : Nat) (i : Nat) (lines : List Text) :
    AtPositions (fun j => first ≤ j ∧ j < stop) i lines
      ((lines.take (stop - i)).drop (first - i)) := by
  -- One line at a time: the range moves towards the start as lines are passed.
  induction lines generalizing i with
  | nil =>
    rw [List.take_nil, List.drop_nil]
    exact .nil
  | cons line lines ih =>
    have hrest := ih (i + 1)
    -- In front of the range, in it, or behind it.
    by_cases hstop : i < stop
    · rw [show stop - i = (stop - (i + 1)) + 1 by omega, List.take_succ_cons]
      by_cases hfirst : first ≤ i
      · rw [show first - (i + 1) = 0 by omega] at hrest
        rw [show first - i = 0 by omega]
        exact .take ⟨hfirst, hstop⟩ hrest
      · rw [show first - i = (first - (i + 1)) + 1 by omega, List.drop_succ_cons]
        exact .skip (fun h => hfirst h.1) hrest
    · rw [show stop - i = 0 by omega, List.take_zero, List.drop_nil]
      rw [show stop - (i + 1) = 0 by omega, List.take_zero, List.drop_nil] at hrest
      exact .skip (fun h => hstop h.2) hrest

/-- Only the positions of lines count. -/
theorem AtPositions.congr {Q : Nat → Prop} {i : Nat} (h : AtPositions P i lines selected)
    (hiff : ∀ j < i + lines.length, P j ↔ Q j) : AtPositions Q i lines selected := by
  induction h with
  | nil => exact .nil
  | @take i line lines selected hi _ ih =>
    rw [List.length_cons] at hiff
    exact .take ((hiff i (by omega)).mp hi) (ih fun j hj => hiff j (by omega))
  | @skip i line lines selected hnot _ ih =>
    rw [List.length_cons] at hiff
    exact .skip (fun hi => hnot ((hiff i (by omega)).mpr hi)) (ih fun j hj => hiff j (by omega))

/-- The lines between two positions are all lines up to the second without those up to the first. -/
theorem atPositions_between_iff {start stop : Option Nat} :
    AtPositions (Between start stop) 0 lines selected ↔
      (lines.take (stop.getD lines.length)).drop (start.elim 0 (· + 1)) = selected := by
  -- Existence is enough, since the lines at given positions are unique.
  have htaken : AtPositions (Between start stop) 0 lines
      ((lines.take (stop.getD lines.length)).drop (start.elim 0 (· + 1))) := by
    refine (atPositions_drop_take (start.elim 0 (· + 1)) (stop.getD lines.length) 0 lines).congr ?_
    intro j hj
    unfold Between
    apply and_congr
    · cases start with
      | none => simp
      | some k =>
        simp only [Option.elim_some, Option.mem_def, Option.some.injEq, forall_eq']
        exact Nat.succ_le_iff
    · cases stop with
      | none => simpa using hj
      | some k => simp
  constructor
  · exact fun h => htaken.unique h
  · rintro rfl
    exact htaken

end Selection

section Excerpt

variable {request : IncludeRequest} {path : Text} {lines : List Text}

theorem excerpt_eq {start stop : Option Nat} (hstart : Bound lines request.startAfter start)
    (hstop : Bound lines request.endBefore stop) :
    excerpt request path lines =
      .ok ((lines.take (stop.getD lines.length)).drop (start.elim 0 (· + 1))) := by
  unfold excerpt
  rw [anchorLine_eq_ok_iff.mpr hstart, anchorLine_eq_ok_iff.mpr hstop]
  cases start with
  | none => rfl
  | some i => rfl

/-- What is taken from the lines of a file: those between the anchors, or an anchor is missing. The
anchor that lines come after is looked for first. -/
inductive Selected (request : IncludeRequest) (path : Text) (lines : List Text) :
    Except RenderError (List Text) → Prop where
  | startMissing {anchor : Text} : request.startAfter = some anchor → Missing anchor lines →
      Selected request path lines (.error (.includeAnchor anchor path))
  | stopMissing {anchor : Text} {start : Option Nat} : Bound lines request.startAfter start →
      request.endBefore = some anchor → Missing anchor lines →
      Selected request path lines (.error (.includeAnchor anchor path))
  | lines {start stop : Option Nat} {selected : List Text} :
      Bound lines request.startAfter start → Bound lines request.endBefore stop →
      AtPositions (Between start stop) 0 lines selected →
      Selected request path lines (.ok selected)

theorem excerpt_eq_iff {outcome : Except RenderError (List Text)} :
    excerpt request path lines = outcome ↔ Selected request path lines outcome := by
  constructor
  · rintro rfl
    -- Each of the two anchors is found, or is missing and reported.
    cases hstart : anchorLine path lines request.startAfter with
    | error e =>
      obtain ⟨anchor, hanchor, hmissing, rfl⟩ := anchorLine_eq_error_iff.mp hstart
      unfold excerpt
      rw [hstart]
      exact .startMissing hanchor hmissing
    | ok start =>
      have hfirst := anchorLine_eq_ok_iff.mp hstart
      cases hstop : anchorLine path lines request.endBefore with
      | error e =>
        obtain ⟨anchor, hanchor, hmissing, rfl⟩ := anchorLine_eq_error_iff.mp hstop
        unfold excerpt
        rw [hstart, hstop]
        exact .stopMissing hfirst hanchor hmissing
      | ok stop =>
        have hlast := anchorLine_eq_ok_iff.mp hstop
        rw [excerpt_eq hfirst hlast]
        exact .lines hfirst hlast (atPositions_between_iff.mpr rfl)
  · rintro (⟨hanchor, hmissing⟩ | ⟨hfirst, hanchor, hmissing⟩ | ⟨hfirst, hlast, hselected⟩)
    · unfold excerpt
      rw [anchorLine_eq_error_iff.mpr ⟨_, hanchor, hmissing, rfl⟩]
      rfl
    · unfold excerpt
      rw [anchorLine_eq_ok_iff.mpr hfirst,
        anchorLine_eq_error_iff.mpr ⟨_, hanchor, hmissing, rfl⟩]
      rfl
    · rw [excerpt_eq hfirst hlast, atPositions_between_iff.mp hselected]

end Excerpt

/-! ## Rows -/

/-- The row is the line without up to `width` characters at its start. The characters that end the
line stay. -/
def Dedents (width : Nat) (line row : Text) : Prop :=
  ∃ content ending, line = content ++ ending ∧
    (∀ c ∈ content.getLast?, Markdown.isLineEnd c = false) ∧
    (∀ c ∈ ending, Markdown.isLineEnd c = true) ∧ row = content.drop width ++ ending

/-- The rows of a block: the dedented lines with the indentation in front. -/
def Rows (width : Nat) (indent : Text) (lines rows : List Text) : Prop :=
  List.Forall₂ (fun line row => ∃ dedented, Dedents width line dedented ∧ row = indent ++ dedented)
    lines rows

/-- The second text is the indentation at the end of the first one. -/
def IndentOf (before indent : Text) : Prop :=
  ∃ front, before = front ++ indent ∧ (∀ c ∈ indent, c = ' ' ∨ c = '\t') ∧
    ∀ c ∈ front.getLast?, c ≠ ' ' ∧ c ≠ '\t'

/-- The lines of the content of a file. A byte order mark belongs to no line. -/
inductive FileLines : (content : Text) → List Text → Prop where
  | marked {content : Text} {lines : List Text} : Text.InLines content lines →
      FileLines ('\ufeff' :: content) lines
  | unmarked {content : Text} {lines : List Text} : content.head? ≠ some '\ufeff' →
      Text.InLines content lines → FileLines content lines

theorem dropIndent_eq_iff {width : Nat} {line row : Text} :
    dropIndent width line = row ↔ Dedents width line row := by
  -- Taking no more than the content has leaves the characters that end the line.
  have hdrop : ∀ content ending : Text, (content ++ ending).drop (min width content.length) =
      content.drop width ++ ending := by
    intro content ending
    rw [List.drop_append_of_le_length (Nat.min_le_right _ _)]
    rcases Nat.le_total width content.length with hle | hge
    · rw [Nat.min_eq_left hle]
    · rw [Nat.min_eq_right hge, List.drop_length, List.drop_eq_nil_of_le hge]
  constructor
  · rintro rfl
    obtain ⟨ending, hline, hending, hcontent⟩ :=
      Text.coreInFront_dropRightWhile Markdown.isLineEnd line
    refine ⟨_, ending, hline, hcontent, hending, ?_⟩
    rw [← hdrop, ← hline]
    rfl
  · rintro ⟨content, ending, hline, hcontent, hending, rfl⟩
    have hcore : Text.dropRightWhile Markdown.isLineEnd line = content :=
      Text.dropRightWhile_eq_iff.mpr ⟨ending, hline, hending, hcontent⟩
    show line.drop (min width (Text.dropRightWhile Markdown.isLineEnd line).length) = _
    rw [hcore, hline, hdrop]

theorem map_dropIndent_eq_iff {width : Nat} {indent : Text} {lines rows : List Text} :
    (lines.map fun line => indent ++ dropIndent width line) = rows ↔
      Rows width indent lines rows := by
  -- A row is settled by itself, and the lists are compared row by row.
  have hrow : ∀ line row, (∃ dedented, Dedents width line dedented ∧ row = indent ++ dedented) ↔
      indent ++ dropIndent width line = row := by
    intro line row
    constructor
    · rintro ⟨dedented, hdedented, rfl⟩
      rw [dropIndent_eq_iff.mpr hdedented]
    · rintro rfl
      exact ⟨_, dropIndent_eq_iff.mp rfl, rfl⟩
  unfold Rows
  simp only [hrow]
  rw [← List.forall₂_map_left_iff (R := Eq), List.forall₂_eq_eq_eq]

theorem indentOf_trailingIndent (before : Text) : IndentOf before (trailingIndent before) := by
  refine ⟨Text.dropRightWhile (fun c => c == ' ' || c == '\t') before, ?_, ?_, ?_⟩
  · rw [Text.dropRightWhile, trailingIndent, ← List.reverse_append, List.takeWhile_append_dropWhile,
      List.reverse_reverse]
  · intro c hc
    have hblank := List.mem_takeWhile_imp (List.mem_reverse.mp hc)
    simpa using hblank
  · intro c hc
    obtain ⟨_, _, _, hlast⟩ :=
      Text.coreInFront_dropRightWhile (fun c => c == ' ' || c == '\t') before
    simpa using hlast c hc

theorem fileLines_linesKeepEnds (content : Text) :
    FileLines content (Text.linesKeepEnds (dropByteOrderMark content)) := by
  unfold dropByteOrderMark
  cases hmark : Text.dropPrefix? ['\ufeff'] content with
  -- The content does not start with the mark, since the reader found none to drop.
  | none =>
    refine .unmarked (fun hhead => ?_) (Text.inLines_linesKeepEnds content)
    obtain ⟨rest, rfl⟩ := List.head?_eq_some_iff.mp hhead
    rw [Text.dropPrefix?_eq_none_iff] at hmark
    exact hmark ⟨rest, rfl⟩
  | some rest =>
    obtain rfl : content = ['\ufeff'] ++ rest := Text.dropPrefix?_eq_some_iff.mp hmark
    exact .marked (Text.inLines_linesKeepEnds rest)

/-! ## Blocks -/

/-- What an include comes to: what is reported when an anchor is missing, or else the block of the
selected lines. It stands between the opening fence with the language and the indented closing
fence; no blanks stand at the end of its rows. -/
inductive Included (request : IncludeRequest) (path indent : Text) (lines : List Text) :
    Except RenderError Text → Prop where
  | missing {e : RenderError} : Selected request path lines (.error e) →
      Included request path indent lines (.error e)
  | block {selected rows : List Text} {body : Text} : Selected request path lines (.ok selected) →
      Rows request.dedent indent selected rows →
      Text.CoreInFront Unicode.isBlank rows.flatten body →
      Included request path indent lines
        (.ok (fence ++ request.language ++ '\n' :: body ++ '\n' :: indent ++ fence))

section Blocks

variable {request : IncludeRequest} {path indent content : Text}

theorem fencedBlock_eq {selected rows : List Text} {body : Text}
    (hrows : Rows request.dedent indent selected rows)
    (hbody : Text.CoreInFront Unicode.isBlank rows.flatten body) :
    fencedBlock request indent selected =
      fence ++ request.language ++ '\n' :: body ++ '\n' :: indent ++ fence := by
  unfold fencedBlock
  rw [List.flatMap_def, map_dropIndent_eq_iff.mpr hrows]
  obtain rfl : Text.trimEnd rows.flatten = body := Text.dropRightWhile_eq_iff.mpr hbody
  rfl

theorem includeBlock_eq :
    includeBlock request path indent content =
      (excerpt request path (Text.linesKeepEnds (dropByteOrderMark content))).map
        (fencedBlock request indent) := by
  unfold includeBlock
  dsimp only
  cases excerpt request path (Text.linesKeepEnds (dropByteOrderMark content)) with
  | error e => rfl
  | ok selected => rfl

theorem includeBlock_eq_iff {outcome : Except RenderError Text} :
    includeBlock request path indent content = outcome ↔
      Included request path indent (Text.linesKeepEnds (dropByteOrderMark content)) outcome := by
  rw [includeBlock_eq]
  constructor
  -- The block is read off the lines; what it is called with does not matter.
  · rintro rfl
    cases hexcerpt : excerpt request path (Text.linesKeepEnds (dropByteOrderMark content)) with
    | error e => exact .missing (excerpt_eq_iff.mp hexcerpt)
    | ok selected =>
      have hrows := map_dropIndent_eq_iff.mp (Eq.refl
        (selected.map fun line => indent ++ dropIndent request.dedent line))
      have hbody := Text.coreInFront_dropRightWhile Unicode.isBlank
        (selected.map fun line => indent ++ dropIndent request.dedent line).flatten
      have hblock := Included.block (excerpt_eq_iff.mp hexcerpt) hrows hbody
      rw [← fencedBlock_eq hrows hbody] at hblock
      exact hblock
  · rintro (hmissing | ⟨hselected, hrows, hbody⟩)
    · rw [excerpt_eq_iff.mpr hmissing]
      rfl
    · rw [excerpt_eq_iff.mpr hselected, ← fencedBlock_eq hrows hbody]
      rfl

/-- Resolving an include reads its file, and leaves the files as they are. -/
theorem run_resolveInclude {tree : Files.Tree} {base body : Text}
    (hrequest : IncludeRequest.read? (Text.trim body) = some request)
    (hread : tree.read (Files.join base request.path) = .ok content) :
    (resolveInclude (m := StateM Files.Tree) base indent body).run.run tree =
      (includeBlock request (Files.join base request.path) indent content, tree) := by
  unfold resolveInclude
  dsimp only
  rw [hrequest]
  have hcontent : (monadLift (Files.Access.read (Files.join base request.path) :
      StateM Files.Tree _) : ExceptT RenderError (StateM Files.Tree) _).run.run tree =
        (.ok (.ok content), tree) := by
    rw [← hread]
    rfl
  dsimp only
  -- The file is read first, and nothing that comes behind it touches the tree.
  rw [ExceptT.run_bind, StateT.run_bind, hcontent]
  show (MonadExcept.ofExcept (includeBlock request (Files.join base request.path) indent content) :
    ExceptT RenderError (StateM Files.Tree) Text).run.run tree = _
  cases includeBlock request (Files.join base request.path) indent content with
  | error e => rfl
  | ok block => rfl

/-- **An include copies the lines between its anchors.**

The lines are those of the file, without a byte order mark, and the indentation is that of the tag.
The include comes to what `Included` says of them, and to nothing else; the files stay as they
are. -/
theorem resolveInclude_copies_lines {tree : Files.Tree} {base before body : Text}
    (hrequest : IncludeRequest.read? (Text.trim body) = some request)
    (hread : tree.read (Files.join base request.path) = .ok content) :
    ∃ indent lines, IndentOf before indent ∧ FileLines content lines ∧
      ∀ outcome, (resolveInclude (m := StateM Files.Tree) base (trailingIndent before)
        body).run.run tree = (outcome, tree) ↔
          Included request (Files.join base request.path) indent lines outcome := by
  refine ⟨trailingIndent before, Text.linesKeepEnds (dropByteOrderMark content),
    indentOf_trailingIndent before, fileLines_linesKeepEnds content, fun outcome => ?_⟩
  rw [run_resolveInclude hrequest hread, Prod.mk.injEq, and_iff_left rfl, includeBlock_eq_iff]

/-- A tag in a list item takes the lines behind its anchor, without their own indentation. -/
theorem included_in_list_item :
    ∃ indent lines, IndentOf "- a\n  ".toList indent ∧
      FileLines "\ufeffx\n# START:\n\ty\r\n\n".toList lines ∧
      Included ⟨"a.py", some "START", none, 1, "py"⟩ "/a.py" indent lines
        (.ok "\x60\x60\x60py\n  y\n  \x60\x60\x60".toList) := by
  have hrequest : IncludeRequest.read? (Text.trim "[\"a.py\", \"START\", null, 1, \"py\"]") =
      some ⟨"a.py", some "START", none, 1, "py"⟩ := by decide +kernel
  have hread : Files.Tree.read ⟨[(["a.py"], .file (some "\ufeffx\n# START:\n\ty\r\n\n"))], []⟩
      (Files.join "/" "a.py") = .ok "\ufeffx\n# START:\n\ty\r\n\n".toList := by decide +kernel
  obtain ⟨indent, lines, hindent, hlines, h⟩ :=
    @resolveInclude_copies_lines _ _ _ _ "- a\n  ".toList _ hrequest hread
  exact ⟨indent, lines, hindent, hlines, (h _).mp rfl⟩

end Blocks

end DocPage.Document
