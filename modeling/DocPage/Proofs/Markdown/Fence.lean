import DocPage.Markdown.Structure
import DocPage.Proofs.Markdown.Line
import DocPage.Proofs.Text.Trim

/-!
# Fenced code blocks

A code block that stands outside all containers goes from its opening fence to the first line that
closes it. `block_fenced` reads such a block in front of any text: as long as none of its lines
closes the fence, they all are its code.

## Architecture

- **Closing fences**: `ClosesFence`, and that the reader closes a block at no other line
- **Code**: the lines of a block, read up to a line that may close it
- **Containers**: `Outdented`, where a line without indentation leaves all containers
- **Blocks**: the block that starts at a fence
-/

namespace DocPage.Markdown

/-! ## Closing fences -/

/-- The line closes a fence of three backticks: up to three blanks, then three or more backticks,
then only blanks and tabs. -/
def ClosesFence (line : Text) : Prop :=
  ∃ front ticks behind, line = front ++ ticks ++ behind ∧ front.length ≤ 3 ∧
    (∀ c ∈ front, c = ' ') ∧ 3 ≤ ticks.length ∧ (∀ c ∈ ticks, c = '\x60') ∧
    ∀ c ∈ behind, c = ' ' ∨ c = '\t'

theorem ClosesFence.backtick_mem {line : Text} (h : ClosesFence line) : '\x60' ∈ line := by
  obtain ⟨front, ticks, behind, rfl, -, -, hlength, hticks, -⟩ := h
  cases ticks with
  | nil => cases hlength
  | cons c ticks =>
    obtain rfl := hticks c List.mem_cons_self
    simp

/-- Only blanks stand in front of the first line end of a text, or of its end; what stands behind
it. -/
inductive RestOfLine : (t after : Text) → Prop where
  | stop {blanks : Text} : (∀ c ∈ blanks, c = ' ') → RestOfLine blanks []
  | ending {blanks ending after : Text} : (∀ c ∈ blanks, c = ' ') → LineEnding ending after →
      RestOfLine (blanks ++ (ending ++ after)) after

variable {line ending t : Text}

/-- What stands behind the line that closes a fence of three backticks outside all containers, if
such a line is at the start of the text. -/
def closing? (t : Text) : Option Text :=
  match ({ rest := t } : Cursor).readSpaces 4 with
  | (0, _) => none
  | (_, after) => closingFence? '\x60' 3 after.rest

theorem lineEnd?_cons {c : Char} (hc : isLineEnd c = false) (t : Text) :
    lineEnd? (c :: t) = none := by
  obtain ⟨hfeed, hreturn⟩ := isLineEnd_eq_false_iff.mp hc
  simp [lineEnd?, hfeed, hreturn]

theorem head?_append_ne {c : Char} {u : Text} (ht : t.head? ≠ some c) (hu : u.head? ≠ some c) :
    (t ++ u).head? ≠ some c := by
  cases t with
  | nil => exact hu
  | cons d t => exact ht

/-- A closing fence is looked for in the backticks at the start of a text and the blanks behind
them. -/
theorem closingFence?_append {ticks blanks rest : Text} (hticks : ∀ c ∈ ticks, c = '\x60')
    (hblanks : ∀ c ∈ blanks, c = ' ') (hboundary : (blanks ++ rest).head? ≠ some '\x60')
    (hrest : rest.head? ≠ some ' ') (hne : ticks ++ (blanks ++ rest) ≠ []) :
    closingFence? '\x60' 3 (ticks ++ (blanks ++ rest)) =
      if 3 ≤ ticks.length ∧ atLineEnd rest then dropBlankLine? rest else none := by
  -- The run of backticks ends where the blanks begin, or at what is behind them.
  have hlength : runLength '\x60' (ticks ++ (blanks ++ rest)) = ticks.length := by
    apply congrArg List.length
    refine Text.takeWhile_append_of_boundary (fun c hc => by simp [hticks c hc]) fun c hc => ?_
    simpa using ne_of_apply_ne some (hc ▸ hboundary)
  have hdrop : (blanks ++ rest).dropWhile (· == ' ') = rest := by
    refine Text.dropWhile_append_of_boundary (fun c hc => by simp [hblanks c hc]) fun c hc => ?_
    simpa using ne_of_apply_ne some (hc ▸ hrest)
  unfold closingFence?
  dsimp only
  rw [if_neg (by simpa using hne), hlength, List.drop_left, hdrop]
  -- Fewer than three backticks are refused before the rest of the line is looked at.
  by_cases hlong : ticks.length < 3
  · rw [if_pos hlong, if_neg fun h => absurd h.1 (by omega)]
  · rw [if_neg hlong]
    simp only [Nat.not_lt.mp hlong, true_and]

/-- Fewer blanks than there may be are all of one column. -/
theorem exists_blanks_of_readSpacesFrom (t : Text) (n column tabStart : Nat)
    (hcolumn : n + (column - tabStart) = 4) (hle : tabStart ≤ column)
    (h : (Cursor.readSpacesFrom t n column tabStart).1 ≠ 0) :
    ∃ front, t = front ++ (Cursor.readSpacesFrom t n column tabStart).2.rest ∧
      front.length < n ∧ ∀ c ∈ front, c = ' ' := by
  -- Along the reader of blanks, which has a case for each character that it may meet.
  fun_induction Cursor.readSpacesFrom t n column tabStart with
  | case1 => exact absurd rfl h
  | case2 t n column tabStart ih =>
    obtain ⟨front, ht, hlength, hfront⟩ := ih (by omega) (by omega) h
    exact ⟨' ' :: front, congrArg (' ' :: ·) ht, by simpa using hlength,
      List.forall_mem_cons.mpr ⟨rfl, hfront⟩⟩
  | case3 t n column tabStart width hwidth ih =>
    -- A tab fills the four columns.
    have hfull : n + 1 - width = 0 := by omega
    rw [hfull, Cursor.readSpacesFrom] at h
    exact absurd rfl h
  | case4 => exact absurd rfl h
  | case5 t n column tabStart => exact ⟨[], rfl, Nat.pos_of_ne_zero h, List.forall_mem_nil _⟩

/-- The backticks at the start of a text, and the blanks behind them. -/
theorem exists_ticks (t : Text) : ∃ ticks blanks rest, t = ticks ++ (blanks ++ rest) ∧
    (∀ c ∈ ticks, c = '\x60') ∧ (∀ c ∈ blanks, c = ' ') ∧
    (blanks ++ rest).head? ≠ some '\x60' ∧ rest.head? ≠ some ' ' := by
  -- What is left when a run is taken does not begin with its character.
  have hstop : ∀ (d : Char) (t : Text), (t.dropWhile (· == d)).head? ≠ some d := by
    intro d t h
    simpa using Text.head?_dropWhile_eq_false (· == d) t d h
  have hrun : ∀ (d : Char) (t : Text), ∀ c ∈ t.takeWhile (· == d), c = d := by
    intro d t c hc
    simpa using List.mem_takeWhile_imp hc
  refine ⟨t.takeWhile (· == '\x60'), (t.dropWhile (· == '\x60')).takeWhile (· == ' '),
    (t.dropWhile (· == '\x60')).dropWhile (· == ' '), ?_, hrun _ _, hrun _ _, ?_, hstop _ _⟩
  · rw [List.takeWhile_append_dropWhile, List.takeWhile_append_dropWhile]
  · rw [List.takeWhile_append_dropWhile]
    exact hstop _ _

section Line

variable {e : Char} {content behind : Text}

/-- Only backticks with blanks behind them are taken for a closing fence. -/
theorem closingFence?_eq_none (he : isLineEnd e = true) (hcontent : OneLine content)
    (hnot : ∀ ticks blanks, content = ticks ++ blanks → (∀ c ∈ ticks, c = '\x60') →
      (∀ c ∈ blanks, c = ' ') → ¬ 3 ≤ ticks.length) :
    closingFence? '\x60' 3 (content ++ e :: behind) = none := by
  -- The line is read as backticks, blanks and a rest; the rest must be empty to close a fence.
  obtain ⟨ticks, blanks, rest, rfl, hticks, hblanks, hboundary, hrest⟩ := exists_ticks content
  have hend : ∀ c, isLineEnd c = false → (e :: behind).head? ≠ some c := by
    intro c hc hhead
    rw [← Option.some.inj hhead, he] at hc
    cases hc
  have hboundary' : (blanks ++ (rest ++ e :: behind)).head? ≠ some '\x60' := by
    rw [← List.append_assoc]
    exact head?_append_ne hboundary (hend _ rfl)
  rw [List.append_assoc, List.append_assoc, closingFence?_append hticks hblanks hboundary'
    (head?_append_ne hrest (hend _ rfl)) (by simp)]
  refine if_neg fun ⟨hlong, hatEnd⟩ => ?_
  cases rest with
  | nil => exact hnot ticks blanks (by simp) hticks hblanks hlong
  | cons c rest =>
    -- Something else stands behind the blanks.
    have hc : isLineEnd c = false := hcontent c (by simp)
    rw [List.cons_append, atLineEnd, lineEnd?_cons hc] at hatEnd
    cases hatEnd

/-- Blanks at the start of a line do not reach over its end. -/
theorem exists_content_of_blanks {line front rest : Text} (he : isLineEnd e = true)
    (hfront : ∀ c ∈ front, c = ' ') (h : line ++ e :: behind = front ++ rest) :
    ∃ content, line = front ++ content ∧ rest = content ++ e :: behind := by
  -- The blanks end in front of the line end, or would have to hold it.
  rcases Text.append_cases h with ⟨u, hline, hrest⟩ | ⟨u, rfl, hu⟩
  · exact ⟨u, hline, hrest⟩
  · cases u with
    | nil => exact ⟨[], by simp, by simpa using hu.symm⟩
    | cons c u =>
      obtain ⟨rfl, -⟩ := List.cons.inj hu
      rw [hfront e (by simp)] at he
      cases he

end Line

/-- A line that does not close a fence is no closing fence for the reader either. -/
theorem closing?_eq_none (hline : OneLine line) (hnot : ¬ ClosesFence line)
    (h : LineEnding ending t) : closing? (line ++ (ending ++ t)) = none := by
  obtain ⟨e, behind, hbehind, he⟩ := h.exists_cons
  rw [hbehind]
  have hread : ({ rest := line ++ e :: behind } : Cursor).readSpaces 4 =
      Cursor.readSpacesFrom (line ++ e :: behind) 4 0 0 := rfl
  unfold closing?
  rw [hread]
  -- Four columns of blanks make the line code; with fewer there is something to be looked at.
  cases hspaces : Cursor.readSpacesFrom (line ++ e :: behind) 4 0 0 with
  | mk missing after =>
    cases missing with
    | zero => rfl
    | succ missing =>
      obtain ⟨front, hfront, hlength, hblank⟩ := exists_blanks_of_readSpacesFrom
        (line ++ e :: behind) 4 0 0 rfl (Nat.le_refl 0)
        (by rw [hspaces]; exact Nat.succ_ne_zero missing)
      rw [hspaces] at hfront
      obtain ⟨content, rfl, hafter⟩ := exists_content_of_blanks he hblank hfront
      show closingFence? '\x60' 3 after.rest = none
      rw [hafter]
      refine closingFence?_eq_none he (fun c hc => hline c (List.mem_append_right front hc)) ?_
      rintro ticks blanks rfl hticks hblanks hlong
      exact hnot ⟨front, ticks, blanks, (List.append_assoc ..).symm, by omega, hblank, hlong,
        hticks, fun c hc => .inl (hblanks c hc)⟩

theorem RestOfLine.exists_lineEnd {after : Text} (h : RestOfLine t after) :
    ∃ blanks rest n, t = blanks ++ rest ∧ (∀ c ∈ blanks, c = ' ') ∧
      (∀ c ∈ rest.head?, isLineEnd c = true) ∧ lineEnd? rest = some (n, after) := by
  cases h with
  | stop hblanks =>
    exact ⟨t, [], 0, (List.append_nil t).symm, hblanks, by simp, rfl⟩
  | @ending blanks ending after hblanks hending =>
    refine ⟨blanks, ending ++ after, ending.length, rfl, hblanks, fun c hc => ?_,
      lineEnd?_append hending⟩
    obtain ⟨e, behind, hbehind, he⟩ := hending.exists_cons
    rw [hbehind] at hc
    cases hc
    exact he

/-- A line of three backticks closes the fence, whatever stands behind the line. -/
theorem closing?_eq_some {after : Text} (h : RestOfLine t after) :
    closing? ("\x60\x60\x60".toList ++ t) = some after := by
  obtain ⟨blanks, rest, n, rfl, hblanks, hhead, hend⟩ := h.exists_lineEnd
  -- What is behind the blanks is a line end or nothing.
  have hne : ∀ c, isLineEnd c = false → rest.head? ≠ some c := by
    intro c hc h
    rw [hhead c h] at hc
    cases hc
  have hboundary : (blanks ++ rest).head? ≠ some '\x60' := by
    refine head?_append_ne (fun h => ?_) (hne _ rfl)
    exact absurd (hblanks _ (List.mem_of_mem_head? h)) (by decide)
  have hdropped : dropBlankLine? rest = some after := by
    -- No blank is left in front of the line end, so none is dropped.
    have hstart : ([] ++ rest).dropWhile isSpace = rest := by
      refine Text.dropWhile_append_of_boundary (List.forall_mem_nil _) fun c hc => ?_
      have hc := hhead c hc
      simp only [isLineEnd, Bool.or_eq_true, beq_iff_eq] at hc
      rcases hc with rfl | rfl
      · rfl
      · rfl
    rw [List.nil_append] at hstart
    rw [dropBlankLine?, hstart, hend]
    rfl
  show closingFence? '\x60' 3 ("\x60\x60\x60".toList ++ (blanks ++ rest)) = some after
  rw [closingFence?_append (by decide) hblanks hboundary (hne _ rfl) (by simp), atLineEnd, hend,
    if_pos ⟨by decide, rfl⟩, hdropped]

/-! ## Code -/

/-- Outside all containers a block takes one line after the other, up to one that closes it. -/
theorem fencedLines_succ {r : BlockReader} (hframes : r.frames = []) (n : Nat) (t : Text) :
    r.fencedLines 0 '\x60' 3 (n + 1) t =
      match closing? t with
      | some rest => ([], rest)
      | none =>
        (normalizeLineEnd (splitLine t).1 ++ (r.fencedLines 0 '\x60' 3 n (splitLine t).2).1,
          (r.fencedLines 0 '\x60' 3 n (splitLine t).2).2) := by
  -- Without containers every line belongs to the block, so nothing else ends it.
  rw [BlockReader.fencedLines]
  simp only [BlockReader.line, hframes, List.reverse_nil, matchFrames]
  rfl

/-- Lines that do not close the block are its code, in front of any text. -/
theorem fencedLines_append {r : BlockReader} (hframes : r.frames = []) {code : Text}
    (hcode : ∀ line ∈ linesOf code, ¬ ClosesFence line) (hlast : code.getLast? ≠ some '\r')
    (n : Nat) (t : Text) :
    r.fencedLines 0 '\x60' 3 (n + (linesOf code).length) (code ++ '\n' :: t) =
      (Text.replace "\r\n" "\n" (code ++ ['\n']) ++ (r.fencedLines 0 '\x60' 3 n t).1,
        (r.fencedLines 0 '\x60' 3 n t).2) := by
  -- One line of code, with any end, takes one unit of fuel.
  have hline : ∀ {line ending rest : Text} (fuel : Nat), OneLine line → ¬ ClosesFence line →
      LineEnding ending rest →
      r.fencedLines 0 '\x60' 3 (fuel + 1) (line ++ (ending ++ rest)) =
        (normalizeLineEnd (line ++ ending) ++ (r.fencedLines 0 '\x60' 3 fuel rest).1,
          (r.fencedLines 0 '\x60' 3 fuel rest).2) := by
    intro line ending rest fuel hone hnot hending
    rw [fencedLines_succ hframes, closing?_eq_none hone hnot hending,
      splitLine_append hone hending]
  -- The fuel goes down by one with each line.
  induction code using linesOf_induction with
  | last line hone =>
    rw [linesOf_of_oneLine hone] at hcode ⊢
    have hreplaced : Text.replace "\r\n" "\n" (line ++ ['\n']) =
        normalizeLineEnd (line ++ ['\n']) ++ [] := replace_lineEnds_append hone (t := []) .feed
    rw [hreplaced, List.append_nil]
    exact hline n hone (hcode line (List.mem_singleton_self line)) .feed
  | cons line ending code hone hending ih =>
    have hbehind : (ending ++ code).getLast? ≠ some '\r' := getLast?_ne_of_append hlast
    have hrest : code.getLast? ≠ some '\r' := getLast?_ne_of_append hbehind
    rw [linesOf_append hone hending] at hcode ⊢
    obtain ⟨hnot, hcode⟩ := List.forall_mem_cons.mp hcode
    rw [List.append_assoc, List.append_assoc, List.append_assoc, List.append_assoc,
      List.length_cons, ← Nat.add_assoc, hline _ hone hnot (hending.append hbehind _),
      ih hcode hrest, replace_lineEnds_append hone (hending.append hbehind _), List.append_assoc]

/-! ## Containers -/

/-- A line without indentation goes on with none of these containers, which are given outermost
first; it ends a list. -/
inductive Unindented : List Container → Prop where
  | nil : Unindented []
  | quote {alert : Option AlertKind} {inner : List Container} : Unindented (.quote alert :: inner)
  | list {tight : Bool} {symbol : Char} {number : Nat} : Unindented [.list tight symbol number]
  | item {tight : Bool} {symbol : Char} {number indent : Nat} {inner : List Container} :
      Unindented (.list tight symbol number :: .item (indent + 1) :: inner)

/-- A line without indentation leaves all containers of the reader. -/
inductive Outdented (r : BlockReader) : Prop where
  | unindented : Unindented (r.frames.reverse.map (·.container)) → Outdented r
  /-- The last item has nothing but its marker and a blank line. It asks for no indentation any
  more, and is closed all the same. -/
  | emptied {tight : Bool} {symbol : Char} {number : Nat} :
      r.frames.reverse.map (·.container) = [.list tight symbol number, .item 0] →
      r.emptyItem = true → r.lastLineBlank = true → Outdented r

/-- The second reader is the first one after all containers are closed. -/
structure Closed (r s : BlockReader) : Prop where
  frames : s.frames = []
  blocks : s.blocks = (r.closeTo 0).blocks
  definitions : s.definitions = r.definitions

section Containers

variable {r : BlockReader}

theorem containers_close (r : BlockReader) :
    r.close.frames.map (·.container) = (r.frames.map (·.container)).tail := by
  unfold BlockReader.close
  -- The innermost container is added to the one around it, or to the document.
  cases hframes : r.frames with
  | nil => simp [hframes]
  | cons f frames =>
    cases frames with
    | nil => simp [BlockReader.add]
    | cons g frames => simp [BlockReader.add]

theorem definitions_close (r : BlockReader) : r.close.definitions = r.definitions := by
  unfold BlockReader.close
  cases hframes : r.frames with
  | nil => rfl
  | cons f frames =>
    cases frames with
    | nil => rfl
    | cons g frames => rfl

theorem closeTo_induction {motive : Nat → BlockReader → Prop} (r : BlockReader)
    (start : motive 0 r) (step : ∀ k s, motive k s → motive (k + 1) s.close) (n : Nat) :
    motive (r.frames.length - n) (r.closeTo n) := by
  unfold BlockReader.closeTo
  -- Closing one container after the other, as many times as there are too many.
  induction r.frames.length - n with
  | zero => exact start
  | succ k ih => exact step k _ ih

theorem containers_closeTo (n : Nat) (r : BlockReader) :
    (r.closeTo n).frames.map (·.container) =
      (r.frames.map (·.container)).drop (r.frames.length - n) := by
  refine closeTo_induction (motive := fun k s => s.frames.map (·.container) =
    (r.frames.map (·.container)).drop k) r rfl (fun k s hs => ?_) n
  rw [containers_close, hs, List.tail_drop]

theorem definitions_closeTo (n : Nat) (r : BlockReader) :
    (r.closeTo n).definitions = r.definitions :=
  closeTo_induction (motive := fun _ s => s.definitions = r.definitions) r rfl
    (fun _ s hs => (definitions_close s).trans hs) n

/-- Outside all containers there is no list to finish. -/
theorem closed_finishList (h : r.frames = []) : Closed r r.finishList := by
  obtain ⟨extended, frames, blocks, emptyItem, lastLineBlank, task, definitions⟩ := r
  obtain rfl : frames = [] := h
  -- What is remembered of the last line is cleared, which no block shows.
  cases emptyItem <;> cases lastLineBlank <;> exact ⟨rfl, rfl, rfl⟩

/-- Finishing the only list closes it. -/
theorem closed_finishList_of_list {f : Frame} {tight : Bool} {symbol : Char} {number : Nat}
    (h : r.frames = [f]) (hf : f.container = .list tight symbol number) :
    Closed r r.finishList := by
  obtain ⟨extended, frames, blocks, emptyItem, lastLineBlank, task, definitions⟩ := r
  obtain rfl : frames = [f] := h
  obtain ⟨container, children⟩ := f
  obtain rfl : container = .list tight symbol number := hf
  -- Whatever is remembered, the list is the only container and is closed.
  cases tight <;> cases emptyItem <;> cases lastLineBlank <;> exact ⟨rfl, rfl, rfl⟩

/-- An item that is empty after a blank line is closed together with the list around it. -/
theorem closed_finishList_of_emptied {f g : Frame} {tight : Bool} {symbol : Char} {number : Nat}
    (h : r.frames = [g, f]) (hf : f.container = .list tight symbol number)
    (hg : g.container = .item 0) (hempty : r.emptyItem = true) (hblank : r.lastLineBlank = true) :
    Closed r r.finishList := by
  obtain ⟨extended, frames, blocks, emptyItem, lastLineBlank, task, definitions⟩ := r
  obtain rfl : frames = [g, f] := h
  obtain ⟨container, children⟩ := f
  obtain rfl : container = .list tight symbol number := hf
  obtain ⟨container, children⟩ := g
  obtain rfl : container = .item 0 := hg
  obtain rfl : emptyItem = true := hempty
  obtain rfl : lastLineBlank = true := hblank
  cases tight <;> exact ⟨rfl, rfl, rfl⟩

/-- A line that starts with a backtick has no container markers. -/
theorem matchFrames_fence (frames : List Frame) (t : Text) :
    (matchFrames frames { rest := '\x60' :: t }).2 = { rest := '\x60' :: t } := by
  -- Frame by frame; the line itself is never changed, since it has no marker to take.
  induction frames with
  | nil => rfl
  | cons f frames ih =>
    unfold matchFrames
    cases f.container with
    | quote alert => rfl
    | list tight symbol number => exact ih
    | item indent =>
      cases indent with
      | zero => exact ih
      | succ indent => rfl

theorem frames_closeTo_zero (r : BlockReader) : (r.closeTo 0).frames = [] := by
  have hcontainers := containers_closeTo 0 r
  rw [Nat.sub_zero, ← List.length_map (·.container), List.drop_length] at hcontainers
  exact List.map_eq_nil_iff.mp hcontainers

/-- Of the open containers, the outermost one is closed last. -/
theorem exists_outermost {f : Frame} {inner : List Frame} (h : r.frames.reverse = f :: inner) :
    ∃ g, (r.closeTo 1).frames = [g] ∧ g.container = f.container ∧
      r.closeTo 0 = (r.closeTo 1).close := by
  -- The frames are kept innermost first, so the outermost one is the last.
  have hframes : r.frames = inner.reverse ++ [f] := by
    have hreversed := congrArg List.reverse h
    rwa [List.reverse_reverse, List.reverse_cons] at hreversed
  have hlength : r.frames.length = inner.length + 1 := by
    rw [hframes, List.length_append, List.length_reverse, List.length_singleton]
  have hcontainers := containers_closeTo 1 r
  rw [hlength, hframes, List.map_append, Nat.add_sub_cancel,
    List.drop_left' (by rw [List.length_map, List.length_reverse])] at hcontainers
  obtain ⟨g, hg, hcontainer⟩ := List.map_eq_singleton_iff.mp hcontainers
  refine ⟨g, hg, hcontainer, ?_⟩
  unfold BlockReader.closeTo
  rw [hlength]
  rfl

theorem closed_closeTo_zero (r : BlockReader) : Closed r (r.closeTo 0).finishList := by
  have hclosed := closed_finishList (frames_closeTo_zero r)
  refine ⟨hclosed.frames, hclosed.blocks.trans ?_, ?_⟩
  -- With no containers left, closing again does nothing.
  · rw [BlockReader.closeTo, frames_closeTo_zero]
    rfl
  · exact hclosed.definitions.trans (definitions_closeTo 0 r)

/-- With only the outermost list left, finishing it closes all containers. -/
theorem closed_closeTo_one {f : Frame} {inner : List Frame} {tight : Bool} {symbol : Char}
    {number : Nat} (h : r.frames.reverse = f :: inner)
    (hf : f.container = .list tight symbol number) : Closed r (r.closeTo 1).finishList := by
  obtain ⟨g, hframes, hg, hzero⟩ := exists_outermost h
  have hclosed := closed_finishList_of_list hframes (hg.trans hf)
  refine ⟨hclosed.frames, hclosed.blocks.trans ?_, ?_⟩
  · rw [hzero, BlockReader.closeTo, hframes]
    rfl
  · exact hclosed.definitions.trans (definitions_closeTo 1 r)

/-- A line that starts with a backtick goes on with no container, or with the outermost list. -/
theorem matched_of_unindented {frames : List Frame} (h : Unindented (frames.map (·.container)))
    (t : Text) :
    (matchFrames frames { rest := '\x60' :: t }).1 = 0 ∨
      (matchFrames frames { rest := '\x60' :: t }).1 = 1 ∧ ∃ f inner tight symbol number,
        frames = f :: inner ∧ f.container = .list tight symbol number := by
  generalize hcontainers : frames.map (·.container) = containers at h
  cases h with
  -- Each case tells how far the line goes on from outside.
  | nil =>
    obtain rfl := List.map_eq_nil_iff.mp hcontainers
    exact .inl rfl
  | quote =>
    obtain ⟨f, inner, rfl, hf, -⟩ := List.map_eq_cons_iff.mp hcontainers
    rw [matchFrames, hf]
    exact .inl rfl
  | list =>
    obtain ⟨f, inner, rfl, hf, hinner⟩ := List.map_eq_cons_iff.mp hcontainers
    obtain rfl := List.map_eq_nil_iff.mp hinner
    rw [matchFrames, hf]
    exact .inr ⟨rfl, f, [], _, _, _, rfl, hf⟩
  | item =>
    obtain ⟨f, inner, rfl, hf, hinner⟩ := List.map_eq_cons_iff.mp hcontainers
    obtain ⟨g, inner, rfl, hg, -⟩ := List.map_eq_cons_iff.mp hinner
    have hitem : (matchFrames (g :: inner) { rest := '\x60' :: t }).1 = 0 := by
      rw [matchFrames, hg]
      rfl
    -- The item in the list is left, so that only the list goes on.
    rw [matchFrames, hf]
    exact .inr ⟨congrArg (· + 1) hitem, f, g :: inner, _, _, _, rfl, hf⟩

/-- A line that starts with a backtick leaves all containers. -/
theorem closed_of_outdented (h : Outdented r) (t : Text) :
    Closed r (r.closeTo (matchFrames r.frames.reverse { rest := '\x60' :: t }).1).finishList := by
  cases h with
  | unindented h =>
    -- Either everything is closed before the list is finished, or the list is what is left.
    rcases matched_of_unindented h t with hnone | ⟨hlist, f, inner, _, _, _, hframes, hf⟩
    · rw [hnone]
      exact closed_closeTo_zero r
    · rw [hlist]
      exact closed_closeTo_one hframes hf
  | emptied hcontainers hempty hblank =>
    obtain ⟨f, inner, hframes, hf, hinner⟩ := List.map_eq_cons_iff.mp hcontainers
    obtain ⟨g, hg, hitem⟩ := List.map_eq_singleton_iff.mp hinner
    obtain rfl := hg
    have hreversed : r.frames = [g, f] := by
      rw [← List.reverse_reverse r.frames, hframes]
      rfl
    -- The line goes on with the list and the item, so nothing is closed before the list is.
    have hmatched : (matchFrames r.frames.reverse { rest := '\x60' :: t }).1 = 2 := by
      rw [hframes, matchFrames, hf]
      dsimp only
      rw [matchFrames, hitem]
      rfl
    have hkept : r.closeTo 2 = r := by
      unfold BlockReader.closeTo
      rw [hreversed]
      rfl
    rw [hmatched, hkept]
    exact closed_finishList_of_emptied hreversed hf hitem hempty hblank

end Containers

/-! ## Blocks -/

section Blocks

variable {r : BlockReader}

/-- A line that starts with a backtick is the start of a leaf block. -/
theorem block_fence (r : BlockReader) (before : Option Char) (t : Text) : ∃ front,
    r.block before ('\x60' :: t) = (r.closeTo (matchFrames r.frames.reverse
      { rest := '\x60' :: t }).1).finishList.leafBlock front { rest := '\x60' :: t } := by
  refine ⟨BlockReader.charBefore before ('\x60' :: t) ('\x60' :: t), ?_⟩
  unfold BlockReader.block
  rw [← Prod.eta (matchFrames r.frames.reverse { rest := '\x60' :: t }), matchFrames_fence]
  -- A backtick opens no container, and the line is not blank.
  rfl

theorem codeFence?_opening {info : Text} (hinfo : ∀ c ∈ info, c ≠ '\x60' ∧ isLineEnd c = false)
    (t : Text) : codeFence? ("\x60\x60\x60".toList ++ (info ++ '\n' :: t)) = some (3, '\x60') := by
  have hone : OneLine info := fun c hc => (hinfo c hc).2
  have hlength : runLength '\x60' ("\x60\x60\x60".toList ++ (info ++ '\n' :: t)) = 3 := by
    refine congrArg List.length (Text.takeWhile_append_of_boundary (by decide) fun c hc => ?_)
    -- Behind the backticks comes the info string, or the end of the line.
    cases info with
    | nil =>
      cases hc
      rfl
    | cons d info =>
      cases hc
      simpa using (hinfo c (by simp)).1
  have hbody : lineBody (info ++ '\n' :: t) = info := lineBody_append hone .feed
  have hnot : info.elem '\x60' = false := by
    rw [← Bool.not_eq_true, List.elem_iff]
    exact fun hmem => (hinfo _ hmem).1 rfl
  -- The definition is written out, since its run of backticks has to be rewritten in place.
  show (let length := runLength '\x60' ("\x60\x60\x60".toList ++ (info ++ '\n' :: t))
    if ('\x60' == '\x60' || '\x60' == '~') && 3 ≤ length && !('\x60' == '\x60' &&
      (lineBody (("\x60\x60\x60".toList ++ (info ++ '\n' :: t)).drop length)).elem '\x60') then
      some (length, '\x60')
    else none) = some (3, '\x60')
  rw [hlength]
  show (if true && !(lineBody (info ++ '\n' :: t)).elem '\x60' then some (3, '\x60') else none) = _
  rw [hbody, hnot]
  rfl

/-- A fence without indentation that starts no other kind of block starts a code block. -/
theorem leafBlock_of_codeFence? {t : Text} {length : Nat} {fence : Char}
    (hspaces : ({ rest := t } : Cursor).countSpaces 4 = (0, { rest := t }))
    (hhtml : ∀ rest, t ≠ '<' :: rest) (hbreak : thematicBreak? t = none)
    (hlevel : headingLevel? t = none) (hfence : codeFence? t = some (length, fence))
    (r : BlockReader) (before : Option Char) :
    r.leafBlock before { rest := t } = r.fencedCode 0 fence length t := by
  unfold BlockReader.leafBlock
  -- That no HTML block starts here is read off `hhtml` in the context.
  simp only [hspaces, hbreak, hlevel, hfence]

theorem leafBlock_fence {info : Text} (hinfo : ∀ c ∈ info, c ≠ '\x60' ∧ isLineEnd c = false)
    (r : BlockReader) (before : Option Char) (t : Text) :
    r.leafBlock before { rest := "\x60\x60\x60".toList ++ (info ++ '\n' :: t) } =
      r.fencedCode 0 '\x60' 3 ("\x60\x60\x60".toList ++ (info ++ '\n' :: t)) :=
  leafBlock_of_codeFence? rfl (fun _ h => by cases h) rfl rfl (codeFence?_opening hinfo t) r before

/-- A fence of three backticks with its info string, code, and the fence again, in front of a
text. -/
def fenced (info code t : Text) : Text :=
  "\x60\x60\x60".toList ++ (info ++ '\n' :: (code ++ '\n' :: ("\x60\x60\x60".toList ++ t)))

/-- The code of a block whose lines do not close it holds them all. Where only blanks stand behind
the closing fence it is nothing but them, and the block ends with that line. -/
theorem fencedCode_of_closed {r : BlockReader} (hframes : r.frames = []) {info code : Text}
    (hinfo : OneLine info) (hcode : ∀ line ∈ linesOf code, ¬ ClosesFence line)
    (hlast : code.getLast? ≠ some '\r') (t : Text) :
    ∃ more rest,
      r.fencedCode 0 '\x60' 3 (fenced info code t) =
        (r.add (.code (.fenced (unescape false (Text.trimWhile isSpaceOrLineEnd info)))
          (Text.replace "\r\n" "\n" (code ++ ['\n']) ++ more)), rest) ∧
      ∀ after, RestOfLine t after → more = [] ∧ rest = after := by
  have hsplit : splitLine ((fenced info code t).drop 3) =
      (info ++ ['\n'], code ++ '\n' :: ("\x60\x60\x60".toList ++ t)) :=
    splitLine_append hinfo .feed
  have htrim : Text.trimWhile isSpaceOrLineEnd (info ++ ['\n']) =
      Text.trimWhile isSpaceOrLineEnd info := Text.trimWhile_append (by decide) info
  -- The block has fuel for every line of the text, so it has enough for those of the code.
  have hlength : (linesOf code).length ≤ (fenced info code t).length := by
    have hle := length_linesOf_le code
    simp only [fenced, List.length_append, List.length_cons]
    omega
  obtain ⟨n, hn⟩ := Nat.exists_eq_add_of_le' hlength
  refine ⟨(r.fencedLines 0 '\x60' 3 (n + 1) ("\x60\x60\x60".toList ++ t)).1,
    (r.fencedLines 0 '\x60' 3 (n + 1) ("\x60\x60\x60".toList ++ t)).2, ?_, fun after hafter => ?_⟩
  · unfold BlockReader.fencedCode
    dsimp only
    rw [hsplit, hn, Nat.add_right_comm]
    dsimp only
    rw [htrim, fencedLines_append hframes hcode hlast]
  -- The line behind the code is the first one that closes the block.
  · rw [fencedLines_succ hframes, closing?_eq_some hafter]
    exact ⟨rfl, rfl⟩

/-- **A fence is read as one block.**

Where the line of the opening fence leaves all containers, the reader closes these and adds one
block. It holds all lines up to the closing fence, if none of them closes the fence; when nothing
but blanks follows, it holds nothing else. -/
theorem block_fenced {r : BlockReader} (hr : Outdented r)
    {info code : Text} (hinfo : ∀ c ∈ info, c ≠ '\x60' ∧ isLineEnd c = false)
    (hcode : ∀ line ∈ linesOf code, ¬ ClosesFence line) (hlast : code.getLast? ≠ some '\r')
    (before : Option Char) (t : Text) :
    ∃ s more rest, Closed r s ∧
      r.block before (fenced info code t) =
        (s.add (.code (.fenced (unescape false (Text.trimWhile isSpaceOrLineEnd info)))
          (Text.replace "\r\n" "\n" (code ++ ['\n']) ++ more)), rest) ∧
      ∀ after, RestOfLine t after → more = [] ∧ rest = after := by
  obtain ⟨tail, htail⟩ : ∃ tail, fenced info code t = '\x60' :: tail := ⟨_, rfl⟩
  have hclosed := closed_of_outdented hr tail
  obtain ⟨front, hblock⟩ := block_fence r before tail
  -- The text starts with a backtick, which is all that the containers look at.
  rw [← htail] at hclosed hblock
  obtain ⟨more, rest, hcodeBlock, hend⟩ := fencedCode_of_closed hclosed.frames
    (fun c hc => (hinfo c hc).2) hcode hlast t
  refine ⟨_, more, rest, hclosed, ?_, hend⟩
  rw [hblock, ← hcodeBlock]
  exact leafBlock_fence hinfo _ front _

/-- A paragraph ends in front of a fence. -/
theorem continuation_fenced (r : BlockReader) {info : Text}
    (hinfo : ∀ c ∈ info, c ≠ '\x60' ∧ isLineEnd c = false) (code t : Text) :
    r.continuation (fenced info code t) = .ended (fenced info code t) := by
  obtain ⟨tail, htail⟩ : ∃ tail, fenced info code t = '\x60' :: tail := ⟨_, rfl⟩
  have hcursor : (r.line (fenced info code t)).cursor = { rest := fenced info code t } := by
    rw [htail]
    exact matchFrames_fence r.frames.reverse tail
  -- A fence ends a paragraph whether or not the line could go on with it lazily.
  have hinterrupts : ∀ continues, r.interrupts continues (fenced info code t) = true := by
    intro continues
    have hfence : codeFence? (fenced info code t) = some (3, '\x60') := codeFence?_opening hinfo _
    simp [BlockReader.interrupts, blockInterrupts, hfence]
  have hspaces : ({ rest := fenced info code t } : Cursor).readSpaces 4 =
      (4, { rest := fenced info code t }) := rfl
  have hunderline : underline? (fenced info code t) = none := rfl
  unfold BlockReader.continuation
  dsimp only
  rw [hcursor, hspaces]
  simp [hunderline, hinterrupts]

end Blocks

end DocPage.Markdown
