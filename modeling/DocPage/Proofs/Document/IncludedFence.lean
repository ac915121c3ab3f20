import DocPage.Proofs.Document.Excerpt
import DocPage.Proofs.Markdown.Fence

/-!
# The fence around an included file

The fence around the lines of a file has three backticks, whatever these lines are. It is closed by
its own last line only if no copied line is a closing fence, and then an include at the start of a
line becomes one code block with all copied lines. `only_last_line_closes_iff` says when that is; a
copied line of three backticks ends the block in front of the lines behind it.

## Architecture

- **Emitted lines**: the lines of the text between its two fences are the copied ones
- **The block**: `ReadAsBlock`, for a reader in front of the text of an include
- **Copied fences**: the block that a copied line of backticks leaves
-/

namespace DocPage.Document

open Markdown (BlockReader ClosesFence Closed Outdented RestOfLine linesOf isLineEnd)

/-! ## Emitted lines -/

/-- No line between the first and the last one closes the fence that the first one opens. -/
def OnlyLastLineCloses (text : Text) : Prop :=
  ∀ line ∈ (linesOf text).tail.dropLast, ¬ ClosesFence line

/-- The language can stand behind a fence. -/
def IsInfo (language : Text) : Prop := ∀ c ∈ language, c ≠ '\x60' ∧ isLineEnd c = false

theorem isBlank_of_isLineEnd {c : Char} (h : isLineEnd c = true) : Unicode.isBlank c = true := by
  simp only [isLineEnd, Bool.or_eq_true, beq_iff_eq] at h
  rcases h with rfl | rfl
  · decide
  · decide

variable {language indent copied : Text}

theorem linesOf_block (hlanguage : IsInfo language)
    (hindent : ∀ c ∈ indent, c = ' ' ∨ c = '\t') (hlast : copied.getLast? ≠ some '\r') :
    linesOf (fence ++ language ++ '\n' :: copied ++ '\n' :: indent ++ fence) =
      (fence ++ language) :: linesOf copied ++ [indent ++ fence] := by
  -- Neither fence holds a line end, so each is one line of the text.
  have hfirst : Markdown.OneLine (fence ++ language) := by
    refine List.forall_mem_append.mpr ⟨by decide, fun c hc => (hlanguage c hc).2⟩
  have hclosing : Markdown.OneLine (indent ++ fence) := by
    refine List.forall_mem_append.mpr ⟨fun c hc => ?_, by decide⟩
    rcases hindent c hc with rfl | rfl
    · rfl
    · rfl
  have hopening : linesOf (fence ++ language ++ (['\n'] ++ (copied ++ '\n' :: (indent ++ fence)))) =
      (fence ++ language) :: linesOf (copied ++ '\n' :: (indent ++ fence)) :=
    Markdown.linesOf_append hfirst .feed
  rw [Markdown.linesOf_append_feed hlast, Markdown.linesOf_of_oneLine hclosing] at hopening
  simpa using hopening

/-- What is copied does not end with a line end. -/
theorem getLast?_copied {t : Text} (h : Text.CoreInFront Unicode.isBlank t copied) :
    copied.getLast? ≠ some '\r' := by
  obtain ⟨-, -, -, hlast⟩ := h
  intro hreturn
  -- A carriage return is a blank, and what is copied does not end in one.
  have hblank := hlast '\r' hreturn
  rw [isBlank_of_isLineEnd rfl] at hblank
  cases hblank

theorem onlyLastLineCloses_block_iff (hlanguage : IsInfo language)
    (hindent : ∀ c ∈ indent, c = ' ' ∨ c = '\t') (hlast : copied.getLast? ≠ some '\r') :
    OnlyLastLineCloses (fence ++ language ++ '\n' :: copied ++ '\n' :: indent ++ fence) ↔
      ∀ line ∈ linesOf copied, ¬ ClosesFence line := by
  unfold OnlyLastLineCloses
  -- The first line and the last one are the fences, so what is between them is the copy.
  rw [linesOf_block hlanguage hindent hlast, List.cons_append, List.tail_cons, List.dropLast_concat]

/-! ## The block -/

/-- The code block of the lines that are copied: line ends are single line feeds, and `more` stands
behind the lines. -/
def codeBlock (language copied more : Text) : Markdown.Block :=
  .code (.fenced (Markdown.unescape false (Text.trimWhile Markdown.isSpaceOrLineEnd language)))
    (Text.replace "\r\n" "\n" (copied ++ ['\n']) ++ more)

/-- A reader in front of the text at the start of a line takes it as one block. A paragraph above
ends, all containers are closed, and the block holds all lines that are copied. Where only blanks
stand behind the text on its last line, the block holds nothing else and ends with that line. -/
def ReadAsBlock (language copied text : Text) : Prop :=
  ∀ (r : BlockReader) (before : Option Char) (behind : Text),
    Outdented r →
    r.continuation (text ++ behind) = .ended (text ++ behind) ∧
    ∃ s more rest, Closed r s ∧
      r.block before (text ++ behind) = (s.add (codeBlock language copied more), rest) ∧
      ∀ after, RestOfLine behind after → more = [] ∧ rest = after

theorem block_append (language copied behind : Text) :
    fence ++ language ++ '\n' :: copied ++ '\n' :: [] ++ fence ++ behind =
      Markdown.fenced language copied behind := by
  simp [Markdown.fenced, fence]

theorem readAsBlock (hlanguage : IsInfo language) (hlast : copied.getLast? ≠ some '\r')
    (hcopied : ∀ line ∈ linesOf copied, ¬ ClosesFence line) :
    ReadAsBlock language copied (fence ++ language ++ '\n' :: copied ++ '\n' :: [] ++ fence) := by
  intro r before behind hr
  rw [block_append]
  -- With the text in the form of a fenced block, the reader of blocks settles both parts.
  exact ⟨Markdown.continuation_fenced r hlanguage copied behind,
    Markdown.block_fenced hr hlanguage hcopied hlast before behind⟩

/-- A line starts behind the text. -/
def AtLineStart (before : Text) : Prop := ∀ c ∈ before.getLast?, isLineEnd c = true

theorem IndentOf.eq_nil {before : Text} (h : IndentOf before indent) (hstart : AtLineStart before) :
    indent = [] := by
  obtain ⟨front, rfl, hindent, -⟩ := h
  rw [← List.getLast?_eq_none_iff]
  rw [Option.eq_none_iff_forall_ne_some]
  -- A last character of the indentation would be a blank and a line end in one.
  intro c hc
  have hend := hstart c (by rw [List.getLast?_append, hc]; rfl)
  rcases hindent c (List.mem_of_getLast? hc) with rfl | rfl
  · cases hend
  · cases hend

section Included

variable {request : IncludeRequest} {tree : Files.Tree} {base before body content text : Text}

/-- **The fence of an include is closed by its last line iff no copied line closes it.**

Then an include at the start of a line becomes one code block. -/
theorem only_last_line_closes_iff (hlanguage : IsInfo request.language)
    (hrequest : IncludeRequest.read? (Text.trim body) = some request)
    (hread : tree.read (Files.join base request.path) = .ok content)
    (hresolved : (resolveInclude (m := StateM Files.Tree) base (trailingIndent before)
      body).run.run tree = (.ok text, tree)) :
    ∃ indent lines selected rows copied, IndentOf before indent ∧ FileLines content lines ∧
      Selected request (Files.join base request.path) lines (.ok selected) ∧
      Rows request.dedent indent selected rows ∧
      Text.CoreInFront Unicode.isBlank rows.flatten copied ∧
      (OnlyLastLineCloses text ↔ ∀ line ∈ linesOf copied, ¬ ClosesFence line) ∧
      (OnlyLastLineCloses text → AtLineStart before →
        ReadAsBlock request.language copied text) := by
  -- Resolving has succeeded, so what it comes to is known from the lines that are included.
  rw [run_resolveInclude hrequest hread, Prod.mk.injEq, and_iff_left rfl, includeBlock_eq_iff]
    at hresolved
  cases hresolved with
  | @block selected rows copied hselected hrows hcopied =>
    have hindent := indentOf_trailingIndent before
    obtain ⟨-, -, hblanks, -⟩ := id hindent
    have hlast := getLast?_copied hcopied
    have hcloses := onlyLastLineCloses_block_iff hlanguage hblanks hlast
    refine ⟨_, _, selected, rows, copied, hindent, fileLines_linesKeepEnds content, hselected,
      hrows, hcopied, hcloses, fun honly hstart => ?_⟩
    -- At the start of a line the tag has no indentation.
    rw [hindent.eq_nil hstart] at honly hcloses ⊢
    exact readAsBlock hlanguage hlast (hcloses.mp honly)

/-- A line of Python does not close the fence around it. -/
theorem only_last_line_closes_run :
    ∃ copied, OnlyLastLineCloses "\x60\x60\x60py\nrun()\n\x60\x60\x60".toList ∧
      ReadAsBlock "py" copied "\x60\x60\x60py\nrun()\n\x60\x60\x60" := by
  have hlanguage : IsInfo "py" := by
    unfold IsInfo
    decide
  have hrequest : IncludeRequest.read? (Text.trim "[\"run.py\", null, null, 0, \"py\"]") =
      some ⟨"run.py", none, none, 0, "py"⟩ := by decide +kernel
  have hread : Files.Tree.read ⟨[(["run.py"], .file (some "run()\n"))], []⟩
      (Files.join "/" "run.py") = .ok "run()\n".toList := by decide +kernel
  obtain ⟨indent, lines, selected, rows, copied, -, -, -, -, -, -, hblock⟩ :=
    @only_last_line_closes_iff _ _ _ [] _ _ "\x60\x60\x60py\nrun()\n\x60\x60\x60" hlanguage hrequest
      hread rfl
  have honly : OnlyLastLineCloses "\x60\x60\x60py\nrun()\n\x60\x60\x60".toList := by
    -- A closing fence holds a backtick, and the only line between the fences has none.
    intro line hline hcloses
    have hnone : ∀ line ∈ (linesOf "\x60\x60\x60py\nrun()\n\x60\x60\x60").tail.dropLast,
        '\x60' ∉ line := by decide +kernel
    exact hnone line hline hcloses.backtick_mem
  exact ⟨copied, honly, hblock honly (fun c hc => nomatch hc)⟩

end Included

/-! ## Copied fences -/

/-- A copied line of three backticks ends the block. The lines behind it are no code: the reader
goes on with them. -/
theorem copied_fence_ends_block (hlanguage : IsInfo language) {front rest : Text}
    (hfront : ∀ line ∈ linesOf front, ¬ ClosesFence line) (hlast : front.getLast? ≠ some '\r')
    {r : BlockReader} (hr : Outdented r) (before : Option Char) (behind : Text) :
    ∃ s, Closed r s ∧
      r.block before (fence ++ language ++ '\n' :: (front ++ '\n' :: (fence ++ '\n' :: rest)) ++
        '\n' :: [] ++ fence ++ behind) =
        (s.add (codeBlock language front []), rest ++ '\n' :: (fence ++ behind)) := by
  -- The copied fence is read as the closing one, with the rest of the text behind it.
  have hsplit : fence ++ language ++ '\n' :: (front ++ '\n' :: (fence ++ '\n' :: rest)) ++
      '\n' :: [] ++ fence ++ behind =
        Markdown.fenced language front ('\n' :: (rest ++ '\n' :: (fence ++ behind))) := by
    simp [Markdown.fenced, fence]
  have hrest : RestOfLine ('\n' :: (rest ++ '\n' :: (fence ++ behind)))
      (rest ++ '\n' :: (fence ++ behind)) := by
    show RestOfLine ([] ++ (['\n'] ++ (rest ++ '\n' :: (fence ++ behind)))) _
    exact .ending (List.forall_mem_nil _) .feed
  obtain ⟨s, more, after, hclosed, hblock, hend⟩ := Markdown.block_fenced hr hlanguage hfront hlast
    before ('\n' :: (rest ++ '\n' :: (fence ++ behind)))
  obtain ⟨rfl, rfl⟩ := hend _ hrest
  rw [hsplit]
  exact ⟨s, hclosed, hblock⟩

/-- The include of a Markdown file with a code block in it is no single block. -/
theorem copied_fence_leaves_three_blocks :
    ∃ text, (resolveInclude (m := StateM Files.Tree) "/" (trailingIndent [])
        "\x7b\"path\": \"a.md\"\x7d").run.run
          ⟨[(["a.md"], .file (some "x\n\x60\x60\x60\ny\n"))], []⟩ =
        (.ok text, ⟨[(["a.md"], .file (some "x\n\x60\x60\x60\ny\n"))], []⟩) ∧
      ¬ OnlyLastLineCloses text ∧ (Markdown.Document.read true text).blocks.length = 3 := by
  refine ⟨"\x60\x60\x60\nx\n\x60\x60\x60\ny\n\x60\x60\x60", rfl, fun honly => ?_, by decide +kernel⟩
  exact honly fence (by decide +kernel) ⟨[], fence, [], by decide, by decide, by decide, by decide,
    by decide, by decide⟩

end DocPage.Document
