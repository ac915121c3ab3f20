import DocPage.Proofs.Render.Paragraph

/-!
# Tables

A table is written by its rows and cells, and what the cells hold is written in between. While it
is open, the renderer counts the cells of a row and keeps whether the row is the head. Nothing in a
line looks at the count or changes it, so the content of a cell writes what it writes outside of a
table, and the tags around it are told by the place of the cell alone.

## Architecture

- **Markup**: `tableMarkup`, a table by the texts of its cells
- **Lines**: `step_inTable`; no event in a line looks at the table
- **Layouts**: `LaysOut`, events that write given markup around their contents; one lemma for lines,
  one for enclosing elements, and from these one for each part of a table
- **Tables**: `table_places_cells`
-/

namespace DocPage.Render

open Markdown (Event Inline enclose)

/-! ## Markup -/

/-- The attribute of the cells in a column: that of its alignment, if the column has one. -/
def columnAttribute (alignments : List Markdown.Alignment) (column : Nat) : Text :=
  match alignments[column]? with
  | some .left => " align=\"left\""
  | some .center => " align=\"center\""
  | some .right => " align=\"right\""
  | some .none | none => []

def elementMarkup (name attr content : Text) : Text :=
  '<' :: name ++ attr ++ ['>'] ++ content ++ ('<' :: '/' :: name ++ ['>'])

/-- A row of cells, each with the attribute of its column. -/
def rowMarkup (name : Text) (alignments : List Markdown.Alignment) (contents : List Text) : Text :=
  elementMarkup "tr" [] (contents.mapIdx fun column content =>
    elementMarkup name (columnAttribute alignments column) content).flatten

/-- A table with one head and one body of rows. -/
def tableMarkup (alignments : List Markdown.Alignment) (head : List Text) (rows : List (List Text)) : Text :=
  elementMarkup "table" [] (elementMarkup "thead" [] (rowMarkup "th" alignments head) ++
    elementMarkup "tbody" [] (rows.flatMap (rowMarkup "td" alignments)))

/-- The attribute that the renderer looks up is that of the column. -/
theorem cellAttribute_eq (table : Table) :
    table.cellAttribute = columnAttribute table.alignments table.cellIndex := by
  unfold Table.cellAttribute columnAttribute
  -- A column without an entry is treated as one without an alignment.
  rw [List.getD_eq_getElem?_getD]
  cases table.alignments[table.cellIndex]? with
  | none => rfl
  | some alignment => cases alignment <;> rfl

/-! ## Lines -/

namespace State

variable (s : State) (table : Table)

/-- The state inside another table. -/
def inTable : State :=
  { s with table }

@[simp]
theorem inTable_code : (s.inTable table).code = s.code := rfl

@[simp]
theorem inTable_image : (s.inTable table).image = s.image := rfl

@[simp]
theorem inTable_heading : (s.inTable table).heading = s.heading := rfl

@[simp]
theorem inTable_region : (s.inTable table).region = s.region := rfl

@[simp]
theorem inTable_write (t : Text) : (s.inTable table).write t = (s.write t).inTable table := rfl

@[simp]
theorem inTable_addToHeading (t : Text) :
    (s.inTable table).addToHeading t = (s.addToHeading t).inTable table := rfl

theorem inTable_writeInline (t : Text) :
    (s.inTable table).writeInline t = (s.writeInline t).inTable table := by
  by_cases hopen : s.heading.isSome <;> simp [writeInline, hopen]

theorem inTable_text (t : Text) : (s.inTable table).text t = (s.text t).inTable table := by
  -- What swallows the text is asked for in turn: a code block, an image, a heading, the region.
  cases hcode : s.code with
  | some code => simp [text, inTable, hcode]
  | none =>
    cases himage : s.image with
    | some image => simp [text, inTable, hcode, himage]
    | none =>
      by_cases hopen : s.heading.isSome
      · simp [text, hcode, himage, hopen]
      · cases hchunk : Body.Sentinel.ofChunk? t <;>
          simp [text, inTable, write, hcode, himage, hopen, hchunk]

theorem inTable_codeSpan (t : Text) :
    (s.inTable table).codeSpan t = (s.codeSpan t).inTable table := by
  by_cases hopen : s.heading.isSome <;> simp [codeSpan, hopen]

theorem inTable_rawMarkup (settings : Settings) (t : Text) :
    (s.inTable table).rawMarkup settings t = (s.rawMarkup settings t).inTable table := by
  -- A heading takes the markup away; else it is a sentinel or is written, escaped in the body.
  by_cases hopen : s.heading.isSome
  · simp [rawMarkup, hopen]
  · cases hchunk : Body.Sentinel.ofChunk? t with
    | some sentinel => simp [rawMarkup, inTable, write, hopen, hchunk]
    | none => by_cases hinside : s.region.isInside <;> simp [rawMarkup, hopen, hchunk, hinside]

theorem inTable_math (settings : Settings) (tex : Text) (display : Bool) :
    (s.inTable table).math settings tex display =
      (s.math settings tex display).map (·.inTable table) := by
  by_cases hopen : s.heading.isSome
  · simp [math, hopen, Except.map]
  · cases hmath : settings.math tex display <;> simp [math, hopen, hmath, Except.map]

theorem inTable_softBreak : (s.inTable table).softBreak = s.softBreak.inTable table := by
  by_cases hopen : s.heading.isSome <;> simp [softBreak, hopen]

theorem inTable_closeImage : (s.inTable table).closeImage = s.closeImage.inTable table := by
  cases himage : s.image with
  | none => simp [closeImage, himage]
  | some image =>
    -- The image is closed before its tag is written, in any table.
    simp only [closeImage, inTable_image, himage, inTable_region]
    exact inTable_writeInline { s with image := none } table _

theorem inTable_startSpan {element : Markdown.Start} (h : element.isSpan = true) :
    (s.inTable table).start element = (s.start element).inTable table := by
  cases element with
  | emphasis | strong | strikethrough | superscript | subscript | link =>
    exact s.inTable_writeInline table _
  | image => rfl
  | _ => cases h

theorem inTable_stopSpan {element : Markdown.Start} (h : element.isSpan = true) :
    (s.inTable table).stop element.closing = (s.stop element.closing).inTable table := by
  cases element with
  | emphasis | strong | strikethrough | superscript | subscript | link =>
    exact s.inTable_writeInline table _
  | image => exact s.inTable_closeImage table
  | _ => cases h

end State

section Lines

variable (settings : Settings) (s : State)

/-- **No event in a line looks at the table or changes it.** -/
theorem step_inTable (table : Table) {event : Event} (h : StandsInLine event) :
    step settings (s.inTable table) event = (step settings s event).map (·.inTable table) := by
  rcases h with hpart | ⟨element, hspan, rfl | rfl⟩
  -- The operations above commute with the table; the other events do not touch the state.
  · cases event with
    | text t => exact congrArg Except.ok (s.inTable_text table t)
    | code t => exact congrArg Except.ok (s.inTable_codeSpan table t)
    | html t => exact congrArg Except.ok (s.inTable_rawMarkup table settings t)
    | math tex display => exact s.inTable_math table settings tex display
    | footnoteReference | taskMarker => rfl
    | softBreak => exact congrArg Except.ok (s.inTable_softBreak table)
    | hardBreak => exact congrArg Except.ok (s.inTable_writeInline table _)
    | start | stop | rule => cases hpart
  · exact congrArg Except.ok (s.inTable_startSpan table hspan)
  · exact congrArg Except.ok (s.inTable_stopSpan table hspan)

theorem run_inTable (table : Table) {events : List Event}
    (h : ∀ event ∈ events, StandsInLine event) :
    run settings (s.inTable table) events =
      ((run settings s events).1, (run settings s events).2.inTable table) := by
  -- Along the events, with the table put aside by each step.
  induction events generalizing s with
  | nil => rfl
  | cons event rest ih =>
    obtain ⟨hevent, hrest⟩ := List.forall_mem_cons.mp h
    rw [run, run, step_inTable settings s table hevent]
    cases step settings s event with
    | error e => rfl
    | ok next => exact ih next hrest

/-- What the events write on an empty page, also when they fail. -/
def written (events : List Event) : Text :=
  (run settings { s with output := [] } events).2.output

/-- A line writes the same text on every sheet and in every table. -/
theorem run_on_inTable {events : List Event} (h : ∀ event ∈ events, StandsInLine event) (sheet : Sheet)
    (table : Table) :
    run settings ((s.on sheet).inTable table) events = ((run settings s events).1,
      ((run settings s events).2.on (sheet.add (written settings s events))).inTable table) := by
  -- A line adds the same text to every sheet, so to an empty page as well.
  obtain ⟨failure, added, next, hrun⟩ :=
    run_on settings s fun event hevent => (h event hevent).not_looksAtSheet
  have hown : run settings s events = (failure, next.on (s.sheet.add added)) := hrun s.sheet
  have hwritten : written settings s events = added :=
    congrArg (fun result => result.2.output) (hrun { s.sheet with output := [] })
  rw [run_inTable settings _ table h, hrun sheet, hown, hwritten]
  rfl

end Lines

/-! ## Layouts -/

/-- Inside a table, which they take from one state to another, the events do what their contents do
alone, and write markup around what the contents write. When the contents fail, so do the events,
behind a part of the markup. -/
structure LaysOut (settings : Settings) (s : State) (contents : List Event) (table table' : Table)
    (events : List Event) (markup : Text) : Prop where
  of_success : (run settings s contents).1 = none → ∀ sheet,
    run settings ((s.on sheet).inTable table) events =
      (none, ((run settings s contents).2.on (sheet.add markup)).inTable table')
  of_failure : ∀ e, (run settings s contents).1 = some e → ∀ sheet, ∃ part last,
    part <+: markup ∧ run settings ((s.on sheet).inTable table) events =
      (some e, ((run settings s contents).2.on (sheet.add part)).inTable last)

namespace LaysOut

variable {settings : Settings} {s : State} {contents contents' events events' : List Event}
  {table table' table'' : Table} {markup markup' : Text}

/-- An event of the table itself. -/
theorem tag {event : Event} (h : ∀ sheet, step settings ((s.on sheet).inTable table) event =
      .ok ((s.on (sheet.add markup)).inTable table')) :
    LaysOut settings s [] table table' [event] markup where
  of_success _ sheet := run_singleton (h sheet)
  of_failure _ hfailure := nomatch hfailure

theorem nil : LaysOut settings s [] table table [] [] where
  of_success _ sheet := by rw [sheet.add_nil, run, run]
  of_failure _ hfailure := nomatch hfailure

/-- A line is its own content. -/
theorem line (h : Inline Event.isInline contents) (table : Table) :
    LaysOut settings s contents table table contents (written settings s contents) where
  of_success hsuccess sheet := by
    rw [run_on_inTable settings s h.cases_of_mem, hsuccess]
  of_failure e hfailure sheet := by
    refine ⟨_, table, List.prefix_rfl, ?_⟩
    rw [run_on_inTable settings s h.cases_of_mem, hfailure]

/-- What stands behind is laid out from where the contents lead. -/
theorem append (h : LaysOut settings s contents table table' events markup)
    (h' : LaysOut settings (run settings s contents).2 contents' table' table'' events' markup') :
    LaysOut settings s (contents ++ contents') table table'' (events ++ events')
      (markup ++ markup') := by
  -- Whether the first contents fail decides where the events stop.
  cases hfirst : (run settings s contents).1 with
  | none =>
    -- The second part starts where the contents of the first one lead, on the sheet with its markup.
    have hcontents : run settings s (contents ++ contents') =
        run settings (run settings s contents).2 contents' :=
      run_append (Prod.ext hfirst rfl)
    constructor
    · intro hsuccess sheet
      rw [hcontents] at hsuccess ⊢
      rw [run_append (h.of_success hfirst sheet), h'.of_success hsuccess, Sheet.add_append]
    · intro e hfailure sheet
      rw [hcontents] at hfailure ⊢
      obtain ⟨part, last, hpart, hrun⟩ := h'.of_failure e hfailure (sheet.add markup)
      refine ⟨markup ++ part, last, (List.prefix_append_right_inj markup).mpr hpart, ?_⟩
      rw [run_append (h.of_success hfirst sheet), hrun, Sheet.add_append]
  | some e =>
    -- The second part is not reached.
    have hcontents : run settings s (contents ++ contents') =
        (some e, (run settings s contents).2) :=
      run_append_of_failure contents' (Prod.ext hfirst rfl)
    constructor
    · intro hsuccess
      rw [hcontents] at hsuccess
      cases hsuccess
    · intro e' hfailure sheet
      rw [hcontents] at hfailure ⊢
      cases hfailure
      obtain ⟨part, last, hpart, hrun⟩ := h.of_failure e hfirst sheet
      exact ⟨part, last, hpart.trans (List.prefix_append markup markup'),
        run_append_of_failure events' hrun⟩

/-- An element writes its tags around what it encloses. -/
theorem enclosed {element : Markdown.Start} {opening closing : Text} {inner inner' : Table}
    (hopening : ∀ sheet, ((s.on sheet).inTable table).start element =
      (s.on (sheet.add opening)).inTable inner)
    (hevents : LaysOut settings s contents inner inner' events markup)
    (hclosing : ∀ (next : State) sheet, ((next.on sheet).inTable inner').stop element.closing =
      (next.on (sheet.add closing)).inTable table') :
    LaysOut settings s contents table table' (enclose element events)
      (opening ++ markup ++ closing) := by
  -- The two tags are laid out like parts without contents.
  have hstart : LaysOut settings s [] table inner [.start element] opening :=
    tag fun sheet => congrArg Except.ok (hopening sheet)
  have hstop : LaysOut settings (run settings s contents).2 [] inner' table'
      [.stop element.closing] closing :=
    tag fun sheet => congrArg Except.ok (hclosing _ sheet)
  have h := (hstart.append hevents).append hstop
  rwa [List.nil_append, List.append_nil] at h

/-! ### Parts of a table -/

/-- A cell takes its name and its attribute from the table and is counted. -/
theorem cell (settings : Settings) (s : State) (table : Table)
    (h : Inline Event.isInline contents) :
    LaysOut settings s contents table { table with cellIndex := table.cellIndex + 1 }
      (enclose .tableCell contents)
      (elementMarkup table.cellTag (columnAttribute table.alignments table.cellIndex)
        (written settings s contents)) := by
  -- The name and the attribute of a cell are looked up when it starts.
  rw [← cellAttribute_eq]
  exact enclosed (fun _ => rfl) (line h table) fun _ _ => rfl

end LaysOut

/-! ## Tables -/

/-- What each of the contents writes, behind those in front of it. -/
def cellTexts (settings : Settings) : State → List (List Event) → List Text
  | _, [] => []
  | s, content :: rest =>
    written settings s content :: cellTexts settings (run settings s content).2 rest

/-- What the cells of each row write, behind the rows in front of it. -/
def rowTexts (settings : Settings) : State → List (List (List Event)) → List (List Text)
  | _, [] => []
  | s, row :: rest =>
    cellTexts settings s row :: rowTexts settings (run settings s row.flatten).2 rest

def cellEvents (contents : List (List Event)) : List Event :=
  contents.flatMap (enclose .tableCell)

/-- The events of a table, by the contents of its cells. -/
def tableEvents (alignments : List Markdown.Alignment) (head : List (List Event))
    (rows : List (List (List Event))) : List Event :=
  enclose (.table alignments) (enclose .tableHead (cellEvents head) ++
    rows.flatMap fun row => enclose .tableRow (cellEvents row))

section Tables

variable (settings : Settings) (s : State) (table : Table) {contents head : List (List Event)}
  {rows : List (List (List Event))}

/-- The cells of a row, from the one that comes next. -/
theorem laysOut_cells (h : ∀ content ∈ contents, Inline Event.isInline content) :
    LaysOut settings s contents.flatten table
      { table with cellIndex := table.cellIndex + contents.length } (cellEvents contents)
      ((cellTexts settings s contents).mapIdx fun column content =>
        elementMarkup table.cellTag (columnAttribute table.alignments (table.cellIndex + column))
          content).flatten := by
  induction contents generalizing s table with
  | nil => exact .nil
  | cons content rest ih =>
    obtain ⟨hcontent, hrest⟩ := List.forall_mem_cons.mp h
    -- The cell has raised the count by one, and each of the rest stands one further to the right.
    have hcells := (LaysOut.cell settings s table hcontent).append (ih _ _ hrest)
    simp only [Nat.add_assoc, Nat.add_comm 1] at hcells
    rw [cellTexts, List.mapIdx_cons]
    exact hcells

/-- The cells of a row whose count has just been reset. -/
theorem laysOut_cells_of_reset (h : ∀ content ∈ contents, Inline Event.isInline content)
    (hreset : table.cellIndex = 0) :
    LaysOut settings s contents.flatten table { table with cellIndex := contents.length }
      (cellEvents contents)
      ((cellTexts settings s contents).mapIdx fun column content =>
        elementMarkup table.cellTag (columnAttribute table.alignments column) content).flatten := by
  have hcells := laysOut_cells settings s table h
  -- From a count of zero, the number of a cell is its column.
  simpa only [hreset, Nat.zero_add] using hcells

/-- The head, and behind it the start of the body. -/
theorem laysOut_head (h : ∀ content ∈ head, Inline Event.isInline content) :
    LaysOut settings s head.flatten table
      { table with inHead := false, cellIndex := head.length }
      (enclose .tableHead (cellEvents head))
      (elementMarkup "thead" [] (rowMarkup "th" table.alignments (cellTexts settings s head)) ++
        "<tbody>") := by
  -- The head resets the count and names its cells apart.
  have hcells := laysOut_cells_of_reset settings s
    { table with inHead := true, cellIndex := 0 } h rfl
  have hhead : LaysOut settings s head.flatten table
      { table with inHead := false, cellIndex := head.length }
      (enclose .tableHead (cellEvents head))
      ("<thead><tr>".toList ++ _ ++ "</tr></thead><tbody>".toList) :=
    .enclosed (fun _ => rfl) hcells fun _ _ => rfl
  -- Besides closing the head, its end opens the body.
  simpa [rowMarkup, elementMarkup, Table.cellTag] using hhead

/-- A row of the body takes the name of its cells from the table too. -/
theorem laysOut_row (h : ∀ content ∈ contents, Inline Event.isInline content) :
    LaysOut settings s contents.flatten table { table with cellIndex := contents.length }
      (enclose .tableRow (cellEvents contents))
      (rowMarkup table.cellTag table.alignments (cellTexts settings s contents)) := by
  have hcells := laysOut_cells_of_reset settings s { table with cellIndex := 0 } h rfl
  exact .enclosed (fun _ => rfl) hcells fun _ _ => rfl

/-- The count that the last row leaves is reset by the next one. -/
theorem laysOut_rows (h : ∀ row ∈ rows, ∀ content ∈ row, Inline Event.isInline content) :
    ∃ count, LaysOut settings s (rows.map List.flatten).flatten table
      { table with cellIndex := count } (rows.flatMap fun row => enclose .tableRow (cellEvents row))
      ((rowTexts settings s rows).flatMap (rowMarkup table.cellTag table.alignments)) := by
  -- Along the rows; each resets the count that it finds.
  induction rows generalizing s table with
  | nil => exact ⟨table.cellIndex, .nil⟩
  | cons row rest ih =>
    obtain ⟨hrow, hrest⟩ := List.forall_mem_cons.mp h
    obtain ⟨count, hbody⟩ := ih _ { table with cellIndex := row.length } hrest
    have hrows := (laysOut_row settings s table hrow).append hbody
    exact ⟨count, hrows⟩

theorem laysOut_table (alignments : List Markdown.Alignment)
    (hhead : ∀ content ∈ head, Inline Event.isInline content)
    (hrows : ∀ row ∈ rows, ∀ content ∈ row, Inline Event.isInline content) :
    ∃ last, LaysOut settings s (head.flatten ++ (rows.map List.flatten).flatten) table last
      (tableEvents alignments head rows)
      (tableMarkup alignments (cellTexts settings s head)
        (rowTexts settings (run settings s head.flatten).2 rows)) := by
  -- From the inside to the outside: the rows behind the head, and the table around both.
  obtain ⟨count, hbody⟩ := laysOut_rows settings (run settings s head.flatten).2
    { alignments, cellIndex := head.length } hrows
  have hinner := (laysOut_head settings s { alignments } hhead).append hbody
  have htable : LaysOut settings s (head.flatten ++ (rows.map List.flatten).flatten) table
      { alignments, cellIndex := count } (tableEvents alignments head rows)
      ("<table>".toList ++ _ ++ "</tbody></table>".toList) :=
    .enclosed (fun _ => rfl) hinner fun _ _ => rfl
  refine ⟨{ alignments, cellIndex := count }, ?_⟩
  simpa [tableMarkup, elementMarkup, Table.cellTag] using htable

end Tables

/-- **A table places every cell in its row and its column.**

In whatever state it starts, so behind any other events and tables, a table writes one head and one
body with its rows in order. Every row has its cells in order, those of the head with `th` in both
tags and those of the body with `td`, and the cell in a column has the attribute of the column's
alignment, if there is one. A cell holds what its content writes behind the contents of the cells in
front of it, and all else is left as these contents leave it. Only a formula that is rejected makes
the table fail, behind a part of this markup. -/
theorem table_places_cells (settings : Settings) (s : State) (alignments : List Markdown.Alignment)
    {head : List (List Event)} {rows : List (List (List Event))}
    (hhead : ∀ content ∈ head, Inline Event.isInline content)
    (hrows : ∀ row ∈ rows, ∀ content ∈ row, Inline Event.isInline content) :
    let contents := head.flatten ++ (rows.map List.flatten).flatten
    let markup := tableMarkup alignments (cellTexts settings s head)
      (rowTexts settings (run settings s head.flatten).2 rows)
    ∃ w last, w <+: markup ∧
      run settings s (tableEvents alignments head rows) = ((run settings s contents).1,
        ((run settings s contents).2.on (s.sheet.add w)).inTable last) ∧
      (run settings s (tableEvents alignments head rows)).2.output = s.output ++ w ∧
      ((run settings s contents).1 = none → w = markup) ∧
      ∀ e, (run settings s contents).1 = some e → ∃ tex display reason,
        Event.math tex display ∈ contents ∧ settings.math tex display = .error reason ∧
        e = .math tex reason := by
  intro contents markup
  obtain ⟨last, htable⟩ := laysOut_table settings s s.table alignments hhead hrows
  -- Whether the contents fail decides whether the table is written as a whole.
  cases hfirst : (run settings s contents).1 with
  | none =>
    have hrun := htable.of_success hfirst s.sheet
    exact ⟨markup, last, List.prefix_rfl, hrun, congrArg (·.2.output) hrun, fun _ => rfl, nofun⟩
  | some e =>
    obtain ⟨part, last, hpart, hrun⟩ := htable.of_failure e hfirst s.sheet
    refine ⟨part, last, hpart, hrun, congrArg (·.2.output) hrun, nofun, fun e' he => ?_⟩
    cases he
    -- A step of the contents failed, and only formulas do.
    obtain ⟨before, event, after, hcontents, -, hstep⟩ :=
      exists_failure_of_run (Prod.ext hfirst rfl)
    obtain ⟨tex, display, reason, rfl, -, hreason, he⟩ := exists_math_of_step hstep
    exact ⟨tex, display, reason, by simp [hcontents], hreason, he⟩

/-- The contents of a head with two cells, one of them with raw HTML. -/
def raggedHead : List (List Event) :=
  [[.text "A".toList], [.html "<b>".toList] ++ [.text "B".toList]]

/-- The contents of rows that are longer or shorter than the head. -/
def raggedRows : List (List (List Event)) :=
  [[[.code "1".toList], [], enclose .emphasis [.text "3".toList]], [], [[.text "4".toList]]]

/-- Behind a table with other alignments, a table with a column of no alignment and one beyond its
alignments. -/
theorem ragged_table_behind_table :
    let earlier := (run {} {} (tableEvents [.center, .left] raggedHead raggedRows)).2
    (∀ content ∈ raggedHead, Inline Event.isInline content) ∧
    (∀ row ∈ raggedRows, ∀ content ∈ row, Inline Event.isInline content) ∧
    (run {} earlier (tableEvents [.right, .none] raggedHead raggedRows)).2.output =
      earlier.output ++
        ("<table><thead><tr><th align=\"right\">A</th><th><b>B</th></tr></thead>".toList ++
        "<tbody><tr><td align=\"right\"><code>1</code></td><td></td><td><em>3</em></td></tr>" ++
        "<tr></tr><tr><td align=\"right\">4</td></tr></tbody></table>") := by
  intro earlier
  have hhead : ∀ content ∈ raggedHead, Inline Event.isInline content :=
    List.forall_mem_cons.mpr ⟨.part rfl,
      List.forall_mem_singleton.mpr (.append (.part rfl) (.part rfl))⟩
  have hrows : ∀ row ∈ raggedRows, ∀ content ∈ row, Inline Event.isInline content := by
    simp only [raggedRows, List.forall_mem_cons]
    exact ⟨⟨.part rfl, .nil, .span rfl (.part rfl), List.forall_mem_nil _⟩, List.forall_mem_nil _,
      ⟨.part rfl, List.forall_mem_nil _⟩, List.forall_mem_nil _⟩
  obtain ⟨w, last, -, -, houtput, hw, -⟩ :=
    table_places_cells {} earlier [.right, .none] hhead hrows
  have hsucceeds : (run {} earlier
      (raggedHead.flatten ++ (raggedRows.map List.flatten).flatten)).1 = none := by
    decide +kernel
  refine ⟨hhead, hrows, ?_⟩
  rw [houtput, hw hsucceeds]
  apply congrArg (earlier.output ++ ·)
  decide +kernel

end DocPage.Render
