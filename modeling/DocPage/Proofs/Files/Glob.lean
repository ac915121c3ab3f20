import DocPage.Proofs.Files.GlobPattern
import DocPage.Proofs.Files.Tree

/-!
# Searches find what patterns lead to

Where a step of a search leads is said here of the paths of a tree, without lists of names and
without a bound on the depth. A search finds exactly the paths that its steps lead to one after the
other, and leaves the tree as it is.

## Architecture

- **Searches**: `Finds`, for one search and for one after the other
- **Steps**: `GlobStep.LeadsTo` and `finds_follow`
- **Ways**: `Leads` and `finds_followSteps`
- **Literal patterns**: `leads_named_iff`, they lead to the one directory that they name
-/

namespace DocPage.Files

/-! ## Searches -/

section Searches

variable {ε α β : Type} {t : Tree}

theorem run_bind_of_run {x : ExceptT ε (StateM Tree) α} {v : α} (h : x.run.run t = (.ok v, t))
    (f : α → ExceptT ε (StateM Tree) β) : (x >>= f).run.run t = (f v).run.run t := by
  rw [ExceptT.run_bind, StateT.run_bind, h]
  rfl

theorem run_adapt {ε' : Type} {x : ExceptT ε (StateM Tree) α} {v : α} (f : ε → ε')
    (h : x.run.run t = (.ok v, t)) : (x.adapt f).run.run t = (.ok v, t) := by
  -- The error is mapped behind the state, which stays what it was.
  show (Except.mapError f <$> x.run).run t = _
  rw [StateT.run_map, h]
  rfl

/-- The search succeeds, finds exactly these paths and leaves the tree as it is. -/
def Finds (search : ExceptT ε (StateM Tree) (List Text)) (t : Tree) (P : Text → Prop) : Prop :=
  ∃ found, search.run.run t = (.ok found, t) ∧ ∀ path, path ∈ found ↔ P path

/-- One search after the other finds what one of them finds. -/
theorem run_mapM_finds {next : Text → ExceptT ε (StateM Tree) (List Text)}
    {P : Text → Text → Prop} {paths : List Text}
    (h : ∀ path ∈ paths, Finds (next path) t (P path)) :
    ∃ founds, (paths.mapM next).run.run t = (.ok founds, t) ∧
      ∀ last, last ∈ founds.flatten ↔ ∃ path ∈ paths, P path last := by
  induction paths with
  | nil => exact ⟨[], rfl, by simp⟩
  | cons path paths ih =>
    obtain ⟨hpath, hrest⟩ := List.forall_mem_cons.mp h
    obtain ⟨found, hrun, hfound⟩ := hpath
    obtain ⟨founds, hruns, hfounds⟩ := ih hrest
    refine ⟨found :: founds, ?_, ?_⟩
    -- The first search comes back with the tree unchanged, so the others start from the same one.
    · rw [List.mapM_cons, run_bind_of_run hrun, run_bind_of_run hruns]
      rfl
    · intro last
      rw [List.flatten_cons, List.mem_append, hfound, hfounds, List.exists_mem_cons_iff]

end Searches

/-! ## Steps -/

/-- Where a step leads from a path. -/
def GlobStep.LeadsTo (t : Tree) (path : Text) : GlobStep → (next : Text) → Prop
  | .anyDepth, next => ∃ inner, (∀ name ∈ inner, IsName name) ∧ next = insideAll path inner ∧
      t.find? next = some .directory
  | .named name, next => next = inside path name ∧ (t.find? next).isSome
  | .matching dots p, next => ∃ name,
      (IsName name ∧ p.accepts name = true ∨ dots = true ∧ name ∈ dotNames p) ∧
      next = inside path name ∧ (t.find? next).isSome

section Steps

variable {t : Tree} {path : Text}

theorem GlobStep.LeadsTo.ne_nil {step : GlobStep} {next : Text} (h : step.LeadsTo t path next) :
    next ≠ [] := by
  rintro rfl
  cases step with
  | anyDepth =>
    obtain ⟨-, -, -, hfound⟩ := h
    cases hfound
  | named name => cases h.2
  | matching dots p =>
    obtain ⟨-, -, -, hfound⟩ := h
    cases hfound

/-- The names in a directory are those that paths inside it can have. -/
theorem run_namesIn (ht : t.WellFormed) (hne : path ≠ []) : ∃ names,
    (namesIn (m := StateM Tree) path).run.run t = (.ok names, t) ∧
      ∀ name, name ∈ names ↔ IsName name ∧ (t.find? (inside path name)).isSome := by
  -- Asking for the kind changes no state, so the branch is taken on the tree itself.
  have hrun : (namesIn (m := StateM Tree) path).run.run t =
      (if t.kind? path == some .directory then ExceptT.mk (Access.list path) else pure [] :
        ExceptT FileError (StateM Tree) (List Text)).run.run t := rfl
  rw [hrun]
  by_cases hdirectory : t.find? path = some .directory
  · obtain ⟨location, hlocate, hlocation⟩ := Tree.find?_eq_some_iff.mp hdirectory
    obtain ⟨names, hlist, hnames⟩ := Tree.exists_list ⟨hlocate, hlocation⟩
    refine ⟨names, ?_, fun name => ?_⟩
    · rw [if_pos (Tree.kind?_beq_directory_iff.mpr hdirectory)]
      exact congrArg (·, t) hlist
    · rw [hnames]
      constructor
      · intro hsome
        -- What a well-formed tree holds below a location has a proper name there.
        have hmem : name ∈ location ++ [name] := by simp
        have hname := ht.isName_of_mem hsome hmem
        exact ⟨hname, Tree.find?_inside ht hlocate hname ▸ hsome⟩
      · rintro ⟨hname, hsome⟩
        rwa [Tree.find?_inside ht hlocate hname] at hsome
  · refine ⟨[], ?_, fun name => ?_⟩
    · rw [if_neg (mt Tree.kind?_beq_directory_iff.mp hdirectory)]
      rfl
    · simp only [List.not_mem_nil, false_iff, not_and]
      -- Something inside the path would make it a directory, which it is not.
      intro hname hsome
      have hnames := List.forall_mem_singleton.mpr hname
      exact hdirectory (Tree.find?_of_insideAll hne hnames (List.cons_ne_nil name []) hsome)

/-- Directories are found below directories only. -/
theorem find?_of_leadsTo_anyDepth (hne : path ≠ []) {next : Text}
    (h : GlobStep.anyDepth.LeadsTo t path next) : t.find? path = some .directory := by
  obtain ⟨inner, hnames, rfl, hfound⟩ := h
  by_cases hinner : inner = []
  -- Without any name in between, the directory that is found is the path itself.
  · subst hinner
    exact hfound
  · exact Tree.find?_of_insideAll hne hnames hinner (by rw [hfound]; rfl)

theorem leadsTo_anyDepth_iff (hne : path ≠ []) (hpath : t.find? path = some .directory)
    {next : Text} : GlobStep.anyDepth.LeadsTo t path next ↔ next = path ∨
      ∃ name, (IsName name ∧ (t.find? (inside path name)).isSome) ∧
        GlobStep.anyDepth.LeadsTo t (inside path name) next := by
  constructor
  · rintro ⟨inner, hnames, rfl, hfound⟩
    cases inner with
    | nil => exact .inl rfl
    | cons name inner =>
      obtain ⟨hname, hinner⟩ := List.forall_mem_cons.mp hnames
      -- The way down is cut behind its first name; what is left leads on from there.
      have hnext : GlobStep.anyDepth.LeadsTo t (inside path name)
          (insideAll path (name :: inner)) := ⟨inner, hinner, rfl, hfound⟩
      have hinside := Tree.inside_ne_nil hne (fun _ => hname.1) hname.2.1
      refine .inr ⟨name, ⟨hname, ?_⟩, hnext⟩
      rw [find?_of_leadsTo_anyDepth hinside hnext]
      rfl
  · rintro (rfl | ⟨name, ⟨hname, -⟩, inner, hinner, rfl, hfound⟩)
    · exact ⟨[], by simp, rfl, hpath⟩
    -- The other way round, the name is put in front of the way that is left.
    · exact ⟨name :: inner, List.forall_mem_cons.mpr ⟨hname, hinner⟩, rfl, hfound⟩

/-- A search with as much fuel as the tree is deep finds every directory below. -/
theorem finds_directoriesFrom (ht : t.WellFormed) {depth : Nat} (hne : path ≠ [])
    (hdepth : ∀ location, t.locate path = .ok location → t.depth ≤ location.length + depth) :
    Finds (directoriesFrom (m := StateM Tree) depth path) t (GlobStep.anyDepth.LeadsTo t path) := by
  induction depth generalizing path with
  | zero =>
    -- No fuel is left, but a path this deep names nothing: the depth of the tree bounds all
    -- locations.
    refine ⟨[], rfl, fun next => iff_of_false List.not_mem_nil fun hnext => ?_⟩
    obtain ⟨location, hlocate, hlocation⟩ :=
      Tree.find?_eq_some_iff.mp (find?_of_leadsTo_anyDepth hne hnext)
    have hlt := Tree.length_lt_depth (hlocation ▸ rfl : (t.entry? location).isSome)
    have hle := hdepth location hlocate
    omega
  | succ depth ih =>
    -- The choice inside the search depends on the kind of the path alone, so it comes out of the
    -- run.
    have hrun : (directoriesFrom (m := StateM Tree) (depth + 1) path).run.run t =
        (if t.kind? path == some .directory then do
            let below ← (← namesIn path).mapM fun name => directoriesFrom depth (inside path name)
            pure (path :: below.flatten)
          else pure [] : ExceptT FileError (StateM Tree) (List Text)).run.run t := rfl
    unfold Finds
    rw [hrun]
    by_cases hdirectory : t.find? path = some .directory
    · rw [if_pos (Tree.kind?_beq_directory_iff.mpr hdirectory)]
      obtain ⟨names, hlist, hnames⟩ := run_namesIn ht hne
      obtain ⟨location, hlocate, hlocation⟩ := Tree.find?_eq_some_iff.mp hdirectory
      have hbelow : ∀ name ∈ names, Finds
          (directoriesFrom (m := StateM Tree) depth (inside path name)) t
          (GlobStep.anyDepth.LeadsTo t (inside path name)) := by
        intro name hmem
        have hname := ((hnames name).mp hmem).1
        refine ih (Tree.inside_ne_nil hne (fun _ => hname.1) hname.2.1) fun below hinside => ?_
        -- The names that are left to go down are one less.
        rw [Tree.locate_inside t hne (fun _ => hname.1) hname.2.1, hlocate] at hinside
        change t.follow location [name] = .ok below at hinside
        rw [Tree.follow_name hlocation hname] at hinside
        cases hinside
        have hle := hdepth location hlocate
        rw [List.length_append, List.length_singleton]
        omega
      -- The searches below are put one after the other, and the directory itself in front of them.
      obtain ⟨founds, hruns, hfounds⟩ := run_mapM_finds hbelow
      refine ⟨path :: founds.flatten, ?_, fun next => ?_⟩
      · rw [run_bind_of_run hlist, run_bind_of_run hruns]
        rfl
      · rw [leadsTo_anyDepth_iff hne hdirectory, List.mem_cons, hfounds]
        simp only [hnames]
    · rw [if_neg (mt Tree.kind?_beq_directory_iff.mp hdirectory)]
      -- What is no directory is not searched, and nothing is below it either.
      exact ⟨[], rfl, fun next => iff_of_false List.not_mem_nil fun hnext =>
        hdirectory (find?_of_leadsTo_anyDepth hne hnext)⟩

/-- In a directory there are always the directory itself and the one above it. -/
theorem isSome_find?_dots (ht : t.WellFormed) (hne : path ≠ []) {name : Text}
    (hname : name = ['.'] ∨ name = ['.', '.']) :
    (t.find? (inside path name)).isSome ↔ t.find? path = some .directory := by
  have hslash : '/' ∉ name := by rcases hname with rfl | rfl <;> decide
  have hlocate := Tree.locate_inside t hne (fun _ => by rcases hname with rfl | rfl <;> simp) hslash
  -- Both names are looked up from where the path leads, so that place decides.
  cases hpath : t.locate path with
  | error e =>
    rw [hpath] at hlocate
    simp [Tree.find?, hpath, hlocate, Except.bind]
  | ok location =>
    rw [hpath] at hlocate
    change t.locate (inside path name) = t.follow location [name] at hlocate
    rw [Tree.follow] at hlocate
    simp only [Tree.find?, hpath, hlocate]
    cases hlocation : t.entry? location with
    | none => simp
    | some entry =>
      cases entry with
      | file content => simp
      | directory =>
        -- The directory above a directory is one too, and above the root is the root.
        have habove := ht.entry?_dropLast hlocation
        rcases hname with rfl | rfl
        · simp [Tree.follow, hlocation]
        · simp [Tree.follow, habove]

theorem finds_named (ht : t.WellFormed) (hne : path ≠ []) (name : Text) :
    Finds ((GlobStep.named name).follow (m := StateM Tree) path) t
      ((GlobStep.named name).LeadsTo t path) := by
  -- Following reads the kind of one path, whichever of the two tests it makes.
  have hrun : ((GlobStep.named name).follow (m := StateM Tree) path).run.run t =
      (.ok (if if name == ['.'] || name == ['.', '.'] then t.kind? path == some .directory
        else (t.kind? (inside path name)).isSome then [inside path name] else []), t) := by
    unfold GlobStep.follow
    dsimp only
    split <;> rfl
  -- For the two names of dots the test on the path itself is as good as one behind the name.
  have hfound : (if name == ['.'] || name == ['.', '.'] then t.kind? path == some .directory
      else (t.kind? (inside path name)).isSome) = true ↔ (t.find? (inside path name)).isSome := by
    split
    · rename_i hdots
      rw [Tree.kind?_beq_directory_iff, isSome_find?_dots ht hne (by simpa using hdots)]
    · exact Tree.isSome_kind?_iff
  refine ⟨_, hrun, fun next => ?_⟩
  by_cases hsome : (t.find? (inside path name)).isSome
  · rw [if_pos (hfound.mpr hsome), List.mem_singleton]
    exact ⟨fun hnext => ⟨hnext, hnext ▸ hsome⟩, And.left⟩
  · rw [if_neg fun hpos => hsome (hfound.mp hpos)]
    exact iff_of_false List.not_mem_nil fun ⟨hnext, hthere⟩ => hsome (hnext ▸ hthere)

theorem mem_dotNames {p : NamePattern} {name : Text} (h : name ∈ dotNames p) :
    name = ['.'] ∨ name = ['.', '.'] := by
  unfold dotNames at h
  split at h
  · simpa using List.mem_of_mem_filter h
  · cases h

/-- The names of dots are looked for in directories only, where they are always found. -/
theorem mem_dotNames_iff (ht : t.WellFormed) (hne : path ≠ []) {dots : Bool} {p : NamePattern}
    {name : Text} :
    (name ∈ if dots && t.kind? path == some .directory then dotNames p else []) ↔
      (dots = true ∧ name ∈ dotNames p) ∧ (t.find? (inside path name)).isSome := by
  -- The names of dots lead somewhere exactly from directories, so the test in the code loses
  -- nothing.
  have hthere (hmem : name ∈ dotNames p) :
      (t.find? (inside path name)).isSome ↔ (t.kind? path == some .directory) = true := by
    rw [isSome_find?_dots ht hne (mem_dotNames hmem), Tree.kind?_beq_directory_iff]
  cases dots with
  | false => simp
  | true =>
    rw [Bool.true_and]
    split
    · rename_i hdirectory
      exact ⟨fun hmem => ⟨⟨rfl, hmem⟩, (hthere hmem).mpr hdirectory⟩, fun h => h.1.2⟩
    · rename_i hdirectory
      exact iff_of_false List.not_mem_nil fun ⟨⟨_, hmem⟩, hsome⟩ =>
        hdirectory ((hthere hmem).mp hsome)

theorem finds_matching (ht : t.WellFormed) (hne : path ≠ []) (dots : Bool) (p : NamePattern) :
    Finds ((GlobStep.matching dots p).follow (m := StateM Tree) path) t
      ((GlobStep.matching dots p).LeadsTo t path) := by
  obtain ⟨names, hlist, hnames⟩ := run_namesIn ht hne
  have hrun : ((GlobStep.matching dots p).follow (m := StateM Tree) path).run.run t =
      (.ok ((names.filter p.accepts ++
        if dots && t.kind? path == some .directory then dotNames p else []).map (inside path)),
        t) := by
    unfold GlobStep.follow
    rw [run_bind_of_run hlist]
    rfl
  refine ⟨_, hrun, fun next => ?_⟩
  rw [List.mem_map]
  simp only [List.mem_append, List.mem_filter, hnames, mem_dotNames_iff ht hne]
  -- Both sides say of a name that it is listed or a dot, and that it is there.
  constructor
  · rintro ⟨name, (⟨⟨hname, hthere⟩, haccepts⟩ | ⟨hdot, hthere⟩), rfl⟩
    · exact ⟨name, .inl ⟨hname, haccepts⟩, rfl, hthere⟩
    · exact ⟨name, .inr hdot, rfl, hthere⟩
  · rintro ⟨name, (⟨hname, haccepts⟩ | hdot), rfl, hthere⟩
    · exact ⟨name, .inl ⟨⟨hname, hthere⟩, haccepts⟩, rfl⟩
    · exact ⟨name, .inr ⟨hdot, hthere⟩, rfl⟩

/-- A step finds what it leads to. -/
theorem finds_follow (ht : t.WellFormed) (hne : path ≠ []) (step : GlobStep) :
    Finds (step.follow (m := StateM Tree) path) t (step.LeadsTo t path) := by
  cases step with
  | anyDepth =>
    -- The fuel is the depth of the whole tree, which is enough from any location.
    have hrun : (GlobStep.anyDepth.follow (m := StateM Tree) path).run.run t =
        (directoriesFrom (m := StateM Tree) t.depth path).run.run t := rfl
    unfold Finds
    rw [hrun]
    exact finds_directoriesFrom ht hne fun location _ => Nat.le_add_left _ _
  | named name => exact finds_named ht hne name
  | matching dots p => exact finds_matching ht hne dots p

end Steps

/-! ## Ways -/

/-- Where a sequence of steps leads from a path. -/
def Leads (t : Tree) : List GlobStep → (path last : Text) → Prop
  | [], path, last => last = path
  | step :: steps, path, last => ∃ next, step.LeadsTo t path next ∧ Leads t steps next last

theorem Leads.ne_nil {t : Tree} {steps : List GlobStep} {path last : Text}
    (h : Leads t steps path last) (hne : path ≠ []) : last ≠ [] := by
  induction steps generalizing path with
  | nil => exact h ▸ hne
  | cons step steps ih =>
    obtain ⟨next, hnext, hrest⟩ := h
    exact ih hrest hnext.ne_nil

/-- **A search finds what its steps lead to.** It finds nothing else, and leaves the tree as it
is. -/
theorem finds_followSteps {t : Tree} (ht : t.WellFormed) (steps : List GlobStep) {path : Text}
    (hne : path ≠ []) :
    Finds (followSteps (m := StateM Tree) steps path) t (Leads t steps path) := by
  induction steps generalizing path with
  | nil => exact ⟨[path], rfl, fun last => List.mem_singleton⟩
  | cons step steps ih =>
    -- Each path that the first step leads to is searched by the other steps, so the induction is
    -- over the steps for all paths.
    obtain ⟨next, hrun, hnext⟩ := finds_follow ht hne step
    obtain ⟨founds, hruns, hfounds⟩ :=
      run_mapM_finds fun path hpath => ih ((hnext path).mp hpath).ne_nil
    refine ⟨founds.flatten, ?_, fun last => ?_⟩
    · rw [followSteps, run_bind_of_run hrun, run_bind_of_run hruns]
      rfl
    · rw [hfounds]
      simp only [hnext, Leads]

theorem leads_append {t : Tree} {a b : List GlobStep} {path last : Text} :
    Leads t (a ++ b) path last ↔ ∃ middle, Leads t a path middle ∧ Leads t b middle last := by
  induction a generalizing path with
  | nil => simp [Leads]
  | cons step a ih =>
    simp only [List.cons_append, Leads, ih]
    constructor
    · rintro ⟨next, hnext, middle, ha, hb⟩
      exact ⟨middle, ⟨next, hnext, ha⟩, hb⟩
    · rintro ⟨middle, ⟨next, hnext, ha⟩, hb⟩
      exact ⟨next, hnext, middle, ha, hb⟩

/-! ## Literal patterns -/

section Literal

variable {t : Tree} {path : Text} {names : List Text}

theorem eq_of_leads_named {last : Text} (h : Leads t (names.map .named) path last) :
    last = insideAll path names := by
  induction names generalizing path with
  | nil => exact h
  | cons name names ih =>
    obtain ⟨next, ⟨rfl, -⟩, hrest⟩ := h
    exact ih hrest

/-- Whoever finds the last of some names one inside the other finds all of them on the way. -/
theorem leads_named (hne : path ≠ []) (hdeparts : Tree.Departs path names)
    (hslash : ∀ name ∈ names, '/' ∉ name) (h : (t.find? (insideAll path names)).isSome) :
    Leads t (names.map .named) path (insideAll path names) := by
  induction names generalizing path with
  | nil => rfl
  | cons name names ih =>
    obtain ⟨hname, hrest⟩ := List.forall_mem_cons.mp hslash
    obtain ⟨hhere, hbehind⟩ := hdeparts
    have hinside := Tree.inside_ne_nil hne hhere hname
    -- On the way each name has something below it, so what has been found so far is there.
    refine ⟨inside path name, ⟨rfl, ?_⟩, ih hinside hbehind hrest h⟩
    by_cases hnil : names = []
    · subst hnil
      exact h
    · rw [Tree.find?_of_below hinside hbehind hrest hnil h]
      rfl

/-- A path that does not name the working directory by a dot can go on with any name. -/
theorem departs_of_ne (hne : path ≠ []) (hdot : path ≠ ['.'])
    (hslash : ∀ name ∈ names, '/' ∉ name) : Tree.Departs path names := by
  induction names generalizing path with
  | nil => trivial
  | cons name names ih =>
    obtain ⟨hname, hrest⟩ := List.forall_mem_cons.mp hslash
    have hhere : path = ['.'] → name ≠ [] := fun h => absurd h hdot
    refine ⟨hhere, ih (Tree.inside_ne_nil hne hhere hname) ?_ hrest⟩
    -- Neither the name nor the slash in front of it can turn the path into a dot.
    rw [Tree.inside_eq_join hdot, join_eq_withoutSlash hne hname]
    intro heq
    have hmem : '/' ∈ withoutSlash path ++ '/' :: name := by simp
    rw [heq] at hmem
    exact absurd hmem (by decide)

/-- Whether a path goes on with a slash behind the dots at its start, as `.//kit` does. -/
def slashBehindDots : Text → Bool
  | '.' :: '/' :: '/' :: _ => true
  | '.' :: '/' :: rest => slashBehindDots rest
  | _ => false

/-- The first name of a path that does not start with a dot and a slash leaves the working
directory. -/
theorem departs_splitAll {front : Text} (hne : front ≠ []) (hslash : front.head? ≠ some '/')
    (hdots : ∀ rest, front ≠ '.' :: '/' :: rest) :
    Tree.Departs ['.'] (Text.splitAll '/' front) := by
  -- Only the first name can be empty or a dot here, and it is what stands in front of the first
  -- slash.
  by_cases hmem : '/' ∈ front
  · obtain ⟨name, rest, rfl, hname⟩ := List.eq_append_cons_of_mem hmem
    rw [Text.splitAll_append hname]
    have hnonempty : name ≠ [] := by
      rintro rfl
      exact hslash rfl
    have hdot : name ≠ ['.'] := by
      rintro rfl
      exact hdots rest rfl
    exact ⟨fun _ => hnonempty,
      departs_of_ne hnonempty hdot fun name => Text.notMem_of_mem_splitAll⟩
  · rw [Text.splitAll_of_notMem hmem]
    exact ⟨fun _ => hne, trivial⟩

theorem departs_patternNames {pattern : Text} (h : slashBehindDots pattern = false) :
    Tree.Departs (patternStart pattern) (patternNames pattern) := by
  by_cases hslash : pattern.head? = some '/'
  · have hstart : patternStart pattern = ['/'] := if_pos hslash
    rw [hstart]
    -- An absolute path never gets back to the dot.
    exact departs_of_ne (by simp) (by simp) fun name => notMem_of_mem_patternNames
  · have hstart : patternStart pattern = ['.'] := if_neg hslash
    rw [hstart]
    -- The dots at the start are names of their own, so the induction follows the test for them.
    induction pattern using slashBehindDots.induct with
    | case1 rest => cases h
    | case2 rest hrest ih =>
      have hhead := Text.head?_ne hrest
      rw [slashBehindDots.eq_2 rest hrest] at h
      rw [patternNames_dotSlash hhead]
      exact ⟨fun _ => List.cons_ne_nil _ _, ih h hhead (if_neg hhead)⟩
    -- Behind the dots a proper name comes first, or nothing at all.
    | case3 pattern _ hdots =>
      by_cases hne : pattern = []
      · subst hne
        trivial
      · obtain ⟨behind, hbehind⟩ := withoutSlash_starts pattern
        have hfront := withoutSlash_ne_nil hne hslash
        rw [patternNames, relativePart_of_ne hslash, if_neg hne]
        refine departs_splitAll hfront ?_ fun rest hrest => ?_
        · rwa [← hbehind, List.head?_append_of_ne_nil _ hfront] at hslash
        · exact hdots (rest ++ behind) (by rw [← hbehind, hrest]; rfl)

/-- The empty name behind the dots names nothing in the working directory. -/
theorem not_leads_of_slashBehindDots {pattern : Text} (h : slashBehindDots pattern = true)
    (last : Text) : ¬ Leads t ((patternNames pattern).map .named) (patternStart pattern) last := by
  induction pattern using slashBehindDots.induct with
  | case1 rest =>
    -- The second step looks for the empty name in the working directory, under the empty path.
    obtain ⟨names, hnames⟩ := patternNames_dotSlashSlash rest
    rw [hnames]
    rintro ⟨next, ⟨rfl, -⟩, next', ⟨rfl, hfound⟩, -⟩
    cases hfound
  | case2 rest hrest ih =>
    have hhead := Text.head?_ne hrest
    have hstart : patternStart rest = ['.'] := if_neg hhead
    rw [slashBehindDots.eq_2 rest hrest] at h
    rw [patternNames_dotSlash hhead]
    rintro ⟨next, ⟨rfl, -⟩, hleads⟩
    exact ih h (hstart ▸ hleads)
  | case3 pattern hslash hdots =>
    rw [slashBehindDots.eq_3 pattern hslash hdots] at h
    cases h

/-- A pattern as a path. Without any name it is the working directory. -/
def patternPath (pattern : Text) : Text :=
  if pattern = [] then ['.'] else pattern

/-- The names of a path are followed from its origin, with or without a slash at the end. -/
theorem directoryAt_iff_follow {pattern : Text} (hne : pattern ≠ []) {base : List Text} :
    t.DirectoryAt pattern base ↔
      t.follow (t.origin pattern) (patternNames pattern) = .ok base ∧
        t.entry? base = some .directory := by
  -- Both sides ask for the same directory, so only the way to it is compared.
  refine and_congr_left fun hbase => ?_
  have hlocate : t.locate pattern =
      t.follow (t.origin pattern) (Text.splitAll '/' (relativePart pattern)) := by
    by_cases hslash : pattern.head? = some '/'
    · obtain ⟨rest, rfl⟩ := List.head?_eq_some_iff.mp hslash
      rfl
    · rw [relativePart_of_ne hslash, Tree.locate_eq_follow t hne]
  rw [hlocate]
  unfold patternNames
  split
  · rename_i hempty
    -- Here the pattern is a lone slash, which has no names.
    rw [hempty]
    exact Tree.follow_slash [] hbase
  -- A slash at the end is an empty name on the left and is dropped on the right.
  · by_cases hend : (relativePart pattern).getLast? = some '/'
    · obtain ⟨front, hfront⟩ := List.getLast?_eq_some_iff.mp hend
      rw [hfront, withoutSlash_append, Text.splitAll_append_cons]
      exact Tree.follow_slash _ hbase
    · rw [withoutSlash_of_ne hend]

theorem directoryAt_patternNames {pattern : Text} (h : slashBehindDots pattern = false)
    {base : List Text} :
    t.DirectoryAt (insideAll (patternStart pattern) (patternNames pattern)) base ↔
      t.DirectoryAt (patternPath pattern) base := by
  by_cases hne : pattern = []
  · subst hne
    exact Iff.rfl
  · have hlocate : t.locate (insideAll (patternStart pattern) (patternNames pattern)) =
        t.follow (t.origin pattern) (patternNames pattern) := by
      -- A search starts at the dot, and a path at the working directory, where the dot leads.
      rw [Tree.locate_insideAll t (patternStart_ne_nil pattern) (departs_patternNames h)
        fun name => notMem_of_mem_patternNames]
      by_cases hslash : pattern.head? = some '/'
      · rw [patternStart, if_pos hslash, Tree.origin, if_pos hslash]
        rfl
      · rw [patternStart, if_neg hslash, Tree.origin, if_neg hslash]
        obtain ⟨name, names, hnames⟩ : ∃ name names, patternNames pattern = name :: names := by
          apply List.exists_cons_of_ne_nil
          rw [patternNames, relativePart_of_ne hslash, if_neg hne]
          exact Text.splitAll_ne_nil _ _
        rw [hnames]
        exact Tree.follow_stay t t.workingDirectory (.inr rfl) name names
    rw [patternPath, if_neg hne, directoryAt_iff_follow hne, Tree.DirectoryAt, hlocate]

/-- **The names of a pattern lead to the one directory that it names as a path.** -/
theorem leads_named_iff {pattern : Text} (h : slashBehindDots pattern = false)
    {base : List Text} :
    (∃ last, Leads t ((patternNames pattern).map .named) (patternStart pattern) last ∧
      t.DirectoryAt last base) ↔ t.DirectoryAt (patternPath pattern) base := by
  rw [← directoryAt_patternNames h]
  constructor
  · rintro ⟨last, hleads, hbase⟩
    -- The search can only have gone through all of the names.
    rwa [eq_of_leads_named hleads] at hbase
  · intro hbase
    refine ⟨_, leads_named (patternStart_ne_nil pattern) (departs_patternNames h)
      (fun name => notMem_of_mem_patternNames) ?_, hbase⟩
    rw [Tree.find?_eq_directory_iff.mpr ⟨base, hbase⟩]
    rfl

end Literal

end DocPage.Files
