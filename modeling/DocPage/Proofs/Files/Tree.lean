import DocPage.Files.Glob
import DocPage.Files.Tree
import DocPage.Proofs.Text.Lines

/-!
# Laws of locations

A path is followed name by name, so a name behind a path is followed from where the path leads. In a
well-formed tree the names are proper, and whatever holds an entry is a directory. There, the paths
that go down from a directory and the locations below it are the same.

## Architecture

- **Well-formed trees**: `IsName` and `WellFormed`
- **Following names**: `follow_append`
- **Paths**: `locate_inside`, and `find?_insideAll` for a path that goes down
- **Directories**: `mem_of_list`, and `depth` as a bound
-/

namespace DocPage.Files

/-- A name that an entry of a directory can have. -/
def IsName (name : Text) : Prop :=
  name ≠ [] ∧ '/' ∉ name ∧ name ≠ ['.'] ∧ name ≠ ['.', '.']

instance (name : Text) : Decidable (IsName name) :=
  inferInstanceAs (Decidable (_ ∧ _ ∧ _ ∧ _))

/-- A path that goes down from a path through the names. -/
def insideAll (path : Text) (inner : List Text) : Text :=
  inner.foldl inside path

namespace Tree

variable {t : Tree}

/-! ## Well-formed trees -/

/-- A tree as files can make it up: all names are proper, and what holds an entry is a directory. -/
structure WellFormed (t : Tree) : Prop where
  isName : ∀ e ∈ t.entries, ∀ name ∈ e.1, IsName name
  above : ∀ e ∈ t.entries, t.entry? e.1.dropLast = some .directory

theorem isSome_entry?_iff {location : List Text} (h : location ≠ []) :
    (t.entry? location).isSome ↔ ∃ found, (location, found) ∈ t.entries := by
  -- The root is answered without a look at the entries; any other location has to be one of them.
  unfold entry?
  rw [if_neg (by simpa using h), List.lookup_isSome_iff]
  constructor
  · rintro ⟨⟨_, found⟩, hfound, hlocation⟩
    rw [eq_of_beq hlocation]
    exact ⟨found, hfound⟩
  · rintro ⟨found, hfound⟩
    exact ⟨(location, found), hfound, beq_self_eq_true location⟩

namespace WellFormed

variable {location inner : List Text}

theorem isName_of_mem (ht : t.WellFormed) (h : (t.entry? location).isSome) {name : Text}
    (hname : name ∈ location) : IsName name := by
  obtain ⟨found, hfound⟩ := (isSome_entry?_iff (List.ne_nil_of_mem hname)).mp h
  exact ht.isName _ hfound name hname

/-- What lies below a location makes it a directory. -/
theorem entry?_above (ht : t.WellFormed) (h : (t.entry? (location ++ inner)).isSome)
    (hinner : inner ≠ []) : t.entry? location = some .directory := by
  -- The names go away one by one from the end, and each time the rest holds an entry.
  induction inner using List.reverseRecOn with
  | nil => exact absurd rfl hinner
  | append_singleton inner name ih =>
    have hne : location ++ (inner ++ [name]) ≠ [] := by simp
    obtain ⟨found, hfound⟩ := (isSome_entry?_iff hne).mp h
    have habove := ht.above _ hfound
    rw [← List.append_assoc, List.dropLast_concat] at habove
    by_cases hnil : inner = []
    · rwa [hnil, List.append_nil] at habove
    · exact ih (habove ▸ rfl) hnil

theorem entry?_dropLast (ht : t.WellFormed) (h : t.entry? location = some .directory) :
    t.entry? location.dropLast = some .directory := by
  -- The root is its own parent; elsewhere the entry itself shows that its parent holds something.
  rcases List.eq_nil_or_concat' location with rfl | ⟨above, name, rfl⟩
  · exact h
  · rw [List.dropLast_concat]
    exact ht.entry?_above (by rw [h]; rfl) (List.cons_ne_nil name [])

end WellFormed

/-! ## Following names -/

theorem follow_append (t : Tree) (location a b : List Text) :
    t.follow location (a ++ b) = (t.follow location a).bind (t.follow · b) := by
  -- One step down reads the entry at the location and nothing else, so both sides agree step by
  -- step.
  induction a generalizing location with
  | nil => rfl
  | cons name a ih =>
    rw [List.cons_append, follow, follow]
    cases t.entry? location with
    | none => rfl
    | some entry =>
      cases entry with
      | file content => rfl
      | directory =>
        dsimp only
        split_ifs
        · exact ih location
        · exact ih location.dropLast
        · exact ih (location ++ [name])

/-- No name, and the name of the directory itself, need not be followed. -/
theorem follow_stay (t : Tree) (location : List Text) {stay : Text}
    (h : stay = [] ∨ stay = ['.']) (name : Text) (names : List Text) :
    (t.follow location [stay]).bind (t.follow · (name :: names)) =
      t.follow location (name :: names) := by
  have hstay : (stay == "".toList || stay == ".".toList) = true := by
    rcases h with rfl | rfl <;> rfl
  -- Both ways read the same entry first, and then the name that stays adds nothing.
  rw [← follow_append, List.singleton_append, follow, follow]
  cases hlocation : t.entry? location with
  | none => rfl
  | some entry =>
    cases entry with
    | file content => rfl
    | directory =>
      dsimp only
      rw [if_pos hstay]

/-- Behind a directory a slash makes no difference. -/
theorem follow_slash {location base : List Text} (names : List Text)
    (hbase : t.entry? base = some .directory) :
    t.follow location (names ++ [[]]) = .ok base ↔ t.follow location names = .ok base := by
  rw [follow_append]
  cases t.follow location names with
  | error e => exact Iff.rfl
  | ok last =>
    show t.follow last [[]] = .ok base ↔ _
    rw [follow]
    cases hlast : t.entry? last with
    -- Nothing is at the last location, but the base would be there.
    | none => exact iff_of_false nofun fun h => by cases h; simp [hbase] at hlast
    | some entry =>
      cases entry with
      | file content => exact iff_of_false nofun fun h => by cases h; simp [hbase] at hlast
      | directory => rfl

/-- A proper name leads down. -/
theorem follow_name (hlocation : t.entry? location = some .directory) {name : Text}
    (hname : IsName name) (names : List Text) :
    t.follow location (name :: names) = t.follow (location ++ [name]) names := by
  -- A proper name is none of the three that are treated apart.
  obtain ⟨hne, -, hdot, hup⟩ := hname
  have hstay : (name == "".toList || name == ".".toList) = false := by simp [hne, hdot]
  have hup' : (name == "..".toList) = false := by simp [hup]
  rw [follow, hlocation]
  simp only [hstay, hup', Bool.false_eq_true, if_false]

/-! ## Paths -/

/-- Where the names of a path start. -/
def origin (t : Tree) (path : Text) : List Text :=
  if path.head? = some '/' then [] else t.workingDirectory

/-- The slash in front of an absolute path is followed like an empty name. -/
theorem locate_eq_follow (t : Tree) {path : Text} (h : path ≠ []) :
    t.locate path = t.follow (t.origin path) (Text.splitAll '/' path) := by
  unfold locate origin
  -- Three forms of paths are told apart: none, an absolute one, and a relative one.
  split
  · exact absurd rfl h
  · rename_i rest
    rw [List.head?_cons, if_pos rfl, Text.splitAll, if_pos rfl, follow]
    rfl
  · rename_i path _ hslash
    rw [if_neg (Text.head?_ne hslash)]

theorem origin_append {a : Text} (h : a ≠ []) (b : Text) : t.origin (a ++ b) = t.origin a := by
  obtain ⟨c, rest, rfl⟩ := List.exists_cons_of_ne_nil h
  rfl

theorem inside_eq_join {path name : Text} (hpath : path ≠ ['.']) :
    inside path name = join path name :=
  if_neg (by simpa using hpath)

theorem inside_ne_nil {path name : Text} (hne : path ≠ []) (hdeparts : path = ['.'] → name ≠ [])
    (hname : '/' ∉ name) : inside path name ≠ [] := by
  by_cases hdot : path = ['.']
  · subst hdot
    exact hdeparts rfl
  · have hhead : name.head? ≠ some '/' := fun hhead => hname (List.mem_of_mem_head? hhead)
    rw [inside_eq_join hdot, join, if_neg (by simp [hhead, hne])]
    split <;> simp [hne]

/-- A name inside a path is followed from where the path leads. -/
theorem locate_inside (t : Tree) {path name : Text} (hne : path ≠ [])
    (hdeparts : path = ['.'] → name ≠ []) (hname : '/' ∉ name) :
    t.locate (inside path name) = (t.locate path).bind (t.follow · [name]) := by
  have hsplit : Text.splitAll '/' name = [name] := Text.splitAll_of_notMem hname
  have hhead : name.head? ≠ some '/' := fun hhead => hname (List.mem_of_mem_head? hhead)
  -- The name of the working directory is dropped in front of other names.
  by_cases hdot : path = ['.']
  · subst hdot
    have hwd : t.locate ['.'] = t.follow t.workingDirectory [['.']] := rfl
    rw [show inside ['.'] name = name from rfl, locate_eq_follow t (hdeparts rfl), hsplit, origin,
      if_neg hhead, hwd, follow_stay t _ (.inr rfl)]
  · rw [inside_eq_join hdot, join, if_neg (by simp [hhead, hne])]
    split
    · rename_i hslash
      -- The slash at the end of the path adds no name.
      obtain ⟨front, rfl⟩ : ∃ front, path = front ++ ['/'] :=
        List.getLast?_eq_some_iff.mp (by simpa using hslash)
      rw [locate_eq_follow t (by simp), locate_eq_follow t hne, origin_append hne,
        List.append_assoc, List.singleton_append, Text.splitAll_append_cons, hsplit,
        Text.splitAll_append_cons, follow_append, follow_append]
      -- Where following fails, so does what goes on with it.
      cases t.follow (t.origin (front ++ ['/'])) (Text.splitAll '/' front) with
      | error e => rfl
      | ok location => exact (follow_stay t location (.inl rfl) name []).symm
    · rw [locate_eq_follow t (by simp), locate_eq_follow t hne, origin_append hne,
        Text.splitAll_append_cons, hsplit, follow_append]

/-- On the way from a path through the names, no empty name is looked for in the working directory
under its own name, a dot. Such a path names nothing. -/
def Departs : (path : Text) → (names : List Text) → Prop
  | _, [] => True
  | path, name :: names => (path = ['.'] → name ≠ []) ∧ Departs (inside path name) names

theorem locate_insideAll (t : Tree) {path : Text} {names : List Text} (hne : path ≠ [])
    (hdeparts : Departs path names) (hnames : ∀ name ∈ names, '/' ∉ name) :
    t.locate (insideAll path names) = (t.locate path).bind (t.follow · names) := by
  -- The path grows by one name in each step, so the induction is for any path.
  induction names generalizing path with
  | nil =>
    show t.locate path = _
    cases t.locate path <;> rfl
  | cons name names ih =>
    obtain ⟨hname, hrest⟩ := List.forall_mem_cons.mp hnames
    obtain ⟨hhere, hbehind⟩ := hdeparts
    show t.locate (insideAll (inside path name) names) = _
    rw [ih (inside_ne_nil hne hhere hname) hbehind hrest, locate_inside t hne hhere hname]
    cases t.locate path with
    | error e => rfl
    | ok location => exact (follow_append t location [name] names).symm

theorem departs_of_isName {path : Text} {inner : List Text} (h : ∀ name ∈ inner, IsName name) :
    Departs path inner := by
  induction inner generalizing path with
  | nil => trivial
  | cons name inner ih =>
    obtain ⟨hname, hrest⟩ := List.forall_mem_cons.mp h
    exact ⟨fun _ => hname.1, ih hrest⟩

theorem entry?_follow (ht : t.WellFormed) {location inner : List Text}
    (hinner : ∀ name ∈ inner, IsName name) :
    (match t.follow location inner with
      | .ok location => t.entry? location
      | .error _ => none) = t.entry? (location ++ inner) := by
  -- In each step either there is a directory to go down from, or there is nothing below.
  induction inner generalizing location with
  | nil => rw [List.append_nil, follow]
  | cons name inner ih =>
    obtain ⟨hname, hrest⟩ := List.forall_mem_cons.mp hinner
    by_cases hlocation : t.entry? location = some .directory
    · rw [follow_name hlocation hname, ih hrest, List.append_assoc, List.singleton_append]
    · -- Only a directory has anything below it.
      have hnone : t.entry? (location ++ name :: inner) = none := by
        by_contra hsome
        exact hlocation (ht.entry?_above (Option.isSome_iff_ne_none.mpr hsome) (by simp))
      rw [hnone, follow]
      cases hfound : t.entry? location with
      | none => rfl
      | some entry =>
        cases entry with
        | file content => rfl
        | directory => exact absurd hfound hlocation

/-- **Paths that go down are locations.** What a path names that goes down from a located one stands
below its location. -/
theorem find?_insideAll (ht : t.WellFormed) {path : Text} {location : List Text}
    (hpath : t.locate path = .ok location) {inner : List Text}
    (hinner : ∀ name ∈ inner, IsName name) :
    t.find? (insideAll path inner) = t.entry? (location ++ inner) := by
  have hne : path ≠ [] := by
    rintro rfl
    cases hpath
  have hnames : ∀ name ∈ inner, '/' ∉ name := fun name hname => (hinner name hname).2.1
  rw [← entry?_follow ht hinner, find?, locate_insideAll t hne (departs_of_isName hinner) hnames,
    hpath]
  rfl

/-! ## Directories -/

theorem kind?_beq_directory_iff {path : Text} :
    (t.kind? path == some .directory) = true ↔ t.find? path = some .directory := by
  rw [beq_iff_eq]
  unfold kind?
  cases t.find? path with
  | none => simp
  | some entry => cases entry <;> simp

theorem isSome_kind?_iff {path : Text} : (t.kind? path).isSome ↔ (t.find? path).isSome := by
  unfold kind?
  rw [Option.isSome_map]

theorem find?_eq_some_iff {path : Text} {found : Entry} : t.find? path = some found ↔
    ∃ location, t.locate path = .ok location ∧ t.entry? location = some found := by
  -- The names behind the path were followed, so there was a way to start from.
  unfold find?
  cases t.locate path with
  | error e => simp
  | ok location => simp

/-- A path on which names are followed leads to a directory. -/
theorem find?_of_below {path : Text} {names : List Text} (hne : path ≠ [])
    (hdeparts : Departs path names) (hslash : ∀ name ∈ names, '/' ∉ name) (hnames : names ≠ [])
    (h : (t.find? (insideAll path names)).isSome) : t.find? path = some .directory := by
  obtain ⟨found, hfound⟩ := Option.isSome_iff_exists.mp h
  obtain ⟨location, hlocate, -⟩ := find?_eq_some_iff.mp hfound
  rw [locate_insideAll t hne hdeparts hslash] at hlocate
  obtain ⟨name, rest, rfl⟩ := List.exists_cons_of_ne_nil hnames
  -- Where the first of the names is followed, there has to be a directory.
  rw [find?_eq_some_iff]
  cases hpath : t.locate path with
  | error e =>
    rw [hpath] at hlocate
    cases hlocate
  | ok start =>
    rw [hpath] at hlocate
    change t.follow start (name :: rest) = .ok location at hlocate
    rw [follow] at hlocate
    cases hstart : t.entry? start with
    | none =>
      rw [hstart] at hlocate
      cases hlocate
    | some entry =>
      rw [hstart] at hlocate
      cases entry with
      | file content => cases hlocate
      | directory => exact ⟨start, rfl, hstart⟩

theorem find?_inside (ht : t.WellFormed) {path : Text} {location : List Text}
    (hpath : t.locate path = .ok location) {name : Text} (hname : IsName name) :
    t.find? (inside path name) = t.entry? (location ++ [name]) :=
  find?_insideAll ht hpath (List.forall_mem_singleton.mpr hname)

theorem find?_of_insideAll {path : Text} (hne : path ≠ []) {inner : List Text}
    (hnames : ∀ name ∈ inner, IsName name) (hinner : inner ≠ [])
    (h : (t.find? (insideAll path inner)).isSome) : t.find? path = some .directory :=
  find?_of_below hne (departs_of_isName hnames) (fun name hname => (hnames name hname).2.1) hinner h

/-- The path names the directory at the location. -/
def DirectoryAt (t : Tree) (path : Text) (location : List Text) : Prop :=
  t.locate path = .ok location ∧ t.entry? location = some .directory

theorem find?_eq_directory_iff {path : Text} :
    t.find? path = some .directory ↔ ∃ location, t.DirectoryAt path location :=
  find?_eq_some_iff

/-- A directory lists the names that stand right below it. -/
theorem exists_list {path : Text} {location : List Text} (h : t.DirectoryAt path location) :
    ∃ names, t.list path = .ok names ∧
      ∀ name, name ∈ names ↔ (t.entry? (location ++ [name])).isSome := by
  -- The names come from the entries of which all but the last name is the location.
  unfold list
  rw [h.1]
  dsimp only
  rw [h.2]
  refine ⟨_, rfl, fun name => ?_⟩
  rw [isSome_entry?_iff (by simp), List.mem_filterMap]
  constructor
  · rintro ⟨⟨inner, found⟩, hmem, hname⟩
    dsimp only at hname
    split at hname
    · rename_i hinner
      have heq := List.dropLast_append_getLast? name hname
      rw [eq_of_beq hinner] at heq
      rw [heq]
      exact ⟨found, hmem⟩
    · cases hname
  · rintro ⟨found, hmem⟩
    exact ⟨_, hmem, by simp⟩

theorem length_lt_depth {location : List Text} (h : (t.entry? location).isSome) :
    location.length < t.depth := by
  by_cases hne : location = []
  · subst hne
    exact Nat.succ_pos _
  · obtain ⟨found, hmem⟩ := (isSome_entry?_iff hne).mp h
    -- The depth is the largest of the lengths, one more than any of them.
    have hle : ∀ entries : List (List Text × Entry), (location, found) ∈ entries →
        location.length ≤
          entries.foldr (fun e below => max e.1.length below) 0 := by
      intro entries hmem
      induction entries with
      | nil => cases hmem
      | cons e entries ih =>
        rcases List.mem_cons.mp hmem with rfl | hmem
        · exact Nat.le_max_left _ _
        · exact (ih hmem).trans (Nat.le_max_right _ _)
    exact Nat.lt_succ_of_le (hle _ hmem)

end Tree

end DocPage.Files
