import DocPage.Files.Glob
import DocPage.Proofs.Text.Lines

/-!
# How patterns are read

A pattern is read name by name into steps, as far as its text without a slash at the end has names.
Names without wildcards are read as themselves, and a name that is joined to a pattern adds a step.

## Architecture

- **Names**: `IsLiteral` names stand for themselves, and a star for any start of a name
- **Steps**: `globStepsFrom?` of literal names, and of names around `**`
- **Patterns**: `patternStart` and `patternNames`, from which `globSteps?` makes the steps
-/

namespace DocPage.Files

/-! ## Names -/

/-- A text without wildcards. A closing bracket alone is none. -/
def IsLiteral (name : Text) : Prop :=
  ∀ c ∈ name, c ≠ '*' ∧ c ≠ '?' ∧ c ≠ '['

instance (name : Text) : Decidable (IsLiteral name) :=
  inferInstanceAs (Decidable (∀ c ∈ name, _))

theorem ofText?_literal {name : Text} (h : IsLiteral name) :
    NamePattern.ofText? name = some (name.map .exactly) := by
  unfold NamePattern.ofText?
  induction name with
  | nil => rfl
  | cons c name ih =>
    obtain ⟨⟨hstar, hone, hbracket⟩, hrest⟩ := List.forall_mem_cons.mp h
    simp [namePatternFrom?, ih hrest]

theorem literal?_exactly (name : Text) :
    NamePattern.literal? (name.map .exactly) = some name := by
  unfold NamePattern.literal?
  induction name with
  | nil => rfl
  | cons c name ih => simp [ih]

theorem accepts_exactly {ending name : Text} :
    NamePattern.accepts (ending.map .exactly) name = true ↔ name = ending := by
  induction ending generalizing name with
  | nil => simp [NamePattern.accepts]
  | cons c ending ih =>
    cases name with
    | nil => simp [NamePattern.accepts]
    | cons d name =>
      rw [List.map_cons, NamePattern.accepts, Bool.and_eq_true, ih, Wildcard.accepts, beq_iff_eq,
        List.cons.injEq, eq_comm]
      rintro ⟨⟩

/-- A star in front of an ending accepts the names with this ending. -/
theorem accepts_anyMany {ending name : Text} :
    NamePattern.accepts (.anyMany :: ending.map .exactly) name = true ↔ ending <:+ name := by
  induction name with
  | nil => rw [NamePattern.accepts, accepts_exactly, List.suffix_nil, eq_comm]
  | cons c name ih =>
    rw [NamePattern.accepts, Bool.or_eq_true, ih, accepts_exactly, List.suffix_cons_iff, eq_comm]

/-! ## Steps -/

theorem ofName?_literal {name : Text} (h : IsLiteral name) :
    GlobStep.ofName? false name = some (.named name) := by
  have hne : name ≠ "**".toList := by
    rintro rfl
    exact (h '*' (by decide)).1 rfl
  unfold GlobStep.ofName?
  rw [if_neg (by simpa using hne), ofText?_literal h]
  simp [literal?_exactly]

theorem globStepsFrom?_literal {names : List Text} (h : ∀ name ∈ names, IsLiteral name) :
    globStepsFrom? false names = some (names.map .named) := by
  induction names with
  | nil => rfl
  | cons name names ih =>
    obtain ⟨hname, hrest⟩ := List.forall_mem_cons.mp h
    have hstep : (GlobStep.named name == .anyDepth) = false := rfl
    simp [globStepsFrom?, ofName?_literal hname, hstep, ih hrest]

/-- The names behind `**` are read like names below any depth, whatever stands in front of it. -/
theorem globStepsFrom?_append (belowAnyDepth : Bool) (names behind : List Text) :
    globStepsFrom? belowAnyDepth (names ++ "**".toList :: behind) =
      (globStepsFrom? belowAnyDepth names).bind fun steps =>
        (globStepsFrom? true behind).map fun below => steps ++ .anyDepth :: below := by
  induction names generalizing belowAnyDepth with
  | nil =>
    have hdeep : GlobStep.ofName? belowAnyDepth "**".toList = some .anyDepth := rfl
    simp only [List.nil_append, globStepsFrom?, hdeep, Option.bind_eq_bind, Option.bind_some]
    rfl
  | cons name names ih =>
    rw [List.cons_append, globStepsFrom?, globStepsFrom?]
    cases GlobStep.ofName? belowAnyDepth name with
    | none => rfl
    | some step =>
      simp only [Option.bind_eq_bind, Option.bind_some, ih]
      cases globStepsFrom? (step == .anyDepth) names with
      | none => rfl
      | some steps => cases globStepsFrom? true behind <;> rfl

/-- A pattern with a leading dot finds the dots of `kit`, but none at any depth below it. -/
example : globStepsFrom? false ["kit".toList, ".*".toList, "**".toList, ".*".toList] =
    some [.named "kit".toList, .matching true [.exactly '.', .anyMany], .anyDepth,
      .matching false [.exactly '.', .anyMany]] := rfl

/-! ## Patterns -/

/-- A pattern without the slash in front. -/
def relativePart (pattern : Text) : Text :=
  (Text.dropPrefix? ['/'] pattern).getD pattern

def withoutSlash (pattern : Text) : Text :=
  (Text.dropSuffix? ['/'] pattern).getD pattern

/-- The directory where a pattern starts. -/
def patternStart (pattern : Text) : Text :=
  if pattern.head? = some '/' then ['/'] else ['.']

theorem patternStart_ne_nil (pattern : Text) : patternStart pattern ≠ [] := by
  unfold patternStart
  split <;> exact List.cons_ne_nil _ []

def patternNames (pattern : Text) : List Text :=
  if relativePart pattern = [] then []
  else Text.splitAll '/' (withoutSlash (relativePart pattern))

theorem relativePart_slash (rest : Text) : relativePart ('/' :: rest) = rest := rfl

theorem relativePart_of_ne {pattern : Text} (h : pattern.head? ≠ some '/') :
    relativePart pattern = pattern := by
  unfold relativePart
  cases hdrop : Text.dropPrefix? ['/'] pattern with
  | none => rfl
  | some rest =>
    rw [Text.dropPrefix?_eq_some_iff] at hdrop
    exact absurd (by simp [hdrop]) h

/-- The steps of a pattern are those of its names. -/
theorem globSteps?_eq (pattern : Text) : globSteps? pattern =
    (globStepsFrom? false (patternNames pattern)).map (patternStart pattern, ·) := by
  unfold globSteps? patternNames patternStart
  split
  -- The code asks once for a slash in front; each answer gives the start and the names together.
  · rename_i start relative hsplit
    split at hsplit
    · cases hsplit
      simp only [relativePart_slash, List.isEmpty_iff, List.head?_cons, if_true]
      rfl
    · rename_i hslash
      cases hsplit
      have hhead := Text.head?_ne hslash
      simp only [relativePart_of_ne hhead, List.isEmpty_iff, if_neg hhead]
      rfl

theorem withoutSlash_append (front : Text) : withoutSlash (front ++ ['/']) = front := by
  have hdrop : Text.dropSuffix? ['/'] (front ++ ['/']) = some front :=
    Text.dropSuffix?_eq_some_iff.mpr rfl
  unfold withoutSlash
  rw [hdrop]
  rfl

theorem withoutSlash_of_ne {t : Text} (h : t.getLast? ≠ some '/') : withoutSlash t = t := by
  unfold withoutSlash
  cases hdrop : Text.dropSuffix? ['/'] t with
  | none => rfl
  | some front =>
    rw [Text.dropSuffix?_eq_some_iff] at hdrop
    exact absurd (by simp [hdrop]) h

/-- A name joined to a path stands behind one slash. -/
theorem join_eq_withoutSlash {path name : Text} (hpath : path ≠ []) (hname : '/' ∉ name) :
    join path name = withoutSlash path ++ '/' :: name := by
  -- A name without slashes does not start with one, so it replaces nothing of the path.
  have hhead : name.head? ≠ some '/' := fun hhead => hname (List.mem_of_mem_head? hhead)
  rw [join, if_neg (by simp [hhead, hpath])]
  split
  · rename_i hslash
    obtain ⟨front, rfl⟩ : ∃ front, path = front ++ ['/'] :=
      List.getLast?_eq_some_iff.mp (by simpa using hslash)
    rw [withoutSlash_append, List.append_assoc, List.singleton_append]
  · rename_i hslash
    rw [withoutSlash_of_ne (by simpa using hslash)]

theorem head?_join {path : Text} (hpath : path ≠ []) {name : Text} (hname : '/' ∉ name) :
    (join path name).head? = path.head? := by
  have hhead : name.head? ≠ some '/' := fun hhead => hname (List.mem_of_mem_head? hhead)
  obtain ⟨c, rest, rfl⟩ := List.exists_cons_of_ne_nil hpath
  rw [join, if_neg (by simp [hhead])]
  split <;> rfl

theorem join_slash {rest name : Text} (hrest : rest ≠ []) (hname : '/' ∉ name) :
    join ('/' :: rest) name = '/' :: join rest name := by
  have hhead : name.head? ≠ some '/' := fun hhead => hname (List.mem_of_mem_head? hhead)
  have hlast : ('/' :: rest).getLast? = rest.getLast? := by
    rw [List.getLast?_cons, List.getLast?_eq_some_getLast hrest]
    rfl
  -- Neither the name nor what is left of the path makes joining start afresh.
  have hjoined : (name.head? == some '/' || ('/' :: rest).isEmpty) = false := by simp [hhead]
  have hjoined' : (name.head? == some '/' || rest.isEmpty) = false := by simp [hhead, hrest]
  simp only [join, hjoined, hjoined', hlast, Bool.false_eq_true, if_false]
  split <;> rfl

theorem patternStart_join {pattern name : Text} (hname : '/' ∉ name) :
    patternStart (join pattern name) = patternStart pattern := by
  have hhead : name.head? ≠ some '/' := fun hhead => hname (List.mem_of_mem_head? hhead)
  by_cases hpattern : pattern = []
  · subst hpattern
    simp [patternStart, join, hhead]
  · rw [patternStart, head?_join hpattern hname, patternStart]

theorem splitAll_withoutSlash (front : Text) {name : Text} (hne : name ≠ []) (hname : '/' ∉ name) :
    Text.splitAll '/' (withoutSlash (front ++ '/' :: name)) =
      Text.splitAll '/' front ++ [name] := by
  -- The text ends with the name, so it has no slash at its end to lose.
  have hlast : (front ++ '/' :: name).getLast? ≠ some '/' := by
    obtain ⟨init, c, rfl⟩ := (List.eq_nil_or_concat' name).resolve_left hne
    rw [← List.cons_append, ← List.append_assoc, List.getLast?_concat]
    rintro ⟨⟩
    exact hname (by simp)
  rw [withoutSlash_of_ne hlast, Text.splitAll_append_cons, Text.splitAll_of_notMem hname]

/-- A name that is joined to a pattern becomes its last name. -/
theorem patternNames_join {pattern name : Text} (hne : name ≠ []) (hname : '/' ∉ name) :
    patternNames (join pattern name) = patternNames pattern ++ [name] := by
  -- Alone, the name is its own only part.
  have halone : Text.splitAll '/' (withoutSlash name) = [name] := by
    rw [withoutSlash_of_ne fun hlast => hname (List.mem_of_getLast? hlast),
      Text.splitAll_of_notMem hname]
  by_cases hpattern : pattern = []
  -- Without a pattern there is nothing to join to, and the name is all of it.
  · subst hpattern
    have hhead : name.head? ≠ some '/' := fun hhead => hname (List.mem_of_mem_head? hhead)
    have hjoin : join [] name = name := by simp [join]
    rw [hjoin, patternNames, relativePart_of_ne hhead, if_neg hne, halone]
    rfl
  · have hjoin := join_eq_withoutSlash hpattern hname
    by_cases hslash : pattern.head? = some '/'
    · obtain ⟨rest, rfl⟩ := List.head?_eq_some_iff.mp hslash
      by_cases hrest : rest = []
      -- The root alone ends with its slash, which joining uses instead of a new one.
      · subst hrest
        have hroot : join ['/'] name = '/' :: name := hjoin
        rw [hroot, patternNames, relativePart_slash, if_neg hne, halone]
        rfl
      · rw [join_slash hrest hname, patternNames, relativePart_slash, patternNames,
          relativePart_slash, if_neg hrest, join_eq_withoutSlash hrest hname, if_neg (by simp),
          splitAll_withoutSlash _ hne hname]
    -- In a relative pattern the slash is put in front of the name.
    · have hhead : (join pattern name).head? ≠ some '/' := by rwa [head?_join hpattern hname]
      rw [patternNames, relativePart_of_ne hhead, patternNames, relativePart_of_ne hslash,
        if_neg hpattern, hjoin, if_neg (by simp), splitAll_withoutSlash _ hne hname]

/-! ## Literal patterns -/

theorem withoutSlash_starts (t : Text) : withoutSlash t <+: t := by
  unfold withoutSlash
  cases hdrop : Text.dropSuffix? ['/'] t with
  | none => exact List.prefix_refl t
  | some front => exact ⟨['/'], (Text.dropSuffix?_eq_some_iff.mp hdrop).symm⟩

theorem relativePart_suffix (pattern : Text) : relativePart pattern <:+ pattern := by
  unfold relativePart
  cases hdrop : Text.dropPrefix? ['/'] pattern with
  | none => exact List.suffix_refl pattern
  | some rest => exact ⟨['/'], (Text.dropPrefix?_eq_some_iff.mp hdrop).symm⟩

theorem isLiteral_of_mem_patternNames {pattern name : Text} (h : IsLiteral pattern)
    (hname : name ∈ patternNames pattern) : IsLiteral name := by
  unfold patternNames at hname
  split at hname
  · cases hname
  · intro c hc
    -- Each name is a piece of the pattern, so wildcards in it would be wildcards of the pattern.
    have hsplit := (Text.infix_of_mem_splitAll.2 name hname).subset hc
    exact h c ((relativePart_suffix pattern).subset ((withoutSlash_starts _).subset hsplit))

theorem notMem_of_mem_patternNames {pattern name : Text} (hname : name ∈ patternNames pattern) :
    '/' ∉ name := by
  unfold patternNames at hname
  split at hname
  · cases hname
  · exact Text.notMem_of_mem_splitAll hname

theorem withoutSlash_ne_nil {t : Text} (hne : t ≠ []) (hhead : t.head? ≠ some '/') :
    withoutSlash t ≠ [] := by
  unfold withoutSlash
  cases hdrop : Text.dropSuffix? ['/'] t with
  | none => exact hne
  | some front =>
    rw [Text.dropSuffix?_eq_some_iff] at hdrop
    -- The slash that was dropped would be all of the text, and its start.
    rintro rfl
    exact hhead (by rw [hdrop]; rfl)

theorem withoutSlash_append_of_ne (front : Text) {t : Text} (h : t ≠ []) :
    withoutSlash (front ++ t) = front ++ withoutSlash t := by
  by_cases hend : t.getLast? = some '/'
  · obtain ⟨rest, rfl⟩ := List.getLast?_eq_some_iff.mp hend
    rw [← List.append_assoc, withoutSlash_append, withoutSlash_append]
  · have hlast : (front ++ t).getLast? ≠ some '/' := by
      rwa [List.getLast?_append_of_ne_nil front h]
    rw [withoutSlash_of_ne hend, withoutSlash_of_ne hlast]

theorem patternNames_dotSlash_eq {rest : Text} (hrest : rest ≠ []) :
    patternNames ('.' :: '/' :: rest) = ['.'] :: Text.splitAll '/' (withoutSlash rest) := by
  -- The dot has no slash in it, so it is cut off as a name before the rest is looked at.
  have hhead : ('.' :: '/' :: rest).head? ≠ some '/' := by simp
  have hdots : '.' :: '/' :: rest = ['.', '/'] ++ rest := rfl
  rw [patternNames, relativePart_of_ne hhead, if_neg (List.cons_ne_nil _ _), hdots,
    withoutSlash_append_of_ne ['.', '/'] hrest]
  exact @Text.splitAll_append '/' ['.'] (by decide) (withoutSlash rest)

/-- A dot in front of a pattern is one more name. -/
theorem patternNames_dotSlash {rest : Text} (h : rest.head? ≠ some '/') :
    patternNames ('.' :: '/' :: rest) = ['.'] :: patternNames rest := by
  by_cases hrest : rest = []
  · subst hrest
    rfl
  · rw [patternNames_dotSlash_eq hrest, patternNames, relativePart_of_ne h, if_neg hrest]

/-- A slash behind this dot leaves an empty name between them. -/
theorem patternNames_dotSlashSlash (rest : Text) :
    ∃ names, patternNames ('.' :: '/' :: '/' :: rest) = ['.'] :: [] :: names := by
  rw [patternNames_dotSlash_eq (List.cons_ne_nil '/' rest)]
  -- Whatever is dropped at the end, the text still starts with the second slash.
  obtain ⟨behind, hbehind⟩ := withoutSlash_starts ('/' :: rest)
  cases hfront : withoutSlash ('/' :: rest) with
  | nil => exact ⟨[], rfl⟩
  | cons c front =>
    rw [hfront, List.cons_append] at hbehind
    rw [(List.cons.inj hbehind).1, Text.splitAll, if_pos rfl]
    exact ⟨_, rfl⟩

/-- A pattern without wildcards is followed name by name. -/
theorem globSteps?_literal {pattern : Text} (h : IsLiteral pattern) :
    globSteps? pattern = some (patternStart pattern, (patternNames pattern).map .named) := by
  rw [globSteps?_eq, globStepsFrom?_literal fun name => isLiteral_of_mem_patternNames h]
  rfl

end DocPage.Files
