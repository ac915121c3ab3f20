import DocPage.Files.Glob
import DocPage.Files.Tree
import DocPage.Proofs.Text.Trim

/-!
# Laws of access to files

Looking at files leaves them as they are, and a file that was written has the content that was
written. Nothing else is asked of the files, so what follows holds of a tree in memory as well as of
any other store. Work that only looks at files leaves them as they are, however it ends.

## Architecture

- **Laws**: `LawfulAccess`
- **Looking**: `ReadOnly`, kept by each way to put work together
- **Search**: following a pattern only looks at files
- **Trees**: a tree in memory is lawful
-/

namespace DocPage.Files

/-! ## Laws -/

/-- Files of which looking changes nothing, and where reading gives what was written last. -/
class LawfulAccess (σ : Type) [Access (StateM σ)] : Prop where
  read_keeps : ∀ path (files : σ), ((Access.read path : StateM σ _).run files).2 = files
  kind?_keeps : ∀ path (files : σ), ((Access.kind? path : StateM σ _).run files).2 = files
  list_keeps : ∀ path (files : σ), ((Access.list path : StateM σ _).run files).2 = files
  depth_keeps : ∀ files : σ, ((Access.depth : StateM σ _).run files).2 = files
  read_of_write : ∀ path content (files files' : σ),
    (Access.write path content : StateM σ _).run files = (.ok (), files') →
      ((Access.read path : StateM σ _).run files').1 = .ok content

/-! ## Looking -/

variable {σ α β ε ε' : Type}

/-- The work leaves the files as they are. -/
def ReadOnly (x : StateM σ α) : Prop := ∀ files, (x.run files).2 = files

namespace ReadOnly

theorem pure (v : α) : ReadOnly (Pure.pure v : StateM σ α) := fun _ => rfl

theorem bind {x : StateM σ α} {f : α → StateM σ β} (hx : ReadOnly x) (hf : ∀ v, ReadOnly (f v)) :
    ReadOnly (x >>= f) := by
  intro files
  show ((f (x.run files).1).run (x.run files).2).2 = files
  rw [hf, hx]

theorem map {x : StateM σ α} (f : α → β) (hx : ReadOnly x) : ReadOnly (f <$> x) := hx

end ReadOnly

/-- The work leaves the files as they are, whether it fails or not. -/
def Looks (x : ExceptT ε (StateM σ) α) : Prop := ReadOnly x.run

namespace Looks

theorem mk {x : StateM σ (Except ε α)} (h : ReadOnly x) : Looks (ExceptT.mk x) := h

theorem pure (v : α) : Looks (Pure.pure v : ExceptT ε (StateM σ) α) := fun _ => rfl

theorem throw (e : ε) : Looks (MonadExcept.throw e : ExceptT ε (StateM σ) α) := fun _ => rfl

theorem ofExcept (x : Except ε α) :
    Looks (MonadExcept.ofExcept x : ExceptT ε (StateM σ) α) := by
  cases x with
  | error e => exact throw e
  | ok v => exact pure v

theorem lift {x : StateM σ α} (h : ReadOnly x) : Looks (monadLift x : ExceptT ε (StateM σ) α) :=
  h.map Except.ok

theorem adapt {x : ExceptT ε (StateM σ) α} (f : ε → ε') (h : Looks x) : Looks (x.adapt f) :=
  h.map (Except.mapError f)

theorem bind {x : ExceptT ε (StateM σ) α} {f : α → ExceptT ε (StateM σ) β} (hx : Looks x)
    (hf : ∀ v, Looks (f v)) : Looks (x >>= f) := by
  unfold Looks
  rw [ExceptT.run_bind]
  -- An error ends the work, and then the files are as they were left.
  apply ReadOnly.bind hx
  intro result
  cases result with
  | error e => exact .pure _
  | ok v => exact hf v

theorem mapM {f : α → ExceptT ε (StateM σ) β} (h : ∀ x, Looks (f x)) (xs : List α) :
    Looks (xs.mapM f) := by
  -- The induction is on the list that is left to work on.
  induction xs with
  | nil => exact pure []
  | cons x xs ih =>
    rw [List.mapM_cons]
    apply (h x).bind
    intro y
    apply ih.bind
    intro ys
    exact pure (y :: ys)

end Looks

/-! ## Search -/

section Search

variable [Access (StateM σ)] [LawfulAccess σ]

theorem readOnly_read (path : Text) : ReadOnly (Access.read path : StateM σ _) :=
  LawfulAccess.read_keeps path

theorem readOnly_kind? (path : Text) : ReadOnly (Access.kind? path : StateM σ _) :=
  LawfulAccess.kind?_keeps path

theorem readOnly_list (path : Text) : ReadOnly (Access.list path : StateM σ _) :=
  LawfulAccess.list_keeps path

theorem readOnly_depth : ReadOnly (Access.depth : StateM σ _) :=
  LawfulAccess.depth_keeps

theorem readOnly_isDirectory (path : Text) : ReadOnly (isDirectory path : StateM σ Bool) := by
  apply (readOnly_kind? path).bind
  intro kind
  exact .pure _

theorem looks_namesIn (path : Text) : Looks (namesIn (m := StateM σ) path) := by
  apply (Looks.lift (readOnly_isDirectory path)).bind
  intro isDirectory
  cases isDirectory with
  | true => exact .mk (readOnly_list path)
  | false => exact .pure []

theorem looks_directoriesFrom (depth : Nat) (path : Text) :
    Looks (directoriesFrom (m := StateM σ) depth path) := by
  -- At each depth the directory is listed and each of its names is searched with less fuel.
  induction depth generalizing path with
  | zero => exact .pure []
  | succ depth ih =>
    apply (Looks.lift (readOnly_isDirectory path)).bind
    intro isDirectory
    cases isDirectory with
    | true =>
      apply (looks_namesIn path).bind
      intro names
      apply (Looks.mapM (fun name => ih (inside path name)) names).bind
      intro below
      exact .pure _
    | false => exact .pure []

theorem looks_follow (path : Text) (step : GlobStep) :
    Looks (GlobStep.follow (m := StateM σ) path step) := by
  cases step with
  | anyDepth =>
    apply (Looks.lift readOnly_depth).bind
    intro depth
    exact looks_directoriesFrom depth path
  | named name =>
    unfold GlobStep.follow
    dsimp only
    split
    · apply (Looks.lift (readOnly_isDirectory path)).bind
      intro found
      exact .pure _
    · apply (Looks.lift (readOnly_kind? _)).bind
      intro kind
      exact .pure _
  | matching dots p =>
    apply (looks_namesIn path).bind
    intro names
    apply (Looks.lift (readOnly_isDirectory path)).bind
    intro isDirectory
    exact .pure _

theorem looks_followSteps (steps : List GlobStep) (path : Text) :
    Looks (followSteps (m := StateM σ) steps path) := by
  induction steps generalizing path with
  | nil => exact .pure [path]
  | cons step steps ih =>
    -- The other steps are followed from every path that this one leads to.
    apply (looks_follow path step).bind
    intro next
    apply (Looks.mapM ih next).bind
    intro found
    exact .pure _

end Search

/-! ## Trees -/

namespace Tree

theorem lookup_filter_of_ne {entries : List (List Text × Entry)} {location other : List Text}
    (h : other ≠ location) :
    (entries.filter (·.1 != location)).lookup other = entries.lookup other := by
  induction entries with
  | nil => rfl
  | cons entry entries ih =>
    obtain ⟨here, found⟩ := entry
    by_cases hhere : here = location
    · -- The entry that is left out is not the one that is looked up.
      subst hhere
      have hne : (other == here) = false := beq_false_of_ne h
      simp [List.lookup_cons, hne, ih]
    · simp [List.lookup_cons, hhere, ih]

theorem entry?_insert_of_ne (t : Tree) {location other : List Text} (h : other ≠ location)
    (entry : Entry) : entry? (t.insert location entry) other = entry? t other := by
  have hne : (other == location) = false := beq_false_of_ne h
  unfold entry? insert
  simp only [List.lookup_cons, hne, lookup_filter_of_ne h]

theorem entry?_insert_self (t : Tree) {location : List Text} (h : location ≠ []) (entry : Entry) :
    entry? (t.insert location entry) location = some entry := by
  unfold entry? insert
  simp [h]

/-- A way that is followed leads through directories, so a file in another place does not block
it. -/
theorem follow_insert {t : Tree} {location : List Text} {content : Option Text}
    (hlocation : t.entry? location ≠ some .directory) {start names found : List Text}
    (h : t.follow start names = .ok found) :
    (t.insert location (.file content)).follow start names = .ok found := by
  -- The way is the same in both trees, since each step reads the entry of a directory.
  induction names generalizing start with
  | nil => exact h
  | cons name names ih =>
    unfold follow at h ⊢
    cases hstart : t.entry? start with
    | none =>
      rw [hstart] at h
      cases h
    | some entry =>
      rw [hstart] at h
      cases entry with
      | file content => cases h
      | directory =>
        -- The file is new at its location, and the way goes through directories only.
        have hne : start ≠ location := by
          rintro rfl
          exact hlocation hstart
        rw [entry?_insert_of_ne t hne, hstart]
        dsimp only at h ⊢
        split_ifs at h ⊢ with hstay hup
        · exact ih h
        · exact ih h
        · exact ih h

theorem locate_insert {t : Tree} {location : List Text} {content : Option Text}
    (hlocation : t.entry? location ≠ some .directory) {path : Text} {found : List Text}
    (h : t.locate path = .ok found) :
    (t.insert location (.file content)).locate path = .ok found := by
  unfold locate at h ⊢
  -- Only the start of the way depends on the form of the path.
  split at h
  · cases h
  · exact follow_insert hlocation h
  · exact follow_insert hlocation h

theorem read_of_write {t t' : Tree} {path content : Text} (h : t.write path content = .ok t') :
    t'.read path = .ok content := by
  unfold write at h
  split at h
  · cases h
  · rename_i location hlocate
    split at h
    · cases h
    · rename_i hfree
      cases h
      -- Writing fails for a path with a slash at its end and for a directory; neither is the case.
      rw [Bool.or_eq_true, not_or, beq_iff_eq, beq_iff_eq] at hfree
      obtain ⟨hslash, hlocation⟩ := hfree
      have hne : location ≠ [] := by
        rintro rfl
        exact hlocation rfl
      -- Without slashes at its end, the path that is written to is the path itself.
      have hpath : Text.dropRightWhile (· == '/') path = path := by
        apply Text.dropRightWhile_eq_self
        intro c hc
        have hother : c ≠ '/' := fun h => hslash (h ▸ hc)
        exact beq_false_of_ne hother
      rw [hpath] at hlocate
      unfold read
      rw [locate_insert hlocation hlocate]
      dsimp only
      rw [entry?_insert_self t hne]

instance : LawfulAccess Tree where
  read_keeps _ _ := rfl
  kind?_keeps _ _ := rfl
  list_keeps _ _ := rfl
  depth_keeps _ := rfl
  read_of_write path content t t' h := by
    change (match t.write path content with
      | .ok t => do set t; pure (.ok ())
      | .error e => pure (.error e) : StateM Tree (Except FileError Unit)).run t = _ at h
    cases hwrite : t.write path content with
    | error e =>
      rw [hwrite] at h
      cases h
    | ok written =>
      rw [hwrite] at h
      cases h
      exact read_of_write hwrite

end Tree

end DocPage.Files
