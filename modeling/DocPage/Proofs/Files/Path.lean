import DocPage.Files.Path

/-!
# Going up from a directory

The directory that holds what a path names is spelled with fewer characters. So going up comes to an
end, and a path has no more directories above it than it has characters.

## Architecture

- **Directories above**: `length_parent?_lt`
- **Ancestors**: `ancestors_eq`, one step of the way up
-/

namespace DocPage.Files

/-! ## Directories above -/

theorem trimNamesStart_suffix (names : Text) : trimNamesStart names <:+ names := by
  fun_induction trimNamesStart names with
  | case1 rest ih => exact ih.trans (List.suffix_cons _ _)
  | case2 => exact List.nil_suffix
  | case3 rest ih => exact ih.trans ((List.suffix_cons _ _).trans (List.suffix_cons _ _))
  | case4 => exact List.suffix_refl _

theorem ne_slash_of_trimNamesStart {names rest : Text} {c : Char}
    (h : trimNamesStart names = c :: rest) : c ≠ '/' := by
  -- The rule that stops is the one that sees no slash, so the character in front is not one.
  fun_induction trimNamesStart names with
  | case1 _ ih => exact ih h
  | case2 => cases h
  | case3 _ ih => exact ih h
  | case4 names hslash _ _ =>
    rintro rfl
    exact hslash rest h

theorem length_trimNamesEnd_le (names : Text) : (trimNamesEnd names).length ≤ names.length := by
  -- Trimming at the end is trimming at the start of the reversed names.
  have hle := (trimNamesStart_suffix names.reverse).length_le
  unfold trimNamesEnd
  rwa [List.length_reverse] at hle ⊢

/-- What is left of names without the last one is shorter. -/
theorem length_dropLastName_lt {names : Text} (h : trimNamesEnd names ≠ []) :
    (Text.dropRightWhile (!isSlash ·) (trimNamesEnd names)).length <
      (trimNamesEnd names).length := by
  unfold trimNamesEnd at h ⊢
  -- The last name has a character, since no slash was left behind it.
  obtain ⟨c, rest, hcons⟩ := List.exists_cons_of_ne_nil (List.reverse_ne_nil_iff.mp h)
  have hc : isSlash c = false := beq_false_of_ne (ne_slash_of_trimNamesStart hcons)
  have hle := (List.dropWhile_suffix (l := rest) (!isSlash ·)).length_le
  unfold Text.dropRightWhile
  rw [List.reverse_reverse, hcons, List.dropWhile_cons_of_pos (by simp [hc])]
  simp only [List.length_reverse, List.length_cons]
  omega

theorem length_parent?_lt {p above : Text} (h : parent? p = some above) :
    above.length < p.length := by
  unfold parent? at h
  simp only at h
  split at h
  · split at h
    · next hlead =>
      -- What a single dot names is in the empty directory.
      cases h
      have hp := congrArg List.length (eq_of_beq hlead)
      simp only [List.length_take, List.length_singleton] at hp
      simp only [List.length_nil]
      omega
    · cases h
  · next hnames =>
    cases h
    have hlt := length_dropLastName_lt fun hnil => hnames (by rw [hnil]; rfl)
    have hlast := length_trimNamesEnd_le
      (Text.dropRightWhile (!isSlash ·) (trimNamesEnd (p.drop (p.take (leadLength p)).length)))
    have hall := length_trimNamesEnd_le (p.drop (p.take (leadLength p)).length)
    simp only [List.length_append, List.length_drop] at *
    have hlead := List.length_take_le (leadLength p) p
    omega

/-! ## Ancestors -/

theorem ancestorsFrom_nil (fuel : Nat) : ancestorsFrom fuel [] = [[]] := by
  cases fuel with
  | zero => rfl
  | succ fuel => rfl

/-- More fuel than a path has characters changes nothing. -/
theorem ancestorsFrom_congr {n k : Nat} {p : Text} (hn : p.length ≤ n) (hk : p.length ≤ k) :
    ancestorsFrom n p = ancestorsFrom k p := by
  -- The fuel goes down with each directory above, and the path gets shorter at least as fast.
  induction n generalizing k p with
  | zero =>
    obtain rfl := List.length_eq_zero_iff.mp (Nat.le_zero.mp hn)
    rw [ancestorsFrom_nil, ancestorsFrom_nil]
  | succ n ih =>
    cases k with
    | zero =>
      obtain rfl := List.length_eq_zero_iff.mp (Nat.le_zero.mp hk)
      rw [ancestorsFrom_nil, ancestorsFrom_nil]
    | succ k =>
      unfold ancestorsFrom
      cases hparent : parent? p with
      | none => rfl
      | some above =>
        have hlt := length_parent?_lt hparent
        exact congrArg (p :: ·) (ih (by omega) (by omega))

/-- The way up from a path goes on from the directory that holds it. -/
theorem ancestors_eq (p : Text) : ancestors p = p :: (parent? p).elim [] ancestors := by
  -- One more unit of fuel makes the first step visible and changes nothing else.
  have hspare : ancestors p = ancestorsFrom (p.length + 1) p :=
    ancestorsFrom_congr (Nat.le_refl _) (Nat.le_succ _)
  rw [hspare, ancestorsFrom]
  cases hparent : parent? p with
  | none => rfl
  | some above =>
    have hlt := length_parent?_lt hparent
    exact congrArg (p :: ·) (ancestorsFrom_congr (Nat.le_of_lt hlt) (Nat.le_refl _))

end DocPage.Files
