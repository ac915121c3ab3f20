import DocPage.Config.FileForm
import DocPage.Proofs.Tag.Substitute
import DocPage.Proofs.Text.Scan
import Mathlib.Data.List.Forall2
import Mathlib.Data.List.TakeWhile

/-!
# References in configuration values

A value is meant to be read with braced references only: each is replaced by the value of its
variable or by its fallback, and every other character stays, dollar signs included. `ReadsBraced`
says so. Values are not always read in this way: where a value has an opening mark, dollar signs
outside of its braced references may start something by themselves. `expandField_reads_braced_iff`
tells which values these are.

## Architecture

- **References**: `IsReference`, and the induction along the braced references of a value
- **Reading**: `ReadsBraced`, which a scan for braced references computes
- **Bare references**: where they are absent the two scans agree
- **Marks**: where there is one the scans leave different texts
-/

namespace DocPage.Config

open FileForm (expandField)
open Environment (Reference bracedReference expandPiece isNameChar reference)

/-! ## References -/

/-- What stands between the braces of a reference: a name, and maybe a fallback behind the first
mark for one. No fallback stands behind the empty name. -/
inductive IsReference : (inner name : Text) → (fallback : Option Text) → Prop where
  | fallback {name fallback : Text} : name ≠ [] → ¬ ":-".toList <:+: name →
      IsReference (name ++ ":-" ++ fallback) name (some fallback)
  | plain {inner : Text} : (":-".toList <:+: inner → ":-".toList <+: inner) →
      IsReference inner inner none

/-- A reference as it is written. -/
def braced (inner : Text) : Text := '$' :: '\x7b' :: (inner ++ ['\x7d'])

theorem braced_ne_nil (inner : Text) : braced inner ≠ [] := List.cons_ne_nil _ _

/-- A braced reference starts the text. -/
def StartsReference (t : Text) : Prop := ∃ inner rest, t = braced inner ++ rest

/-- A reference ends at its first closing brace. -/
theorem StartsReference.exists_first {t : Text} (h : StartsReference t) :
    ∃ inner rest, '\x7d' ∉ inner ∧ t = braced inner ++ rest := by
  obtain ⟨inner, rest, rfl⟩ := h
  have hmem : '\x7d' ∈ inner ++ '\x7d' :: rest := by simp
  obtain ⟨first, behind, hfirst, hnot⟩ := List.eq_append_cons_of_mem hmem
  exact ⟨first, behind, hnot, by simpa [braced] using hfirst⟩

theorem exists_isReference (inner : Text) : ∃ name fallback,
    bracedReference inner = .variable name fallback ∧ IsReference inner name fallback := by
  -- The reader splits at the first mark for a fallback.
  unfold bracedReference
  cases hsplit : Text.splitOnce? ":-" inner with
  | none =>
    have hnone := Text.splitOnce?_eq_none_iff.mp hsplit
    exact ⟨inner, none, rfl, .plain fun h => absurd h hnone⟩
  | some parts =>
    obtain ⟨name, fallback⟩ := parts
    have hinner := Text.eq_of_splitOnce? hsplit
    cases name with
    -- A mark at the very start belongs to the name, since an empty name has no fallback.
    | nil => exact ⟨inner, none, rfl, .plain fun _ => ⟨fallback, hinner.symm⟩⟩
    | cons c name =>
      rw [hinner]
      exact ⟨c :: name, some fallback, rfl, .fallback (List.cons_ne_nil c name)
        (Text.not_infix_of_splitOnce? (by decide) hsplit)⟩

theorem IsReference.bracedReference_eq {inner name : Text} {fallback : Option Text}
    (h : IsReference inner name fallback) :
    bracedReference inner = .variable name fallback := by
  unfold bracedReference
  cases h with
  | @fallback name fallback hne hfirst =>
    have hsplit : Text.splitOnce? ":-" (name ++ ":-" ++ fallback) = some (name, fallback) :=
      Text.splitOnce?_append fallback (by decide) hfirst
    rw [hsplit]
    cases name with
    | nil => exact absurd rfl hne
    | cons c name => rfl
  -- If there is a mark at all, the first one stands at the start, with an empty name in front.
  | plain hfirst =>
    cases hsplit : Text.splitOnce? ":-" inner with
    | none => rfl
    | some parts =>
      obtain ⟨before, after⟩ := parts
      have hinner := Text.eq_of_splitOnce? hsplit
      obtain ⟨rest, hrest⟩ := hfirst ⟨before, after, hinner.symm⟩
      have hstart : Text.splitOnce? ":-" inner = some ([], rest) := by
        rw [← hrest]
        rfl
      rw [hstart] at hsplit
      cases hsplit
      rfl

/-- Induction along the braced references of a value. -/
theorem braced_induction {motive : Text → Prop} (nil : motive [])
    (copied : ∀ c t, ¬ StartsReference (c :: t) → motive t → motive (c :: t))
    (reference : ∀ inner t, '\x7d' ∉ inner → motive t → motive (braced inner ++ t)) (t : Text) :
    motive t := by
  -- A reference may be as long as it likes, so the induction is on the length.
  induction hlength : t.length using Nat.strong_induction_on generalizing t with
  | _ n ih =>
    subst hlength
    cases t with
    | nil => exact nil
    | cons c t =>
      by_cases hstarts : StartsReference (c :: t)
      · obtain ⟨inner, rest, hinner, ht⟩ := hstarts.exists_first
        rw [ht] at ih ⊢
        refine reference inner rest hinner (ih rest.length ?_ rest rfl)
        simp only [braced, List.length_append, List.length_cons]
        omega
      · exact copied c t hstarts (ih t.length (Nat.lt_succ_self _) t rfl)

/-! ## Reading -/

/-- What a value stands for when only braced references are read: each is replaced by the value of
its variable or by its fallback, and every other character is copied. It stands for nothing when a
variable without a fallback is not set; the first one is reported with the field. -/
inductive ReadsBraced (env : Environment) (field : Text) :
    Text → Except ConfigError Text → Prop where
  | nil : ReadsBraced env field [] (.ok [])
  | copied {c : Char} {t : Text} {out : Except ConfigError Text} : ¬ StartsReference (c :: t) →
      ReadsBraced env field t out → ReadsBraced env field (c :: t) (out.map (c :: ·))
  | value {inner t name value : Text} {fallback : Option Text} {out : Except ConfigError Text} :
      '\x7d' ∉ inner → IsReference inner name fallback → env.lookup name = some value →
      ReadsBraced env field t out → ReadsBraced env field (braced inner ++ t) (out.map (value ++ ·))
  | fallback {inner t name fallback : Text} {out : Except ConfigError Text} :
      '\x7d' ∉ inner → IsReference inner name (some fallback) → env.lookup name = none →
      ReadsBraced env field t out →
      ReadsBraced env field (braced inner ++ t) (out.map (fallback ++ ·))
  | unset {inner t name : Text} : '\x7d' ∉ inner → IsReference inner name none →
      env.lookup name = none →
      ReadsBraced env field (braced inner ++ t) (.error (.unsetVariable field name))

/-- A scan for braced references only. -/
def bracedOnly : Matcher Reference
  | '$' :: '\x7b' :: t => reference ('$' :: '\x7b' :: t)
  | _ => none

theorem bracedOnly_eq_none {t : Text} (h : ¬ StartsReference t) : bracedOnly t = none := by
  unfold bracedOnly
  split
  · next t =>
    -- A closing brace anywhere behind the opening would make a reference.
    have hmem : '\x7d' ∉ t := by
      intro hmem
      obtain ⟨inner, rest, rfl⟩ := List.append_of_mem hmem
      exact h ⟨inner, rest, by simp [braced]⟩
    have hall : t.takeWhile (· != '\x7d') = t := by
      rw [List.takeWhile_eq_self_iff]
      intro c hc
      simpa using ne_of_mem_of_not_mem hc hmem
    simp [reference, hall]
  · rfl

theorem reference_braced {inner : Text} (h : '\x7d' ∉ inner) (t : Text) :
    reference (braced inner ++ t) = some ((braced inner).length, bracedReference inner) := by
  have hinner : (inner ++ '\x7d' :: t).takeWhile (· != '\x7d') = inner := by
    refine Text.takeWhile_append_of_boundary (fun c hc => ?_) fun c hc => ?_
    · simpa using ne_of_mem_of_not_mem hc h
    · cases hc
      rfl
  have htext : braced inner ++ t = '$' :: '\x7b' :: (inner ++ '\x7d' :: t) := by simp [braced]
  rw [htext]
  simp [reference, hinner, braced]

theorem bracedOnly_braced {inner : Text} (h : '\x7d' ∉ inner) (t : Text) :
    bracedOnly (braced inner ++ t) = some ((braced inner).length, bracedReference inner) :=
  reference_braced h t

/-- What the references that a scan finds make of a value. -/
def expandWith (m : Matcher Reference) (env : Environment) (field value : Text) :
    Except ConfigError Text :=
  (((Text.pieces m value).mapM (expandPiece env)).map List.flatten).mapError
    (ConfigError.unsetVariable field)

section Expansion

variable {m : Matcher Reference} {env : Environment} {field : Text}

theorem expandWith_cons {c : Char} {t : Text} (h : m (c :: t) = none) :
    expandWith m env field (c :: t) = (expandWith m env field t).map (c :: ·) := by
  unfold expandWith
  rw [Text.pieces_cons_of_none h, List.mapM_cons]
  -- A failure in the rest is the failure of the whole, and so is its value with one more character.
  cases (Text.pieces m t).mapM (expandPiece env) with
  | error name => rfl
  | ok parts => rfl

theorem expandWith_append {span t : Text} {ref : Reference} (hne : span ≠ [])
    (h : m (span ++ t) = some (span.length, ref)) :
    expandWith m env field (span ++ t) =
      match expandPiece env (.hit span ref) with
      | .ok v => (expandWith m env field t).map (v ++ ·)
      | .error name => .error (.unsetVariable field name) := by
  unfold expandWith
  rw [Text.pieces_append_of_match hne h, List.mapM_cons]
  cases expandPiece env (.hit span ref) with
  | error name => rfl
  | ok v =>
    cases (Text.pieces m t).mapM (expandPiece env) with
    | error name => rfl
    | ok parts => rfl

/-- A braced reference stands for the value of its variable or for its fallback. -/
theorem expandWith_braced {inner name : Text} {fallback : Option Text} (hinner : '\x7d' ∉ inner)
    (hname : bracedReference inner = .variable name fallback) (t : Text) :
    expandWith bracedOnly env field (braced inner ++ t) =
      match (env.lookup name).or fallback with
      | some value => (expandWith bracedOnly env field t).map (value ++ ·)
      | none => .error (.unsetVariable field name) := by
  rw [expandWith_append (braced_ne_nil inner) (bracedOnly_braced hinner t), hname]
  unfold expandPiece
  dsimp only
  cases env.lookup name with
  | some value => rfl
  | none =>
    cases fallback with
    | some fallback => rfl
    | none => rfl

/-- A scan for braced references computes what a value stands for. -/
theorem readsBraced_iff {value : Text} {out : Except ConfigError Text} :
    ReadsBraced env field value out ↔ expandWith bracedOnly env field value = out := by
  constructor
  · intro h
    -- Each rule of reading is what the scan does at that place.
    induction h with
    | nil => rfl
    | copied hnot _ ih => rw [expandWith_cons (bracedOnly_eq_none hnot), ih]
    | value hinner href hset _ ih =>
      rw [expandWith_braced hinner href.bracedReference_eq, hset, ih]
      rfl
    | fallback hinner href hunset _ ih =>
      rw [expandWith_braced hinner href.bracedReference_eq, hunset, ih]
      rfl
    | unset hinner href hunset =>
      rw [expandWith_braced hinner href.bracedReference_eq, hunset]
      rfl
  · rintro rfl
    induction value using braced_induction with
    | nil => exact .nil
    | copied c t hnot ih =>
      rw [expandWith_cons (bracedOnly_eq_none hnot)]
      exact .copied hnot ih
    | reference inner t hinner ih =>
      obtain ⟨name, fallback, hname, href⟩ := exists_isReference inner
      rw [expandWith_braced hinner hname]
      cases hlookup : env.lookup name with
      | some value => exact .value hinner href hlookup ih
      | none =>
        cases fallback with
        | some fallback => exact .fallback hinner href hlookup ih
        | none => exact .unset hinner href hlookup

end Expansion

/-! ## Bare references -/

/-- Outside of the braced references, a dollar sign stands in front of another one or of a name. -/
inductive HasBareReference : Text → Prop where
  | here {c : Char} {t : Text} : c = '$' ∨ isNameChar c = true → HasBareReference ('$' :: c :: t)
  | copied {c : Char} {t : Text} : ¬ StartsReference (c :: t) → HasBareReference t →
      HasBareReference (c :: t)
  | behind {inner t : Text} : '\x7d' ∉ inner → HasBareReference t →
      HasBareReference (braced inner ++ t)

theorem reference_of_ne {c : Char} (hc : c ≠ '$') (t : Text) : reference (c :: t) = none := by
  simp [reference, hc]

/-- A dollar sign in front of a name is replaced with all of the name. -/
theorem reference_name {c : Char} (hc : isNameChar c = true) (t : Text) : ∃ name rest,
    c :: t = name ++ rest ∧
      reference ('$' :: c :: t) = some (('$' :: name).length, .variable name none) := by
  -- A brace and a dollar sign are no part of a name.
  have hbrace : c ≠ '\x7b' := by
    rintro rfl
    exact absurd hc (by decide)
  have hdollar : c ≠ '$' := by
    rintro rfl
    exact absurd hc (by decide)
  refine ⟨(c :: t).takeWhile isNameChar, (c :: t).dropWhile isNameChar,
    List.takeWhile_append_dropWhile.symm, ?_⟩
  simp [reference, hbrace, hdollar, hc]

/-- A dollar sign outside of the braced references starts nothing, unless it stands in front of
another one or of a name. -/
theorem reference_dollar {t : Text} (h : ¬ StartsReference ('$' :: t)) :
    reference ('$' :: t) = none ∨ ∃ c rest, t = c :: rest ∧ (c = '$' ∨ isNameChar c = true) := by
  cases t with
  | nil => exact .inl rfl
  | cons c t =>
    -- What follows the dollar sign decides what it starts.
    by_cases hbare : c = '$' ∨ isNameChar c = true
    · exact .inr ⟨c, t, rfl, hbare⟩
    · refine .inl ?_
      obtain ⟨hdollar, hname⟩ := not_or.mp hbare
      by_cases hbrace : c = '\x7b'
      · subst hbrace
        exact bracedOnly_eq_none h
      · simp [reference, hbrace, hdollar, hname]

/-- Without a bare reference, the scan finds braced references only. -/
theorem expandWith_reference_of_not {env : Environment} {field value : Text}
    (h : ¬ HasBareReference value) :
    expandWith reference env field value = expandWith bracedOnly env field value := by
  induction value using braced_induction with
  | nil => rfl
  | copied c t hnot ih =>
    have hrest : ¬ HasBareReference t := fun hbare => h (.copied hnot hbare)
    -- No dollar sign here, or one that starts nothing.
    have hnone : reference (c :: t) = none := by
      by_cases hc : c = '$'
      · subst hc
        rcases reference_dollar hnot with hnone | ⟨d, rest, rfl, hd⟩
        · exact hnone
        · exact absurd (.here hd) h
      · exact reference_of_ne hc t
    rw [expandWith_cons hnone, expandWith_cons (bracedOnly_eq_none hnot), ih hrest]
  | reference inner t hinner ih =>
    rw [expandWith_append (braced_ne_nil inner) (reference_braced hinner t),
      expandWith_append (braced_ne_nil inner) (bracedOnly_braced hinner t),
      ih fun hbare => h (.behind hinner hbare)]

/-! ## Marks -/

/-- A part of a value with a mark in place of a variable. -/
def mark : Piece Reference → Text
  | .plain c => [c]
  | .hit _ .dollar => ['$']
  | .hit _ (.variable _ _) => ['x']

/-- The value with a mark in place of every variable that a scan finds. -/
def marked (m : Matcher Reference) (value : Text) : Text := (Text.pieces m value).flatMap mark

theorem marked_cons {m : Matcher Reference} {c : Char} {t : Text} (h : m (c :: t) = none) :
    marked m (c :: t) = c :: marked m t := by
  unfold marked
  rw [Text.pieces_cons_of_none h]
  rfl

theorem marked_append {m : Matcher Reference} {span t : Text} {ref : Reference} (hne : span ≠ [])
    (h : m (span ++ t) = some (span.length, ref)) :
    marked m (span ++ t) = mark (.hit span ref) ++ marked m t := by
  unfold marked
  rw [Text.pieces_append_of_match hne h]
  rfl

theorem marked_braced {m : Matcher Reference} {inner t : Text}
    (h : m (braced inner ++ t) = some ((braced inner).length, bracedReference inner)) :
    marked m (braced inner ++ t) = 'x' :: marked m t := by
  obtain ⟨name, fallback, hname, -⟩ := exists_isReference inner
  rw [marked_append (braced_ne_nil inner) h, hname]
  rfl

theorem marked_dollars (t : Text) :
    marked reference ('$' :: '$' :: t) = '$' :: marked reference t := by
  -- A pair of dollar signs is a reference to one of them.
  have hdollar : reference (['$', '$'] ++ t) = some (['$', '$'].length, .dollar) := rfl
  exact marked_append (List.cons_ne_nil _ _) hdollar

theorem marked_name {c : Char} (hc : isNameChar c = true) (t : Text) : ∃ rest,
    marked reference ('$' :: c :: t) = 'x' :: marked reference rest := by
  obtain ⟨name, rest, hname, hreference⟩ := reference_name hc t
  rw [hname, ← List.cons_append] at hreference
  rw [hname, ← List.cons_append]
  exact ⟨rest, marked_append (List.cons_ne_nil _ _) hreference⟩

/-- One dollar sign behind others changes places with them. -/
theorem replicate_append_dollar (k : Nat) (t : Text) :
    List.replicate k '$' ++ '$' :: t = '$' :: (List.replicate k '$' ++ t) := by
  rw [List.append_cons, ← List.replicate_succ', List.replicate_succ, List.cons_append]

theorem not_startsReference_dollars (t : Text) : ¬ StartsReference ('$' :: '$' :: t) := by
  rintro ⟨inner, rest, h⟩
  have hsecond := congrArg (·[1]?) h
  simp [braced] at hsecond

/-- Of dollar signs in a row, only the last one can start a braced reference. -/
theorem marked_bracedOnly_dollars (k : Nat) (t : Text) :
    marked bracedOnly (List.replicate (k + 1) '$' ++ '$' :: t) =
      '$' :: marked bracedOnly (List.replicate (k + 1) '$' ++ t) := by
  rw [replicate_append_dollar]
  exact marked_cons (bracedOnly_eq_none (not_startsReference_dollars _))

/-- Dollar signs stay in front of a text, unless the last one starts a braced reference. -/
theorem head?_marked_dollars (k : Nat) (t : Text) :
    (marked bracedOnly (List.replicate (k + 1) '$' ++ t)).head? = some '$' ∨
      StartsReference ('$' :: t) ∧
        (marked bracedOnly (List.replicate (k + 1) '$' ++ t)).head? = some 'x' := by
  -- Only the last of the dollar signs has the text right behind it.
  cases k with
  | zero =>
    by_cases hstarts : StartsReference ('$' :: t)
    · obtain ⟨inner, rest, hinner, hrest⟩ := hstarts.exists_first
      have hmarked := marked_braced (bracedOnly_braced hinner rest)
      rw [← hrest] at hmarked
      exact .inr ⟨hstarts, congrArg List.head? hmarked⟩
    · exact .inl (congrArg List.head? (marked_cons (bracedOnly_eq_none hstarts)))
  | succ k =>
    exact .inl (congrArg List.head?
      (marked_cons (bracedOnly_eq_none (not_startsReference_dollars (List.replicate k '$' ++ t)))))

/-- Behind a dollar sign that one of the scans has dropped, the marked texts stay different. -/
theorem marked_ne_behind_dollars (k : Nat) (t : Text) :
    marked reference t ≠ marked bracedOnly (List.replicate (k + 1) '$' ++ t) := by
  -- The number of dollar signs in front grows with each pair that the other scan takes for one.
  induction hlength : t.length using Nat.strong_induction_on generalizing t k with
  | _ n ih =>
    subst hlength
    cases t with
    | nil =>
      intro h
      have hhead := head?_marked_dollars k []
      rw [← h] at hhead
      rcases hhead with hhead | ⟨-, hhead⟩
      · cases hhead
      · cases hhead
    | cons c t =>
      by_cases hc : c = '$'
      · subst hc
        rw [marked_bracedOnly_dollars]
        -- One scan shows a reference here, and the other one a dollar sign.
        by_cases hstarts : StartsReference ('$' :: t)
        · obtain ⟨inner, rest, hinner, hrest⟩ := hstarts.exists_first
          rw [hrest, marked_braced (reference_braced hinner rest)]
          intro h
          cases (List.cons.inj h).1
        -- The next dollar sign is copied, taken with another one, or taken with a name.
        · rcases reference_dollar hstarts with hnone | ⟨c, rest, rfl, rfl | hc⟩
          · rw [marked_cons hnone]
            intro h
            exact ih t.length (Nat.lt_succ_self _) k t rfl (List.cons.inj h).2
          · rw [marked_dollars, replicate_append_dollar]
            intro h
            refine ih rest.length ?_ (k + 1) rest rfl (List.cons.inj h).2
            simp only [List.length_cons]
            omega
          · obtain ⟨behind, hmarked⟩ := marked_name hc rest
            rw [hmarked]
            intro h
            cases (List.cons.inj h).1
      -- One scan goes on with this character, and the other one still has a dollar sign to show.
      · intro h
        have hhead := head?_marked_dollars k (c :: t)
        rw [← h, marked_cons (reference_of_ne hc t), List.head?_cons] at hhead
        rcases hhead with hhead | ⟨⟨inner, rest, hbraced⟩, hhead⟩
        · exact hc (Option.some.inj hhead)
        · cases hhead
          cases hbraced

theorem marked_ne_of_here {c : Char} (hc : c = '$' ∨ isNameChar c = true) (t : Text) :
    marked reference ('$' :: c :: t) ≠ marked bracedOnly ('$' :: c :: t) := by
  have hnot : ¬ StartsReference ('$' :: c :: t) := by
    rintro ⟨inner, rest, h⟩
    obtain rfl : c = '\x7b' := (List.cons.inj (List.cons.inj h).2).1
    revert hc
    decide
  -- A bare reference starts here, so the scan for braced ones copies the dollar sign.
  rw [marked_cons (bracedOnly_eq_none hnot)]
  rcases hc with rfl | hc
  · rw [marked_dollars]
    intro h
    exact marked_ne_behind_dollars 0 t (List.cons.inj h).2
  · obtain ⟨rest, hmarked⟩ := marked_name hc t
    rw [hmarked]
    intro h
    cases (List.cons.inj h).1

/-- A bare reference shows in the marked texts. -/
theorem HasBareReference.marked_ne {value : Text} (h : HasBareReference value) :
    marked reference value ≠ marked bracedOnly value := by
  induction h with
  | here hc => exact marked_ne_of_here hc _
  | @copied c t hnot _ ih =>
    have hkept : reference (c :: t) = none →
        marked reference (c :: t) ≠ marked bracedOnly (c :: t) := by
      intro hnone
      rw [marked_cons hnone, marked_cons (bracedOnly_eq_none hnot)]
      exact fun h => ih (List.cons.inj h).2
    -- A dollar sign that both scans keep, or a bare reference right here.
    by_cases hc : c = '$'
    · subst hc
      rcases reference_dollar hnot with hnone | ⟨d, rest, rfl, hd⟩
      · exact hkept hnone
      · exact marked_ne_of_here hd rest
    · exact hkept (reference_of_ne hc t)
  | @behind inner t hinner _ ih =>
    rw [marked_braced (reference_braced hinner t), marked_braced (bracedOnly_braced hinner t)]
    exact fun h => ih (List.cons.inj h).2

/-- The variables that a scan finds in a value, all set to the mark. -/
def marks (m : Matcher Reference) (value : Text) : Environment :=
  (Text.values m value).filterMap fun
    | .variable name _ => some (name, ['x'])
    | .dollar => none

theorem snd_of_mem_marks {m : Matcher Reference} {value : Text} {entry : Text × Text}
    (h : entry ∈ marks m value) : entry.2 = ['x'] := by
  obtain ⟨⟨name, fallback⟩ | _, -, hentry⟩ := List.mem_filterMap.mp h
  · cases hentry
    rfl
  · cases hentry

theorem lookup_of_forall_snd {env : Environment} {name v : Text} (hmem : (name, v) ∈ env)
    (hall : ∀ entry ∈ env, entry.2 = v) : env.lookup name = some v := by
  induction env with
  | nil => cases hmem
  | cons entry env ih =>
    obtain ⟨hentry, hrest⟩ := List.forall_mem_cons.mp hall
    obtain ⟨key, value⟩ := entry
    -- Other values of the variable would be the mark as well.
    rw [List.lookup_cons]
    split
    · rw [← hentry]
    · next hkey =>
      refine ih ?_ hrest
      rcases List.mem_cons.mp hmem with hsame | hmem
      · cases hsame
        simp at hkey
      · exact hmem

/-- With these variables set, a value stands for the marked text. -/
theorem expandWith_eq_marked {m : Matcher Reference} {env : Environment} {value : Text}
    (field : Text) (hmarks : ∀ entry ∈ marks m value, entry ∈ env)
    (hall : ∀ entry ∈ env, entry.2 = ['x']) :
    expandWith m env field value = .ok (marked m value) := by
  -- Each piece comes to its mark, whatever kind of reference it is.
  have hpiece : ∀ p ∈ Text.pieces m value, expandPiece env p = .ok (mark p) := by
    intro p hp
    rcases p with c | ⟨span, ⟨name, fallback⟩ | _⟩
    · rfl
    · have hmem : (name, ['x']) ∈ marks m value :=
        List.mem_filterMap.mpr ⟨.variable name fallback, List.mem_filterMap.mpr ⟨_, hp, rfl⟩, rfl⟩
      have hlookup : env.lookup name = some ['x'] := lookup_of_forall_snd (hmarks _ hmem) hall
      simp [expandPiece, hlookup, mark]
    · rfl
  have hpieces : (Text.pieces m value).mapM (expandPiece env) =
      .ok ((Text.pieces m value).map mark) := by
    refine Tag.mapM_eq_ok ?_
    rw [List.forall₂_map_right_iff, List.forall₂_same]
    exact hpiece
  unfold expandWith marked
  rw [hpieces, List.flatMap_def]
  rfl

/-! ## Fields -/

theorem expandField_eq (env : Environment) (field value : Text) :
    expandField env field value =
      if Text.contains "$\x7b" value then expandWith reference env field value else .ok value := by
  unfold expandField Environment.expand
  split
  · rfl
  · rfl

/-- A value without an opening mark is copied. -/
theorem readsBraced_of_not_contains {env : Environment} {field value : Text}
    (h : ¬ "$\x7b".toList <:+: value) : ReadsBraced env field value (.ok value) := by
  induction value with
  | nil => exact .nil
  | cons c t ih =>
    -- A reference begins with the mark, which the value does not have.
    have hnot : ¬ StartsReference (c :: t) := by
      rintro ⟨inner, rest, hstarts⟩
      refine h (List.IsPrefix.isInfix ⟨inner ++ '\x7d' :: rest, ?_⟩)
      rw [hstarts]
      simp [braced]
    exact .copied hnot (ih fun hrest => h (List.infix_cons hrest))

/-- **Where a value is read with braced references only.**

This is so in every environment and for every field iff the value has no opening mark, or outside of
its braced references no dollar sign in front of another one or of a name. -/
theorem expandField_reads_braced_iff (value : Text) :
    (∀ env field, ReadsBraced env field value (expandField env field value)) ↔
      (Text.contains "$\x7b" value = true → ¬ HasBareReference value) := by
  constructor
  · intro hreads hmark hbare
    -- In an environment that sets every variable that either scan finds, both succeed.
    have hall : ∀ entry ∈ marks reference value ++ marks bracedOnly value, entry.2 = ['x'] :=
      fun _ h => (List.mem_append.mp h).elim snd_of_mem_marks snd_of_mem_marks
    have hread := hreads (marks reference value ++ marks bracedOnly value) []
    rw [expandField_eq, if_pos hmark, readsBraced_iff,
      expandWith_eq_marked [] (fun _ h => List.mem_append_right _ h) hall,
      expandWith_eq_marked [] (fun _ h => List.mem_append_left _ h) hall] at hread
    exact hbare.marked_ne (Except.ok.inj hread).symm
  · intro h env field
    rw [expandField_eq]
    split
    · next hmark =>
      rw [expandWith_reference_of_not (h hmark)]
      exact readsBraced_iff.mpr rfl
    · next hmark =>
      rw [Text.contains_iff] at hmark
      exact readsBraced_of_not_contains hmark

/-- A bare name next to a braced reference is replaced too. -/
theorem bare_name_replaced :
    expandField [("A", "1"), ("B", "2")] "page.version" "$A-$\x7bB\x7d" = .ok "1-2".toList ∧
      ¬ ReadsBraced [("A", "1"), ("B", "2")] "page.version" "$A-$\x7bB\x7d" (.ok "1-2") ∧
      ReadsBraced [("A", "1"), ("B", "2")] "page.version" "$A-$\x7bB\x7d" (.ok "$A-2") := by
  simp only [readsBraced_iff]
  decide +kernel

end DocPage.Config
