import DocPage.Docstring.Harvest
import DocPage.Proofs.Dom.LeadTerm
import Mathlib.Data.List.Forall2

/-!
# Terms of harvested parameters

An item of a parameter list is named by its first bold element in document order, and described by
what follows its first bold child. Mostly these are one element. They differ exactly if a bold
element is nested in what precedes the bold child: then the item reports the description of the one
under the name of the other.

## Architecture

- **Named elements**: `Node.namedIn` over parts of a list, and where the lead term comes in it
- **Items**: `HarvestedFrom`, and `Parameter.ofItem?` as this relation
- **Lists**: which items of a list have a parameter, and `harvest` as a relation
-/

namespace DocPage

open Dom

/-! ## Named elements -/

namespace Dom

variable {name : Text}

theorem namedIn_append (a b : List Node) :
    Node.namedIn name (a ++ b) = Node.namedIn name a ++ Node.namedIn name b := by
  induction a with
  | nil => rfl
  | cons n a ih => simp [Node.namedIn, ih]

theorem namedIn_of_isText {nodes : List Node} (h : ∀ n ∈ nodes, n.isText = true) :
    Node.namedIn name nodes = [] := by
  induction nodes with
  | nil => rfl
  | cons n nodes ih =>
    obtain ⟨htext, hnodes⟩ := List.forall_mem_cons.mp h
    -- A text has no name, and elements do not come among texts.
    cases n with
    | text => simpa [Node.namedIn, Node.named] using ih hnodes
    | element => cases htext

/-- An element with the name comes in front of those inside of it. -/
theorem named_of_isNamed {n : Node} (h : n.isNamed name = true) :
    n.named name = n :: Node.namedIn name n.children := by
  cases n with
  | text => cases h
  | element tag start selfClosing children =>
    have htag : Text.eqIgnoreAsciiCase tag name = true := h
    simp [Node.named, Node.children, htag]

theorem named_of_not_isNamed {n : Node} (h : n.isNamed name = false) :
    n.named name = Node.namedIn name n.children := by
  cases n with
  | text => rfl
  | element tag start selfClosing children =>
    have htag : Text.eqIgnoreAsciiCase tag name = false := h
    simp [Node.named, Node.children, htag]

theorem isBold_eq_false_of_isParagraph {n : Node} (h : n.isNamed "p" = true) :
    n.isNamed "strong" = false := by
  cases n with
  | text => rfl
  | element tag =>
    -- The name of an element is one name only, up to case.
    have htag : Text.toAsciiLower tag = Text.toAsciiLower "p" := eq_of_beq h
    show (Text.toAsciiLower tag == Text.toAsciiLower "strong") = false
    rw [htag]
    rfl

theorem DescribesLead.exists_firstBold {item front : List Node} {lead : Node} {description : Text}
    (h : DescribesLead item front lead description) :
    ∃ rest, FirstBold (itemContent item).1 front lead rest := by
  obtain ⟨hunwraps, hbold, -⟩ := h
  rw [unwraps_iff.mp hunwraps]
  exact ⟨_, hbold⟩

/-- Of the bold elements of an item, those nested in front of its lead term come first, and then the
lead term. -/
theorem DescribesLead.namedIn_eq {item front : List Node} {lead : Node} {description : Text}
    (h : DescribesLead item front lead description) :
    ∃ later, Node.namedIn "strong" item = Node.namedIn "strong" front ++ lead :: later := by
  obtain ⟨hunwraps, hbold, -⟩ := h
  -- The named elements come in document order, so those in front of the lead term come first.
  have hcontent := congrArg (Node.namedIn "strong") hbold.eq_append
  rw [namedIn_append, Node.namedIn, named_of_isNamed hbold.isBold, List.cons_append] at hcontent
  cases hunwraps with
  | plain => exact ⟨_, hcontent⟩
  | @paragraph after paragraph hopens =>
    -- Neither the blank text nor the paragraph itself is bold.
    obtain ⟨blank, rfl, htext, -⟩ := hopens.exists_blank
    have hparagraph := isBold_eq_false_of_isParagraph hopens.isParagraph
    rw [namedIn_append, namedIn_of_isText htext, List.nil_append, Node.namedIn,
      named_of_not_isNamed hparagraph, hcontent, List.append_assoc, List.cons_append]
    exact ⟨_, rfl⟩

end Dom

/-! ## Items -/

variable {anchor html : Text} {ps : List Parameter}

/-- The name and the description of the parameter come from one bold term of the item: the name is
its text, and the description is what the item says of it. -/
def SharesTerm (item : Node) (p : Parameter) : Prop :=
  ∃ front lead, DescribesLead item.children front lead p.description ∧
    p.name = textOf lead.children

/-- Which parameter an item describes. -/
inductive HarvestedFrom (anchor : Text) (item : Node) : Parameter → Prop where
  /-- Nothing bold is nested in front of the lead term, so the lead term is the name as well. -/
  | shared {front : List Node} {lead : Node} {description : Text} :
      DescribesLead item.children front lead description → Node.namedIn "strong" front = [] →
      HarvestedFrom anchor item
        ⟨anchor ++ '.' :: textOf lead.children, textOf lead.children, description⟩
  /-- The name is the first bold element nested in front of the lead term. -/
  | nested {front others : List Node} {lead term : Node} {description : Text} :
      DescribesLead item.children front lead description →
      Node.namedIn "strong" front = term :: others →
      HarvestedFrom anchor item
        ⟨anchor ++ '.' :: textOf term.children, textOf term.children, description⟩

theorem Parameter.ofItem?_of_head? {item term : Node} {description : Text}
    (hterm : (Node.namedIn "strong" item.children).head? = some term)
    (hdescription : afterLeadTerm? item.children = some description) :
    Parameter.ofItem? anchor item =
      some ⟨anchor ++ '.' :: textOf term.children, textOf term.children, description⟩ := by
  unfold Parameter.ofItem?
  rw [hterm, hdescription]
  rfl

theorem Parameter.ofItem?_eq_some_iff {item : Node} {p : Parameter} :
    Parameter.ofItem? anchor item = some p ↔ HarvestedFrom anchor item p := by
  constructor
  · intro h
    obtain ⟨term, hterm, h⟩ := Option.bind_eq_some_iff.mp h
    obtain ⟨description, hdescription, h⟩ := Option.bind_eq_some_iff.mp h
    cases h
    obtain ⟨front, lead, hlead⟩ := afterLeadTerm?_eq_some_iff.mp hdescription
    obtain ⟨later, hnamed⟩ := hlead.namedIn_eq
    rw [hnamed] at hterm
    -- Whether something bold is nested in front decides which element the search meets first.
    cases hfront : Node.namedIn "strong" front with
    | nil =>
      rw [hfront] at hterm
      cases hterm
      exact .shared hlead hfront
    | cons nested others =>
      rw [hfront] at hterm
      cases hterm
      exact .nested hlead hfront
  · intro h
    cases h with
    | shared hlead hfront =>
      obtain ⟨later, hnamed⟩ := hlead.namedIn_eq
      -- The description is the same in both cases, since it does not depend on the name.
      apply Parameter.ofItem?_of_head? _ (afterLeadTerm?_eq_some_iff.mpr ⟨_, _, hlead⟩)
      rw [hnamed, hfront]
      rfl
    | nested hlead hfront =>
      obtain ⟨later, hnamed⟩ := hlead.namedIn_eq
      apply Parameter.ofItem?_of_head? _ (afterLeadTerm?_eq_some_iff.mpr ⟨_, _, hlead⟩)
      rw [hnamed, hfront]
      rfl

/-- An item has a parameter exactly if it has a lead term. -/
theorem Parameter.isSome_ofItem? (anchor : Text) (item : Node) :
    (Parameter.ofItem? anchor item).isSome = (afterLeadTerm? item.children).isSome := by
  -- Without a lead term there is no description, and so no parameter.
  cases hdescription : afterLeadTerm? item.children with
  | none =>
    unfold Parameter.ofItem?
    rw [hdescription]
    cases (Node.namedIn "strong" item.children).head? <;> rfl
  | some description =>
    obtain ⟨front, lead, hlead⟩ := afterLeadTerm?_eq_some_iff.mp hdescription
    obtain ⟨later, hnamed⟩ := hlead.namedIn_eq
    -- Where there is a lead term there is a bold element to be named after.
    obtain ⟨term, hterm⟩ : ∃ term, (Node.namedIn "strong" item.children).head? = some term := by
      rw [hnamed]
      cases Node.namedIn "strong" front <;> exact ⟨_, rfl⟩
    rw [Parameter.ofItem?_of_head? hterm hdescription]
    rfl

/-! ## Lists -/

/-- The items of a list that have a lead term. -/
def describedItems (list : Node) : List Node :=
  list.children.filter fun item => item.isNamed "li" && (afterLeadTerm? item.children).isSome

theorem filterMap_eq_iff_forall₂ {α β : Type} {f : α → Option β} {xs : List α} {ys : List β} :
    xs.filterMap f = ys ↔
      List.Forall₂ (fun x y => f x = some y) (xs.filter fun x => (f x).isSome) ys := by
  -- An item that is passed over is in neither list.
  induction xs generalizing ys with
  | nil => simp [eq_comm]
  | cons x xs ih =>
    cases hx : f x with
    | none => simp [hx, ih]
    | some y =>
      cases ys with
      | nil => simp [hx]
      | cons y' ys => simp [hx, ih]

/-- A parameter list gives one parameter for each item with a lead term, in order. The parameter
takes its name and its description from the lead term of the item, unless a bold element is nested
in what precedes the lead term: then the first of those elements gives the name. -/
theorem harvest_eq_parameters_iff (anchor html : Text) (ps : List Parameter) :
    harvest anchor html = .parameters ps ↔ ∃ nodes list, fragment? html = some nodes ∧
      (Node.namedIn "ul" nodes).head? = some list ∧
      List.Forall₂ (HarvestedFrom anchor) (describedItems list) ps := by
  -- Of a list that is found, the parameters are those of its items.
  have hitems : ∀ list : Node,
      (list.children.filter (·.isNamed "li")).filterMap (Parameter.ofItem? anchor) = ps ↔
        List.Forall₂ (HarvestedFrom anchor) (describedItems list) ps := by
    intro list
    simp only [filterMap_eq_iff_forall₂, List.filter_filter, Parameter.isSome_ofItem?,
      Parameter.ofItem?_eq_some_iff, describedItems, Bool.and_comm]
  constructor
  · intro h
    unfold harvest at h
    -- Markup that cannot be read, or that has no list, gives no parameters.
    split at h
    · cases h
    · next nodes hnodes =>
      split at h
      · cases h
      · next list hlist =>
        exact ⟨nodes, list, hnodes, hlist, (hitems list).mp (Harvest.parameters.inj h)⟩
  · rintro ⟨nodes, list, hnodes, hlist, hps⟩
    unfold harvest
    rw [hnodes]
    dsimp only
    rw [hlist]
    dsimp only
    rw [(hitems list).mpr hps]

/-- An item whose lead term is `b`. -/
def nestedTermItem : Node :=
  .element "li" "li" false
    [.element "em" "em" false [.element "strong" "strong" false [.text "a"]], .text " ",
      .element "strong" "strong" false [.text "b"], .text " -- desc"]

/-- A list of this item. -/
def nestedTermList : Text :=
  "<ul><li><em><strong>a</strong></em> <strong>b</strong> -- desc</li></ul>".toList

/-- What the item says of `b` is reported under the name `a`. -/
theorem description_reported_under_nested_term :
    harvest "m.f" nestedTermList = .parameters [⟨"m.f.a", "a", "desc"⟩] ∧
      fragment? nestedTermList = some [.element "ul" "ul" false [nestedTermItem]] ∧
      ¬ SharesTerm nestedTermItem ⟨"m.f.a", "a", "desc"⟩ := by
  refine ⟨by decide +kernel, by rfl, ?_⟩
  rintro ⟨front, lead, hlead, hname⟩
  obtain ⟨rest, hbold⟩ := hlead.exists_firstBold
  -- The first bold child is `b`, whatever is nested in front of it.
  have hb : [.element "strong" "strong" false [.text "b"], .text " -- desc"] = lead :: rest :=
    hbold.dropWhile_eq
  obtain ⟨rfl, -⟩ := List.cons.inj hb
  exact absurd hname (by decide +kernel)

end DocPage
