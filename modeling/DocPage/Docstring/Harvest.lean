import DocPage.Docstring.Record
import DocPage.Dom.Fragment
import DocPage.Dom.LeadTerm

/-!
# Harvesting parameters

A rendered parameter list gives its parameters back: each item of the first list is one parameter,
named by its bold lead term.
-/

namespace DocPage

/-- What a rendered parameter list gives. -/
inductive Harvest where
  /-- The markup cannot be read. -/
  | unreadable
  /-- There is no list in it. -/
  | noList
  | parameters (ps : List Parameter)
  deriving Repr, DecidableEq

/-- The parameter that an item describes; an item without a lead term describes none. -/
def Parameter.ofItem? (anchor : Text) (item : Dom.Node) : Option Parameter := do
  let lead ← (Dom.Node.namedIn "strong" item.children).head?
  let description ← Dom.afterLeadTerm? item.children
  let name := Dom.textOf lead.children
  some ⟨anchor ++ '.' :: name, name, description⟩

/-- Harvests the parameters of rendered HTML, whose anchors start with `anchor`. -/
def harvest (anchor html : Text) : Harvest :=
  match Dom.fragment? html with
  | none => .unreadable
  | some nodes =>
    match (Dom.Node.namedIn "ul" nodes).head? with
    | none => .noList
    | some list =>
      .parameters ((list.children.filter (·.isNamed "li")).filterMap (Parameter.ofItem? anchor))

end DocPage
