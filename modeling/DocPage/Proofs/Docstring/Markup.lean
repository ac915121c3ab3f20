import DocPage.Docstring.Record
import DocPage.Proofs.Component

/-!
# Docstrings read back from their markup

The markup of a docstring is its props in a row, of which those without a value are left out. The
values come back from the row whatever text they hold. From the values the reader builds the
docstring, so two docstrings with the same markup are one.

## Architecture

- **Values**: readers for texts, flags, parameters and groups
- **Docstrings**: `Docstring.props` lists what is written, and `Docstring.ofMarkup?` reads it
-/

namespace DocPage

/-! ## Values -/

/-- Reads a text that may be absent. -/
def optionalText? : Option Json → Option (Option Text)
  | none => some none
  | some (.string t) => some (some t)
  | some _ => none

/-- Reads a text that is always there. -/
def mandatoryText? (value : Option Json) : Option Text :=
  (optionalText? value).join

/-- Reads the items of a list that is left out when it is empty. -/
def listOf? {α : Type} (item? : Json → Option α) : Option Json → Option (List α)
  | none => some []
  | some (.array items) => items.mapM item?
  | some _ => none

/-- Reads a parameter by the places of its fields. -/
def Parameter.ofJson? : Json → Option Parameter
  | .object [(_, .string anchor), (_, .string name), (_, .string description)] =>
    some ⟨anchor, name, description⟩
  | _ => none

/-- Reads a group by the places of its fields. -/
def ParameterGroup.ofJson? : Json → Option ParameterGroup
  | .object [(_, .string title), (_, parameters)] => do
    some ⟨title, ← listOf? Parameter.ofJson? (some parameters)⟩
  | _ => none

theorem optionalText?_map (t : Option Text) : optionalText? (t.map Json.string) = some t := by
  cases t <;> rfl

theorem mapM_map_of_leftInverse {α : Type} {item? : Json → Option α} {toJson : α → Json}
    (h : ∀ x, item? (toJson x) = some x) (xs : List α) : (xs.map toJson).mapM item? = some xs := by
  induction xs with
  | nil => rfl
  | cons x xs ih => simp [List.mapM_cons, h, ih]

theorem listOf?_nonempty? {α : Type} {item? : Json → Option α} {toJson : α → Json}
    (h : ∀ x, item? (toJson x) = some x) (xs : List α) :
    listOf? item? (nonempty? (xs.map toJson)) = some xs := by
  -- A list that is left out is read as the empty one.
  cases xs with
  | nil => rfl
  | cons x xs => exact mapM_map_of_leftInverse h (x :: xs)

theorem Parameter.ofJson?_toJson (p : Parameter) : Parameter.ofJson? p.toJson = some p := rfl

theorem ParameterGroup.ofJson?_toJson (g : ParameterGroup) :
    ParameterGroup.ofJson? g.toJson = some g := by
  -- The parameters of a group are read as those of a list are.
  have hparameters := mapM_map_of_leftInverse Parameter.ofJson?_toJson g.parameters
  simp [ParameterGroup.toJson, Parameter.listToJson, ParameterGroup.ofJson?, listOf?, hparameters]

/-! ## Docstrings -/

namespace Docstring

/-- The props of a docstring with their keys, in the order in which they are written. -/
def props (d : Docstring) : List (Text × Option Json) :=
  [("name", some (.string d.name)), ("anchor", some (.string d.anchor)),
    ("parameters", some (.string d.signature)),
    ("parametersDescription", nonempty? (d.parameters.map Parameter.toJson)),
    ("parameterGroups", nonempty? (d.groups.map ParameterGroup.toJson)),
    ("returnDescription", d.returnDescription.map Json.string),
    ("returnType", d.returnType.map Json.string),
    ("isYield", if d.isYield then some (.bool true) else none),
    ("raiseDescription", d.raiseDescription.map Json.string),
    ("raiseType", d.raiseType.map Json.string), ("source", d.source.map Json.string),
    ("isGetSetDescriptor", if d.isGetSetDescriptor then some (.bool true) else none)]

/-- The keys of the props, which are the same for every docstring. -/
def keys : List Text :=
  List.map String.toList ["name", "anchor", "parameters", "parametersDescription",
    "parameterGroups", "returnDescription", "returnType", "isYield", "raiseDescription",
    "raiseType", "source", "isGetSetDescriptor"]

/-- The docstring with the given values of its props. -/
def ofProps? : List (Option Json) → Option Docstring
  | [name, anchor, signature, parameters, groups, returnDescription, returnType, isYield,
      raiseDescription, raiseType, source, isGetSetDescriptor] => do
    some {
      name := ← mandatoryText? name
      anchor := ← mandatoryText? anchor
      signature := ← mandatoryText? signature
      parameters := ← listOf? Parameter.ofJson? parameters
      groups := ← listOf? ParameterGroup.ofJson? groups
      returnType := ← optionalText? returnType
      returnDescription := ← optionalText? returnDescription
      isYield := isYield.isSome
      raiseType := ← optionalText? raiseType
      raiseDescription := ← optionalText? raiseDescription
      source := ← optionalText? source
      isGetSetDescriptor := isGetSetDescriptor.isSome }
  | _ => none

/-- Reads the docstring of a component invocation. -/
def ofMarkup? (markup : Text) : Option Docstring := do
  let row ← Text.dropPrefix? "<Docstring" markup
  let (values, rest) := Component.takeProps keys row
  if rest = " />".toList then ofProps? values else none

theorem render_eq (d : Docstring) :
    d.render = "<Docstring".toList ++ (d.props.flatMap Component.writtenProp ++ " />".toList) := by
  -- Each prop adds itself to the row, and the row is written in the order of the record.
  have hprops : d.component.props = d.props.flatMap Component.writtenProp := by
    simp only [component, Component.props_flag, Component.props_prop?, Component.props_prop,
      List.nil_append, List.append_assoc, props, List.flatMap_cons, List.flatMap_nil,
      List.append_nil]
  have hname : d.component.name = "Docstring".toList := by
    simp only [component, Component.name_flag, Component.name_prop?, Component.name_prop]
  simp [render, Component.selfClosing, hprops, hname]

theorem ofProps?_props (d : Docstring) : ofProps? (d.props.map Prod.snd) = some d := by
  -- Only whether a flag is there counts when it is read.
  have hflag : ∀ set : Bool, (if set then some (Json.bool true) else none).isSome = set := by
    decide
  have htext : ∀ t : Text, mandatoryText? (some (.string t)) = some t := fun _ => rfl
  simp only [props, List.map_cons, List.map_nil, ofProps?, htext, hflag, optionalText?_map,
    listOf?_nonempty? Parameter.ofJson?_toJson, listOf?_nonempty? ParameterGroup.ofJson?_toJson]
  rfl

theorem ofMarkup?_render (d : Docstring) : ofMarkup? d.render = some d := by
  have hkeys : d.props.map Prod.fst = keys := rfl
  -- The keys are fixed, so that they differ is checked once for all docstrings.
  have hnodup : (d.props.map Prod.fst).Nodup := by
    rw [hkeys]
    decide +kernel
  have hall : ∀ f ∈ d.props, Component.IsKey f.1 := by
    have hkey : ∀ key ∈ keys, Component.IsKey key := by decide +kernel
    rw [← hkeys] at hkey
    exact List.forall_mem_map.mp hkey
  have hrow := Component.takeProps_row hnodup hall
  rw [hkeys] at hrow
  unfold ofMarkup?
  rw [render_eq, Text.dropPrefix?_append]
  simp only [Option.bind_eq_bind, Option.bind_some, hrow, if_true]
  exact ofProps?_props d

/-- The markup of a docstring determines it: a reader gives back every part of it, those that are
absent or empty included, whatever text they hold. -/
theorem render_eq_iff (d e : Docstring) :
    ofMarkup? d.render = some d ∧ (d.render = e.render ↔ d = e) := by
  refine ⟨ofMarkup?_render d, fun h => ?_, fun h => by rw [h]⟩
  -- The same markup is read once, and both docstrings are what is read.
  have hread := ofMarkup?_render d
  rw [h, ofMarkup?_render] at hread
  exact (Option.some.inj hread).symm

/-- A description that imitates the end of the markup is read as text, and an empty type is not
taken for one that is absent. -/
example :
    let d : Docstring := {
      name := "f", anchor := "m.f", signature := "()"
      returnDescription := some "\"\x7d />".toList, raiseType := some [] }
    ofMarkup? d.render = some d := by
  decide +kernel

end Docstring

end DocPage
