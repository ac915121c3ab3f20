import DocPage.Component

/-!
# Docstrings

What is documented of an object, and the component that shows it. Props without a value are left
out of the component, and so are empty lists and flags that are not set.
-/

namespace DocPage

structure Parameter where
  /-- The anchor of the docstring and the name, with a dot between them. -/
  anchor : Text
  name : Text
  /-- The description as HTML. -/
  description : Text
  deriving Repr, DecidableEq

/-- A group of parameters with a title. -/
structure ParameterGroup where
  title : Text
  parameters : List Parameter
  deriving Repr, DecidableEq

/-- The documentation of an object; descriptions and types are HTML. -/
structure Docstring where
  name : Text
  anchor : Text
  /-- The signature, as the extractor wrote it. -/
  signature : Text
  parameters : List Parameter := []
  groups : List ParameterGroup := []
  returnType : Option Text := none
  returnDescription : Option Text := none
  /-- Whether the object yields values instead of returning one. -/
  isYield : Bool := false
  raiseType : Option Text := none
  raiseDescription : Option Text := none
  /-- The address of the source code. -/
  source : Option Text := none
  isGetSetDescriptor : Bool := false
  deriving Repr, DecidableEq

def Parameter.toJson (p : Parameter) : Json :=
  .object [("anchor", .string p.anchor), ("name", .string p.name),
    ("description", .string p.description)]

def Parameter.listToJson (ps : List Parameter) : Json :=
  .array (ps.map toJson)

def ParameterGroup.toJson (g : ParameterGroup) : Json :=
  .object [("title", .string g.title),
    ("parametersDescription", Parameter.listToJson g.parameters)]

/-- A list of values in JSON, unless it is empty. -/
def nonempty? (items : List Json) : Option Json :=
  if items.isEmpty then none else some (.array items)

namespace Docstring

def component (d : Docstring) : Component :=
  (Component.mk "Docstring" []).prop "name" (.string d.name)
    |>.prop "anchor" (.string d.anchor)
    |>.prop "parameters" (.string d.signature)
    |>.prop? "parametersDescription" (nonempty? (d.parameters.map Parameter.toJson))
    |>.prop? "parameterGroups" (nonempty? (d.groups.map ParameterGroup.toJson))
    |>.prop? "returnDescription" (d.returnDescription.map Json.string)
    |>.prop? "returnType" (d.returnType.map Json.string)
    |>.flag "isYield" d.isYield
    |>.prop? "raiseDescription" (d.raiseDescription.map Json.string)
    |>.prop? "raiseType" (d.raiseType.map Json.string)
    |>.prop? "source" (d.source.map Json.string)
    |>.flag "isGetSetDescriptor" d.isGetSetDescriptor

def render (d : Docstring) : Text :=
  d.component.selfClosing

end Docstring

end DocPage
