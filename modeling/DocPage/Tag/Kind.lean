import DocPage.Text.Basic

/-!
# Tag kinds

The closed set of tags that documentation sources use. Parameter groups are numbered, so their two
kinds carry the number.
-/

namespace DocPage.Tag

/-- A tag of documentation sources. -/
inductive Kind where
  | docstring
  | name
  | anchor
  | parameters
  | paramsDesc
  | paramGroups
  /-- The title of the `n`-th parameter group. -/
  | paramGroupTitle (n : Nat)
  /-- The parameter list of the `n`-th parameter group. -/
  | paramGroupDesc (n : Nat)
  | retDesc
  | retType
  | yieldDesc
  | yieldType
  | raises
  | raisedErrors
  | source
  | isGetSetDescriptor
  | frameworkContent
  | pt
  | tf
  | jax
  | hfOptions
  | hfOption
  | inferenceSnippet
  | python
  | js
  | curl
  | tokenizersLangContent
  | rust
  | node
  | literalInclude
  deriving Repr, DecidableEq

/-- The name of the tag, as it is written in sources. -/
def Kind.tagName : Kind → Text
  | docstring => "docstring"
  | name => "name"
  | anchor => "anchor"
  | parameters => "parameters"
  | paramsDesc => "paramsdesc"
  | paramGroups => "paramgroups"
  | paramGroupTitle n => "paramsdesc" ++ Text.ofNat n ++ "title"
  | paramGroupDesc n => "paramsdesc" ++ Text.ofNat n
  | retDesc => "retdesc"
  | retType => "rettype"
  | yieldDesc => "yieldesc"
  | yieldType => "yieldtype"
  | raises => "raises"
  | raisedErrors => "raisederrors"
  | source => "source"
  | isGetSetDescriptor => "isgetsetdescriptor"
  | frameworkContent => "frameworkcontent"
  | pt => "pt"
  | tf => "tf"
  | jax => "jax"
  | hfOptions => "hfoptions"
  | hfOption => "hfoption"
  | inferenceSnippet => "inferencesnippet"
  | python => "python"
  | js => "js"
  | curl => "curl"
  | tokenizersLangContent => "tokenizerslangcontent"
  | rust => "rust"
  | node => "node"
  | literalInclude => "literalinclude"

end DocPage.Tag
