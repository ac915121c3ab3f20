import DocPage.Text.Basic

/-!
# Where a page is published

Links to images lead to the place of a package, for one version and one language.
-/

namespace DocPage.Document

/-- Where a page is published. -/
structure Publication where
  package : Text
  version : Text := "main"
  language : Text := "en"
  deriving Repr, DecidableEq

end DocPage.Document
