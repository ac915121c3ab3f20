import DocPage.Html.Escape

/-!
# Math

A math renderer turns TeX into HTML, or fails with a reason. The plain renderer leaves the TeX in
the page for typesetting by the reader's browser.
-/

namespace DocPage

/-- Renders TeX; `display` is set for math in a block of its own. A failure carries its reason. -/
abbrev MathRenderer := (tex : Text) → (display : Bool) → Except Text Text

/-- The renderer that leaves escaped TeX in place, between the delimiters of its kind. -/
def delimitedMath : MathRenderer := fun tex display =>
  let escaped := Html.escapeBraced tex
  .ok (if display then "<span class=\"math math-display\">\\[" ++ escaped ++ "\\]</span>"
    else "<span class=\"math math-inline\">\\(" ++ escaped ++ "\\)</span>")

end DocPage
