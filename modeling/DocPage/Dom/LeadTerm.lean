import DocPage.Dom.Node

/-!
# Lead terms

An item of a description list starts with a bold term; a separator, two hyphens or an em dash, may
stand between the term and its description. Only the text directly in the item is searched for it,
so that markup is never cut.
-/

namespace DocPage.Dom

/-- The text after the first separator. -/
def afterSeparator? : Text → Option Text
  | '-' :: '-' :: t => some t
  | '\u2014' :: t => some t
  | _ :: t => afterSeparator? t
  | [] => none

/-- The nodes after the first separator in a text among them. -/
def cutAtSeparator? : List Node → Option (List Node)
  | [] => none
  | .text raw :: rest =>
    match afterSeparator? raw with
    | some after => some (.text after :: rest)
    | none => cutAtSeparator? rest
  | _ :: rest => cutAtSeparator? rest

/-- What stands in an item, and what stands after it: a paragraph that opens the item is
unwrapped. -/
def itemContent (item : List Node) : List Node × List Node :=
  let lead := item.takeWhile Node.isText
  match item.drop lead.length with
  | first :: after =>
    if (Node.rawTextOf lead).all Unicode.isBlank && first.isNamed "p" then (first.children, after)
    else (item, [])
  | [] => (item, [])

/-- The markup of an item after its lead term and the separator; without a separator, all after the
lead term. `none` when the item has no bold term directly in it. -/
def afterLeadTerm? (item : List Node) : Option Text :=
  let (content, after) := itemContent item
  match content.dropWhile (!·.isNamed "strong") with
  | [] => none
  | _ :: rest =>
    some (Text.trim (Node.htmlOf ((cutAtSeparator? rest).getD rest) ++ Node.htmlOf after))

end DocPage.Dom
