import DocPage.Text.Basic

/-!
# Interactive transcripts

A transcript shows the input of an interactive session after prompts, and the output on lines of its
own. `typedInput` keeps the input only, as one would paste it.
-/

namespace DocPage.Code

def prompt : Text := ">>>"

/-- The prompt of a line that continues an input. -/
def continuation : Text := "..."

/-- What is typed after a prompt: the line without the prompt and at most one blank. A line without
a prompt is output. -/
def typed? (line : Text) : Option Text :=
  match Text.dropPrefix? prompt line <|> Text.dropPrefix? continuation line with
  | some rest => some ((Text.dropPrefix? " " rest).getD rest)
  | none => none

/-- The input of a transcript. Code in which no line starts with the prompt is no transcript and
stays as it is. -/
def typedInput (code : Text) : Text :=
  let lines := Text.lines code
  if lines.any (Text.startsWith prompt) then Text.join "\n" (lines.filterMap typed?) else code

end DocPage.Code
