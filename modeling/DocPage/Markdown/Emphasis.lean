import DocPage.Markdown.Event

/-!
# Emphasis

Runs of delimiters among the pieces of one level of inline content are paired into emphasis, from
left to right. A closing run is paired with the nearest opening run that fits; openers passed over
on the way stay text.

A search that fails is remembered as a bound: later closing runs of the same kind do not look at the
openers below it again. The bound of a kind is shared by runs that may fit different openers, so it
is part of what is paired, and not only a matter of speed.

## Architecture

- **Pieces**: `Span`, what a level consists of before it is resolved
- **Bounds**: `Bounds` keeps how far down a search may go
- **Pairing**: `Opener.fits` is the condition, `Level.closeRun` pairs one closing run
- **Levels**: `resolve` gives the events of a level
-/

namespace DocPage.Markdown

/-! ## Pieces -/

/-- A run of delimiters. -/
structure Run where
  symbol : Char
  count : Nat
  opens : Bool
  closes : Bool
  deriving Repr, DecidableEq

/-- Whether the run can both start and end emphasis. -/
def Run.isBoth (r : Run) : Bool :=
  r.opens && r.closes

/-- A piece of inline content. -/
inductive Span where
  | done (events : List Event)
  | run (r : Run)
  /-- A line break that is shown; a backslash or blanks make it. -/
  | lineBreak (backslash : Bool)
  deriving Repr, DecidableEq

/-- A run, or what is left of it, as text. -/
def delimiterText (symbol : Char) (count : Nat) : List Event :=
  [.text (List.replicate count symbol)]

/-! ## Bounds -/

/-- How many openers, counted from the outermost one, a search leaves alone. -/
structure Bounds where
  asteriskOneSided : Nat := 0
  /-- By the remainder of the length of the run by three. -/
  asterisk : List Nat := [0, 0, 0]
  underscoreOneSided : Nat := 0
  /-- By the remainder of the length of the run by three. -/
  underscore : List Nat := [0, 0, 0]
  tilde : Nat := 0

namespace Bounds

/-- The bound for a closing run. -/
def get (b : Bounds) (r : Run) : Nat :=
  let choose (byLength : List Nat) (oneSided : Nat) :=
    let bound := byLength.getD (r.count % 3) 0
    if r.isBoth then bound else min bound oneSided
  if r.symbol == '_' then choose b.underscore b.underscoreOneSided
  else if r.symbol == '*' then choose b.asterisk b.asteriskOneSided
  else b.tilde

/-- The bounds after a search for a closing run failed among `bound` openers. -/
def fail (b : Bounds) (r : Run) (bound : Nat) : Bounds :=
  if r.symbol == '_' then
    if r.isBoth then { b with underscore := b.underscore.set (r.count % 3) bound }
    else { b with underscoreOneSided := bound }
  else if r.symbol == '*' then
    let b := { b with asterisk := b.asterisk.set (r.count % 3) bound }
    if r.isBoth then b else { b with asteriskOneSided := bound }
  else { b with tilde := bound }

/-- The bounds when only `size` openers are left. -/
def truncate (b : Bounds) (size : Nat) : Bounds where
  asteriskOneSided := min b.asteriskOneSided size
  asterisk := b.asterisk.map (min size)
  underscoreOneSided := min b.underscoreOneSided size
  underscore := b.underscore.map (min size)
  tilde := min b.tilde size

end Bounds

/-! ## Openers -/

/-- A run that may start emphasis, with the events after it so far. -/
structure Opener where
  run : Run
  /-- How many delimiters of the run are left. -/
  left : Nat
  content : List Event

namespace Opener

/-- Whether a closing run can be paired with the opener. Runs of `~` need one length. Otherwise,
when one of the runs could be on either side, their lengths must not add up to a multiple of three,
unless both are one. -/
def fits (closer : Run) (o : Opener) : Bool :=
  o.run.symbol == closer.symbol &&
    (closer.symbol != '~' || closer.count == o.run.count) &&
    ((!closer.isBoth && !o.run.isBoth) || (closer.count + o.run.count) % 3 != 0 ||
      closer.count % 3 == 0)

/-- The opener as text, with what follows it. -/
def asText (o : Opener) : List Event :=
  delimiterText o.run.symbol o.left ++ o.content

end Opener

/-- The openers of a level, innermost first, and the events in front of them. -/
structure Level where
  openers : List Opener := []
  content : List Event := []
  bounds : Bounds := {}

namespace Level

/-- Adds events at the end of a level. -/
def add (l : Level) (events : List Event) : Level :=
  match l.openers with
  | o :: rest => { l with openers := { o with content := o.content ++ events } :: rest }
  | [] => { l with content := l.content ++ events }

def push (l : Level) (o : Opener) : Level :=
  { l with openers := o :: l.openers }

/-- Turns the innermost opener into text. -/
def drop (l : Level) : Level :=
  match l.openers with
  | o :: rest => { l with openers := rest }.add o.asText
  | [] => l

/-- Wraps events in emphasis made of `count` delimiters: pairs are strong and inside, a single one
is outside. -/
def wrap (symbol : Char) : (count : Nat) → List Event → List Event
  | 0, events => events
  | 1, events =>
    if symbol == '~' then .start .strikethrough :: events ++ [.stop .strikethrough]
    else .start .emphasis :: events ++ [.stop .emphasis]
  | count + 2, events =>
    if symbol == '~' then
      wrap symbol count (.start .strikethrough :: events ++ [.stop .strikethrough])
    else wrap symbol count (.start .strong :: events ++ [.stop .strong])

/-- Pairs what is left of a closing run with the openers, as long as one fits. The result tells how
many of its delimiters are left. `fuel` bounds the number of pairs. -/
def closeRun (closer : Run) : (fuel left : Nat) → Level → Nat × Level
  | 0, left, l => (left, l)
  | fuel + 1, left, l =>
    let size := l.openers.length
    let bound := min size (l.bounds.get closer)
    match (l.openers.take (size - bound)).findIdx? (Opener.fits closer) with
    | none => (left, { l with bounds := l.bounds.fail closer size })
    | some passed =>
      let l := Nat.repeat drop passed l
      match l.openers with
      | [] => (left, l)
      | o :: rest =>
        let count := min left o.left
        let events := wrap closer.symbol count o.content
        let l := { l with openers := rest, bounds := l.bounds.truncate rest.length }
        let l := if count < o.left then l.push ⟨o.run, o.left - count, events⟩ else l.add events
        if count < left then closeRun closer fuel (left - count) l else (0, l)

/-- Adds a piece to a level. -/
def step (l : Level) : Span → Level
  | .done events => l.add events
  | .lineBreak _ => l.add [.hardBreak]
  | .run r =>
    let (left, l) := if r.closes then closeRun r r.count r.count l else (r.count, l)
    if left = 0 then l
    else if r.opens then l.push ⟨r, left, []⟩
    else l.add (delimiterText r.symbol left)

/-- The events of a level, where openers without a partner are text. -/
def finish (l : Level) : List Event :=
  (Nat.repeat drop l.openers.length l).content

end Level

/-! ## Levels -/

/-- A line break at the end of a level with delimiters breaks no line: its backslash is text. -/
def settleLastBreak (spans : List Span) : List Span :=
  if spans.any fun | .run _ => true | _ => false then
    match spans.reverse with
    | .lineBreak true :: front => (.done [.text ['\\']] :: front).reverse
    | .lineBreak false :: front => (.done [.softBreak] :: front).reverse
    | _ => spans
  else spans

/-- The events of a level of inline content. -/
def resolve (spans : List Span) : List Event :=
  ((settleLastBreak spans).foldl Level.step {}).finish

end DocPage.Markdown
