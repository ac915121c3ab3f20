import DocPage.Config.Basic

/-!
# Command line arguments

A command has one input, and settings that take a value: `--name value`, `--name=value`, or for
those with a letter `-n value`, `-nvalue` and `-n=value`. Letters without a value may share a dash.
No argument is given twice. After `--` every argument is an input. A value that is an argument of
its own starts with no dash, unless it is a single one.

## Architecture

- **Settings**: their names, letters and values
- **Requests**: what the arguments ask for
- **Reading**: `Draft.readAll` and `Request.ofArguments`, from left to right
-/

namespace DocPage.CommandLine

/-! ## Settings -/

/-- The arguments that take a value. -/
inductive Setting where
  | config
  | output
  | package
  | version
  | language
  | components
  deriving Repr, DecidableEq

/-- What a run of the program does with its input. -/
inductive Action where
  /-- Converts it. -/
  | convert
  /-- Prints its outline. -/
  | outline
  deriving Repr, DecidableEq

namespace Setting

/-- The name after two dashes. -/
def name : Setting → Text
  | config => "config"
  | output => "output"
  | package => "package"
  | version => "version"
  | language => "language"
  | components => "components"

/-- The letter after one dash. -/
def letter? : Setting → Option Char
  | config => some 'c'
  | output => some 'o'
  | _ => none

/-- Whether the value is a path. A path is not empty. -/
def isPath : Setting → Bool
  | config | output | components => true
  | _ => false

/-- The settings of an action. -/
def ofAction : Action → List Setting
  | .convert => [output, config, package, version, language, components]
  | .outline => [config, package, version, language, components]

end Setting

/-! ## Requests -/

/-- An action with its input and settings. -/
structure Job where
  action : Action
  input : Text
  output : Option Text := none
  config : Option Text := none
  overrides : Overrides := {}
  deriving Repr, DecidableEq

/-- What the arguments ask for. -/
inductive Request where
  | run (job : Job)
  | showVersion
  | showHelp
  /-- The arguments make no sense. -/
  | misuse
  deriving Repr, DecidableEq

/-! ## Reading -/

/-- What the arguments of a command have said so far. -/
structure Draft where
  input : Option Text := none
  values : List (Setting × Text) := []
  /-- Extensions of Markdown are turned off. -/
  basic : Bool := false
  /-- Progress notes are asked for. -/
  verbose : Bool := false
  deriving Repr

namespace Draft

def withInput (d : Draft) (input : Text) : Except Request Draft :=
  if d.input.isSome || input.isEmpty then .error .misuse else .ok { d with input := some input }

def withValue (d : Draft) (setting : Setting) (value : Text) : Except Request Draft :=
  if (d.values.lookup setting).isSome || (setting.isPath && value.isEmpty) then .error .misuse
  else .ok { d with values := d.values.concat (setting, value) }

/-- The draft after a request for progress notes. -/
def withVerbose (d : Draft) : Except Request Draft :=
  if d.verbose then .error .misuse else .ok { d with verbose := true }

/-- The draft after extensions of Markdown are turned off. -/
def withBasic (d : Draft) : Except Request Draft :=
  if d.basic then .error .misuse else .ok { d with basic := true }

/-- Reads a name after two dashes, with the value after an equals sign. The setting in the answer
waits for a value. -/
def readName (d : Draft) (settings : List Setting) (name : Text) (value : Option Text) :
    Except Request (Draft × Option Setting) :=
  match settings.find? (·.name == name), value with
  | some setting, some value => return (← d.withValue setting value, none)
  | some setting, none => .ok (d, some setting)
  | none, some _ => .error .misuse
  | none, none =>
    if name == "help".toList then .error .showHelp
    else if name == "verbose".toList then return (← d.withVerbose, none)
    else if name == "no-gfm".toList then return (← d.withBasic, none)
    else .error .misuse

/-- Reads letters after one dash. The setting in the answer waits for a value. -/
def readLetters (d : Draft) (settings : List Setting) :
    Text → Except Request (Draft × Option Setting)
  | [] => .ok (d, none)
  | c :: t =>
    match settings.find? (·.letter? == some c) with
    | some setting =>
      if t.isEmpty then .ok (d, some setting)
      else return (← d.withValue setting ((Text.dropPrefix? ['='] t).getD t), none)
    | none =>
      if c == 'h' then .error .showHelp
      else if c == 'v' then do (← d.withVerbose).readLetters settings t
      else .error .misuse

/-- A name and the value after its equals sign. -/
def splitValue (t : Text) : Text × Option Text :=
  match Text.splitOnce? ['='] t with
  | some (name, value) => (name, some value)
  | none => (t, none)

/-- Whether an argument is no value: it starts with a dash and is not a single dash. -/
def startsSetting : Text → Bool
  | '-' :: _ :: _ => true
  | _ => false

/-- Reads an argument that no setting waits for. -/
def read (d : Draft) (settings : List Setting) : Text → Except Request (Draft × Option Setting)
  | '-' :: '-' :: t =>
    let (name, value) := splitValue t
    d.readName settings name value
  | '-' :: c :: t => d.readLetters settings (c :: t)
  | input => return (← d.withInput input, none)

/-- Reads all arguments of a command. `waiting` is the setting that waits for a value. -/
def readAll (settings : List Setting) (d : Draft) (waiting : Option Setting) :
    List Text → Except Request Draft
  | [] => if waiting.isSome then .error .misuse else .ok d
  | arg :: args =>
    match waiting with
    | some setting =>
      if startsSetting arg then .error .misuse
      else do (← d.withValue setting arg).readAll settings none args
    | none =>
      if arg == ['-', '-'] then args.foldlM withInput d
      else do
        let (d, waiting) ← d.read settings arg
        d.readAll settings waiting args

def request (d : Draft) (action : Action) : Request :=
  match d.input with
  | none => .misuse
  | some input => .run {
      action, input
      output := d.values.lookup .output
      config := d.values.lookup .config
      overrides := {
        package := d.values.lookup .package
        version := d.values.lookup .version
        language := d.values.lookup .language
        components := d.values.lookup .components
        extended := if d.basic then some false else none } }

end Draft

namespace Request

/-- What the arguments of an action ask for. -/
def ofAction (action : Action) (args : List Text) : Request :=
  match Draft.readAll (Setting.ofAction action) {} none args with
  | .ok d => d.request action
  | .error request => request

/-- Reads letters in front of the action; the answer is whether progress notes are asked for. -/
def readLetters (verbose : Bool) : Text → Except Request Bool
  | [] => .ok verbose
  | 'v' :: t => if verbose then .error .misuse else readLetters true t
  | 'V' :: _ => .error .showVersion
  | 'h' :: _ => .error .showHelp
  | _ => .error .misuse

/-- Reads an argument that names no action; the answer is whether progress notes are asked for. -/
def readFlag (verbose : Bool) (arg : Text) : Except Request Bool :=
  match arg with
  | '-' :: '-' :: name =>
    if name == "version".toList then .error .showVersion
    else if name == "help".toList then .error .showHelp
    else if name == "verbose".toList && !verbose then .ok true
    else .error .misuse
  | '-' :: c :: t => readLetters verbose (c :: t)
  | _ => .error (if arg == "help".toList then .showHelp else .misuse)

/-- What the arguments ask for; `verbose` is whether they asked for progress notes before. -/
def ofArgumentsFrom (verbose : Bool) : List Text → Request
  | [] => .misuse
  | arg :: args =>
    if arg == "convert".toList then ofAction .convert args
    else if arg == "outline".toList then ofAction .outline args
    else
      match readFlag verbose arg with
      | .ok verbose => ofArgumentsFrom verbose args
      | .error request => request

def ofArguments (args : List Text) : Request :=
  ofArgumentsFrom false args

end Request

end DocPage.CommandLine
