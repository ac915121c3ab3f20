import DocPage.Document.Publication
import DocPage.Files.Error

/-!
# Configuration

What a run of the program is configured with, and what can be wrong with it.
-/

namespace DocPage

/-- What a run is configured with. -/
structure Config where
  /-- Where the pages are published, if they are. -/
  page : Option Document.Publication := none
  /-- The directory of the components. -/
  components : Option Text := none
  /-- The file that the configuration comes from. -/
  path : Option Text := none
  /-- Whether tables, strikethrough, tasks and alerts are read. -/
  extended : Bool := true
  deriving Repr, DecidableEq

inductive ConfigError where
  /-- The file that was asked for does not exist. -/
  | notFound (path : Text)
  | unreadable (cause : Files.FileError)
  /-- The file is no TOML, or has a value of the wrong type. -/
  | malformed
  /-- A published page has no package name. -/
  | emptyPackage
  /-- A variable that a field refers to is not set. -/
  | unsetVariable (field name : Text)
  deriving Repr, DecidableEq

def ConfigError.message : ConfigError → Text
  | notFound path => "Configuration file not found: ".toList ++ path
  | unreadable cause => "I/O error: ".toList ++ cause.message
  | malformed => "TOML parse error"
  | emptyPackage => "Configuration error: page.package_name cannot be empty"
  | unsetVariable field name =>
    "Environment variable error in ".toList ++ field ++ ": $\x7b".toList ++ name ++
      "\x7d not set".toList

/-- Values that take precedence over a configuration file. -/
structure Overrides where
  package : Option Text := none
  version : Option Text := none
  language : Option Text := none
  components : Option Text := none
  extended : Option Bool := none
  deriving Repr, DecidableEq

namespace Config

/-- The configuration, unless it publishes pages of a package without a name. -/
def checked (c : Config) : Except ConfigError Config :=
  if c.page.any fun page => (Text.trim page.package).isEmpty then .error .emptyPackage else .ok c

/-- The page with a package name that takes precedence. -/
def withPackage (page : Option Document.Publication) : Option Text → Option Document.Publication
  | none => page
  | some package => some { page.getD { package } with package }

/-- The configuration with values that take precedence. A package name alone publishes the pages; a
version or a language does not. -/
def override (c : Config) (o : Overrides) : Config :=
  { c with
    page := (withPackage c.page o.package).map fun page =>
      { page with
        version := o.version.getD page.version, language := o.language.getD page.language }
    components := o.components <|> c.components
    extended := o.extended.getD c.extended }

end Config

end DocPage
