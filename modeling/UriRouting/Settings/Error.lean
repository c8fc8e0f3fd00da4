/-
# UriRouting.Settings.Error — why no table was built

The causes, from a file that cannot be read to a variable without resolver, with their wording.  A
cause can have causes of its own; `ConfigError.causes` lists them for a report.
-/
import UriRouting.Template.Span
import UriRouting.Yaml.Cursor

namespace UriRouting

/-- **`FileError`** — why a file could not be read. -/
inductive FileError
  | notFound
  | notDirectory
  | isDirectory
  | other (text : Text)
  deriving DecidableEq, Repr, Inhabited

/-- The error in words. -/
def FileError.message : FileError → Text
  | notFound => Text.ofString "No such file or directory (os error 2)"
  | notDirectory => Text.ofString "Not a directory (os error 20)"
  | isDirectory => Text.ofString "Is a directory (os error 21)"
  | other text => text

/-- **`BindingFault`** — what is wrong with the settings of a variable; `target` names what they
bind. -/
inductive BindingFault
  | noTarget
  | notOneResolver (target : Text)
  | invalidRegex (target : Text) (cause : Text)
  | other (text : Text)
  deriving DecidableEq, Repr, Inhabited

/-- The fault in words. -/
def BindingFault.message : BindingFault → Text
  | noTarget => Text.ofString "a variable binding needs a name or a type"
  | notOneResolver target =>
    target ++ Text.ofString ": exactly one of resolver, options or regex is required"
  | invalidRegex target cause => target ++ Text.ofString ": invalid regex: " ++ cause
  | other text => text

/-- **`ConfigError`** — why no table was built. -/
inductive ConfigError
  | io (cause : FileError)
  | parse (cause : YamlError)
  | template (pattern : Text) (cause : TemplateError)
  | binding (fault : BindingFault)
  | duplicateService (service : Text)
  deriving DecidableEq, Repr, Inhabited

namespace ConfigError

/-- **`message`** — the error in words. -/
def message : ConfigError → Text
  | io cause => Text.ofString "IO error: " ++ cause.message
  | parse cause => Text.ofString "Parse error: " ++ cause.message
  | template pattern cause =>
    Text.ofString "Invalid pattern " ++ Text.inQuotes pattern ++ Text.ofString ": " ++ cause.message
  | binding fault => Text.ofString "Invalid variable binding: " ++ fault.message
  | duplicateService service => Text.ofString "Duplicate service: " ++ service

/-- The messages of the causes behind the error, the nearest first. -/
def causes : ConfigError → List Text
  | io cause => [cause.message]
  | parse cause => [cause.message]
  | template _ cause => [cause.message]
  | binding _ => []
  | duplicateService _ => []

end ConfigError

end UriRouting
