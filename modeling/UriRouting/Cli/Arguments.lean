/-
# UriRouting.Cli.Arguments — the arguments of the command line

Every option takes a value, either in the same argument (`--routes=FILE`, `-rFILE`, `-r=FILE`) or as
the next one, which may be empty but may not look like an option.  Each option may be given once, only
`--param` several times.  There are no other arguments.

Arguments are read from left to right, and the first that is wrong or asks for help decides.
-/
import UriRouting.Text.Basic

namespace UriRouting.Cli

/-- **`OptionName`** — the options. -/
inductive OptionName
  | routes
  | bind
  | resolve
  | expand
  | param
  deriving DecidableEq, Repr, Inhabited

namespace OptionName

/-- The option of a long name. -/
def ofLong? (name : Text) : Option OptionName :=
  match String.ofList name with
  | "routes" => some routes
  | "bind" => some bind
  | "resolve" => some resolve
  | "expand" => some expand
  | "param" => some param
  | _ => none

/-- The option of a letter. -/
def ofLetter? : Char → Option OptionName
  | 'r' => some routes
  | 'b' => some bind
  | 'p' => some param
  | _ => none

end OptionName

/-- **`Options`** — the values of the options that are given. -/
structure Options where
  routes : Option Text := none
  bind : Option Text := none
  resolve : Option Text := none
  expand : Option Text := none
  params : List Text := []
  deriving DecidableEq, Repr, Inhabited

namespace Options

/-- The file of the route table. -/
def routesFile (o : Options) : Text := o.routes.getD (Text.ofString "routes.yml")

/-- The address to serve on. -/
def address (o : Options) : Text := o.bind.getD (Text.ofString "127.0.0.1:8000")

/-- Gives a value to an option, unless it has one already. -/
def give (o : Options) (name : OptionName) (value : Text) : Option Options :=
  match name with
  | .routes => if o.routes.isSome then none else some { o with routes := some value }
  | .bind => if o.bind.isSome then none else some { o with bind := some value }
  | .resolve => if o.resolve.isSome then none else some { o with resolve := some value }
  | .expand => if o.expand.isSome then none else some { o with expand := some value }
  | .param => some { o with params := o.params ++ [value] }

/-- The options go together: either a path is resolved or a pattern expanded, and values are of use
only with one of them. -/
def areConsistent (o : Options) : Bool :=
  !(o.resolve.isSome && o.expand.isSome) &&
    (o.params.isEmpty || o.resolve.isSome || o.expand.isSome)

end Options

/-- **`Argument`** — what a single argument says. -/
inductive Argument
  /-- an option whose value is the next argument -/
  | option (name : OptionName)
  /-- an option with its value -/
  | valued (name : OptionName) (value : Text)
  | help
  /-- the mark after which no options follow -/
  | separator
  | unknown
  deriving DecidableEq, Repr, Inhabited

namespace Argument

/-- An argument that starts with two dashes, without them. -/
def ofLong (s : Text) : Argument :=
  match Text.cutAt '=' s with
  | none =>
    if s = Text.ofString "help" then help
    else match OptionName.ofLong? s with
      | some name => option name
      | none => unknown
  | some (name, value) =>
    match OptionName.ofLong? name with
    | some name => valued name value
    | none => unknown

/-- An argument that starts with one dash, as its letter and the rest. -/
def ofShort (letter : Char) (rest : Text) : Argument :=
  if letter = 'h' then help
  else match OptionName.ofLetter? letter, rest with
    | none, _ => unknown
    | some name, [] => option name
    | some name, '=' :: value => valued name value
    | some name, value => valued name value

/-- What an argument says. -/
def ofText : Text → Argument
  | ['-', '-'] => separator
  | '-' :: '-' :: s => ofLong s
  | '-' :: letter :: rest => ofShort letter rest
  | _ => unknown

/-- The text can only be an option and no value. -/
def looksLikeOption : Text → Bool
  | '-' :: _ :: _ => true
  | _ => false

end Argument

/-- **`Reading`** — the outcome of reading arguments. -/
inductive Reading
  | options (o : Options)
  | help
  | misuse
  deriving DecidableEq, Repr, Inhabited

namespace Reading

/-- The outcome once all arguments are read. -/
def finish (o : Options) : Reading := if o.areConsistent then options o else misuse

/-- Reads arguments after `o`, and after an option that waits for its value. -/
def continueFrom (o : Options) : Option OptionName → List Text → Reading
  | none, [] => finish o
  | some _, [] => misuse
  | some name, s :: rest =>
    if Argument.looksLikeOption s then misuse
    else match o.give name s with
      | some o => continueFrom o none rest
      | none => misuse
  | none, s :: rest =>
    match Argument.ofText s with
    | .option name => continueFrom o (some name) rest
    | .valued name value =>
      match o.give name value with
      | some o => continueFrom o none rest
      | none => misuse
    | .help => help
    | .separator => if rest = [] then finish o else misuse
    | .unknown => misuse

/-- **`ofArguments`** — reads the arguments of a command line. -/
def ofArguments (arguments : List Text) : Reading := continueFrom {} none arguments

end Reading

/-- The help text. -/
def helpText : Text :=
  Text.ofString <|
    "Match request paths against URI templates\n\n" ++
    "Usage: urimatch [OPTIONS]\n\n" ++
    "Options:\n" ++
    "  -r, --routes <ROUTES>        Path to a YAML file containing the route table " ++
      "[default: routes.yml]\n" ++
    "  -b, --bind <ADDR>            Address to serve on [default: 127.0.0.1:8000]\n" ++
    "      --resolve <PATH_OR_URL>  Resolve a single path or URL and exit\n" ++
    "      --expand <SERVICE>       Expand a route's template and exit\n" ++
    "  -p, --param <NAME=VALUE>     Variable value used by --expand\n" ++
    "  -h, --help                   Print help\n"

/-- What is said about wrong arguments. -/
def misuseText : Text :=
  Text.ofString <|
    "error: invalid arguments\n\n" ++
    "Usage: urimatch [OPTIONS]\n\n" ++
    "For more information, try '--help'.\n"

end UriRouting.Cli
