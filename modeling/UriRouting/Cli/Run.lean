/-
# UriRouting.Cli.Run — what a command line does

A command line resolves a path or URL, expands the pattern of a service, or serves a route table;
either way it first loads the table.  `execute` is what it does, given its options and the outcome of
reading the file of the table: a text on each of the two outputs and an exit code, or the table to be
served.

The report of a failed command gives the message of what failed and, if there are any, the causes
behind it, the nearest first, each indented on lines of its own.  A single cause stands alone; several
are numbered from zero.
-/
import UriRouting.Cli.Arguments
import UriRouting.Location
import UriRouting.Route.Table
import UriRouting.Settings.Table
import UriRouting.Text.Basic

namespace UriRouting.Cli

/-- **`Report`** — what failed, and why. -/
structure Report where
  message : Text
  causes : List Text := []
  deriving DecidableEq, Repr, Inhabited

namespace Report

/-- A cause after its mark, its further lines indented by as many blanks. -/
def indented (mark : Text) (cause : Text) : Text :=
  mark ++ Text.joinWith ('\n' :: List.replicate mark.length ' ') (Text.pieces '\n' cause)

/-- The number of a cause, in a column of five characters. -/
def number (n : Nat) : Text :=
  let digits := Text.Decimal.ofNat n
  List.replicate (5 - digits.length) ' ' ++ digits ++ [':', ' ']

/-- Causes with their numbers, from a number on. -/
def numbered : Nat → List Text → List Text
  | _, [] => []
  | n, cause :: rest => indented (number n) cause :: numbered (n + 1) rest

/-- The lines of the causes. -/
def causeLines : List Text → List Text
  | [] => []
  | [cause] => [indented [' ', ' ', ' ', ' '] cause]
  | causes => numbered 0 causes

/-- **`render`** — the report as text. -/
def render (r : Report) : Text :=
  let causes :=
    match causeLines r.causes with
    | [] => []
    | lines => Text.ofString "\n\nCaused by:\n" ++ Text.joinWith ['\n'] lines
  Text.ofString "Error: " ++ r.message ++ causes ++ ['\n']

end Report

/-- **`Outcome`** — the end of a command: its exit code and what it wrote. -/
structure Outcome where
  exit : Nat
  out : Text := []
  err : Text := []
  deriving DecidableEq, Repr, Inhabited

/-- **`Run`** — what a command does. -/
inductive Run
  | finished (outcome : Outcome)
  | serve (address : Text) (table : RouteTable)
  deriving Inhabited

/-- The outcome of a command that fails after it has written something. -/
def Outcome.failed (out : Text) (report : Report) : Outcome := ⟨1, out, report.render⟩

/-- The outcome of a command that writes a line. -/
def Outcome.line (t : Text) : Outcome := ⟨0, t ++ ['\n'], []⟩

/-- **`AddressFault`** — why a text is no address to serve on. -/
inductive AddressFault
  | noPort
  | invalidPort
  deriving DecidableEq, Repr, Inhabited

/-- The fault in words. -/
def AddressFault.message : AddressFault → Text
  | noPort => Text.ofString "invalid socket address"
  | invalidPort => Text.ofString "invalid port value"

/-- What is wrong with an address: a host and a port belong to it. -/
def addressFault? (address : Text) : Option AddressFault :=
  match Text.cutAtLast ':' address with
  | none => some .noPort
  | some (_, port) => if Text.Decimal.isUnsigned16 port then none else some .invalidPort

/-- **`resolve table input`** — resolves a path or URL. -/
def resolve [Url.Idna] (table : RouteTable) (input : Text) : Outcome :=
  let path := Location.pathOf input
  match table.dispatch path with
  | none => .failed [] ⟨Text.ofString "No route matches " ++ Text.inQuotes path, []⟩
  | some d =>
    let out := d.summary.renderPretty ++ ['\n']
    if d.result.isResolved then ⟨0, out, []⟩
    else
      .failed out ⟨Text.inQuotes path ++ Text.ofString " is " ++ d.result.status.word, []⟩

/-- The pair that a parameter writes: a name, which is trimmed, and a value. -/
def readParam (param : Text) : Except Report (Text × Text) :=
  match Text.cutAt '=' param with
  | some (name, value) => .ok (Text.trim name, value)
  | none => .error ⟨Text.ofString "Expected NAME=VALUE, got " ++ Text.inQuotes param, []⟩

/-- **`expand table service params`** — the text of a service's pattern for given values, of which
the last for a name counts. -/
def expand (table : RouteTable) (service : Text) (params : List Text) : Except Report Text := do
  let pairs ← params.mapM readParam
  match table.route? service with
  | none => throw ⟨Text.ofString "Unknown service: " ++ Text.inQuotes service, []⟩
  | some route => return route.pattern.template.expand (Params.ofAssignments pairs)

/-- What a command does once its table is loaded. -/
def withTable [Url.Idna] (table : RouteTable) (o : Options) : Run :=
  match o.resolve, o.expand with
  | some input, _ => .finished (resolve table input)
  | none, some service =>
    .finished <|
      match expand table service o.params with
      | .ok uri => .line uri
      | .error report => .failed [] report
  | none, none =>
    match addressFault? o.address with
    | some fault =>
      .finished (.failed [] ⟨Text.ofString "Failed to bind " ++ o.address, [fault.message]⟩)
    | none => .serve o.address table

/-- **`execute o contents`** — what a command with given options does, `contents` being the outcome
of reading the file of its route table. -/
def execute [Regex.Library] [Url.Idna] (o : Options) (contents : Except FileError Text) : Run :=
  match Settings.tableOfFile contents with
  | .ok table => withTable table o
  | .error e =>
    .finished <| .failed []
      ⟨Text.ofString "Failed to load route table from " ++ o.routesFile, e.message :: e.causes⟩

end UriRouting.Cli
