import HttpGateway.Config.Document
import HttpGateway.Filter.Spec
import HttpGateway.Predicate.Spec

/-!
# The command line

What the program can be asked to do, and the lines it prints for that.
-/

namespace HttpGateway

/-- The options of the command line. -/
structure CommandLine where
  config : Option String := none
  check : Bool := false
  listKinds : Bool := false
  deriving DecidableEq, Repr

/-- Why a command line is refused. -/
inductive UsageError where
  | unexpected (argument : String)
  | missingValue (option : String)
  | repeatedOption (option : String)
  deriving DecidableEq, Repr

/-- The wording of each cause. -/
def UsageError.message : UsageError → String
  | .unexpected argument => "unexpected argument " ++ ticked argument
  | .missingValue option => "a value is required for " ++ ticked option
  | .repeatedOption option => "the option " ++ ticked option ++ " cannot be used multiple times"

namespace CommandLine

/-- Takes the name of the configuration file. -/
def setConfig (c : CommandLine) (file : String) : Except UsageError CommandLine :=
  if c.config.isSome then .error (.repeatedOption "--config") else .ok { c with config := some file }

/-- The value of an option that is written together with it. -/
def attached? (option argument : String) : Option String :=
  (Text.afterPrefix? option.toList argument.toList).map String.ofList

/-- Reads an option that stands on its own. -/
def single (c : CommandLine) (argument : String) : Except UsageError CommandLine :=
  if argument = "--check" then
    if c.check then .error (.repeatedOption argument) else .ok { c with check := true }
  else if argument = "--list-kinds" then
    if c.listKinds then .error (.repeatedOption argument) else .ok { c with listKinds := true }
  else match (attached? "--config=" argument).or (attached? "-c" argument) with
    | some file => c.setConfig file
    | none => .error (.unexpected argument)

/-- Reads options into those read before. -/
def readInto (c : CommandLine) : List String → Except UsageError CommandLine
  | [] => .ok c
  | [argument] =>
    if argument = "--config" ∨ argument = "-c" then .error (.missingValue argument)
    else c.single argument
  | argument :: value :: rest =>
    if argument = "--config" ∨ argument = "-c" then do readInto (← c.setConfig value) rest
    else do readInto (← c.single argument) (value :: rest)

/-- Reads the options of a command line. -/
def parse (arguments : List String) : Except UsageError CommandLine := readInto {} arguments

/-- The lines that name all kinds of predicates and filters. -/
def kindLines : List String :=
  ["predicates: " ++ joinTexts ", " (PredicateKind.all.map PredicateKind.name),
    "filters:    " ++ joinTexts ", " (FilterKind.all.map FilterKind.name)]

/-- A text behind blanks that make it up to a width. -/
def padLeft (width : Nat) (s : String) : String :=
  String.ofList (List.replicate (width - s.length) ' ') ++ s

/-- The line of a route: its order, its id, and where it goes. -/
def routeLine (d : RouteDefinition) : String :=
  padLeft 6 (Text.signedDecimal d.order.toInt) ++ "  " ++ d.id ++ "  -> " ++ d.uri

/-- The lines about a configuration that has been checked. -/
def checkLines (c : GatewayConfig) : List String :=
  c.routes.map routeLine ++
    ["configuration ok (" ++ Text.decimal c.routes.length ++ " routes)"]

end CommandLine

end HttpGateway
