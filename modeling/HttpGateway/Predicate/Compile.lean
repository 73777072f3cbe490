import HttpGateway.Predicate.Basic
import HttpGateway.Predicate.Spec

/-!
# From definitions to predicates

Making the conditions that definitions describe. Patterns, methods, expressions, addresses and
times are read here, so that a condition at work has nothing left that could be malformed.
-/

namespace HttpGateway

namespace PredicateSpec

/-- Reads the patterns of a path or host condition. -/
def readPatterns (kind : PieceKind) (texts : List String) :
    Except ArgumentFault (List SegmentPattern) :=
  if texts.isEmpty then .error .noPatterns
  else texts.mapM fun t => match SegmentPattern.parse kind (trimText t) with
    | .ok p => .ok p
    | .error cause => .error (.pattern cause)

/-- Reads a method, in whatever case it is written. -/
def readMethod? (text : String) : Option Method := Method.parse? (upperText (trimText text))

/-- Reads an expression that must match a value from its start to its end. -/
def readRegex (text : String) : Except ArgumentFault Regex :=
  match Regex.compile ("^(?:" ++ text ++ ")$") with
  | .ok r => .ok r
  | .error cause => .error (.regex cause)

/-- Reads an expression that may be absent or empty. -/
def readOptionalRegex : Option String → Except ArgumentFault (Option Regex)
  | none => .ok none
  | some text => if text = "" then .ok none else (readRegex text).map some

/-- Reads an address or a block of addresses. -/
def readSource (text : String) : Except ArgumentFault Network :=
  match Network.parse? (trimText text) with
  | some net => .ok net
  | none => .error (.source (trimText text))

/-- Reads a point in time. -/
def readInstant (text : String) : Except ArgumentFault Timestamp :=
  match Timestamp.parse (trimText text) with
  | .ok t => .ok t
  | .error cause => .error (.instant text cause)

/-- Makes the condition. -/
def build : PredicateSpec → Except ArgumentFault Predicate
  | .path patterns => (readPatterns .path patterns).map .path
  | .host patterns => (readPatterns .host patterns).map .host
  | .method methods =>
    if methods.isEmpty then .error .noMethods
    else match methods.mapM readMethod? with
      | some ms => .ok (.method ms)
      | none => .error .method
  | .header name regexp => match HeaderName.parse? name with
    | none => .error .headerName
    | some n => (readOptionalRegex regexp).map (.header n)
  | .cookie name regexp => (readRegex regexp).map (.cookie name)
  | .query param regexp => (readOptionalRegex regexp).map (.query param)
  | .remoteAddress sources => do
    let networks ← sources.mapM readSource
    if networks.isEmpty then .error .noSources else .ok (.remoteAddress networks)
  | .before datetime => (readInstant datetime).map .before
  | .after datetime => (readInstant datetime).map .after
  | .between start stop => do
    let s ← readInstant start
    let e ← readInstant stop
    if s.before e then .ok (.between s e) else .error (.notBefore s e)

end PredicateSpec

namespace Predicate

/-- Makes the condition that a definition describes. -/
def ofDefinition (d : PredicateDefinition) : Except DefinitionError Predicate := do
  let spec ← PredicateSpec.ofDefinition d
  match spec.build with
  | .ok p => .ok p
  | .error fault => .error (.invalidArguments d.name fault)

/-- Makes the conditions of a list of definitions. -/
def ofDefinitions (ds : List PredicateDefinition) : Except DefinitionError (List Predicate) :=
  ds.mapM ofDefinition

end Predicate

end HttpGateway
