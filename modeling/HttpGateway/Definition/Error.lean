import HttpGateway.Http.Method
import HttpGateway.Http.Header
import HttpGateway.Http.Status
import HttpGateway.Json.Decode
import HttpGateway.Pattern.Segment
import HttpGateway.Pattern.Template
import HttpGateway.Regex.Basic
import HttpGateway.Time.Timestamp
import HttpGateway.Uri.Basic

/-!
# Faults of definitions

What can be wrong with the definition of a route, a predicate or a filter, with the wording of each
cause.
-/

namespace HttpGateway

/-- What can be wrong with the arguments of a predicate or filter. -/
inductive ArgumentFault where
  | badKey (key : String)
  | tooMany (most given : Nat)
  | shape (cause : DecodeError)
  | noPatterns
  | noMethods
  | noSources
  | pattern (cause : SegmentError)
  | method
  | headerName
  | regex (cause : Regex.PatternError)
  | source (text : String)
  | instant (text : String) (cause : TimestampError)
  | notBefore (start stop : Timestamp)
  | namedHeader (name : String)
  | namedValue (value : String)
  | location
  | emptyParameter
  | notSecureHeader (name : String)
  | prefixWithoutSlash (path : String)
  | template (cause : TemplateError)
  | status (cause : Status.NameError)
  | notRedirection (status : Status)
  | noRetries
  | namedMethod (name : String)
  | notIdempotent (method : Method)
  | statusCode (code : Nat)
  | backoffBounds
  | noBurst
  deriving Repr

namespace ArgumentFault

/-- A status as its number and reason phrase. -/
def statusText (s : Status) : String :=
  Text.decimal s.code ++ " " ++ s.reason?.getD "<unknown status code>"

/-- The wording of each cause. -/
def message : ArgumentFault → String
  | .badKey key => "bad key " ++ ticked key
  | .tooMany most given =>
    "expected at most " ++ Text.decimal most ++ " arguments, got " ++ Text.decimal given
  | .shape cause => cause.message
  | .noPatterns => "no patterns given"
  | .noMethods => "no methods given"
  | .noSources => "no sources given"
  | .pattern cause => cause.message
  | .method => Method.invalidMessage
  | .headerName => HeaderName.invalidMessage
  | .regex cause => cause.message
  | .source text => ticked text ++ " is neither an address nor a CIDR block"
  | .instant text cause => ticked text ++ ": " ++ cause.message
  | .notBefore start stop => "start " ++ start.render ++ " is not before end " ++ stop.render
  | .namedHeader name => "header " ++ ticked name ++ ": " ++ HeaderName.invalidMessage
  | .namedValue value => "value " ++ ticked value ++ ": " ++ HeaderValue.invalidMessage
  | .location => HeaderValue.invalidMessage
  | .emptyParameter => "parameter name is empty"
  | .notSecureHeader name => ticked name ++ " is not a secure header"
  | .prefixWithoutSlash path => "prefix " ++ ticked path ++ " must start with " ++ ticked "/"
  | .template cause => cause.message
  | .status cause => cause.message
  | .notRedirection s => statusText s ++ " is not a redirection status"
  | .noRetries => "retries must be at least 1"
  | .namedMethod name => "method " ++ ticked name ++ ": " ++ Method.invalidMessage
  | .notIdempotent m => m.name ++ " is not idempotent and cannot be retried"
  | .statusCode code => "status " ++ Text.decimal code ++ ": " ++ Status.invalidMessage
  | .backoffBounds => "backoff first_ms exceeds max_ms"
  | .noBurst => "burst_capacity must be at least 1"

end ArgumentFault

/-- What can be wrong with the address of a route. -/
inductive RouteUriFault where
  | malformed (cause : UriError)
  | missingScheme
  | missingHost
  deriving DecidableEq, Repr

/-- The wording of each cause. -/
def RouteUriFault.message : RouteUriFault → String
  | .malformed cause => cause.message
  | .missingScheme => "missing scheme"
  | .missingHost => "missing host"

/-- What can be wrong with a definition. -/
inductive DefinitionError where
  | unknownPredicate (name : String)
  | unknownFilter (name : String)
  | invalidArguments (name : String) (fault : ArgumentFault)
  | missingName (text : String)
  | invalidUri (uri : String) (fault : RouteUriFault)
  | missingId
  | inRoute (id : String) (cause : DefinitionError)
  deriving Repr

/-- The wording of each cause. -/
def DefinitionError.message : DefinitionError → String
  | .unknownPredicate name => "unknown predicate " ++ ticked name
  | .unknownFilter name => "unknown filter " ++ ticked name
  | .invalidArguments name fault => "invalid arguments for " ++ name ++ ": " ++ fault.message
  | .missingName text => "invalid shortcut definition " ++ ticked text ++ ": missing name"
  | .invalidUri uri fault => "invalid uri " ++ ticked uri ++ ": " ++ fault.message
  | .missingId => "route definition has an empty id"
  | .inRoute id cause => "route " ++ id ++ ": " ++ cause.message

/-- The name of the kind of fault. -/
def DefinitionError.kind : DefinitionError → String
  | .unknownPredicate _ => "UnknownPredicate"
  | .unknownFilter _ => "UnknownFilter"
  | .invalidArguments _ _ => "InvalidArguments"
  | .missingName _ => "InvalidShortcut"
  | .invalidUri _ _ => "InvalidUri"
  | .missingId => "MissingId"
  | .inRoute _ _ => "InRoute"

end HttpGateway
