import HttpGateway.Definition.Arguments
import HttpGateway.RateLimit.KeyResolver
import HttpGateway.Retry.Backoff

/-!
# Kinds of filters

The kinds of filters a definition may name, how each takes its arguments, and the arguments once
they have been read.
-/

namespace HttpGateway

/-- The kinds of filters. -/
inductive FilterKind where
  | addRequestHeader
  | addRequestParameter
  | addResponseHeader
  | setResponseHeader
  | removeRequestHeader
  | removeResponseHeader
  | removeNonProxyHeaders
  | secureHeaders
  | prefixPath
  | rewritePath
  | setPath
  | setStatus
  | redirectTo
  | retry
  | rateLimiter
  deriving DecidableEq, Repr

/-- The arguments of a retry filter. -/
structure RetrySpec where
  retries : Option Nat := none
  methods : Option (List String) := none
  series : Option (List Status.Series) := none
  statuses : List Nat := []
  retryOnError : Option Bool := none
  backoff : Option Backoff := none
  deriving DecidableEq, Repr

/-- The arguments of a rate limiting filter. -/
structure RateLimitSpec where
  replenishRate : Nat
  burstCapacity : Nat
  keyResolver : KeyResolverSpec := .remoteAddress
  denyEmptyKey : Bool := true
  deriving DecidableEq, Repr

/-- The arguments of a filter. -/
inductive FilterSpec where
  | addRequestHeader (name value : String)
  | addRequestParameter (name value : String)
  | addResponseHeader (name value : String)
  | setResponseHeader (name value : String)
  | removeRequestHeader (name : String)
  | removeResponseHeader (name : String)
  | removeNonProxyHeaders (headers : Option (List String))
  | secureHeaders (disable : List String)
  | prefixPath (start : String)
  | rewritePath (regexp replacement : String)
  | setPath (template : String)
  | setStatus (status : String)
  | redirectTo (status url : String)
  | retry (spec : RetrySpec)
  | rateLimiter (spec : RateLimitSpec)
  deriving DecidableEq, Repr

namespace FilterKind

/-- All kinds, in the order in which they are listed. -/
def all : List FilterKind :=
  [.addRequestHeader, .addRequestParameter, .addResponseHeader, .setResponseHeader,
    .removeRequestHeader, .removeResponseHeader, .removeNonProxyHeaders, .secureHeaders,
    .prefixPath, .rewritePath, .setPath, .setStatus, .redirectTo, .retry, .rateLimiter]

/-- The name of a kind. -/
def name : FilterKind → String
  | .addRequestHeader => "AddRequestHeader"
  | .addRequestParameter => "AddRequestParameter"
  | .addResponseHeader => "AddResponseHeader"
  | .setResponseHeader => "SetResponseHeader"
  | .removeRequestHeader => "RemoveRequestHeader"
  | .removeResponseHeader => "RemoveResponseHeader"
  | .removeNonProxyHeaders => "RemoveNonProxyHeaders"
  | .secureHeaders => "SecureHeaders"
  | .prefixPath => "PrefixPath"
  | .rewritePath => "RewritePath"
  | .setPath => "SetPath"
  | .setStatus => "SetStatus"
  | .redirectTo => "RedirectTo"
  | .retry => "Retry"
  | .rateLimiter => "RequestRateLimiter"

/-- How the values of a shortcut become arguments. -/
def layout : FilterKind → ArgumentLayout
  | .addRequestHeader => .fields ["name", "value"]
  | .addRequestParameter => .fields ["name", "value"]
  | .addResponseHeader => .fields ["name", "value"]
  | .setResponseHeader => .fields ["name", "value"]
  | .removeRequestHeader => .fields ["name"]
  | .removeResponseHeader => .fields ["name"]
  | .removeNonProxyHeaders => .list "headers"
  | .secureHeaders => .list "disable"
  | .prefixPath => .fields ["prefix"]
  | .rewritePath => .fields ["regexp", "replacement"]
  | .setPath => .fields ["template"]
  | .setStatus => .fields ["status"]
  | .redirectTo => .fields ["status", "url"]
  | .retry => .fields ["retries"]
  | .rateLimiter => .fields ["replenish_rate", "burst_capacity"]

/-- The kind of a name. -/
def ofName? (s : String) : Option FilterKind := all.find? fun k => k.name = s

end FilterKind

namespace RetrySpec

/-- The classes of statuses by name. -/
def seriesNames : List (String × Status.Series) :=
  [("informational", .informational), ("successful", .success), ("redirection", .redirection),
    ("client_error", .clientError), ("server_error", .serverError)]

def retriesField : Field (Option Nat) :=
  { name := "retries"
    read := Decoder.optional (Decoder.flexibleNatural "u32" Decoder.max32)
    fallback := some none }

def methodsField : Field (Option (List String)) :=
  { name := "methods", read := Decoder.optional Decoder.oneOrMany, fallback := some none }

def seriesField : Field (Option (List Status.Series)) :=
  { name := "series"
    read := Decoder.optional (Decoder.list (Decoder.oneOf .held seriesNames))
    fallback := some none }

def statusesField : Field (List Nat) :=
  { name := "statuses"
    read := Decoder.list (Decoder.natural "u16" Decoder.max16)
    fallback := some [] }

def retryOnErrorField : Field (Option Bool) :=
  { name := "retry_on_error"
    read := Decoder.optional Decoder.flexibleFlag
    fallback := some none }

def backoffField : Field (Option Backoff) :=
  { name := "backoff"
    read := Decoder.optional (Backoff.ofJson .held)
    fallback := some none }

/-- Reads the arguments of a retry filter. -/
def ofArgs (args : Fields) : Except DecodeError RetrySpec := do
  let found ← Arguments.entries
    [retriesField.rule, methodsField.rule, seriesField.rule, statusesField.rule,
      retryOnErrorField.rule, backoffField.rule] args
  .ok {
    retries := ← retriesField.take found
    methods := ← methodsField.take found
    series := ← seriesField.take found
    statuses := ← statusesField.take found
    retryOnError := ← retryOnErrorField.take found
    backoff := ← backoffField.take found }

end RetrySpec

namespace RateLimitSpec

def replenishField : Field Nat :=
  { name := "replenish_rate", read := Decoder.flexibleNatural "u32" Decoder.max32 }

def burstField : Field Nat :=
  { name := "burst_capacity", read := Decoder.flexibleNatural "u32" Decoder.max32 }

def resolverField : Field KeyResolverSpec :=
  { name := "key_resolver"
    read := KeyResolverSpec.ofJson .held
    fallback := some .remoteAddress }

def denyField : Field Bool :=
  { name := "deny_empty_key", read := Decoder.flexibleFlag, fallback := some true }

/-- Reads the arguments of a rate limiting filter. -/
def ofArgs (args : Fields) : Except DecodeError RateLimitSpec := do
  let found ← Arguments.entries
    [replenishField.rule, burstField.rule, resolverField.rule, denyField.rule] args
  .ok {
    replenishRate := ← replenishField.take found
    burstCapacity := ← burstField.take found
    keyResolver := ← resolverField.take found
    denyEmptyKey := ← denyField.take found }

end RateLimitSpec

namespace FilterSpec

open Arguments

/-- The header names that a filter removes instead of the usual ones. -/
def headersField : Field (Option (List String)) :=
  { name := "headers", read := Decoder.optional Decoder.oneOrMany, fallback := some none }

/-- The secure headers that a filter leaves out. -/
def disableField : Field (List String) :=
  { name := "disable", read := Decoder.oneOrMany, fallback := some [] }

/-- Reads a name and a value. -/
def nameAndValue : Fields → Except DecodeError (String × String) :=
  two (textField "name") (textField "value")

/-- Reads the named arguments of a filter. -/
def ofArgs (kind : FilterKind) (args : Fields) : Except DecodeError FilterSpec :=
  match kind with
  | .addRequestHeader => (nameAndValue args).map fun (n, v) => .addRequestHeader n v
  | .addRequestParameter => (nameAndValue args).map fun (n, v) => .addRequestParameter n v
  | .addResponseHeader => (nameAndValue args).map fun (n, v) => .addResponseHeader n v
  | .setResponseHeader => (nameAndValue args).map fun (n, v) => .setResponseHeader n v
  | .removeRequestHeader => (one (textField "name") args).map .removeRequestHeader
  | .removeResponseHeader => (one (textField "name") args).map .removeResponseHeader
  | .removeNonProxyHeaders => (one headersField args).map .removeNonProxyHeaders
  | .secureHeaders => (one disableField args).map .secureHeaders
  | .prefixPath => (one (textField "prefix") args).map .prefixPath
  | .rewritePath => (two (textField "regexp") (textField "replacement") args).map fun (p, r) =>
    .rewritePath p r
  | .setPath => (one (textField "template") args).map .setPath
  | .setStatus => (one (scalarField "status") args).map .setStatus
  | .redirectTo => (two (scalarField "status") (textField "url") args).map fun (s, u) =>
    .redirectTo s u
  | .retry => (RetrySpec.ofArgs args).map .retry
  | .rateLimiter => (RateLimitSpec.ofArgs args).map .rateLimiter

/-- Reads the arguments of a defined filter. -/
def ofDefinition (d : FilterDefinition) : Except DefinitionError FilterSpec :=
  match FilterKind.ofName? d.name with
  | none => .error (.unknownFilter d.name)
  | some kind => match kind.layout.nameArguments d.args with
    | .error fault => .error (.invalidArguments d.name fault)
    | .ok args => match ofArgs kind args with
      | .error cause => .error (.invalidArguments d.name (.shape cause))
      | .ok spec => .ok spec

end FilterSpec

end HttpGateway
