import HttpGateway.Filter.Basic
import HttpGateway.Filter.Spec

/-!
# From definitions to filters

Making the filters that definitions describe. Names, values, patterns and statuses are read here, so
that a filter at work has nothing left that could be malformed.
-/

namespace HttpGateway

namespace RetrySpec

/-- Reads a method that may be tried again. -/
def readMethod (text : String) : Except ArgumentFault Method :=
  match Method.parse? (upperText (trimText text)) with
  | none => .error (.namedMethod text)
  | some m => if m.isIdempotent then .ok m else .error (.notIdempotent m)

/-- Reads a status. -/
def readStatus (code : Nat) : Except ArgumentFault Status :=
  match Status.ofCode? code with
  | some s => .ok s
  | none => .error (.statusCode code)

/-- The methods of a policy: those given, or the usual ones. -/
def readMethods : Option (List String) → Except ArgumentFault (List Method)
  | none => .ok ({} : RetryPolicy).methods
  | some texts => texts.mapM readMethod

/-- Makes the policy. -/
def build (spec : RetrySpec) : Except ArgumentFault RetryPolicy := do
  let usual : RetryPolicy := {}
  if spec.retries = some 0 then .error .noRetries
  let methods ← readMethods spec.methods
  let statuses ← spec.statuses.mapM readStatus
  if spec.backoff.any fun b => b.maxMs < b.firstMs then .error .backoffBounds
  .ok {
    maxAttempts := spec.retries.getD usual.maxAttempts
    methods := methods
    series := spec.series.getD usual.series
    statuses := statuses
    retryOnError := spec.retryOnError.getD usual.retryOnError
    backoff := spec.backoff }

end RetrySpec

/-- Makes the limit. -/
def RateLimitSpec.build (spec : RateLimitSpec) : Except ArgumentFault RateLimit := do
  if spec.burstCapacity = 0 then .error .noBurst
  let resolver ← spec.keyResolver.build
  .ok ⟨resolver, spec.replenishRate, spec.burstCapacity, spec.denyEmptyKey⟩

namespace FilterSpec

/-- Reads a header name, without regard to blanks around it. -/
def readName (text : String) : Except ArgumentFault HeaderName :=
  match HeaderName.parse? (trimText text) with
  | some n => .ok n
  | none => .error (.namedHeader text)

/-- Reads a header; the value is looked at first. -/
def readHeader (name value : String) : Except ArgumentFault (HeaderName × HeaderValue) :=
  match HeaderValue.parse? value with
  | none => .error (.namedValue value)
  | some v => (readName name).map fun n => (n, v)

/-- The secure headers but for those left out. -/
def secureBut (disable : List String) : List (HeaderName × HeaderValue) :=
  Headers.secureDefaults.filter fun (n, _) =>
    !disable.any fun d => Text.sameIgnoringCase d.toList n.text.toList

/-- Checks that a name is that of a secure header. -/
def checkSecure (text : String) : Except ArgumentFault Unit :=
  if Headers.secureDefaults.any fun (n, _) => Text.sameIgnoringCase n.text.toList text.toList then
    .ok ()
  else .error (.notSecureHeader text)

/-- A text with a dollar sign in place of each dollar sign and backslash. -/
def plainDollars : List Char → List Char
  | '$' :: '\\' :: rest => '$' :: plainDollars rest
  | c :: rest => c :: plainDollars rest
  | [] => []

/-- A text without the slashes at its end. -/
def withoutSlashes (s : List Char) : List Char := (s.reverse.dropWhile (· = '/')).reverse

/-- Reads a status. -/
def readStatus (text : String) : Except ArgumentFault Status :=
  match Status.parse text with
  | .ok s => .ok s
  | .error cause => .error (.status cause)

/-- Makes the filter. -/
def build (bodyLimit : Nat) : FilterSpec → Except ArgumentFault Filter
  | .addRequestHeader name value => do
    let (n, v) ← readHeader name value
    .ok (.request (.addHeader n v))
  | .addRequestParameter name value =>
    if name = "" then .error .emptyParameter else .ok (.request (.addParameter (name, value)))
  | .addResponseHeader name value => do
    let (n, v) ← readHeader name value
    .ok (.response (.addHeader n v))
  | .setResponseHeader name value => do
    let (n, v) ← readHeader name value
    .ok (.response (.setHeader n v))
  | .removeRequestHeader name => (readName name).map fun n => .request (.removeHeader n)
  | .removeResponseHeader name => (readName name).map fun n => .response (.removeHeader n)
  | .removeNonProxyHeaders none => .ok (.request .stripHopByHop)
  | .removeNonProxyHeaders (some names) =>
    (names.mapM readName).map fun ns => .request (.removeHeaders ns)
  | .secureHeaders disable => do
    disable.forM checkSecure
    .ok (.response (.setSecureHeaders (secureBut disable)))
  | .prefixPath start =>
    if start.toList.head? = some '/' then
      .ok (.request (.prefixPath (String.ofList (withoutSlashes start.toList))))
    else .error (.prefixWithoutSlash start)
  | .rewritePath regexp replacement => match Regex.compile regexp with
    | .error cause => .error (.regex cause)
    | .ok r => .ok (.request (.rewritePath r (String.ofList (plainDollars replacement.toList))))
  | .setPath template => match PathTemplate.parse template with
    | .error cause => .error (.template cause)
    | .ok t => .ok (.request (.setPath t))
  | .setStatus text => (readStatus text).map fun s => .response (.setStatus s)
  | .redirectTo text url => do
    let s ← readStatus text
    if s.series? ≠ some .redirection then .error (.notRedirection s)
    match HeaderValue.parse? url with
    | none => .error .location
    | some v => .ok (.redirect s v)
  | .retry spec => (spec.build).map fun p => .retry p bodyLimit
  | .rateLimiter spec => (spec.build).map .rateLimit

end FilterSpec

namespace Filter

/-- Makes the filter that a definition describes. -/
def ofDefinition (bodyLimit : Nat) (d : FilterDefinition) : Except DefinitionError Filter := do
  let spec ← FilterSpec.ofDefinition d
  match spec.build bodyLimit with
  | .ok f => .ok f
  | .error fault => .error (.invalidArguments d.name fault)

end Filter

namespace OrderedFilter

/-- The order of the filter at a position of a list, counted from 1. -/
def orderAt (position : Nat) : Int32 := Int32.ofInt (min position 2147483647)

/-- Makes the filters of a list of definitions, the first of which has the given position. A filter
stands at its position unless it says otherwise. -/
def ofDefinitionsFrom (bodyLimit : Nat) :
    (position : Nat) → List FilterDefinition → Except DefinitionError (List OrderedFilter)
  | _, [] => .ok []
  | position, d :: rest => do
    let filter ← Filter.ofDefinition bodyLimit d
    let others ← ofDefinitionsFrom bodyLimit (position + 1) rest
    .ok (⟨d.order.getD (orderAt position), filter⟩ :: others)

/-- Makes the filters of a list of definitions. -/
def ofDefinitions (bodyLimit : Nat) (ds : List FilterDefinition) :
    Except DefinitionError (List OrderedFilter) :=
  ofDefinitionsFrom bodyLimit 1 ds

end OrderedFilter

end HttpGateway
