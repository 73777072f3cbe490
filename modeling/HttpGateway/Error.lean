import HttpGateway.Definition.Error
import HttpGateway.Time.Duration

/-!
# Failures while handling a request

Why a request could not be served, the status the client gets for it, and whether the fault lies
with the backend.
-/

namespace HttpGateway

/-- What an exchange was expected to hold and did not. -/
inductive MissingState where
  | requestBody
  | requestUrl
  | route
  | templateVariable
  deriving DecidableEq, Repr

/-- The wording of each cause. -/
def MissingState.message : MissingState → String
  | .requestBody => "request body already sent"
  | .requestUrl => "request url"
  | .route => "route"
  | .templateVariable => "path template variable"

/-- Why a request could not be served. -/
inductive GatewayError where
  | definition (cause : DefinitionError)
  | upstream (url reason : String)
  | upstreamTimeout (url : String) (timeout : Duration)
  | missingState (what : MissingState)
  | bodyTooLarge (limit : Nat)
  | bodyRead (reason : String)
  | noInstance (service : String)
  | routeSource (reason : String)
  | routeNotFound (id : String)
  | rateLimiter (reason : String)
  | invalidRequest (reason : String)
  deriving Repr

namespace GatewayError

/-- The wording of each cause. -/
def message : GatewayError → String
  | .definition cause => "configuration error: " ++ cause.message
  | .upstream url reason => "upstream request to " ++ url ++ " failed: " ++ reason
  | .upstreamTimeout url timeout =>
    "upstream request to " ++ url ++ " timed out after " ++ timeout.render
  | .missingState what => "missing exchange state: " ++ what.message
  | .bodyTooLarge limit => "request body exceeds " ++ Text.decimal limit ++ " bytes"
  | .bodyRead reason => "failed to read request body: " ++ reason
  | .noInstance service => "no instance available for service " ++ service
  | .routeSource reason => "route source failed: " ++ reason
  | .routeNotFound id => "route " ++ id ++ " not found"
  | .rateLimiter reason => "rate limiter failed: " ++ reason
  | .invalidRequest reason => "invalid request: " ++ reason

/-- The name of the kind of failure. -/
def kind : GatewayError → String
  | .definition _ => "Definition"
  | .upstream _ _ => "Upstream"
  | .upstreamTimeout _ _ => "UpstreamTimeout"
  | .missingState _ => "MissingState"
  | .bodyTooLarge _ => "BodyTooLarge"
  | .bodyRead _ => "BodyRead"
  | .noInstance _ => "NoInstance"
  | .routeSource _ => "RouteSource"
  | .routeNotFound _ => "RouteNotFound"
  | .rateLimiter _ => "RateLimiter"
  | .invalidRequest _ => "InvalidRequest"

/-- The status of the answer to the client. -/
def status : GatewayError → Status
  | .definition _ => .internalServerError
  | .upstream _ _ => .badGateway
  | .upstreamTimeout _ _ => .gatewayTimeout
  | .missingState _ => .internalServerError
  | .bodyTooLarge _ => .payloadTooLarge
  | .bodyRead _ => .badRequest
  | .noInstance _ => .serviceUnavailable
  | .routeSource _ => .serviceUnavailable
  | .routeNotFound _ => .notFound
  | .rateLimiter _ => .internalServerError
  | .invalidRequest _ => .badRequest

/-- Whether the backend is at fault: it could not be reached, or did not answer in time. -/
def isUpstream : GatewayError → Bool
  | .upstream _ _ => true
  | .upstreamTimeout _ _ => true
  | _ => false

end GatewayError

/-- How a part of the work on an exchange ends. -/
abbrev Outcome := Except GatewayError Unit

end HttpGateway
