import HttpGateway.Filter.Edit
import HttpGateway.RateLimit.KeyResolver
import HttpGateway.Retry.Policy

/-!
# Filters

The filters of the gateway. Each is given the rest of the chain as something to run, and decides
what to do before and after, and whether and how often to run it.
-/

namespace HttpGateway

/-- A limit on the rate of requests: how clients are told apart, what their buckets gain and hold,
and whether a request without a key is refused. -/
structure RateLimit where
  resolver : KeyResolver
  rate : Nat
  burst : Nat
  denyWithoutKey : Bool
  deriving DecidableEq, Repr

/-- A filter. -/
inductive Filter where
  | request (edit : RequestEdit)
  | response (edit : ResponseEdit)
  | redirect (status : Status) (location : HeaderValue)
  | retry (policy : RetryPolicy) (bodyLimit : Nat)
  | rateLimit (limit : RateLimit)
  | commit
  | resolveUrl
  | forward (bodyLimit : Nat)
  deriving Repr

/-- A filter and its place in the chain. -/
structure OrderedFilter where
  order : Int32
  filter : Filter
  deriving Repr

namespace Filter

/-- The name of a filter. -/
def name : Filter → String
  | .request edit => edit.name
  | .response edit => edit.name
  | .redirect _ _ => "RedirectTo"
  | .retry _ _ => "Retry"
  | .rateLimit _ => "RequestRateLimiter"
  | .commit => "ResponseCommit"
  | .resolveUrl => "RouteToRequestUrl"
  | .forward _ => "ProxyForwarding"

end Filter

namespace OrderedFilter

/-- The name of the filter. -/
def name (f : OrderedFilter) : String := f.filter.name

/-- The place of the filter that commits responses. -/
def commitOrder : Int32 := -1

/-- The place of the filter that finds the address of the backend. -/
def resolveOrder : Int32 := 10000

/-- The place of the filter that sends requests on. -/
def forwardOrder : Int32 := 2147483647

/-- All filters of a chain in their order. Filters with the same order keep the order in which they
are listed, those of the gateway before those of the route. -/
def merge (globals route : List OrderedFilter) : List OrderedFilter :=
  (globals ++ route).mergeSort fun a b => a.order ≤ b.order

end OrderedFilter

end HttpGateway
