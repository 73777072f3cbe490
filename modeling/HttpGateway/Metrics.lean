import HttpGateway.Dictionary
import HttpGateway.Http.Method
import HttpGateway.Http.Status
import HttpGateway.Text.Number
import HttpGateway.Text.Pieces

/-!
# Metrics

What the gateway counts: answered requests, requests refused by a rate limit, further attempts, and
rebuilds of the route list.
-/

namespace HttpGateway

/-- One thing counted. -/
inductive Metric where
  | request (method : Method) (status : Status) (route : String)
  | duration (route : String)
  | rateLimited (route : String)
  | retry (route : String) (attempt : Nat)
  | routeRefresh (succeeded : Bool)
  deriving DecidableEq, Repr

namespace Metric

/-- A name with labels. -/
def labelled (name : String) (labels : List (String × String)) : String :=
  name ++ "\x7b" ++ joinTexts "," (labels.map fun (k, v) => k ++ "=" ++ v) ++ "\x7d"

/-- The name under which it is counted, with its labels in alphabetical order. -/
def text : Metric → String
  | .request m s route => labelled "gateway_requests_total"
      [("method", m.name), ("route", route), ("status", Text.decimal s.code)]
  | .duration route => labelled "gateway_request_duration_seconds" [("route", route)]
  | .rateLimited route => labelled "gateway_rate_limited_total" [("route", route)]
  | .retry route attempt => labelled "gateway_upstream_retries_total"
      [("attempt", Text.decimal attempt), ("route", route)]
  | .routeRefresh succeeded => labelled "gateway_route_refreshes_total"
      [("outcome", if succeeded then "success" else "failure")]

/-- How often each name was counted. -/
def totals (recorded : List Metric) : Dictionary Nat :=
  recorded.foldl (fun d m => Dictionary.insert d m.text ((Dictionary.get? d m.text).getD 0 + 1)) []

end Metric

end HttpGateway
