import HttpGateway.Exchange.Request
import HttpGateway.Exchange.Response
import HttpGateway.Pattern.Segment

/-!
# Exchanges

All that belongs to one request while the gateway works on it: the request and the response, the
route that was chosen, the address the request goes to, and what the backend answered.
-/

namespace HttpGateway

/-- The answer of a backend. Its body is gone once it has been handed to the client. -/
structure Captured where
  status : Status
  headers : Headers
  body : Option Body
  deriving DecidableEq, Repr

/-- What an exchange knows of its route. -/
structure RouteRef where
  id : String
  uri : Uri
  deriving DecidableEq, Repr

/-- One request and all that belongs to it. -/
structure Exchange where
  request : Request
  response : Response := {}
  requestId : String := ""
  route : Option RouteRef := none
  requestUrl : Option Uri := none
  originalUrls : List Uri := []
  pathMatch : Option PathMatch := none
  upstream : Option Captured := none
  /-- Whether the work on it has been given up, so that no answer is made of it. -/
  abandoned : Bool := false
  deriving Repr

namespace Exchange

/-- The exchange of a request that comes in. Its id is that of a readable request id header, or the
one made for it. -/
def ofRequest (r : Request) (made : String) : Exchange :=
  { request := r, requestId := (r.headers.text? HeaderName.requestId).getD made }

/-- The id of the route. -/
def routeId? (x : Exchange) : Option String := x.route.map RouteRef.id

/-- The id of the route, or the word for having none. -/
def routeLabel (x : Exchange) : String := x.routeId?.getD "none"

/-- Changes the request. -/
def mapRequest (x : Exchange) (edit : Request → Request) : Exchange :=
  { x with request := edit x.request }

/-- Changes the headers of the request. -/
def mapRequestHeaders (x : Exchange) (edit : Headers → Headers) : Exchange :=
  x.mapRequest fun r => { r with headers := edit r.headers }

/-- Changes the response. -/
def mapResponse (x : Exchange) (edit : Response → Response) : Exchange :=
  { x with response := edit x.response }

/-- Keeps the present URI of the request, unless the same one has been kept already. -/
def recordOriginalUrl (x : Exchange) : Exchange :=
  if x.originalUrls.any fun u => u.same x.request.uri then x
  else { x with originalUrls := x.originalUrls ++ [x.request.uri] }

/-- Takes over the answer of the backend. Its headers are added to those of the response. -/
def capture (x : Exchange) (reply : Reply) : Exchange :=
  { x with
    response :=
      (x.response.setStatus reply.status).editHeaders fun h => h.appendAll reply.headers
    upstream := some ⟨reply.status, reply.headers, some reply.body⟩ }

/-- Hands out the body of the backend's answer. -/
def takeUpstreamBody (x : Exchange) : Option Body × Exchange :=
  match x.upstream with
  | none => (none, x)
  | some u => (u.body, { x with upstream := some { u with body := none } })

/-- Forgets the answer of the backend. -/
def clearUpstream (x : Exchange) : Exchange := { x with upstream := none }

/-- Gives up the work on the exchange. -/
def abandon (x : Exchange) : Exchange := { x with abandoned := true }

end Exchange

end HttpGateway
