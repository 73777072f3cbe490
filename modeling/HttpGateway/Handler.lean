import HttpGateway.Filter.Chain
import HttpGateway.Route.Source

/-!
# Handling requests

From a request to the answer of the gateway: the route is looked up, its filters run together with
those of the gateway, and the response is committed if no filter has done so.
-/

namespace HttpGateway

variable {τ : Type}

/-- An answer that consists of a status and its reason phrase. -/
def Reply.ofStatus (s : Status) : Reply := { status := s, body := Body.ofText (s.reason?.getD "") }

namespace Handler

/-- The route of requests that have none, as it is counted. -/
def noRoute : String := "none"

/-- Counts an answer. -/
def record (method : Method) (status : Status) (route : String) (w : World τ) : World τ :=
  (w.count (.request method status route)).count (.duration route)

/-- Answers a request that takes no route. -/
def answerPlainly (method : Method) (status : Status) (w : World τ) : Option Reply × World τ :=
  (some (Reply.ofStatus status), record method status noRoute w)

/-- Commits the response if the chain has left that undone. -/
def finish (outcome : Outcome) (x : Exchange) : Exchange :=
  if x.response.isCommitted then x
  else match outcome with
    | .ok () =>
      let (body, x) := x.takeUpstreamBody
      x.mapResponse fun r => r.commit (body.getD Body.empty)
    | .error e => x.mapResponse fun r => r.commitError e

/-- Runs the chain of a route on an exchange, and commits the response. -/
def runRoute (chain : Stage τ) (route : Route) (s : Scene τ) : Scene τ :=
  let (outcome, s) := chain (s.mapExchange fun x => { x with route := some route.toRef })
  s.mapExchange (finish outcome)

/-- Looks up the route of an exchange, given the routes or the reason why there are none to be had.
An exchange that has a route knows what the patterns of the route captured. -/
def lookup (routes : Except GatewayError (List Route)) (now : Timestamp) (x : Exchange) :
    Except GatewayError (Option Route) × Exchange :=
  match routes with
  | .error e => (.error e, x)
  | .ok routes => match Route.select routes x.request now with
    | none => (.ok none, x)
    | some (route, found) => (.ok (some route), { x with pathMatch := found })

/-- Answers a request, given the routes or the reason why there are none to be had. An exchange that
has been given up is neither answered nor counted. -/
def handle [TokenArithmetic τ] (globals : List OrderedFilter)
    (routes : Except GatewayError (List Route)) (now : Timestamp) (s : Scene τ) :
    Option Reply × World τ :=
  let method := s.exchange.request.method
  match lookup routes now s.exchange with
  | (.error e, _) => answerPlainly method e.status s.world
  | (.ok none, _) => answerPlainly method Status.notFound s.world
  | (.ok (some route), exchange) =>
    let chain := OrderedFilter.merge globals route.filters
    let s := runRoute (runChain chain) route { s with exchange }
    if s.exchange.abandoned then (none, s.world)
    else
      let reply := s.exchange.response.toReply
      (some reply, record method reply.status route.id s.world)

end Handler

end HttpGateway
