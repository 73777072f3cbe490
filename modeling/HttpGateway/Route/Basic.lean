import HttpGateway.Definition.Basic
import HttpGateway.Filter.Compile
import HttpGateway.Predicate.Compile
import HttpGateway.Uri.Parser

/-!
# Routes

A route in working order: where its requests go, which requests take it, and the filters they pass.
Routes are compiled from definitions, and a request takes the first route whose conditions it meets.
-/

namespace HttpGateway

/-- A route. -/
structure Route where
  id : String
  uri : Uri
  order : Int32 := 0
  predicates : List Predicate := []
  filters : List OrderedFilter := []
  deriving Repr

/-- What the compilation of routes depends on: the limit on bodies that filters read, and the
filters that come before those of every route. -/
structure RouteCompiler where
  bodyLimit : Nat
  defaultFilters : List FilterDefinition := []
  deriving Repr

/-- Reads the address of a route, which must have a scheme and a host. -/
def parseRouteUri (text : String) : Except DefinitionError Uri :=
  match Uri.parse (trimText text) with
  | .error cause => .error (.invalidUri text (.malformed cause))
  | .ok uri =>
    if uri.scheme.isNone then .error (.invalidUri text .missingScheme)
    else if uri.authority.isNone then .error (.invalidUri text .missingHost)
    else .ok uri

/-- An id is missing if it is blank. -/
def isBlankId (id : String) : Bool := trimText id = ""

namespace RouteCompiler

/-- Compiles a definition that has an id. -/
def build (c : RouteCompiler) (d : RouteDefinition) : Except DefinitionError Route := do
  let uri ← parseRouteUri d.uri
  let predicates ← Predicate.ofDefinitions d.predicates
  let filters ← OrderedFilter.ofDefinitions c.bodyLimit (c.defaultFilters ++ d.filters)
  .ok { id := d.id, uri, order := d.order, predicates, filters }

/-- Compiles a definition. -/
def compile (c : RouteCompiler) (d : RouteDefinition) : Except DefinitionError Route :=
  if isBlankId d.id then .error .missingId
  else match c.build d with
    | .ok route => .ok route
    | .error cause => .error (.inRoute d.id cause)

end RouteCompiler

namespace Route

/-- Routes by their order; routes of the same order stay as they are. -/
def sort (routes : List Route) : List Route := routes.mergeSort fun a b => a.order ≤ b.order

/-- Checks a request against the conditions of a route. -/
def check (route : Route) (r : Request) (now : Timestamp) : Bool × Option PathMatch :=
  let (holds, ctx) := Predicate.checkAll route.predicates r { now }
  (holds, ctx.pathMatch)

/-- The first route that a request may take, and what its patterns captured. -/
def select (routes : List Route) (r : Request) (now : Timestamp) :
    Option (Route × Option PathMatch) :=
  routes.findSome? fun route =>
    let (holds, found) := route.check r now
    if holds then some (route, found) else none

theorem mem_of_select {routes : List Route} {r : Request} {now : Timestamp} {route : Route}
    {captured : Option PathMatch} (h : select routes r now = some (route, captured)) :
    route ∈ routes := by
  obtain ⟨found, hfound, h⟩ := List.exists_of_findSome?_eq_some h
  dsimp only at h
  split at h <;> cases h
  exact hfound

/-- What an exchange has to know of the route. -/
def toRef (route : Route) : RouteRef := ⟨route.id, route.uri⟩

end Route

end HttpGateway
