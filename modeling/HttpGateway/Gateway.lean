import HttpGateway.Handler
import HttpGateway.Route.Cache
import HttpGateway.Route.Repository

/-!
# The gateway

The gateway puts the parts together: its routes come from the configuration, from the repository and
from any further sources, through a cache that hears of changes to the repository; its chain commits
responses, finds the address of the backend and sends requests on.
-/

namespace HttpGateway

variable {τ : Type}

/-- A gateway. -/
structure Gateway where
  compiler : RouteCompiler
  configured : List RouteDefinition
  repository : RouteRepository
  /-- The number under which the cache hears of changes to the repository. -/
  listener : Nat
  sources : List RouteSource
  cache : Cache (List Route) := {}
  globals : List OrderedFilter
  deriving Repr

namespace Gateway

/-- The filters that every request passes. -/
def globalFilters (bodyLimit : Nat) : List OrderedFilter :=
  [⟨OrderedFilter.commitOrder, .commit⟩, ⟨OrderedFilter.resolveOrder, .resolveUrl⟩,
    ⟨OrderedFilter.forwardOrder, .forward bodyLimit⟩]

/-- Makes a gateway from configured routes, filters for all of them, the limit on bodies that
filters read, and further sources. -/
def make (routes : List RouteDefinition) (defaultFilters : List FilterDefinition) (bodyLimit : Nat)
    (sources : List RouteSource) : Gateway :=
  let (listener, repository) := ({} : RouteRepository).subscribe
  { compiler := ⟨bodyLimit, defaultFilters⟩
    configured := routes
    repository, listener, sources
    globals := globalFilters bodyLimit }

/-- All sources of routes, in the order in which they are read. -/
def allSources (g : Gateway) : List RouteSource :=
  { definitions := g.configured } :: g.repository.toSource :: g.sources

/-- The routes that the sources give at present. -/
def compiledRoutes (g : Gateway) : Except GatewayError (List Route) :=
  g.compiler.locate g.allSources

/-- The routes, through the cache. -/
def routes (g : Gateway) (w : World τ) : Except GatewayError (List Route) × Gateway × World τ :=
  let f := g.cache.fetch fun c => (g.compiledRoutes, c)
  let w := match f.refreshed with
    | some succeeded => w.count (.routeRefresh succeeded)
    | none => w
  (f.result, { g with cache := f.cache }, w)

/-- Answers a request. -/
def handle [TokenArithmetic τ] (g : Gateway) (now : Timestamp) (s : Scene τ) :
    Option Reply × Gateway × World τ :=
  let (routes, g, world) := g.routes s.world
  let (reply, world) := Handler.handle g.globals routes now { s with world }
  (reply, g, world)

/-- The route of a request, and what the patterns of the route captured. -/
def lookup (g : Gateway) (now : Timestamp) (r : Request) (w : World τ) :
    Except GatewayError (Option (Route × Option PathMatch)) × Gateway × World τ :=
  let (routes, g, w) := g.routes w
  (routes.map fun list => Route.select list r now, g, w)

/-- The chain that the requests of a route run through. -/
def chain (g : Gateway) (route : Route) : List OrderedFilter :=
  OrderedFilter.merge g.globals route.filters

/-- Has the routes read anew when they are next needed. -/
def refresh (g : Gateway) : Gateway := { g with cache := g.cache.invalidate }

/-- Takes over the routes of another configuration. -/
def applyRoutes (g : Gateway) (routes : List RouteDefinition) : Gateway :=
  { g with configured := routes }.refresh

/-- Saves a route definition. -/
def save (g : Gateway) (d : RouteDefinition) : Outcome × Gateway :=
  let (outcome, repository) := g.repository.save d
  (outcome, { g with repository })

/-- Deletes a route definition. -/
def delete (g : Gateway) (id : String) : Outcome × Gateway :=
  let (outcome, repository) := g.repository.delete id
  (outcome, { g with repository })

/-- Lets the cache hear of the changes to the repository. -/
def hear (g : Gateway) : Gateway :=
  let (heard, events) := g.repository.events.drainAll g.listener
  { g with
    repository := { g.repository with events }
    cache := g.cache.invalidateTimes heard }

@[simp] theorem definitions_hear (g : Gateway) :
    g.hear.repository.definitions = g.repository.definitions := by
  simp only [hear]

end Gateway

end HttpGateway
