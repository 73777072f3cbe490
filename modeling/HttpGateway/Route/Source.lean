import HttpGateway.Error
import HttpGateway.Route.Basic

/-!
# Sources of routes

Where route definitions come from, how several sources are read as one, and how the routes of
several lists are put together.
-/

namespace HttpGateway

/-- A source of definitions: those it holds, and the reason why it fails, if it does. -/
structure RouteSource where
  definitions : List RouteDefinition
  failure : Option String := none
  deriving Repr

namespace RouteSource

/-- Reads a source. -/
def read (s : RouteSource) : Except GatewayError (List RouteDefinition) :=
  match s.failure with
  | some reason => .error (.routeSource reason)
  | none => .ok s.definitions

/-- Reads several sources one after the other, up to the first that fails. -/
def readAll : List RouteSource → Except GatewayError (List RouteDefinition)
  | [] => .ok []
  | s :: rest => do
    let definitions ← s.read
    .ok (definitions ++ (← readAll rest))

end RouteSource

namespace RouteCompiler

/-- The routes of all definitions that can be compiled, by their order. The others are left out. -/
def compileAll (c : RouteCompiler) (definitions : List RouteDefinition) : List Route :=
  Route.sort (definitions.filterMap fun d => (c.compile d).toOption)

/-- The routes of several sources. -/
def locate (c : RouteCompiler) (sources : List RouteSource) : Except GatewayError (List Route) :=
  (RouteSource.readAll sources).map c.compileAll

/-- Two sources that do not fail are read as one list. -/
theorem locate_pair (c : RouteCompiler) (p q : List RouteDefinition) :
    c.locate [{ definitions := p }, { definitions := q }] = .ok (c.compileAll (p ++ q)) := by
  simp [locate, RouteSource.readAll, RouteSource.read, Except.map, bind, Except.bind]

end RouteCompiler

namespace Route

/-- Lists of routes one after the other, up to the first that could not be had. -/
def concat : List (Except GatewayError (List Route)) → Except GatewayError (List Route)
  | [] => .ok []
  | answer :: rest => do
    let routes ← answer
    .ok (routes ++ (← concat rest))

/-- Lists of routes as one list by their order. -/
def combine (answers : List (Except GatewayError (List Route))) :
    Except GatewayError (List Route) :=
  (concat answers).map sort

end Route

end HttpGateway
