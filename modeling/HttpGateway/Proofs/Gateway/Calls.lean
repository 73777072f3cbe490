import HttpGateway.Proofs.Filter.Calls
import HttpGateway.Proofs.Gateway.Outcome
import Mathlib

/-!
# Calls of the backend by a gateway

While it answers one request, a gateway calls the backend no more often than the policies allow that
try the request again, and never twice with a request whose repetition may have another effect.
-/

namespace HttpGateway

variable {τ : Type}

/-- A request that takes a route makes the calls of the chain, and one that takes none makes none. -/
theorem Handler.exists_calls_handle [TokenArithmetic τ] (globals : List OrderedFilter)
    (routes : Except GatewayError (List Route)) (now : Timestamp) (s : Scene τ) :
    ∃ calls, (handle globals routes now s).2.calls = s.world.calls + calls ∧
      match routes.map fun list => Route.select list s.exchange.request now with
      | .ok (some (route, _)) =>
        calls ≤ maxCalls s.exchange.request.method (OrderedFilter.merge globals route.filters)
      | _ => calls = 0 := by
  cases routes with
  | error e => exact ⟨0, rfl, rfl⟩
  | ok list =>
      simp only [Except.map]
      cases hselect : Route.select list s.exchange.request now with
      | none =>
          simp only [handle, lookup, hselect]
          exact ⟨0, rfl, rfl⟩
      | some found =>
          obtain ⟨route, captured⟩ := found
          obtain ⟨-, calls, hle, hcalls⟩ := callsAtMost_runChain s.exchange.request.method
            (OrderedFilter.merge globals route.filters) (enterRoute route captured s) rfl
          obtain ⟨metrics, hworld⟩ := exists_world_handle globals hselect
          exact ⟨calls, (congrArg World.calls hworld).trans hcalls, hle⟩

namespace Gateway

variable {g : Gateway} {d : RouteDefinition} {route : Route}

theorem Serves.isMade_or_isOwn (h : g.Serves) (hroute : g.compiler.compile d = .ok route) :
    ∀ f ∈ g.chain route, f.filter.IsMade ∨ f.filter.isOwn = true :=
  fun f hf => (h.makes_or_isOwn hroute f hf).imp_left FilterSpec.Makes.isMade

/-- Wherever its filters have been put, the chain of a route sends a request on at one place. -/
theorem Serves.countP_isForward (h : g.Serves) (hroute : g.compiler.compile d = .ok route) :
    (g.chain route).countP (fun f => f.filter.isForward) = 1 := by
  obtain ⟨bodyLimit, hglobals⟩ := h.globals
  have hown : (globalFilters bodyLimit).countP (fun f => f.filter.isForward) = 1 := rfl
  have hmade : route.filters.countP (fun f => f.filter.isForward) = 0 := by
    refine List.countP_eq_zero.mpr fun f hf hforward => ?_
    have hf := RouteCompiler.isMade_of_compile hroute f hf
    rcases f with ⟨order, filter⟩
    cases filter with
    | forward bodyLimit => exact hf
    | _ => cases hforward
  rw [chain, (OrderedFilter.merge_perm ..).countP_eq, List.countP_append, hglobals, hown, hmade]

theorem Serves.maxCalls_le (h : g.Serves) (hroute : g.compiler.compile d = .ok route) (m : Method) :
    maxCalls m (g.chain route) ≤ attemptProduct m (g.chain route) := by
  have hproduct := HttpGateway.maxCalls_le (h.isMade_or_isOwn hroute) m
  rwa [h.countP_isForward hroute, Nat.one_mul] at hproduct

/-- The product of the attempts that the policies on the chain of a request allow which apply to its
method, if the request takes a route. -/
def callLimit (g : Gateway) (now : Timestamp) (s : Scene τ) : Nat :=
  match (g.lookup now s.exchange.request s.world).1 with
  | .ok (some (route, _)) => attemptProduct s.exchange.request.method (g.chain route)
  | _ => 0

/-- While it answers a request, a gateway calls the backend at most as often as the attempts of the
policies on the chain multiply to, and at most once if the method is not idempotent. -/
theorem calls_handle_le [TokenArithmetic τ] (hg : g.Reachable) (now : Timestamp) (s : Scene τ) :
    ∃ calls, (g.handle now s).2.2.calls = s.world.calls + calls ∧ calls ≤ g.callLimit now s ∧
      (s.exchange.request.method.isIdempotent = false → calls ≤ 1) := by
  have hserves := hg.serves
  have hcompiled := (hserves.routes s.world).2
  have hread : (g.routes s.world).2.2.calls = s.world.calls := by
    simp only [routes]
    split <;> rfl
  obtain ⟨calls, hhandle, hbound⟩ := Handler.exists_calls_handle g.globals (g.routes s.world).1 now
    { s with world := (g.routes s.world).2.2 }
  refine ⟨calls, hhandle.trans (by rw [hread]), ?_⟩
  simp only [callLimit, lookup]
  cases hroutes : (g.routes s.world).1 with
  | error e =>
      rw [hroutes] at hbound
      obtain rfl : calls = 0 := hbound
      exact ⟨Nat.le_refl _, fun _ => Nat.zero_le _⟩
  | ok list =>
      rw [hroutes] at hbound
      simp only [Except.map] at hbound ⊢
      cases hselect : Route.select list s.exchange.request now with
      | none =>
          rw [hselect] at hbound
          obtain rfl : calls = 0 := hbound
          exact ⟨Nat.le_refl _, fun _ => Nat.zero_le _⟩
      | some found =>
          obtain ⟨route, captured⟩ := found
          rw [hselect] at hbound
          obtain ⟨d, hd⟩ := hcompiled list hroutes route (Route.mem_of_select hselect)
          have hle : calls ≤ attemptProduct s.exchange.request.method (g.chain route) :=
            Nat.le_trans hbound (hserves.maxCalls_le hd _)
          refine ⟨hle, fun hm => ?_⟩
          rw [attemptProduct_of_not_isIdempotent (hserves.isMade_or_isOwn hd) hm] at hle
          exact hle

/-- A route to `http://b` on which requests are tried twice, and each time three times. -/
def retryingDefinition : RouteDefinition where
  id := "r"
  uri := "http://b"
  filters := [⟨"Retry", [("retries", .int 2)], none⟩, ⟨"Retry", [("retries", .int 3)], none⟩]

def retryingRoute : Route where
  id := "r"
  uri := ⟨some "http", some "b", ⟨"", none⟩⟩
  filters := [⟨1, .retry { maxAttempts := 2 } 1024⟩, ⟨2, .retry { maxAttempts := 3 } 1024⟩]

def retrying : Gateway := .make [retryingDefinition] [] 1024 []

/-- A request for `/a`, with a backend that is always unavailable. -/
def refused (m : Method) : Scene Rat where
  exchange := { request := { method := m, uri := ⟨none, none, ⟨"/a", none⟩⟩ } }
  world :=
    { backend := fun _ => { answer := .ok { status := Status.serviceUnavailable } }
      limiter := .empty }

/-- A `GET` request is sent as often as can be, and a `POST` request after it once at most. -/
theorem calls_handle_le_of_refused :
    (retrying.handle ⟨0, 0, 0⟩ (refused Method.get)).2.2.calls = 6 ∧
      retrying.callLimit ⟨0, 0, 0⟩ (refused Method.get) = 6 ∧
      ((retrying.handle ⟨0, 0, 0⟩ (refused Method.get)).2.1.handle ⟨0, 0, 0⟩
        (refused Method.post)).2.2.calls ≤ 1 := by
  have hcompile : RouteCompiler.compile ⟨1024, []⟩ retryingDefinition = .ok retryingRoute :=
    RouteCompiler.compile_eq_ok_iff.mpr ⟨by decide, by cbv, rfl, by cbv, rfl, rfl⟩
  have hmerge : OrderedFilter.merge (globalFilters 1024) retryingRoute.filters =
      [⟨-1, .commit⟩, ⟨1, .retry { maxAttempts := 2 } 1024⟩,
        ⟨2, .retry { maxAttempts := 3 } 1024⟩, ⟨10000, .resolveUrl⟩,
        ⟨2147483647, .forward 1024⟩] := by cbv
  have hlist : RouteCompiler.compileAll ⟨1024, []⟩ [retryingDefinition] = [retryingRoute] := by
    simp [RouteCompiler.compileAll, hcompile, Except.toOption, Route.sort]
  obtain ⟨hroutes, hread⟩ := routes_of_fresh (g := retrying) rfl rfl (refused Method.get).world
  have hroutes : (retrying.routes (refused Method.get).world).1 = .ok [retryingRoute] :=
    hroutes.trans (congrArg Except.ok hlist)
  let s : Scene Rat := (refused Method.get).mapWorld fun w => w.count (.routeRefresh true)
  have htaken : Route.select [retryingRoute] s.exchange.request ⟨0, 0, 0⟩ =
      some (retryingRoute, none) := rfl
  have hhandle : (retrying.handle ⟨0, 0, 0⟩ (refused Method.get)).2.2 =
      (Handler.handle (globalFilters 1024) (.ok [retryingRoute]) ⟨0, 0, 0⟩ s).2 := by
    rw [← hroutes]
    exact congrArg (fun world => (Handler.handle (globalFilters 1024) _ ⟨0, 0, 0⟩
      { refused Method.get with world }).2) hread
  refine ⟨?_, ?_, ?_⟩
  · rw [hhandle, Handler.handle_of_select htaken, Handler.passRoute, hmerge]
    decide +kernel
  · have hlimit : retrying.callLimit ⟨0, 0, 0⟩ (refused Method.get) = attemptProduct Method.get
        (OrderedFilter.merge (globalFilters 1024) retryingRoute.filters) := by
      simp only [callLimit, lookup, hroutes, Except.map]
      rfl
    rw [hlimit, hmerge]
    decide +kernel
  · have hstart : retrying.Reachable := .make ..
    have hafter := hstart.handle ⟨0, 0, 0⟩ (refused Method.get)
    obtain ⟨calls, hcalls, -, honce⟩ := calls_handle_le hafter ⟨0, 0, 0⟩ (refused Method.post)
    have hnone : (refused Method.post).world.calls = 0 := rfl
    have hpost := honce (by decide)
    omega

end Gateway

end HttpGateway
