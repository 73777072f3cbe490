import HttpGateway.Proofs.Filter.Events
import HttpGateway.Proofs.Gateway.Outcome
import HttpGateway.Proofs.RateLimit.Continuity

/-!
# Limits through the life of a gateway

The filters of a route are made anew whenever the routes are compiled, and all of them ask the same
limiter. What is done with a gateway therefore changes the limiter only by the checks that requests
make, and what a bucket answers depends on the checks of its own name, whatever happens to the routes
in between.
-/

namespace HttpGateway

open RateLimiter

variable {τ : Type}

/-! ### The limits on a route -/

theorem RateLimitSpec.burst_ne_zero_of_build {spec : RateLimitSpec} {limit : RateLimit}
    (h : spec.build = .ok limit) : limit.burst ≠ 0 := by
  unfold build at h
  split at h
  · obtain ⟨_, hfail, -⟩ := bind_eq_ok_iff.mp h
    cases hfail
  next hburst =>
    obtain ⟨resolver, -, h⟩ := bind_eq_ok_iff.mp h
    cases h
    exact hburst

namespace Gateway

variable {g : Gateway} {d : RouteDefinition} {route : Route}

theorem Serves.burst_ne_zero (h : g.Serves) (hroute : g.compiler.compile d = .ok route) :
    ∀ f ∈ g.chain route, ∀ limit, f.filter = .rateLimit limit → limit.burst ≠ 0 := by
  intro f hf limit hlimit
  have hf := h.makes_or_isOwn hroute f hf
  rw [hlimit] at hf
  rcases hf with hmade | hown
  · cases hmade with
    | rateLimit hbuild => exact RateLimitSpec.burst_ne_zero_of_build hbuild
  · cases hown

end Gateway

/-! ### The checks of a request -/

/-- What the limiter is asked while a request is on its route, by its filters and by others. -/
def Handler.checks [TokenArithmetic τ] (globals : List OrderedFilter)
    (routes : Except GatewayError (List Route)) (now : Timestamp) (s : Scene τ) : List Answered :=
  match routes.map fun list => Route.select list s.exchange.request now with
  | .ok (some (route, found)) =>
    Event.checks (chainEvents (OrderedFilter.merge globals route.filters) (enterRoute route found s))
  | _ => []

theorem Handler.run_checks [TokenArithmetic τ] (globals : List OrderedFilter)
    (routes : Except GatewayError (List Route)) (now : Timestamp) (s : Scene τ) :
    Run Answered.Step s.world.limiter (checks globals routes now s)
      (handle globals routes now s).2.limiter := by
  unfold checks
  cases routes with
  | error e => exact .nil
  | ok list =>
      simp only [Except.map]
      cases hselect : Route.select list s.exchange.request now with
      | none =>
          simp only [handle, lookup, hselect]
          exact .nil
      | some found =>
          obtain ⟨route, captured⟩ := found
          -- Neither committing the response nor counting the request asks the limiter.
          obtain ⟨metrics, hworld⟩ := exists_world_handle globals hselect
          rw [hworld]
          exact (happens_runChain _ (enterRoute route captured s)).world.run

namespace Gateway

variable [TokenArithmetic τ] {g : Gateway}

/-- What the limiter is asked while the gateway answers a request. -/
def checks (g : Gateway) (now : Timestamp) (s : Scene τ) : List Answered :=
  let (routes, g, world) := g.routes s.world
  Handler.checks g.globals routes now { s with world }

omit [TokenArithmetic τ] in
theorem limiter_routes (g : Gateway) (w : World τ) : (g.routes w).2.2.limiter = w.limiter := by
  simp only [routes]
  split <;> rfl

theorem run_checks (g : Gateway) (now : Timestamp) (s : Scene τ) :
    Run Answered.Step s.world.limiter (g.checks now s) (g.handle now s).2.2.limiter := by
  have hrun := Handler.run_checks g.globals (g.routes s.world).1 now
    { s with world := (g.routes s.world).2.2 }
  rw [limiter_routes] at hrun
  exact hrun

theorem Serves.burst_ne_zero_of_mem_checks (h : g.Serves) (now : Timestamp) (s : Scene τ) :
    ∀ e ∈ g.checks now s, e.burst ≠ 0 := by
  intro e he
  simp only [checks, Handler.checks] at he
  split at he
  next route found hfound =>
    obtain ⟨list, hlist, hselect⟩ := map_eq_ok_iff.mp hfound
    obtain ⟨d, hd⟩ := (h.routes s.world).2 list hlist route (Route.mem_of_select hselect)
    exact burst_ne_zero_of_mem_chainEvents (h.burst_ne_zero hd) _ e he
  next => cases he

/-- The limit at a place of the chain of a route. -/
def limitAt? (g : Gateway) (d : RouteDefinition) (place : Nat) : Option RateLimit :=
  match (g.compiler.compile d).toOption.bind fun route => (g.chain route)[place]? with
  | some ⟨_, .rateLimit limit⟩ => some limit
  | _ => none

theorem Serves.burst_ne_zero_of_limitAt? (h : g.Serves) {d : RouteDefinition} {place : Nat}
    {limit : RateLimit} (hlimit : g.limitAt? d place = some limit) : limit.burst ≠ 0 := by
  unfold limitAt? at hlimit
  split at hlimit
  next order limit' hfilter =>
    obtain rfl := Option.some.inj hlimit
    obtain ⟨route, hroute, hplace⟩ := Option.bind_eq_some_iff.mp hfilter
    exact h.burst_ne_zero (toOption_eq_some_iff.mp hroute) _
      (List.mem_of_getElem? hplace) _ rfl
  next => cases hlimit

end Gateway

/-! ### The life of a gateway -/

/-- A gateway with the limiter that its filters share. -/
structure Limited (τ : Type) where
  gateway : Gateway
  limiter : RateLimiter τ

/-- What happens to a gateway. -/
inductive Act (τ : Type) where
  /-- A request is answered. -/
  | request (now : Timestamp) (s : Scene τ)
  /-- A request under way comes to the filter at a place of the chain of a route, whether or not the
  gateway still has the route. -/
  | come (d : RouteDefinition) (place : Nat) (s : Scene τ)
  | save (d : RouteDefinition)
  | delete (id : String)
  | applyRoutes (routes : List RouteDefinition)
  | refresh
  /-- The cache hears of the changes to the repository. -/
  | hear
  /-- The routes are asked for, and compiled if the cache has none. -/
  | rebuild
  /-- Routes come into the cache that have been compiled from what has been read earlier. -/
  | comeBack (seen : Nat) (definitions : List RouteDefinition)
  /-- The further sources change. -/
  | turn (sources : List RouteSource)

/-- Whether a request has a part in it. -/
def Act.isTraffic : Act τ → Bool
  | .request _ _ => true
  | .come _ _ _ => true
  | _ => false

namespace Limited

open Answered

variable [TokenArithmetic τ] {a : Limited τ} {act : Act τ}

/-- What the limiter is asked, and what the gateway and the limiter are afterwards. -/
def perform (a : Limited τ) : Act τ → List Answered × Limited τ
  | .request now s =>
    let s := s.withLimiter a.limiter
    let (_, gateway, world) := a.gateway.handle now s
    (a.gateway.checks now s, ⟨gateway, world.limiter⟩)
  | .come d place s => match a.gateway.limitAt? d place with
    | none => ([], a)
    | some limit =>
      let (visit, limiter) := limit.visit s a.limiter
      (visit.asked?.toList, { a with limiter })
  | .save d => ([], { a with gateway := (a.gateway.save d).2 })
  | .delete id => ([], { a with gateway := (a.gateway.delete id).2 })
  | .applyRoutes routes => ([], { a with gateway := a.gateway.applyRoutes routes })
  | .refresh => ([], { a with gateway := a.gateway.refresh })
  | .hear => ([], { a with gateway := a.gateway.hear })
  | .rebuild =>
    let (_, gateway, world) := a.gateway.routes { limiter := a.limiter }
    ([], ⟨gateway, world.limiter⟩)
  | .comeBack seen definitions =>
    let cache := a.gateway.cache.put seen (a.gateway.compiler.compileAll definitions)
    ([], { a with gateway := { a.gateway with cache } })
  | .turn sources => ([], { a with gateway := { a.gateway with sources } })

/-- All that the limiter is asked, and what the gateway and the limiter are in the end. -/
def performAll (a : Limited τ) : List (Act τ) → List Answered × Limited τ
  | [] => ([], a)
  | act :: rest =>
    let (checks, a) := a.perform act
    let (later, a) := performAll a rest
    (checks ++ later, a)

theorem reachable_perform (h : a.gateway.Reachable) (act : Act τ) :
    (a.perform act).2.gateway.Reachable := by
  unfold perform
  cases act with
  | request now s => exact h.handle now (s.withLimiter a.limiter)
  | come d place s =>
      dsimp only
      split <;> exact h
  | save d => exact h.save d
  | delete id => exact h.delete id
  | applyRoutes routes => exact h.applyRoutes routes
  | refresh => exact h.refresh
  | hear => exact h.hear
  | rebuild => exact h.routes ({ limiter := a.limiter } : World τ)
  | comeBack seen definitions => exact h.comeBack seen definitions
  | turn sources => exact h.turn sources

/-- Only requests ask the limiter, and nothing else touches it. -/
theorem perform_of_not_isTraffic (a : Limited τ) (h : act.isTraffic = false) :
    (a.perform act).1 = [] ∧ (a.perform act).2.limiter = a.limiter := by
  unfold perform
  cases act with
  | request | come => cases h
  | rebuild => exact ⟨rfl, a.gateway.limiter_routes _⟩
  | _ => exact ⟨rfl, rfl⟩

/-- What happens to a gateway changes the limiter by the checks that it makes, and none of them asks
for a bucket that can hold nothing. -/
theorem run_perform (h : a.gateway.Reachable) (act : Act τ) :
    Run Answered.Step a.limiter (a.perform act).1 (a.perform act).2.limiter ∧
      ∀ e ∈ (a.perform act).1, e.burst ≠ 0 := by
  cases htraffic : act.isTraffic with
  | false =>
      obtain ⟨hnone, hlimiter⟩ := a.perform_of_not_isTraffic htraffic
      rw [hnone, hlimiter]
      exact ⟨.nil, nofun⟩
  | true =>
      cases act with
      | request now s =>
          exact ⟨a.gateway.run_checks now (s.withLimiter a.limiter),
            h.serves.burst_ne_zero_of_mem_checks now (s.withLimiter a.limiter)⟩
      | come d place s =>
          simp only [perform]
          split
          next => exact ⟨.nil, nofun⟩
          next limit hlimit =>
            refine ⟨(limit.step_visit s a.limiter).answers, fun e he => ?_⟩
            rw [RateLimit.burst_of_mem_answered he]
            exact h.serves.burst_ne_zero_of_limitAt? hlimit
      | _ => cases htraffic

/-- All that the limiter is asked while these things happen, with its answers. -/
def log (a : Limited τ) (acts : List (Act τ)) : List Answered := (a.performAll acts).1

def after (a : Limited τ) (acts : List (Act τ)) : Limited τ := (a.performAll acts).2

theorem run_log (h : a.gateway.Reachable) (acts : List (Act τ)) :
    Run Answered.Step a.limiter (a.log acts) (a.after acts).limiter ∧
      ∀ e ∈ a.log acts, e.burst ≠ 0 := by
  induction acts generalizing a with
  | nil => exact ⟨.nil, nofun⟩
  | cons act rest ih =>
      obtain ⟨hfirst, hbounded⟩ := run_perform h act
      obtain ⟨hrest, hlater⟩ := ih (reachable_perform h act)
      exact ⟨hfirst.trans hrest, List.forall_mem_append.mpr ⟨hbounded, hlater⟩⟩

/-- The answers of a bucket depend on the times, rates and capacities of its own checks. Two lives
of gateways in which these are the same have the same answers for it, and so has every other run of
checks; what happens besides requests asks for nothing and leaves the limiter as it is; and the
limiter keeps one bucket for each name that it has been asked about. -/
theorem answers_by_own_checks (name : String) (ha : a.gateway.Reachable) (acts : List (Act τ)) :
    Run Answered.Step a.limiter (a.log acts) (a.after acts).limiter ∧
      (∀ (l l' : RateLimiter τ) (es : List Answered), SameFor name a.limiter l →
        Run Answered.Step l es l' →
        (own name (a.log acts)).map toCheck = (own name es).map toCheck →
          own name (a.log acts) = own name es ∧ SameFor name (a.after acts).limiter l') ∧
      (∀ (b : Limited τ) (acts' : List (Act τ)), b.gateway.Reachable →
        SameFor name a.limiter b.limiter →
        (own name (a.log acts)).map toCheck = (own name (b.log acts')).map toCheck →
          own name (a.log acts) = own name (b.log acts') ∧
            SameFor name (a.after acts).limiter (b.after acts').limiter) ∧
      (∀ act : Act τ, act.isTraffic = false →
        (a.perform act).1 = [] ∧ (a.perform act).2.limiter = a.limiter) ∧
      (a.limiter = .empty → ∃ store, (a.after acts).limiter = .buckets store ∧
        (store.map Prod.fst).Nodup ∧
        (name ∈ store.map Prod.fst ↔ ∃ e ∈ a.log acts, e.name = name)) := by
  obtain ⟨run, hburst⟩ := run_log ha acts
  refine ⟨run, fun l l' es hsame run' => own_eq_of_run hsame run run', ?_, ?_, ?_⟩
  · intro b acts' hb hsame
    exact own_eq_of_run hsame run (run_log hb acts').1
  · exact fun act => a.perform_of_not_isTraffic
  · intro hempty
    rw [hempty] at run
    obtain ⟨store, hstore, hordered, hnames⟩ := exists_store_of_run .nil run hburst
    exact ⟨store, hstore, hordered.nodup_keys, by simpa using hnames name⟩

/-- A route on which one request in a second is let through. -/
def sparing (id : String) : RouteDefinition where
  id := id
  uri := "http://b"
  filters :=
    [⟨"RequestRateLimiter",
      [("burst_capacity", .int 1), ("key_resolver", .obj [("type", .str "route_id")]),
        ("replenish_rate", .int 1)], none⟩]

/-- A gateway with such a route, whose limiter has not been asked anything. -/
def unasked : Limited Rat := ⟨.make [sparing "r"] [] 1024 [], .empty⟩

/-- A request for `/a` after so many nanoseconds. -/
def arriving (clock : Nat) : Scene Rat where
  exchange := { request := { method := Method.get, uri := ⟨none, none, ⟨"/a", none⟩⟩ } }
  world := { clock, limiter := .empty }

/-- A request under way on another route. -/
def elsewhere : Scene Rat :=
  (arriving 0).mapExchange fun x => { x with route := some ⟨"q", ⟨none, none, ⟨"/", none⟩⟩⟩ }

/-- Two requests within a second. -/
def twice : List (Act Rat) :=
  [.request ⟨0, 0, 0⟩ (arriving 0), .request ⟨0, 0, 0⟩ (arriving 500000000)]

/-- The same with a request on another route in between, which is saved, and with all routes
compiled anew. -/
def twiceApart : List (Act Rat) :=
  [.request ⟨0, 0, 0⟩ (arriving 0), .come (sparing "q") 1 elsewhere, .save (sparing "q"), .refresh,
    .rebuild, .request ⟨0, 0, 0⟩ (arriving 500000000)]

theorem log_twice : unasked.log twice =
    [⟨⟨0, "r:r", 1, 1⟩, .ok ⟨true, 0⟩⟩, ⟨⟨500000000, "r:r", 1, 1⟩, .ok ⟨false, -1⟩⟩] := by
  cbv

theorem checks_twiceApart : (unasked.log twiceApart).map toCheck =
    [⟨0, "r:r", 1, 1⟩, ⟨0, "q:q", 1, 1⟩, ⟨500000000, "r:r", 1, 1⟩] := by
  cbv

/-- The second request is denied, whether or not anything happens in between. -/
theorem answers_by_own_checks_of_twiceApart :
    own "r:r" (unasked.log twiceApart) =
        [⟨⟨0, "r:r", 1, 1⟩, .ok ⟨true, 0⟩⟩, ⟨⟨500000000, "r:r", 1, 1⟩, .ok ⟨false, -1⟩⟩] ∧
      ∃ store, (unasked.after twiceApart).limiter = .buckets store ∧
        (store.map Prod.fst).Nodup ∧ "r:r" ∈ store.map Prod.fst := by
  have hstart : unasked.gateway.Reachable := .make ..
  obtain ⟨-, -, hlives, -, hstore⟩ := answers_by_own_checks "r:r" hstart twiceApart
  have hchecks : (own "r:r" (unasked.log twiceApart)).map toCheck =
      (own "r:r" (unasked.log twice)).map toCheck := by
    rw [map_toCheck_own, map_toCheck_own, checks_twiceApart, log_twice]
    rfl
  obtain ⟨hsame, -⟩ := hlives unasked twice hstart (.refl ..) hchecks
  have hown : own "r:r" (unasked.log twiceApart) =
      [⟨⟨0, "r:r", 1, 1⟩, .ok ⟨true, 0⟩⟩, ⟨⟨500000000, "r:r", 1, 1⟩, .ok ⟨false, -1⟩⟩] := by
    rw [hsame, log_twice]
    rfl
  obtain ⟨store, hafter, hnodup, hnames⟩ := hstore rfl
  have hasked := mem_own.mp (hown ▸ List.mem_cons_self :
    (⟨⟨0, "r:r", 1, 1⟩, .ok ⟨true, 0⟩⟩ : Answered) ∈ own "r:r" (unasked.log twiceApart))
  exact ⟨hown, store, hafter, hnodup, hnames.mpr ⟨_, hasked⟩⟩

end Limited

end HttpGateway
