import HttpGateway.Proofs.Filter.Order
import HttpGateway.Proofs.Route.Compilation

/-!
# States of a gateway

The states that a gateway comes to after it has been made, whatever is done with it and in whatever
order its readers come back. In all of them the filters of the gateway itself are the same three,
and every route it holds has been compiled from some definition, if not from one that is still there.
-/

namespace HttpGateway

variable {ρ ε : Type}

/-! ### What a cache holds -/

namespace Cache

/-- The list in the cache, if there is one, is of this kind. -/
def Holds (P : ρ → Prop) (c : Cache ρ) : Prop := ∀ routes, c.state.snapshot = some routes → P routes

variable {P : ρ → Prop} {c : Cache ρ}

theorem Holds.invalidate (h : c.Holds P) : c.invalidate.Holds P := h

theorem Holds.invalidateTimes (h : c.Holds P) (n : Nat) : (c.invalidateTimes n).Holds P := by
  induction n generalizing c with
  | zero => exact h
  | succ n ih => exact ih h.invalidate

theorem holds_replace_valid (c : Cache ρ) {routes : ρ} (h : P routes) :
    (c.replace (.valid routes)).Holds P := by
  intro found hfound
  obtain rfl : routes = found := Option.some.inj hfound
  exact h

theorem Holds.keepStale (h : c.Holds P) {routes : ρ} (hroutes : P routes) :
    (c.keepStale routes).Holds P := by
  intro found hfound
  rw [Cache.keepStale, state_replace] at hfound
  cases hstate : c.state with
  | valid current =>
      rw [hstate] at hfound
      exact h found (by rw [hstate]; exact hfound)
  | invalidated stale =>
      rw [hstate] at hfound
      obtain rfl : routes = found := Option.some.inj hfound
      exact hroutes

/-- Puts a list into the cache: as the valid one, if the state is still the one with this number,
and as the last good one otherwise. -/
def put (c : Cache ρ) (seen : Nat) (routes : ρ) : Cache ρ :=
  (c.install? seen routes).getD (c.keepStale routes)

theorem Holds.put (h : c.Holds P) (seen : Nat) {routes : ρ} (hroutes : P routes) :
    (c.put seen routes).Holds P := by
  unfold Cache.put
  cases hinstall : c.install? seen routes with
  | none => exact h.keepStale hroutes
  | some k =>
      obtain ⟨-, rfl⟩ := install?_eq_some_iff.mp hinstall
      exact c.holds_replace_valid hroutes

/-- A reader comes back with what the cache holds or with what it has been answered. -/
theorem Holds.fetch {answer : Except ε ρ} (h : c.Holds P)
    (hanswer : ∀ routes, answer = .ok routes → P routes) :
    (c.fetch fun c => (answer, c)).cache.Holds P ∧
      ∀ routes, (c.fetch fun c => (answer, c)).result = .ok routes → P routes := by
  unfold Cache.fetch
  cases hstate : c.state with
  | valid current =>
      refine ⟨h, fun routes hroutes => ?_⟩
      obtain rfl : current = routes := Except.ok.inj hroutes
      exact h current (by rw [hstate]; rfl)
  | invalidated stale =>
      cases answer with
      | ok answered =>
          refine ⟨h.put c.version (hanswer _ rfl), fun routes hroutes => ?_⟩
          obtain rfl : answered = routes := Except.ok.inj hroutes
          exact hanswer _ rfl
      | error e =>
          cases stale with
          | none => exact ⟨h, nofun⟩
          | some last =>
              refine ⟨h, fun routes hroutes => ?_⟩
              obtain rfl : last = routes := Except.ok.inj hroutes
              exact h last (by rw [hstate]; rfl)

end Cache

/-! ### Compiled routes -/

/-- Every route of the list has been compiled from some definition. -/
def RouteCompiler.Compiles (c : RouteCompiler) (routes : List Route) : Prop :=
  ∀ route ∈ routes, ∃ d, c.compile d = .ok route

theorem RouteCompiler.compiles_compileAll (c : RouteCompiler) (definitions : List RouteDefinition) :
    c.Compiles (c.compileAll definitions) := by
  intro route hroute
  obtain ⟨d, -, hd⟩ := mem_compileAll_iff.mp hroute
  exact ⟨d, hd⟩

theorem RouteCompiler.isMade_of_compile {c : RouteCompiler} {d : RouteDefinition} {route : Route}
    (h : c.compile d = .ok route) : ∀ f ∈ route.filters, f.filter.IsMade :=
  OrderedFilter.isMade_of_ofDefinitionsFrom (compile_eq_ok_iff.mp h).filters

/-! ### Gateways -/

namespace Gateway

/-- The states of a gateway. A reader that asked for the routes earlier may come back at any time,
with routes compiled from whatever definitions there were; a further source may hold other
definitions or fail at any time. -/
inductive Reachable : Gateway → Prop
  | make (routes : List RouteDefinition) (defaultFilters : List FilterDefinition) (bodyLimit : Nat)
      (sources : List RouteSource) : Reachable (.make routes defaultFilters bodyLimit sources)
  | save {g} (hg : Reachable g) (d : RouteDefinition) : Reachable (g.save d).2
  | delete {g} (hg : Reachable g) (id : String) : Reachable (g.delete id).2
  | applyRoutes {g} (hg : Reachable g) (routes : List RouteDefinition) :
      Reachable (g.applyRoutes routes)
  | refresh {g} (hg : Reachable g) : Reachable g.refresh
  | hear {g} (hg : Reachable g) : Reachable g.hear
  | routes {g} (hg : Reachable g) {τ : Type} (w : World τ) : Reachable (g.routes w).2.1
  | comeBack {g} (hg : Reachable g) (seen : Nat) (definitions : List RouteDefinition) :
      Reachable { g with cache := g.cache.put seen (g.compiler.compileAll definitions) }
  | turn {g} (hg : Reachable g) (sources : List RouteSource) : Reachable { g with sources }

/-- Answering a request changes a gateway as reading its routes does. -/
theorem Reachable.handle {τ : Type} [TokenArithmetic τ] {g : Gateway} (hg : g.Reachable)
    (now : Timestamp) (s : Scene τ) : (g.handle now s).2.1.Reachable :=
  hg.routes s.world

/-- What holds of a gateway in all its states. -/
structure Serves (g : Gateway) : Prop where
  globals : ∃ bodyLimit, g.globals = globalFilters bodyLimit
  cache : g.cache.Holds g.compiler.Compiles

theorem compiles_of_compiledRoutes {g : Gateway} {routes : List Route}
    (h : g.compiledRoutes = .ok routes) : g.compiler.Compiles routes := by
  obtain ⟨definitions, -, rfl⟩ := map_eq_ok_iff.mp h
  exact g.compiler.compiles_compileAll definitions

/-- The routes that a request finds have been compiled, and those that are kept have been as well. -/
theorem Serves.routes {τ : Type} {g : Gateway} (h : g.Serves) (w : World τ) :
    (g.routes w).2.1.Serves ∧ ∀ routes, (g.routes w).1 = .ok routes → g.compiler.Compiles routes := by
  obtain ⟨hcache, hresult⟩ := h.cache.fetch fun _ hroutes => compiles_of_compiledRoutes hroutes
  exact ⟨⟨h.globals, hcache⟩, hresult⟩

/-- A gateway that has not read its routes yet, and has no further sources, finds those of the
configuration and the repository. -/
theorem routes_of_fresh {τ : Type} {g : Gateway} (hcache : g.cache = {}) (hsources : g.sources = [])
    (w : World τ) :
    (g.routes w).1 = .ok (g.compiler.compileAll (g.configured ++ g.repository.definitions)) ∧
      (g.routes w).2.2 = w.count (.routeRefresh true) := by
  have hcompiled : g.compiledRoutes = .ok _ :=
    (congrArg (fun sources => g.compiler.locate (_ :: _ :: sources)) hsources).trans
      (g.compiler.locate_pair g.configured g.repository.definitions)
  simp only [routes, Cache.fetch, hcache, hcompiled, and_self]

/-- The chain of a route holds what definitions make and the filters of the gateway itself. -/
theorem Serves.makes_or_isOwn {g : Gateway} (h : g.Serves) {d : RouteDefinition} {route : Route}
    (hroute : g.compiler.compile d = .ok route) : ∀ f ∈ g.chain route,
      FilterSpec.Makes g.compiler.bodyLimit f.filter ∨ f.filter.isOwn = true := by
  obtain ⟨bodyLimit, hglobals⟩ := h.globals
  have hown : ∀ f ∈ g.globals, f.filter.isOwn = true := by
    rw [hglobals]
    simp [globalFilters, Filter.isOwn]
  intro f hf
  rcases OrderedFilter.mem_merge.mp hf with hf | hf
  · exact .inr (hown f hf)
  · exact .inl (OrderedFilter.makes_of_ofDefinitionsFrom
      (RouteCompiler.compile_eq_ok_iff.mp hroute).filters f hf)

theorem Reachable.serves {g : Gateway} (h : g.Reachable) : g.Serves := by
  induction h with
  | make routes defaultFilters bodyLimit sources => exact ⟨⟨bodyLimit, rfl⟩, nofun⟩
  | save _ d ih => exact ⟨ih.globals, ih.cache⟩
  | delete _ id ih => exact ⟨ih.globals, ih.cache⟩
  | applyRoutes _ routes ih => exact ⟨ih.globals, ih.cache.invalidate⟩
  | refresh _ ih => exact ⟨ih.globals, ih.cache.invalidate⟩
  | hear _ ih => exact ⟨ih.globals, ih.cache.invalidateTimes _⟩
  | routes _ w ih => exact (ih.routes w).1
  | comeBack _ seen definitions ih =>
      exact ⟨ih.globals, ih.cache.put seen (RouteCompiler.compiles_compileAll _ definitions)⟩
  | turn _ sources ih => exact ⟨ih.globals, ih.cache⟩

end Gateway

end HttpGateway
