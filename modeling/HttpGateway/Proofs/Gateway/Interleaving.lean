import HttpGateway.Gateway
import HttpGateway.Proofs.Cache.Interleaving
import HttpGateway.Proofs.Channel.Delivery

/-!
# Interleaved use of a gateway

A gateway with its two own sources is used by many parties at once: calls read its routes, the
repository is changed, the configured routes are replaced, and a listener hears of the changes to
the repository. Every operation is cut into the steps that happen at one moment. A change to the
repository is first made and then announced; configured routes are first replaced and then the cache
is invalidated; the listener first finds something in its channel and then invalidates the cache; a
call that asks for the routes reads one source after the other.

The sequential operations of `Gateway` are runs of such steps: `exists_run_save`,
`exists_run_delete`, `run_applyRoutes`, `run_refresh`, `exists_run_hear` and `exists_run_routes`.
-/

namespace HttpGateway

/-- What a call that asks for the routes has read so far. -/
inductive Reading where
  | nothing
  | configured (p : List RouteDefinition)
  | both (p q : List RouteDefinition)

/-- A gateway and all that is under way. -/
structure Site where
  gateway : Gateway
  calls : Nat → Cache.Call (List Route) GatewayError := fun _ => .absent
  readings : Nat → Reading := fun _ => .nothing
  /-- The changes to the repository that have been made and not yet announced. -/
  unannounced : List RouteEvent := []
  /-- How often the configured routes have been replaced without the cache being invalidated yet. -/
  reloads : Nat := 0
  /-- Whether the listener has found something for which it has not yet invalidated the cache. -/
  heard : Bool := false

namespace Site

inductive Event where
  | save (d : RouteDefinition)
  | delete (id : String)
  | announce (change : RouteEvent)
  | replace (routes : List RouteDefinition)
  | finishReload
  | receive
  | hear
  | readConfigured (c : Nat)
  | readRepository (c : Nat)
  | cache (e : Cache.Event (List Route) GatewayError)

def start (routes : List RouteDefinition) (defaultFilters : List FilterDefinition)
    (bodyLimit : Nat) : Site :=
  { gateway := .make routes defaultFilters bodyLimit [] }

def traffic (s : Site) : Cache.Traffic (List Route) GatewayError := ⟨s.gateway.cache, s.calls⟩

def stored (s : Site) : List RouteDefinition := s.gateway.repository.definitions

def configured (s : Site) : List RouteDefinition := s.gateway.configured

def withTraffic (s : Site) (t : Cache.Traffic (List Route) GatewayError) : Site :=
  { s with gateway := { s.gateway with cache := t.cache }, calls := t.calls }

@[simp] theorem traffic_withTraffic (s : Site) (t : Cache.Traffic (List Route) GatewayError) :
    (s.withTraffic t).traffic = t := rfl

@[simp] theorem calls_withTraffic (s : Site) (t : Cache.Traffic (List Route) GatewayError) :
    (s.withTraffic t).calls = t.calls := rfl

@[simp] theorem withTraffic_withTraffic (s : Site)
    (t t' : Cache.Traffic (List Route) GatewayError) :
    (s.withTraffic t).withTraffic t' = s.withTraffic t' := rfl

def withRepository (s : Site) (r : RouteRepository) : Site :=
  { s with gateway := { s.gateway with repository := r } }

/-- A change is made to the repository, and is to be announced. -/
def write (s : Site) (definitions : List RouteDefinition) (change : RouteEvent) : Site :=
  { s.withRepository { s.gateway.repository with definitions } with
    unannounced := change :: s.unannounced }

def refresh (s : Site) : Site := { s with gateway := s.gateway.refresh }

def read (s : Site) (c : Nat) (reading : Reading) : Site :=
  { s with readings := Function.update s.readings c reading }

@[simp] theorem read_read (s : Site) (c : Nat) (x y : Reading) :
    (s.read c x).read c y = s.read c y := by
  simp [read]

@[simp] theorem readings_read (s : Site) (c : Nat) (x : Reading) : (s.read c x).readings c = x :=
  Function.update_self ..

/-- What the listener finds in its channel. -/
def finds (s : Site) : Received RouteEvent := (s.gateway.repository.receive s.gateway.listener).1

/-- Whether a call is given what its readings of the sources make. -/
def Answers (s : Site) : Cache.Event (List Route) GatewayError → Prop
  | .call c (.answer result) => ∃ p q, s.readings c = .both p q ∧
      result = s.gateway.compiler.locate [{ definitions := p }, { definitions := q }]
  | _ => True

inductive Step : Site → Event → Site → Prop
  | save {s d} (hd : isBlankId d.id = false) :
      Step s (.save d) (s.write (RouteRepository.place d s.stored) (.saved d.id))
  | delete {s id} (hid : (s.stored.filter fun d => d.id ≠ id).length ≠ s.stored.length) :
      Step s (.delete id) (s.write (s.stored.filter fun d => d.id ≠ id) (.deleted id))
  | announce {s change} (hmem : change ∈ s.unannounced) :
      Step s (.announce change)
        { s.withRepository (s.gateway.repository.announce change) with
          unannounced := s.unannounced.erase change }
  | replace {s routes} :
      Step s (.replace routes)
        { s with gateway := { s.gateway with configured := routes }, reloads := s.reloads + 1 }
  | finishReload {s n} (hn : s.reloads = n + 1) :
      Step s .finishReload { s.refresh with reloads := n }
  | receive {s} (hfree : s.heard = false) (hfinds : s.finds ≠ .empty) :
      Step s .receive
        { s.withRepository (s.gateway.repository.receive s.gateway.listener).2 with heard := true }
  | hear {s} (hheard : s.heard = true) : Step s .hear { s.refresh with heard := false }
  | readConfigured {s c seen stale} (hc : s.calls c = .asking seen stale)
      (hread : s.readings c = .nothing) :
      Step s (.readConfigured c) (s.read c (.configured s.configured))
  | readRepository {s c seen stale p} (hc : s.calls c = .asking seen stale)
      (hread : s.readings c = .configured p) :
      Step s (.readRepository c) (s.read c (.both p s.stored))
  | cache {s e t} (step : Cache.Step s.traffic e t) (hanswer : s.Answers e) :
      Step s (.cache e) (s.withTraffic t)

abbrev Run (start : Site) : List Event → Site → Prop := HttpGateway.Run Step start

/-- Every change to the repository has been announced, received and acted upon. -/
structure Told (s : Site) : Prop where
  announced : s.unannounced = []
  received : s.finds = .empty
  heard : s.heard = false

/-- Nothing that concerns the cache is under way. -/
structure Quiet (s : Site) : Prop where
  told : s.Told
  reloaded : s.reloads = 0

/-! ### The sequential operations are runs -/

theorem Run.arrive {s u : Site} {es : List Event} {c : Nat} (run : Run s es u)
    (hc : u.calls c = .absent) :
    Run s (es ++ [.cache (.call c .arrive)])
      (u.withTraffic (u.traffic.move c u.gateway.cache .arrived)) := by
  have hcall : Cache.Call.Step u.traffic.cache (u.traffic.calls c) .arrive u.gateway.cache
      .arrived := by
    rw [show u.traffic.calls c = .absent from hc]
    exact .arrive
  exact run.snoc (.cache (.call hcall nofun) trivial)

/-- One more step of a call that a run has moved. -/
theorem Run.move {s u : Site} {es : List Event} {t : Cache.Traffic (List Route) GatewayError}
    {k k' : Cache (List Route)} {c : Nat} {x y : Cache.Call (List Route) GatewayError}
    {a : Cache.Action (List Route) GatewayError} (run : Run s es (u.withTraffic (t.move c k x)))
    (h : Cache.Call.Step k x a k' y) (hlock : a = .lock → (t.move c k x).Free)
    (hanswer : u.Answers (.call c a)) :
    Run s (es ++ [.cache (.call c a)]) (u.withTraffic (t.move c k' y)) := by
  have hcall : Cache.Call.Step (t.move c k x).cache ((t.move c k x).calls c) a k' y := by
    simpa using h
  have step := Step.cache (s := u.withTraffic (t.move c k x)) (.call hcall hlock) hanswer
  simpa using run.snoc step

theorem Run.announce {s u : Site} {es : List Event} {definitions : List RouteDefinition}
    {change : RouteEvent} (run : Run s es (u.write definitions change)) :
    Run s (es ++ [.announce change])
      (u.withRepository ({ u.gateway.repository with definitions }.announce change)) := by
  have run' := run.snoc (.announce List.mem_cons_self)
  rw [show (u.write definitions change).unannounced = change :: u.unannounced from rfl,
    List.erase_cons_head] at run'
  exact run'

theorem exists_run_save (s : Site) (d : RouteDefinition) :
    ∃ es, Run s es { s with gateway := (s.gateway.save d).2 } := by
  cases hd : isBlankId d.id with
  | true =>
      simp only [Gateway.save, s.gateway.repository.save_of_blank hd]
      exact ⟨[], .nil⟩
  | false =>
      simp only [Gateway.save, s.gateway.repository.save_of_named hd]
      exact ⟨_, Run.announce (.single (.save hd))⟩

theorem exists_run_delete (s : Site) (id : String) :
    ∃ es, Run s es { s with gateway := (s.gateway.delete id).2 } := by
  by_cases hid : (s.stored.filter fun d => d.id ≠ id).length = s.stored.length
  · simp only [Gateway.delete, s.gateway.repository.delete_of_unknown hid]
    exact ⟨[], .nil⟩
  · simp only [Gateway.delete, s.gateway.repository.delete_of_known hid]
    exact ⟨_, Run.announce (.single (.delete hid))⟩

theorem run_applyRoutes (s : Site) (routes : List RouteDefinition) :
    Run s [.replace routes, .finishReload]
      { s with gateway := s.gateway.applyRoutes routes } :=
  (Run.single .replace).snoc (.finishReload rfl)

theorem run_refresh (s : Site) : Run s [.cache .invalidate] s.refresh :=
  .single (.cache .invalidate trivial)

/-- The listener has acted this often and left its channel so. -/
def afterHearing (s : Site) (heard : Nat × Channel RouteEvent) : Site :=
  { s with gateway := { s.gateway with
      repository := { s.gateway.repository with events := heard.2 }
      cache := s.gateway.cache.invalidateTimes heard.1 } }

/-- The listener acts upon one thing that it finds. -/
theorem run_receive_hear {s : Site} {found : Received RouteEvent} {events : Channel RouteEvent}
    (hfree : s.heard = false)
    (hreceive : s.gateway.repository.events.receive s.gateway.listener = (found, events))
    (hfound : found ≠ .empty) : Run s [.receive, .hear] (s.afterHearing (1, events)) := by
  have hfinds : s.finds = found := by simp only [finds, RouteRepository.receive, hreceive]
  have run : Run s _ _ := (Run.single (Step.receive hfree (hfinds ▸ hfound))).snoc (.hear rfl)
  simp only [RouteRepository.receive, hreceive] at run
  rw [← hfree] at run
  exact run

/-- The listener acts upon all that it finds, one thing after the other. -/
theorem exists_run_drain {s : Site} (hfree : s.heard = false)
    (hattended : s.gateway.repository.events.Attended s.gateway.listener) (fuel : Nat) :
    ∃ es, Run s es
      (s.afterHearing (s.gateway.repository.events.drain s.gateway.listener fuel)) := by
  induction fuel generalizing s with
  | zero => exact ⟨[], .nil⟩
  | succ fuel ih =>
      have hattended' := hattended.receive
      obtain ⟨next, -, ⟨-, hr⟩ | ⟨-, -, a, hr⟩ | ⟨-, hr⟩⟩ := hattended.receive_cases
      · simp only [Channel.drain, hr]
        exact ⟨[], .nil⟩
      · rw [hr] at hattended'
        obtain ⟨es, rest⟩ := ih (s := s.afterHearing (1, _)) hfree hattended'
        simp only [Channel.drain, hr]
        exact ⟨_, (run_receive_hear hfree hr (by simp)).trans rest⟩
      · rw [hr] at hattended'
        obtain ⟨es, rest⟩ := ih (s := s.afterHearing (1, _)) hfree hattended'
        simp only [Channel.drain, hr]
        exact ⟨_, (run_receive_hear hfree hr (by simp)).trans rest⟩

theorem exists_run_hear {s : Site} (hfree : s.heard = false)
    (hattended : s.gateway.repository.events.Attended s.gateway.listener) :
    ∃ es, Run s es { s with gateway := s.gateway.hear } :=
  exists_run_drain hfree hattended (s.gateway.repository.events.capacity + 2)

/-- After it has heard of the changes, the gateway owes nothing to those that are announced. -/
theorem told_hear {s : Site} (hfree : s.heard = false) (hannounced : s.unannounced = [])
    (hattended : s.gateway.repository.events.Attended s.gateway.listener) :
    Told { s with gateway := s.gateway.hear } where
  announced := hannounced
  received := hattended.receive_drainAll
  heard := hfree

theorem Run.readBoth {s u : Site} {es : List Event} {t : Cache.Traffic (List Route) GatewayError}
    {k : Cache (List Route)} {c seen : Nat} {stale : Option (List Route)}
    (run : Run s es (u.withTraffic (t.move c k (.asking seen stale))))
    (hread : u.readings c = .nothing) :
    Run s (es ++ [.readConfigured c] ++ [.readRepository c])
      ((u.read c (.both u.configured u.stored)).withTraffic (t.move c k (.asking seen stale))) := by
  have hc : (t.move c k (.asking seen stale)).calls c = .asking seen stale := by simp
  have first := run.snoc (.readConfigured hc hread)
  have second := first.snoc (.readRepository hc (Function.update_self ..))
  rw [read_read] at second
  exact second

/-- A call that asks reads the sources and is given the routes that they make. -/
theorem Run.answer {s u : Site} {es : List Event} {t : Cache.Traffic (List Route) GatewayError}
    {k : Cache (List Route)} {c seen : Nat} {stale : Option (List Route)}
    (run : Run s es (u.withTraffic (t.move c k (.asking seen stale))))
    (hread : u.readings c = .nothing) :
    let r := u.gateway.compiler.compileAll (u.configured ++ u.stored)
    Run s (es ++ [.readConfigured c] ++ [.readRepository c] ++
        [.cache (.call c (.answer (.ok r)))])
      ((u.read c (.both u.configured u.stored)).withTraffic (t.move c k (.answered seen r))) :=
  (run.readBoth hread).move .answerOk nofun
    ⟨_, _, readings_read .., (u.gateway.compiler.locate_pair _ _).symm⟩

theorem compiledRoutes_eq {s : Site} (hsources : s.gateway.sources = []) :
    s.gateway.compiledRoutes = .ok (s.gateway.compiler.compileAll (s.configured ++ s.stored)) := by
  simp only [Gateway.compiledRoutes, Gateway.allSources, hsources]
  exact s.gateway.compiler.locate_pair _ _

/-- A call that nothing disturbs. -/
theorem exists_run_routes {τ : Type} {s : Site} {c : Nat} (hfree : s.traffic.Free)
    (hc : s.calls c = .absent) (hread : s.readings c = .nothing)
    (hsources : s.gateway.sources = []) (w : World τ) :
    let (result, gateway, _) := s.gateway.routes w
    ∃ es readings, Run s es { s with gateway, readings,
                                     calls := Function.update s.calls c (.returned result) } := by
  have arrived : Run s _ _ := Run.arrive .nil hc
  cases hk : s.gateway.cache.state with
  | valid r =>
      simp only [Gateway.routes, Cache.fetch, hk]
      exact ⟨_, _, arrived.move (.glanceValid hk) (by simp) trivial⟩
  | invalidated stale =>
      have queued := arrived.move (.glanceInvalid hk) (by simp) trivial
      have locked := queued.move .lock (fun _ => hfree.move rfl) trivial
      have asking := (locked.move (.lookInvalid hk) (by simp) trivial).move .ask (by simp) trivial
      have answered := asking.answer hread
      have hinstall (r : List Route) : s.gateway.cache.install? s.gateway.cache.version r =
          some (s.gateway.cache.replace (.valid r)) :=
        Cache.install?_eq_some_iff.mpr ⟨rfl, rfl⟩
      simp only [Gateway.routes, Cache.fetch, hk, compiledRoutes_eq hsources, hinstall]
      exact ⟨_, _, answered.move (.install (hinstall _)) (by simp) trivial⟩

end Site

end HttpGateway
