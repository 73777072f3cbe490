import HttpGateway.Proofs.Filter.Course
import HttpGateway.Proofs.RateLimit.Visits

/-!
# What happens outside an exchange

On its way through a chain an exchange has the address of the backend found, calls the backend, and
asks the limiter, and while it waits for something, others ask the limiter as well. These events are
told by the recursion of the chain itself: those of a filter come before those of the rest of the
chain, which is run in one round after the other. They are all that has happened to the surroundings
in the end.
-/

namespace HttpGateway

open RateLimiter

variable {τ : Type}

/-- The service that a route names, if it does. -/
def RouteRef.service? (route : RouteRef) : Option String :=
  if route.uri.scheme = some Filter.serviceScheme then some (route.uri.host.getD "") else none

def Exchange.service? (x : Exchange) : Option String := x.route.bind RouteRef.service?

/-- The address of the backend is found for a request with this URI, for which the directory may be
asked for a service; the backend is called; the limiter is asked. -/
inductive Event where
  | resolved (request : Uri) (service : Option String)
  | called (o : Outbound)
  | checked (e : Answered)

namespace Event

def request? : Event → Option Uri
  | .resolved request _ => some request
  | _ => none

def service? : Event → Option String
  | .resolved _ service => service
  | _ => none

def outbound? : Event → Option Outbound
  | .called o => some o
  | _ => none

def answered? : Event → Option Answered
  | .checked e => some e
  | _ => none

/-- The requests for which the address of the backend is found. -/
def requests (events : List Event) : List Uri := events.filterMap request?

/-- The services that the directory is asked for. -/
def services (events : List Event) : List String := events.filterMap service?

/-- The requests that the backend is called with. -/
def calls (events : List Event) : List Outbound := events.filterMap outbound?

/-- What the limiter is asked. -/
def checks (events : List Event) : List Answered := events.filterMap answered?

/-- The limiter is asked, and nothing else happens. -/
def ofChecks (es : List Answered) : List Event := es.map checked

section

variable (events later : List Event) (es : List Answered)

@[simp] theorem requests_append : requests (events ++ later) = requests events ++ requests later :=
  List.filterMap_append

@[simp] theorem services_append : services (events ++ later) = services events ++ services later :=
  List.filterMap_append

@[simp] theorem calls_append : calls (events ++ later) = calls events ++ calls later :=
  List.filterMap_append

@[simp] theorem checks_append : checks (events ++ later) = checks events ++ checks later :=
  List.filterMap_append

@[simp] theorem requests_ofChecks : requests (ofChecks es) = [] := by
  simp [requests, ofChecks, List.filterMap_map, Function.comp_def, request?]

@[simp] theorem services_ofChecks : services (ofChecks es) = [] := by
  simp [services, ofChecks, List.filterMap_map, Function.comp_def, service?]

@[simp] theorem calls_ofChecks : calls (ofChecks es) = [] := by
  simp [calls, ofChecks, List.filterMap_map, Function.comp_def, outbound?]

@[simp] theorem checks_ofChecks : checks (ofChecks es) = es := by
  simp [checks, ofChecks, List.filterMap_map, Function.comp_def, answered?]

end

end Event

/-! ### The surroundings -/

namespace World

variable [TokenArithmetic τ]

/-- What others ask the limiter while this exchange waits. -/
def meantime (w : World τ) : List Answered := w.limiter.answersTo w.meanwhile

theorem burst_ne_zero_of_mem_meantime (w : World τ) : ∀ e ∈ w.meantime, e.burst ≠ 0 := by
  intro e he
  have hcheck : e.toCheck ∈ w.meanwhile :=
    w.limiter.map_toCheck_answersTo w.meanwhile ▸ List.mem_map_of_mem he
  obtain ⟨c, -, hc⟩ := List.mem_map.mp hcheck
  exact hc ▸ c.property

/-- This has happened between two states of the surroundings, and nothing else. -/
structure Sees (w : World τ) (events : List Event) (w' : World τ) : Prop where
  sent : w'.sent = w.sent ++ Event.calls events
  asked : w'.asked = w.asked ++ Event.services events
  directory : w'.directory = w.directory
  run : Run Answered.Step w.limiter (Event.checks events) w'.limiter

variable {w w' w'' : World τ} {events later : List Event}

theorem Sees.nothing (hsent : w'.sent = w.sent) (hasked : w'.asked = w.asked)
    (hdirectory : w'.directory = w.directory) (hlimiter : w'.limiter = w.limiter) :
    w.Sees [] w' :=
  ⟨hsent.trans (List.append_nil _).symm, hasked.trans (List.append_nil _).symm, hdirectory,
    hlimiter ▸ .nil⟩

theorem Sees.refl (w : World τ) : w.Sees [] w := .nothing rfl rfl rfl rfl

theorem Sees.trans (h : w.Sees events w') (h' : w'.Sees later w'') :
    w.Sees (events ++ later) w'' where
  sent := by rw [h'.sent, h.sent, Event.calls_append, List.append_assoc]
  asked := by rw [h'.asked, h.asked, Event.services_append, List.append_assoc]
  directory := h'.directory.trans h.directory
  run := Event.checks_append .. ▸ h.run.trans h'.run

theorem Sees.trans_nothing (h : w.Sees events w') (h' : w'.Sees [] w'') : w.Sees events w'' :=
  List.append_nil events ▸ h.trans h'

theorem sees_checks (w : World τ) {es : List Answered} {l : RateLimiter τ}
    (run : Run Answered.Step w.limiter es l) :
    w.Sees (Event.ofChecks es) { w with limiter := l } := by
  refine ⟨?_, ?_, rfl, ?_⟩
  · rw [Event.calls_ofChecks, List.append_nil]
  · rw [Event.services_ofChecks, List.append_nil]
  · rwa [Event.checks_ofChecks]

theorem sees_elapse (w : World τ) (d : Duration) :
    w.Sees (Event.ofChecks w.meantime) (w.elapse d) :=
  (w.sees_checks (w.limiter.run_answersTo w.meanwhile)).trans_nothing (.nothing rfl rfl rfl rfl)

theorem sees_send (w : World τ) (o : Outbound) :
    w.Sees (.called o :: Event.ofChecks w.meantime) (w.send o).2 := by
  have hcalled : w.Sees [.called o] { w with sent := w.sent ++ [o] } :=
    ⟨rfl, (List.append_nil _).symm, rfl, .nil⟩
  exact hcalled.trans (sees_elapse ..)

theorem sees_find (w : World τ) (request : Uri) (service : String) :
    w.Sees (.resolved request (some service) :: Event.ofChecks w.meantime) (w.find service).2 := by
  have hfound : w.Sees [.resolved request (some service)]
      { w with asked := w.asked ++ [service] } :=
    ⟨(List.append_nil _).symm, rfl, rfl, .nil⟩
  exact hfound.trans (sees_elapse ..)

end World

/-- This has happened between two scenes. What is known of route and path has stayed as it was, and
so has the address of the backend unless it has been found meanwhile. -/
structure Scene.Happens [TokenArithmetic τ] (s : Scene τ) (events : List Event) (t : Scene τ) :
    Prop where
  world : s.world.Sees events t.world
  route : t.exchange.route = s.exchange.route
  pathMatch : t.exchange.pathMatch = s.exchange.pathMatch
  url : Event.requests events = [] → t.exchange.requestUrl = s.exchange.requestUrl

namespace Scene.Happens

variable [TokenArithmetic τ] {s t u : Scene τ} {events later : List Event}

theorem refl (s : Scene τ) : s.Happens [] s := ⟨.refl s.world, rfl, rfl, fun _ => rfl⟩

theorem trans (h : s.Happens events t) (h' : t.Happens later u) : s.Happens (events ++ later) u where
  world := h.world.trans h'.world
  route := h'.route.trans h.route
  pathMatch := h'.pathMatch.trans h.pathMatch
  url hnone := by
    rw [Event.requests_append] at hnone
    obtain ⟨hevents, hlater⟩ := List.append_eq_nil_iff.mp hnone
    exact (h'.url hlater).trans (h.url hevents)

theorem trans_nothing (h : s.Happens events t) (h' : t.Happens [] u) : s.Happens events u :=
  List.append_nil events ▸ h.trans h'

theorem calls (h : s.Happens events t) :
    t.world.calls = s.world.calls + (Event.calls events).length :=
  (congrArg List.length h.world.sent).trans List.length_append

end Scene.Happens

/-! ### The events of a chain -/

namespace Filter

/-- The request that forwarding calls the backend with, if it comes to that. -/
def outbound? (bodyLimit : Nat) (x : Exchange) : Option Outbound :=
  match x.requestUrl with
  | none => none
  | some url =>
    let (body, r) := outboundBody bodyLimit x.request
    body.toOption.map fun body => ⟨r.method, url, outboundHeaders r, body⟩

variable [TokenArithmetic τ]

/-- What happens where the filter is entered. -/
def events (f : Filter) (s : Scene τ) : List Event :=
  match f with
  | .rateLimit limit => Event.ofChecks (s.world.limiter.answered? (limit.check? s)).toList
  | .resolveUrl =>
    let asked := s.exchange.service?
    .resolved s.exchange.request.uri asked ::
      Event.ofChecks (asked.elim [] fun _ => s.world.meantime)
  | .forward bodyLimit => match outbound? bodyLimit s.exchange with
    | some o => .called o :: Event.ofChecks s.world.meantime
    | none => []
  | _ => []

/-- The rounds of several attempts: each with the scene in which it begins, and with what others ask
the limiter in the pause behind it. -/
def attemptRounds (policy : RetryPolicy) (method : Method) (point : RetryPoint) (next : Stage τ) :
    (further attempt : Nat) → Scene τ → List (Scene τ × List Answered)
  | 0, _, s => [(s, [])]
  | further + 1, attempt, s =>
    let (outcome, t) := next s
    match sequel policy method point attempt outcome t with
    | .over _ => [(s, [])]
    | .again u => (s, policy.backoff.elim [] fun _ => t.world.meantime) ::
      attemptRounds policy method point next further (attempt + 1) u

/-- The rounds in which the filter runs the rest of the chain. -/
def rounds (f : Filter) (next : Stage τ) (s : Scene τ) : List (Scene τ × List Answered) :=
  match f with
  | .retry policy _ =>
    if mayRetry policy s.exchange then
      attemptRounds policy s.exchange.request.method (RetryPoint.of s.exchange) next
        (policy.maxAttempts - 1) 1 s
    else [(s, [])]
  | _ => [(s, [])]

end Filter

/-- What happens in a round, given what happens when the rest of the chain is run. -/
def roundEvents (later : Scene τ → List Event) (round : Scene τ × List Answered) : List Event :=
  later round.1 ++ Event.ofChecks round.2

/-- What happens on the way of an exchange through a chain of filters. -/
def chainEvents [TokenArithmetic τ] : List OrderedFilter → Scene τ → List Event
  | [] => fun _ => []
  | f :: rest => fun s => f.filter.events s ++ match f.filter.enter s with
    | .onward t => (f.filter.rounds (runChain rest) t).flatMap (roundEvents (chainEvents rest))
    | _ => []

/-! ### Entering -/

namespace Filter

variable [TokenArithmetic τ]

theorem sees_targetUrl (x : Exchange) (w : World τ) (request : Uri) :
    w.Sees (.resolved request x.service? ::
      Event.ofChecks (x.service?.elim [] fun _ => w.meantime)) (targetUrl x w).2 := by
  have hnothing : w.Sees [.resolved request none] w :=
    ⟨(List.append_nil _).symm, (List.append_nil _).symm, rfl, .nil⟩
  cases hroute : x.route with
  | none =>
      simp only [targetUrl, Exchange.service?, hroute]
      exact hnothing
  | some route =>
      have hworld : (targetUrl x w).2 = (backendBase route.uri w).2 := by
        simp only [targetUrl, hroute]
        rcases backendBase route.uri w with ⟨_ | base, _⟩ <;> rfl
      simp only [hworld, Exchange.service?, hroute, Option.bind_some, RouteRef.service?, backendBase]
      split
      · have hfound := w.sees_find request (route.uri.host.getD "")
        rcases hfind : w.find (route.uri.host.getD "") with ⟨_ | base, _⟩ <;> rw [hfind] at hfound <;>
          exact hfound
      · exact hnothing

theorem sendOn_of_outbound {bodyLimit : Nat} {s : Scene τ} {o : Outbound}
    (h : outbound? bodyLimit s.exchange = some o) :
    sendOn bodyLimit s = ((s.world.send o).1,
      ⟨{ s.exchange with request := (outboundBody bodyLimit s.exchange.request).2 },
        (s.world.send o).2⟩) := by
  unfold outbound? at h
  unfold sendOn
  cases hurl : s.exchange.requestUrl with
  | none =>
      rw [hurl] at h
      cases h
  | some url =>
      rw [hurl] at h
      dsimp only [Scene.mapExchange] at h ⊢
      generalize outboundBody bodyLimit s.exchange.request = made at h ⊢
      obtain ⟨_ | body, r⟩ := made
      · cases h
      · obtain rfl := Option.some.inj h
        rfl

theorem sees_sendOn (bodyLimit : Nat) (s : Scene τ) :
    s.world.Sees ((Filter.forward bodyLimit).events s) (sendOn bodyLimit s).2.world := by
  simp only [events, outbound?, sendOn]
  cases s.exchange.requestUrl with
  | none => exact .refl s.world
  | some url =>
      dsimp only [Scene.mapExchange]
      rcases outboundBody bodyLimit s.exchange.request with ⟨_ | body, r⟩
      · exact .refl s.world
      · exact s.world.sees_send _

theorem sees_enterLimit (limit : RateLimit) (s : Scene τ) :
    s.world.Sees ((Filter.rateLimit limit).events s) (enterLimit limit s).scene.world := by
  simp only [events, enterLimit, RateLimit.check?]
  cases resolveKey limit.resolver s.exchange with
  | none =>
      dsimp only
      split <;> exact .refl s.world
  | some key =>
      dsimp only
      generalize hanswer : s.world.limiter.check s.world.clock
        (bucketName s.exchange.routeLabel key) limit.rate limit.burst = answered
      obtain ⟨answer, limiter⟩ := answered
      have hstep : Answered.Step s.world.limiter
          ⟨⟨s.world.clock, bucketName s.exchange.routeLabel key, limit.rate, limit.burst⟩, answer⟩
          limiter := hanswer
      have hasked := s.world.sees_checks (.single hstep)
      simp only [Option.map_some, RateLimiter.answered?, hanswer]
      cases answer with
      | error e => exact hasked
      | ok verdict =>
          simp only [applyVerdict]
          split
          · exact hasked
          · exact hasked.trans_nothing (.nothing rfl rfl rfl rfl)

theorem sees_enter (f : Filter) (s : Scene τ) :
    s.world.Sees (f.events s) (f.enter s).scene.world := by
  cases f with
  | request edit =>
      simp only [enter, enterRequest]
      rcases edit.apply s.exchange with ⟨_ | ⟨⟨⟩⟩, x⟩ <;> exact .refl s.world
  | retry policy bodyLimit =>
      simp only [enter, enterRetry]
      split
      · cases (s.exchange.request.body.materialize bodyLimit).1 <;> exact .refl s.world
      · exact .refl s.world
  | rateLimit limit => exact sees_enterLimit limit s
  | resolveUrl =>
      have hfound := sees_targetUrl s.exchange s.world s.exchange.request.uri
      simp only [enter, enterResolve]
      rcases htarget : targetUrl s.exchange s.world with ⟨_ | url, world⟩ <;>
        rw [htarget] at hfound <;> exact hfound
  | forward bodyLimit =>
      have hsent := sees_sendOn bodyLimit s
      simp only [enter, enterForward]
      rcases hsend : sendOn bodyLimit s with ⟨_ | reply, t⟩ <;> rw [hsend] at hsent <;> exact hsent
  | response | redirect | commit => exact .refl s.world

/-- Only where its address is found does the address of the backend change. -/
theorem requestUrl_enter (f : Filter) (s : Scene τ) (h : Event.requests (f.events s) = []) :
    (f.enter s).scene.exchange.requestUrl = s.exchange.requestUrl := by
  cases f with
  | request edit =>
      obtain ⟨p, -, hcovers, -⟩ := edit.exists_passage s.exchange
      simp only [enter, enterRequest, hcovers s.exchange rfl rfl, Passage.apply]
      cases p.outcome <;> rfl
  | retry policy bodyLimit =>
      simp only [enter, enterRetry]
      split
      · cases (s.exchange.request.body.materialize bodyLimit).1 <;> rfl
      · rfl
  | rateLimit limit =>
      obtain ⟨response, hentered⟩ := exists_exchange_enterLimit limit s
      rw [enter, hentered]
  | resolveUrl => cases h
  | forward bodyLimit =>
      obtain ⟨request, hsent⟩ := exists_exchange_sendOn bodyLimit s
      simp only [enter, enterForward]
      rcases hsend : sendOn bodyLimit s with ⟨_ | reply, ⟨x, world⟩⟩ <;> rw [hsend] at hsent <;>
        obtain rfl : x = _ := hsent <;> rfl
  | response | redirect | commit => rfl

theorem happens_enter (f : Filter) (s : Scene τ) : s.Happens (f.events s) (f.enter s).scene :=
  ⟨f.sees_enter s, (f.remains_enter s).route, (f.remains_enter s).pathMatch, f.requestUrl_enter s⟩

end Filter

/-! ### Rounds -/

/-- What happens in a stage is what happens there. -/
def Stage.HappensBy [TokenArithmetic τ] (next : Stage τ) (later : Scene τ → List Event) : Prop :=
  ∀ s : Scene τ, s.Happens (later s) (next s).2

/-- Rounds that follow on one another and lead from one scene to another. What others ask for
behind a round is never a bucket that can hold nothing. -/
inductive Scene.Passes [TokenArithmetic τ] (later : Scene τ → List Event) :
    Scene τ → List (Scene τ × List Answered) → Scene τ → Prop
  | nil (s : Scene τ) : Passes later s [] s
  | cons {s t u : Scene τ} {es : List Answered} {rounds : List (Scene τ × List Answered)}
    (h : s.Happens (roundEvents later (s, es)) t) (others : ∀ e ∈ es, e.burst ≠ 0)
    (rest : Passes later t rounds u) :
    Passes later s ((s, es) :: rounds) u

namespace Filter

variable [TokenArithmetic τ] {next : Stage τ} {later : Scene τ → List Event}

theorem sees_paused {policy : RetryPolicy} {attempt : Nat} {s : Scene τ}
    (hdelay : ∀ b, policy.backoff = some b → ∃ length, b.delay attempt s.world.draw.1 = some length) :
    s.world.Sees (Event.ofChecks (policy.backoff.elim [] fun _ => s.world.meantime))
      (paused policy attempt s) := by
  have hcount : s.world.Sees [] (s.world.count (.retry s.exchange.routeLabel attempt)) :=
    .nothing rfl rfl rfl rfl
  have hdraw : (s.world.count (.retry s.exchange.routeLabel attempt)).draw.1 = s.world.draw.1 := rfl
  have hmeantime : (s.world.count (.retry s.exchange.routeLabel attempt)).meantime =
      s.world.meantime := rfl
  unfold paused
  generalize s.world.count (.retry s.exchange.routeLabel attempt) = w at hcount hdraw hmeantime ⊢
  obtain ⟨hnone, h⟩ | ⟨b, hb, ⟨length, -, h⟩ | ⟨hgivenUp, -⟩⟩ :=
    pause_cases policy.backoff attempt w
  · rw [h, hnone]
    exact hcount
  · rw [h, hb]
    have hdrawn : s.world.Sees []
        { w.draw.2 with waited := w.draw.2.waited + Duration.ofMillis length.toNat } :=
      hcount.trans (.nothing rfl rfl rfl rfl)
    exact hmeantime ▸ hdrawn.trans (World.sees_elapse ..)
  · obtain ⟨length, hlength⟩ := hdelay b hb
    rw [hdraw, hlength] at hgivenUp
    cases hgivenUp

theorem sees_givenUp {policy : RetryPolicy} {attempt : Nat} {s : Scene τ} {b : Backoff}
    (hb : policy.backoff = some b) (hdelay : b.delay attempt s.world.draw.1 = none) :
    s.world.Sees [] (paused policy attempt s) := by
  have hcount : s.world.Sees [] (s.world.count (.retry s.exchange.routeLabel attempt)) :=
    .nothing rfl rfl rfl rfl
  have hdraw : (s.world.count (.retry s.exchange.routeLabel attempt)).draw.1 = s.world.draw.1 := rfl
  unfold paused
  generalize s.world.count (.retry s.exchange.routeLabel attempt) = w at hcount hdraw ⊢
  obtain ⟨-, h⟩ | ⟨b', hb', ⟨length, hlength, -⟩ | ⟨-, h⟩⟩ := pause_cases policy.backoff attempt w
  · rw [h]
    exact hcount
  · obtain rfl := Option.some.inj (hb.symm.trans hb')
    rw [hdraw, hdelay] at hlength
    cases hlength
  · rw [h]
    exact hcount.trans (.nothing rfl rfl rfl rfl)

/-- A stage that is run once makes one round. -/
theorem passes_single (h : next.HappensBy later) {s t : Scene τ} (ht : (next s).2.Happens [] t) :
    s.Passes later [(s, [])] t := by
  refine .cons ?_ (fun _ ha => absurd ha List.not_mem_nil) (.nil t)
  rw [roundEvents, Event.ofChecks, List.map_nil, List.append_nil]
  exact (h s).trans_nothing ht

theorem passes_attempts (policy : RetryPolicy) (method : Method) (point : RetryPoint)
    (h : next.HappensBy later) (further attempt : Nat) (s : Scene τ) :
    s.Passes later (attemptRounds policy method point next further attempt s)
      (attempts policy method point next further attempt s).2 := by
  induction further generalizing attempt s with
  | zero => exact passes_single h (.refl _)
  | succ further ih =>
      have hsequel := ensues_sequel policy method point attempt (next s).1 (next s).2
      simp only [attempts, attemptRounds]
      generalize sequel policy method point attempt (next s).1 (next s).2 = ensuing at hsequel ⊢
      cases hsequel with
      | stands => exact passes_single h (.refl _)
      | givenUp _ hb hdelay =>
          exact passes_single h ⟨sees_givenUp hb hdelay, rfl, rfl, fun _ => rfl⟩
      | again _ hdelay =>
          have hagain : (next s).2.Happens _ (again policy point attempt (next s).2) :=
            ⟨sees_paused hdelay, rfl, rfl, fun _ => rfl⟩
          refine .cons ((h s).trans hagain) ?_ (ih (attempt + 1) _)
          cases policy.backoff with
          | none => exact fun _ ha => absurd ha List.not_mem_nil
          | some b => exact (next s).2.world.burst_ne_zero_of_mem_meantime

theorem happens_commitAfter (next : Stage τ) (s : Scene τ) :
    (next s).2.Happens [] (commitAfter next s).2 := by
  obtain ⟨hremains, hurl⟩ := remains_commitAfter next s
  have hworld : (commitAfter next s).2.world = (next s).2.world := by
    simp only [commitAfter]
    split
    · rfl
    · split <;> rfl
  exact ⟨hworld ▸ .refl _, hremains.route, hremains.pathMatch, fun _ => hurl⟩

/-- Around the rest of the chain nothing happens but what others do in the pauses. -/
theorem passes_around (f : Filter) (h : next.HappensBy later) (s : Scene τ) :
    s.Passes later (f.rounds next s) (f.around next s).2 := by
  cases f with
  | response edit =>
      refine passes_single h ?_
      simp only [around, ResponseEdit.run]
      rcases next s with ⟨_ | ⟨⟨⟩⟩, t⟩
      · exact .refl t
      · exact ⟨.refl _, rfl, rfl, fun _ => rfl⟩
  | commit => exact passes_single h (happens_commitAfter next s)
  | retry policy bodyLimit =>
      simp only [around, rounds]
      split
      · exact passes_attempts policy _ _ h _ 1 s
      · exact passes_single h (.refl _)
  | _ => exact passes_single h (.refl _)

end Filter

/-! ### Chains -/

namespace Scene.Passes

variable [TokenArithmetic τ] {later : Scene τ → List Event} {s t : Scene τ}
  {rounds : List (Scene τ × List Answered)}

theorem happens (h : s.Passes later rounds t) :
    s.Happens (rounds.flatMap (roundEvents later)) t := by
  induction h with
  | nil s => exact .refl s
  | cons h _ _ ih => exact h.trans ih

/-- What holds at first and is kept from round to round holds where each of them begins. -/
theorem forall_mem {P : Scene τ → Prop} (h : s.Passes later rounds t) (hs : P s)
    (hkept : ∀ {s t es}, P s → s.Happens (roundEvents later (s, es)) t → P t) :
    ∀ r ∈ rounds, P r.1 := by
  induction h with
  | nil => exact List.forall_mem_nil _
  | cons h _ _ ih => exact List.forall_mem_cons.mpr ⟨hs, ih (hkept hs h)⟩

theorem burst_ne_zero (h : s.Passes later rounds t) : ∀ r ∈ rounds, ∀ e ∈ r.2, e.burst ≠ 0 := by
  induction h with
  | nil => exact List.forall_mem_nil _
  | cons _ hothers _ ih => exact List.forall_mem_cons.mpr ⟨hothers, ih⟩

end Scene.Passes

section

variable [TokenArithmetic τ]

/-- On the way through a chain its events happen, and nothing else. -/
theorem happens_runChain (chain : List OrderedFilter) :
    Stage.HappensBy (runChain (τ := τ) chain) (chainEvents chain) := by
  induction chain with
  | nil => exact Scene.Happens.refl
  | cons f rest ih =>
      intro s
      have henter := f.filter.happens_enter s
      rw [runChain, Filter.run_eq]
      simp only [chainEvents]
      cases hentry : f.filter.enter s with
      | failed e t | ended t =>
          rw [hentry] at henter
          rw [List.append_nil]
          exact henter
      | onward t =>
          rw [hentry] at henter
          exact henter.trans (f.filter.passes_around ih t).happens

theorem passes_runChain (f : Filter) (rest : List OrderedFilter) (s : Scene τ) :
    s.Passes (chainEvents rest) (f.rounds (runChain rest) s) (f.around (runChain rest) s).2 :=
  f.passes_around (happens_runChain rest) s

theorem RateLimit.burst_of_mem_answered {limit : RateLimit} {s : Scene τ} {l : RateLimiter τ}
    {e : Answered} (h : e ∈ (l.answered? (limit.check? s)).toList) : e.burst = limit.burst := by
  obtain ⟨c, hc, rfl⟩ := Option.map_eq_some_iff.mp (Option.mem_toList.mp h)
  obtain ⟨key, -, rfl⟩ := Option.map_eq_some_iff.mp hc
  rfl

theorem Filter.burst_ne_zero_of_mem_events {f : Filter}
    (hf : ∀ limit, f = .rateLimit limit → limit.burst ≠ 0) (s : Scene τ) :
    ∀ e ∈ Event.checks (f.events s), e.burst ≠ 0 := by
  have hothers := s.world.burst_ne_zero_of_mem_meantime
  intro e he
  cases f with
  | rateLimit limit =>
      rw [events, Event.checks_ofChecks] at he
      exact RateLimit.burst_of_mem_answered he ▸ hf limit rfl
  | resolveUrl =>
      have he : e ∈ Event.checks (Event.ofChecks
        (s.exchange.service?.elim [] fun _ => s.world.meantime)) := he
      rw [Event.checks_ofChecks] at he
      cases hservice : s.exchange.service? with
      | none =>
          rw [hservice] at he
          cases he
      | some service =>
          rw [hservice] at he
          exact hothers e he
  | forward bodyLimit =>
      simp only [events] at he
      cases houtbound : outbound? bodyLimit s.exchange with
      | none =>
          rw [houtbound] at he
          cases he
      | some o =>
          rw [houtbound] at he
          have he : e ∈ Event.checks (Event.ofChecks s.world.meantime) := he
          rw [Event.checks_ofChecks] at he
          exact hothers e he
  | request | response | redirect | retry | commit => cases he

/-- The capacities that are asked for on the way through a chain are those of its filters and of
others. -/
theorem burst_ne_zero_of_mem_chainEvents {chain : List OrderedFilter}
    (hchain : ∀ f ∈ chain, ∀ limit, f.filter = .rateLimit limit → limit.burst ≠ 0) (s : Scene τ) :
    ∀ e ∈ Event.checks (chainEvents chain s), e.burst ≠ 0 := by
  induction chain generalizing s with
  | nil => exact fun e he => nomatch he
  | cons f rest ih =>
      obtain ⟨hf, hrest⟩ := List.forall_mem_cons.mp hchain
      simp only [chainEvents, Event.checks_append]
      refine List.forall_mem_append.mpr ⟨f.filter.burst_ne_zero_of_mem_events hf s, ?_⟩
      cases hentry : f.filter.enter s with
      | failed e t | ended t => exact fun e he => nomatch he
      | onward t =>
          intro e he
          simp only [Event.checks, List.filterMap_flatMap, List.mem_flatMap] at he
          obtain ⟨r, hr, he⟩ := he
          rw [← Event.checks, roundEvents, Event.checks_append, Event.checks_ofChecks] at he
          rcases List.mem_append.mp he with he | he
          · exact ih hrest r.1 e he
          · exact (passes_runChain f.filter rest t).burst_ne_zero r hr e he

end

end HttpGateway
