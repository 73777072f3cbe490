import HttpGateway.Proofs.Filter.Events
import HttpGateway.Proofs.Filter.Calls
import HttpGateway.Proofs.Gateway.Outcome

/-!
# Where requests go

The backend of a request is that of its route. Only one filter of a chain finds the address of the
backend, it stands before the one that sends requests on, and of the request it takes path and query
as they are at that moment and nothing else. However often a chain is run, every call goes to scheme
and authority of the route, or of the service that the route names.
-/

namespace HttpGateway

variable {τ : Type}

/-! ### Directed calls -/

/-- Scheme and authority of one URI with the target of another, or `/` if that has none. -/
structure Uri.Joins (url base request : Uri) : Prop where
  scheme : url.scheme = base.scheme
  authority : url.authority = base.authority
  target : url.target = if request.hasTarget then request.target else Target.root

theorem Uri.joins_of_rebase {url base request : Uri} (h : base.rebase request = .ok url) :
    url.Joins base request := by
  unfold rebase ofParts at h
  split at h
  · cases h
  · cases h
  · obtain rfl := Except.ok.inj h
    exact ⟨rfl, rfl, rfl⟩

/-- What the directory answers when it is asked for these services, one after the other. -/
def Directory.answers (d : Directory) (asked : List String) : List String → List (Option Uri)
  | [] => []
  | service :: rest => (d (asked ++ [service])).answer :: d.answers (asked ++ [service]) rest

theorem Directory.answers_append (d : Directory) (asked first later : List String) :
    d.answers asked (first ++ later) = d.answers asked first ++ d.answers (asked ++ first) later := by
  induction first generalizing asked with
  | nil => simp [answers]
  | cons service rest ih => simp [answers, ih]

namespace RouteRef

variable {route : RouteRef} {directory : Directory} {asked : List String} {base request : Uri}
  {first later events : List Event} {o : Outbound}

/-- The address of a route, found when the directory has been asked for these services before: that
of the service that the route names, as the directory answers now, or that of the route itself. -/
def GoesTo (route : RouteRef) (directory : Directory) (asked : List String) (base : Uri) : Prop :=
  match route.service? with
  | some service => (directory (asked ++ [service])).answer = some base
  | none => route.uri = base

/-- Every call goes to the address of the route as it was found last before the call, with the target
of the request for which it was found then. -/
def Directs (route : RouteRef) (directory : Directory) (asked : List String)
    (events : List Event) : Prop :=
  ∀ before o after, events = before ++ .called o :: after →
    ∃ first request between base, before = first ++ .resolved request route.service? :: between ∧
      Event.requests between = [] ∧
      route.GoesTo directory (asked ++ Event.services first) base ∧ o.url.Joins base request

theorem mem_calls_of_eq_append {before after : List Event}
    (h : events = before ++ .called o :: after) : o ∈ Event.calls events := by
  rw [h, Event.calls_append]
  exact List.mem_append_right _ List.mem_cons_self

theorem directs_of_calls_eq_nil (h : Event.calls events = []) :
    route.Directs directory asked events := by
  intro before o after hsplit
  have ho := mem_calls_of_eq_append hsplit
  rw [h] at ho
  cases ho

theorem Directs.append (h : route.Directs directory asked first)
    (h' : route.Directs directory (asked ++ Event.services first) later) :
    route.Directs directory asked (first ++ later) := by
  intro before o after hsplit
  rcases List.append_eq_append_iff.mp hsplit with ⟨rest, rfl, hlater⟩ | ⟨rest, hfirst, hrest⟩
  · obtain ⟨earlier, request, between, base, rfl, hnone, hbase, hjoins⟩ := h' rest o after hlater
    refine ⟨first ++ earlier, request, between, base, (List.append_assoc ..).symm, hnone, ?_, hjoins⟩
    rwa [Event.services_append, ← List.append_assoc]
  · cases rest with
    | cons e rest =>
        cases hrest
        exact h before o rest hfirst
    | nil =>
        -- What is directed does not begin with a call.
        obtain ⟨earlier, _, _, _, hempty, -⟩ := h' [] o after hrest.symm
        cases earlier <;> cases hempty

/-- An address that has been found is that of the route, with the target of the request. -/
theorem exists_base_of_targetUrl {x : Exchange} {w world : World τ} [TokenArithmetic τ] {url : Uri}
    (hroute : x.route = some route) (h : Filter.targetUrl x w = (.ok url, world)) :
    ∃ base, route.GoesTo w.directory w.asked base ∧ url.Joins base x.request.uri := by
  have hgoesTo {base : Uri} {world : World τ}
      (h : Filter.backendBase route.uri w = (.ok base, world)) :
      route.GoesTo w.directory w.asked base := by
    unfold Filter.backendBase at h
    unfold GoesTo service?
    split at h
    next hservice =>
      rw [if_pos hservice]
      dsimp only [World.find] at h ⊢
      cases hanswer : (w.directory (w.asked ++ [route.uri.host.getD ""])).answer with
      | none =>
          rw [hanswer] at h
          cases h
      | some found =>
          rw [hanswer] at h
          cases h
          rfl
    next hdirect =>
      rw [if_neg hdirect]
      cases h
      rfl
  simp only [Filter.targetUrl, hroute] at h
  rcases hbase : Filter.backendBase route.uri w with ⟨_ | base, _⟩ <;> rw [hbase] at h
  · cases h
  · dsimp only at h
    cases hrebase : base.rebase x.request.uri with
    | error e =>
        rw [hrebase] at h
        cases h
    | ok url' =>
        rw [hrebase] at h
        cases h
        exact ⟨base, hgoesTo hbase, Uri.joins_of_rebase hrebase⟩

end RouteRef

/-! ### Events of a chain -/

def Filter.resolves : Filter → Bool
  | .resolveUrl => true
  | _ => false

/-- Finding the address of the backend is not among the events, and all calls go to this one. -/
def Event.CallsAt (url : Uri) : Event → Prop
  | .called o => o.url = url
  | .checked _ => True
  | .resolved _ _ => False

theorem Event.callsAt_ofChecks (url : Uri) (es : List RateLimiter.Answered) :
    ∀ e ∈ ofChecks es, e.CallsAt url := by
  simp [ofChecks, CallsAt]

theorem Event.requests_eq_nil {url : Uri} {events : List Event} (h : ∀ e ∈ events, e.CallsAt url) :
    requests events = [] := by
  refine List.filterMap_eq_nil_iff.mpr fun e he => ?_
  cases e with
  | resolved request service => exact (h _ he).elim
  | called | checked => rfl

theorem callsAt_roundEvents {url : Uri} {events : Scene τ → List Event}
    {r : Scene τ × List RateLimiter.Answered} (h : ∀ e ∈ events r.1, e.CallsAt url) :
    ∀ e ∈ roundEvents events r, e.CallsAt url :=
  List.forall_mem_append.mpr ⟨h, Event.callsAt_ofChecks url r.2⟩

section

variable [TokenArithmetic τ] {before later : List OrderedFilter}

theorem Filter.callsAt_events {f : Filter} (hf : f.resolves = false) {s : Scene τ} {url : Uri}
    (h : s.exchange.requestUrl = some url) : ∀ e ∈ f.events s, e.CallsAt url := by
  cases f with
  | resolveUrl => cases hf
  | rateLimit limit => exact Event.callsAt_ofChecks url _
  | forward bodyLimit =>
      simp only [events, outbound?, h]
      cases (outboundBody bodyLimit s.exchange.request).1 with
      | error e => exact List.forall_mem_nil _
      | ok body => exact List.forall_mem_cons.mpr ⟨rfl, Event.callsAt_ofChecks url _⟩
  | _ => exact List.forall_mem_nil _

/-- Where no filter finds the address anew, all calls go to the one that has been found. -/
theorem callsAt_chainEvents (hchain : ∀ f ∈ later, f.filter.resolves = false) {url : Uri}
    {s : Scene τ} (h : s.exchange.requestUrl = some url) :
    ∀ e ∈ chainEvents later s, e.CallsAt url := by
  induction later generalizing s with
  | nil => exact List.forall_mem_nil _
  | cons f rest ih =>
      obtain ⟨hf, hrest⟩ := List.forall_mem_cons.mp hchain
      have hevents := Filter.callsAt_events hf h
      have henter := (f.filter.happens_enter s).url (Event.requests_eq_nil hevents)
      simp only [chainEvents]
      refine List.forall_mem_append.mpr ⟨hevents, ?_⟩
      cases hentry : f.filter.enter s with
      | failed e t | ended t => exact List.forall_mem_nil _
      | onward t =>
          rw [hentry] at henter
          -- A round that makes nothing but calls leaves the address as it was.
          have hrounds := (passes_runChain f.filter rest t).forall_mem
            (P := fun u => u.exchange.requestUrl = some url) (henter.trans h)
            fun hs hround =>
              (hround.url (Event.requests_eq_nil (callsAt_roundEvents (ih hrest hs)))).trans hs
          intro e he
          obtain ⟨r, hr, he⟩ := List.mem_flatMap.mp he
          exact callsAt_roundEvents (ih hrest (hrounds r hr)) e he

namespace RouteRef

variable {route : RouteRef} {directory : Directory}

/-- What is directed in each round is directed in all of them, one after the other. -/
theorem directs_rounds {events : Scene τ → List Event} {s t : Scene τ}
    {rounds : List (Scene τ × List RateLimiter.Answered)} (h : s.Passes events rounds t)
    (hevents : ∀ s : Scene τ, s.exchange.route = some route → s.world.directory = directory →
      route.Directs directory s.world.asked (events s))
    (hroute : s.exchange.route = some route) (hdirectory : s.world.directory = directory) :
    route.Directs directory s.world.asked (rounds.flatMap (roundEvents events)) := by
  induction h with
  | nil s => exact directs_of_calls_eq_nil rfl
  | @cons s t u es rounds hround _ _ ih =>
      have hothers : route.Directs directory (s.world.asked ++ Event.services (events s))
          (Event.ofChecks es) := directs_of_calls_eq_nil (Event.calls_ofChecks es)
      have hrest := ih (hround.route.trans hroute) (hround.world.directory.trans hdirectory)
      rw [hround.world.asked] at hrest
      exact ((hevents s hroute hdirectory).append hothers).append hrest

omit [TokenArithmetic τ] in
/-- Once the address has been found all calls that follow go there. -/
theorem directs_of_resolved {asked : List String} {url base request : Uri} {events : List Event}
    (hbase : route.GoesTo directory asked base) (hjoins : url.Joins base request)
    (hcalls : ∀ e ∈ events, e.CallsAt url) :
    route.Directs directory asked (.resolved request route.service? :: events) := by
  intro first o after hsplit
  cases first with
  | nil => cases hsplit
  | cons e between =>
      obtain ⟨rfl, rfl⟩ := List.cons.inj hsplit
      obtain ⟨hbetween, hlast⟩ := List.forall_mem_append.mp hcalls
      obtain rfl : o.url = url := hlast _ List.mem_cons_self
      refine ⟨[], request, between, base, rfl, Event.requests_eq_nil hbetween, ?_, hjoins⟩
      rwa [Event.services, List.filterMap_nil, List.append_nil]

/-- The calls of a chain that finds the address of the backend before it sends anything, and in one
place. -/
theorem directs_chainEvents {order : Int32}
    (hbefore : ∀ f ∈ before, ∀ s : Scene τ, Event.calls (f.filter.events s) = [])
    (hlater : ∀ f ∈ later, f.filter.resolves = false) {s : Scene τ}
    (hroute : s.exchange.route = some route) (hdirectory : s.world.directory = directory) :
    route.Directs directory s.world.asked
      (chainEvents (before ++ ⟨order, .resolveUrl⟩ :: later) s) := by
  induction before generalizing s with
  | nil =>
      have hservice : s.exchange.service? = route.service? :=
        congrArg (fun r => r.bind RouteRef.service?) hroute
      simp only [List.nil_append, chainEvents, Filter.enter, Filter.enterResolve, Filter.events,
        hservice]
      rcases htarget : Filter.targetUrl s.exchange s.world with ⟨_ | url, world⟩
      · refine directs_of_calls_eq_nil ?_
        rw [List.append_nil]
        exact Event.calls_ofChecks _
      · let t : Scene τ := ⟨{ s.exchange with requestUrl := some url }, world⟩
        obtain ⟨base, hbase, hjoins⟩ := exists_base_of_targetUrl hroute htarget
        have hlast : ∀ e ∈ [(t, [])].flatMap (roundEvents (chainEvents later)), e.CallsAt url := by
          rw [List.flatMap_singleton]
          exact callsAt_roundEvents (callsAt_chainEvents hlater rfl)
        exact directs_of_resolved (hdirectory ▸ hbase) hjoins
          (List.forall_mem_append.mpr ⟨Event.callsAt_ofChecks url _, hlast⟩)
  | cons f rest ih =>
      obtain ⟨hf, hrest⟩ := List.forall_mem_cons.mp hbefore
      have henter := f.filter.happens_enter s
      simp only [List.cons_append, chainEvents]
      refine Directs.append (directs_of_calls_eq_nil (hf s)) ?_
      cases hentry : f.filter.enter s with
      | failed e t | ended t => exact directs_of_calls_eq_nil rfl
      | onward t =>
          rw [hentry] at henter
          have hasked : t.world.asked = s.world.asked ++ Event.services (f.filter.events s) :=
            henter.world.asked
          rw [← hasked]
          exact directs_rounds (passes_runChain f.filter _ t) (fun u hu hu' => ih hrest hu hu')
            (henter.route.trans hroute) (henter.world.directory.trans hdirectory)

end RouteRef

end

/-! ### Chains of routes -/

theorem exists_only_of_countP_eq_one {α : Type} {p : α → Bool} {l : List α} (h : l.countP p = 1) :
    ∃ before a later, l = before ++ a :: later ∧ p a = true ∧ (∀ b ∈ before, p b = false) ∧
      ∀ b ∈ later, p b = false := by
  obtain ⟨a, ha, hpa⟩ := List.countP_pos_iff.mp (Nat.lt_of_lt_of_eq Nat.one_pos h.symm)
  obtain ⟨before, later, rfl⟩ := List.append_of_mem ha
  rw [List.countP_append, List.countP_cons_of_pos hpa] at h
  have hbefore : before.countP p = 0 := by omega
  have hlater : later.countP p = 0 := by omega
  refine ⟨before, a, later, rfl, hpa, fun b hb => ?_, fun b hb => ?_⟩
  · exact Bool.eq_false_iff.mpr (List.countP_eq_zero.mp hbefore b hb)
  · exact Bool.eq_false_iff.mpr (List.countP_eq_zero.mp hlater b hb)

theorem Filter.IsMade.isQuiet {f : Filter} (h : f.IsMade) :
    f.resolves = false ∧ f.isForward = false := by
  cases f with
  | commit | resolveUrl | forward => exact h.elim
  | _ => exact ⟨rfl, rfl⟩

/-- Only forwarding calls the backend. -/
theorem Filter.calls_events [TokenArithmetic τ] {f : Filter} (h : f.isForward = false) (s : Scene τ) :
    Event.calls (f.events s) = [] := by
  cases f with
  | forward bodyLimit => cases h
  | rateLimit limit => exact Event.calls_ofChecks _
  | resolveUrl => exact Event.calls_ofChecks _
  | _ => rfl

section

variable (bodyLimit : Nat) {filters : List OrderedFilter} {f : OrderedFilter}

theorem mem_globalFilters (h : f ∈ Gateway.globalFilters bodyLimit) :
    f = ⟨OrderedFilter.commitOrder, .commit⟩ ∨ f = ⟨OrderedFilter.resolveOrder, .resolveUrl⟩ ∨
      f = ⟨OrderedFilter.forwardOrder, .forward bodyLimit⟩ := by
  simpa [Gateway.globalFilters] using h

variable (hmade : ∀ f ∈ filters, f.filter.IsMade)

include hmade

theorem countP_resolves_merge :
    (OrderedFilter.merge (Gateway.globalFilters bodyLimit) filters).countP
      (fun f => f.filter.resolves) = 1 := by
  have hnone : filters.countP (fun f => f.filter.resolves) = 0 :=
    List.countP_eq_zero.mpr fun f hf => ne_true_of_eq_false (hmade f hf).isQuiet.1
  rw [(OrderedFilter.merge_perm _ _).countP_eq, List.countP_append, hnone]
  rfl

variable (hf : f ∈ OrderedFilter.merge (Gateway.globalFilters bodyLimit) filters)

include hf

theorem eq_of_resolves (h : f.filter.resolves = true) :
    f = ⟨OrderedFilter.resolveOrder, .resolveUrl⟩ := by
  rcases OrderedFilter.mem_merge.mp hf with hglobal | hroute
  · rcases mem_globalFilters bodyLimit hglobal with rfl | rfl | rfl
    · cases h
    · rfl
    · cases h
  · rw [(hmade f hroute).isQuiet.1] at h
    cases h

/-- The filter that sends requests on has the highest order there is. -/
theorem isForward_of_order_le (h : f.filter.resolves = false)
    (horder : f.order ≤ OrderedFilter.resolveOrder) : f.filter.isForward = false := by
  rcases OrderedFilter.mem_merge.mp hf with hglobal | hroute
  · rcases mem_globalFilters bodyLimit hglobal with rfl | rfl | rfl
    · rfl
    · cases h
    · have hbehind : ¬OrderedFilter.forwardOrder ≤ OrderedFilter.resolveOrder := by decide
      exact absurd horder hbehind
  · exact (hmade f hroute).isQuiet.2

end

/-- Wherever the filters of a route stand, the address is found before anything is sent, and not
again after that. -/
theorem exists_merge_eq (bodyLimit : Nat) {filters : List OrderedFilter}
    (hmade : ∀ f ∈ filters, f.filter.IsMade) :
    ∃ before order later,
      OrderedFilter.merge (Gateway.globalFilters bodyLimit) filters =
        before ++ ⟨order, .resolveUrl⟩ :: later ∧
      (∀ f ∈ before, f.filter.isForward = false) ∧ ∀ f ∈ later, f.filter.resolves = false := by
  obtain ⟨before, g, later, hmerge, hg, hbefore, hlater⟩ :=
    exists_only_of_countP_eq_one (countP_resolves_merge bodyLimit hmade)
  have hsorted := OrderedFilter.ascending_merge (Gateway.globalFilters bodyLimit) filters
  have hquiet {f : OrderedFilter} := isForward_of_order_le bodyLimit hmade (f := f)
  have hfound := eq_of_resolves bodyLimit hmade (f := g)
  -- All that is known of the chain is known of its two parts.
  rw [hmerge] at hsorted hquiet hfound
  obtain rfl := hfound (List.mem_append_right before List.mem_cons_self) hg
  refine ⟨before, _, later, hmerge, fun f hf => ?_, hlater⟩
  have horder := (List.pairwise_append.mp hsorted).2.2 f hf _ List.mem_cons_self
  exact hquiet (List.mem_append_left _ hf) (hbefore f hf) horder

namespace RouteRef

variable {route : RouteRef} {directory directory' : Directory} {asked asked' : List String}
  {events events' : List Event}

/-- Where a call goes is the address of the route or an answer of the directory. -/
theorem Directs.exists_base (h : route.Directs directory asked events) {o : Outbound}
    (ho : o ∈ Event.calls events) : ∃ base, o.url.scheme = base.scheme ∧
      o.url.authority = base.authority ∧
      match route.service? with
      | some _ => some base ∈ directory.answers asked (Event.services events)
      | none => route.uri = base := by
  obtain ⟨e, he, ho⟩ := List.mem_filterMap.mp ho
  cases e with
  | resolved | checked => cases ho
  | called o' =>
      cases ho
      obtain ⟨before, after, rfl⟩ := List.append_of_mem he
      obtain ⟨first, request, between, base, rfl, -, hbase, hjoins⟩ := h before _ after rfl
      refine ⟨base, hjoins.scheme, hjoins.authority, ?_⟩
      unfold GoesTo at hbase
      cases hservice : route.service? with
      | none =>
          rw [hservice] at hbase
          exact hbase
      | some service =>
          rw [hservice] at hbase
          have hservices : Event.services (first ++ .resolved request (some service) :: between ++
              .called o :: after) = Event.services first ++ service ::
                (Event.services between ++ Event.services after) := by
            rw [Event.services_append, Event.services_append, List.append_assoc]
            rfl
          rw [hservices, Directory.answers_append]
          refine List.mem_append_right _ ?_
          rw [Directory.answers, hbase]
          exact List.mem_cons_self

/-- Calls that are directed by the same answers go to the same scheme and authority. -/
theorem Directs.same (h : route.Directs directory asked events)
    (h' : route.Directs directory' asked' events')
    (hsame : ∀ a ∈ directory.answers asked (Event.services events),
      ∀ a' ∈ directory'.answers asked' (Event.services events'), a = a')
    {o o' : Outbound} (ho : o ∈ Event.calls events) (ho' : o' ∈ Event.calls events') :
    o.url.scheme = o'.url.scheme ∧ o.url.authority = o'.url.authority := by
  obtain ⟨base, hscheme, hauthority, hbase⟩ := h.exists_base ho
  obtain ⟨base', hscheme', hauthority', hbase'⟩ := h'.exists_base ho'
  obtain rfl : base = base' := by
    cases hservice : route.service? with
    | none =>
        rw [hservice] at hbase hbase'
        exact hbase.symm.trans hbase'
    | some service =>
        rw [hservice] at hbase hbase'
        exact Option.some.inj (hsame _ hbase _ hbase')
  exact ⟨hscheme.trans hscheme'.symm, hauthority.trans hauthority'.symm⟩

end RouteRef

theorem Directory.exists_of_mem_answers {d : Directory} {asked services : List String}
    {a : Option Uri} (h : a ∈ d.answers asked services) : ∃ history, a = (d history).answer := by
  induction services generalizing asked with
  | nil => cases h
  | cons service rest ih =>
      rcases List.mem_cons.mp h with rfl | h
      · exact ⟨_, rfl⟩
      · exact ih h

namespace Handler

/-- What happens while a request is handled on its route. -/
def events [TokenArithmetic τ] (bodyLimit : Nat) (route : Route) (found : Option PathMatch)
    (s : Scene τ) : List Event :=
  chainEvents (OrderedFilter.merge (Gateway.globalFilters bodyLimit) route.filters)
    (enterRoute route found s)

variable [TokenArithmetic τ] {c : RouteCompiler} {d : RouteDefinition} {route : Route}

theorem directs_events (bodyLimit : Nat) (h : c.compile d = .ok route) (found : Option PathMatch)
    (s : Scene τ) :
    route.toRef.Directs s.world.directory s.world.asked (events bodyLimit route found s) := by
  obtain ⟨before, order, later, hmerge, hbefore, hlater⟩ :=
    exists_merge_eq bodyLimit (RouteCompiler.isMade_of_compile h)
  rw [events, hmerge]
  exact RouteRef.directs_chainEvents (s := enterRoute route found s)
    (fun f hf => Filter.calls_events (hbefore f hf)) hlater rfl rfl

theorem sees_events (bodyLimit : Nat) {list : List Route} {now : Timestamp} {s : Scene τ}
    {found : Option PathMatch}
    (hselect : Route.select list s.exchange.request now = some (route, found)) :
    s.world.Sees (events bodyLimit route found s)
      (handle (Gateway.globalFilters bodyLimit) (.ok list) now s).2 := by
  obtain ⟨metrics, hworld⟩ := exists_world_handle (Gateway.globalFilters bodyLimit) hselect
  rw [hworld]
  exact (happens_runChain _ (enterRoute route found s)).world.trans_nothing (.nothing rfl rfl rfl rfl)

/-- The client cannot choose the backend. Whatever is asked for on a route, in whatever form and with
whatever headers, and wherever the filters of the route stand: each call of the backend goes to
scheme and authority of the route, or of what the directory has answered last for the service that
the route names, with path and query of the request when the address was found. Requests on the same
route go to the same scheme and authority, as long as the directory answers the same. -/
theorem calls_go_to_route (bodyLimit : Nat) (h : c.compile d = .ok route) {list : List Route}
    {now : Timestamp} {s : Scene τ} {found : Option PathMatch}
    (hselect : Route.select list s.exchange.request now = some (route, found)) :
    let happened := events bodyLimit route found s
    let left := (handle (Gateway.globalFilters bodyLimit) (.ok list) now s).2
    left.calls = s.world.calls + (Event.calls happened).length ∧
      left.sent = s.world.sent ++ Event.calls happened ∧
      left.asked = s.world.asked ++ Event.services happened ∧
      route.toRef.Directs s.world.directory s.world.asked happened ∧
      ∀ (list' : List Route) (now' : Timestamp) (s' : Scene τ) (found' : Option PathMatch),
        Route.select list' s'.exchange.request now' = some (route, found') →
        let happened' := events bodyLimit route found' s'
        (∀ a ∈ s.world.directory.answers s.world.asked (Event.services happened),
          ∀ a' ∈ s'.world.directory.answers s'.world.asked (Event.services happened'), a = a') →
        ∀ o ∈ Event.calls happened, ∀ o' ∈ Event.calls happened',
          o.url.scheme = o'.url.scheme ∧ o.url.authority = o'.url.authority := by
  intro happened left
  have hsees := sees_events bodyLimit hselect
  have hdirects := directs_events bodyLimit h found s
  refine ⟨(congrArg List.length hsees.sent).trans List.length_append, hsees.sent, hsees.asked,
    hdirects, ?_⟩
  intro list' now' s' found' _ happened' hsame o ho o' ho'
  exact hdirects.same (directs_events bodyLimit h found' s') hsame ho ho'

/-- A route that names a service. Paths are prefixed twice, once before and once after the address
has been found, and each request is tried twice, for which the address is found anew. -/
def serviceDefinition : RouteDefinition where
  id := "r"
  uri := "lb://users"
  filters :=
    [⟨"PrefixPath", [("prefix", .str "/v1")], none⟩, ⟨"Retry", [("retries", .int 2)], none⟩,
      ⟨"PrefixPath", [("prefix", .str "/late")], some 20000⟩]

def serviceRoute : Route where
  id := "r"
  uri := ⟨some "lb", some "users", ⟨"", none⟩⟩
  filters :=
    [⟨1, .request (.prefixPath "/v1")⟩, ⟨2, .retry { maxAttempts := 2 } 1024⟩,
      ⟨20000, .request (.prefixPath "/late")⟩]

/-- An address of the service. -/
def instanceAt (authority : String) : Uri := ⟨some "http", some authority, ⟨"", none⟩⟩

/-- A service that moves once it has been found. -/
def moving : Directory := fun asked =>
  { answer := some (instanceAt (if asked.length ≤ 1 then "10.0.0.5:80" else "10.0.0.6:80")) }

def staying : Directory := fun _ => { answer := some (instanceAt "10.0.0.5:80") }

/-- A request for a URI, while the service is unavailable. -/
def askedFor (uri : Uri) (directory : Directory) : Scene Rat where
  exchange := { request := { uri } }
  world :=
    { backend := fun _ => { answer := .ok { status := Status.serviceUnavailable } }
      directory
      limiter := .empty }

/-- A request that names a host of its own goes to the service, with the path that was prefixed once,
and its repetition goes to where the service has moved. As long as the service stays, a request
without a host goes to the same place. -/
theorem calls_go_to_route_of_service :
    let named : Uri := ⟨some "http", some "evil", ⟨"/a", some "x=1"⟩⟩
    let happened := events 1024 serviceRoute none (askedFor named moving)
    (handle (Gateway.globalFilters 1024) (.ok [serviceRoute]) ⟨0, 0, 0⟩
        (askedFor named moving)).2.calls = 2 ∧
      (Event.calls happened).map (fun o => o.url.render) =
        ["http://10.0.0.5:80/v1/a?x=1", "http://10.0.0.6:80/v1/a?x=1"] ∧
      serviceRoute.toRef.Directs moving [] happened ∧
      ∀ o ∈ Event.calls (events 1024 serviceRoute none (askedFor named staying)),
        ∀ o' ∈ Event.calls
            (events 1024 serviceRoute none (askedFor ⟨none, none, ⟨"/b", none⟩⟩ staying)),
          o.url.authority = o'.url.authority := by
  intro named happened
  have hcompile : RouteCompiler.compile ⟨1024, []⟩ serviceDefinition = .ok serviceRoute :=
    RouteCompiler.compile_eq_ok_iff.mpr ⟨by decide, by cbv, rfl, by cbv, rfl, rfl⟩
  have htaken (uri : Uri) (directory : Directory) : Route.select [serviceRoute]
      (askedFor uri directory).exchange.request ⟨0, 0, 0⟩ = some (serviceRoute, none) := rfl
  have hmerge : OrderedFilter.merge (Gateway.globalFilters 1024) serviceRoute.filters =
      [⟨-1, .commit⟩, ⟨1, .request (.prefixPath "/v1")⟩, ⟨2, .retry { maxAttempts := 2 } 1024⟩,
        ⟨10000, .resolveUrl⟩, ⟨20000, .request (.prefixPath "/late")⟩,
        ⟨2147483647, .forward 1024⟩] := by cbv
  have hmade : (Event.calls happened).map (fun o => o.url.render) =
      ["http://10.0.0.5:80/v1/a?x=1", "http://10.0.0.6:80/v1/a?x=1"] := by
    simp only [happened, events, hmerge]
    decide +kernel
  obtain ⟨hcalls, -, -, hdirects, -⟩ := calls_go_to_route 1024 hcompile (htaken named moving)
  obtain ⟨-, -, -, -, hsame⟩ := calls_go_to_route 1024 hcompile (htaken named staying)
  have hlength : (Event.calls happened).length = 2 := by
    rw [← List.length_map, hmade]
    rfl
  refine ⟨hcalls.trans ((Nat.zero_add _).trans hlength), hmade, hdirects, fun o ho o' ho' => ?_⟩
  refine (hsame _ _ _ none (htaken _ staying) (fun a ha a' ha' => ?_) o ho o' ho').2
  obtain ⟨_, rfl⟩ := Directory.exists_of_mem_answers ha
  obtain ⟨_, rfl⟩ := Directory.exists_of_mem_answers ha'
  rfl

end Handler

end HttpGateway
