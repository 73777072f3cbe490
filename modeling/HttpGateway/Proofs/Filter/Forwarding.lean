import HttpGateway.Proofs.Filter.Entry
import HttpGateway.Proofs.Filter.Plain

/-!
# Plain filters around forwarding

A chain of plain filters that finds the address of the backend and forwards the request further on
works in two parts. The first makes the request to be sent and looks at nothing but the exchange.
The second is what the answer of the backend leads to. If the body of the request can be handed out
again, a chain of this kind can be run again on what is left of the exchange.
-/

namespace HttpGateway

variable {τ : Type}

/-- Plain filters before the address of the backend is found, between that and the forwarding, and
behind it, and the limit on the bodies that the forwarding reads. -/
structure ForwardingChain where
  before : List OrderedFilter
  resolveOrder : Int32
  between : List OrderedFilter
  forwardOrder : Int32
  bodyLimit : Nat
  behind : List OrderedFilter
  isPlain_before : ∀ f ∈ before, f.filter.isPlain = true
  isPlain_between : ∀ f ∈ between, f.filter.isPlain = true
  isPlain_behind : ∀ f ∈ behind, f.filter.isPlain = true

/-- What the directory answers does not depend on what it has been asked before. -/
def Directory.Steady (d : Directory) : Prop :=
  ∀ asked asked' service, (d (asked ++ [service])).answer = (d (asked' ++ [service])).answer

namespace ForwardingChain

def filters (c : ForwardingChain) : List OrderedFilter :=
  c.before ++ ⟨c.resolveOrder, .resolveUrl⟩ ::
    (c.between ++ ⟨c.forwardOrder, .forward c.bodyLimit⟩ :: c.behind)

/-- Makes the request to be sent to this address, and the one that is left. -/
def makeOutbound (c : ForwardingChain) (url : Uri) (x : Exchange) :
    Except GatewayError Outbound × Exchange :=
  let (body, r) := Filter.outboundBody c.bodyLimit x.request
  (body.map fun body => ⟨r.method, url, Filter.outboundHeaders r, body⟩, { x with request := r })

/-- The first part: up to the request to be sent. -/
def prepare [TokenArithmetic τ] (c : ForwardingChain) (s : Scene τ) :
    Except GatewayError Outbound × Scene τ :=
  match requestPass c.before s.exchange with
  | (.error e, x) => (.error e, { s with exchange := x })
  | (.ok (), x) => match Filter.targetUrl x s.world with
    | (.error e, world) => (.error e, ⟨x, world⟩)
    | (.ok url, world) => match requestPass c.between { x with requestUrl := some url } with
      | (.error e, x) => (.error e, ⟨x, world⟩)
      | (.ok (), x) =>
        let (made, x) := c.makeOutbound url x
        (made, ⟨x, world⟩)

/-- The edits of the response by all filters. -/
def respond (c : ForwardingChain) (r : Response) : Response :=
  responsePass c.before (responsePass c.between (responsePass c.behind r))

/-- The second part: what the answer of the backend leads to. -/
def conclude (c : ForwardingChain) (answer : Except GatewayError Reply) (x : Exchange) :
    Outcome × Exchange :=
  match answer with
  | .error e => (.error e, x)
  | .ok reply =>
    match requestPass c.behind (x.capture { reply with headers := reply.headers.stripHopByHop }) with
    | (.error e, x) => (.error e, x)
    | (.ok (), x) => (.ok (), x.mapResponse c.respond)

variable (c : ForwardingChain)

/-- A pass over the request leaves the address of the backend as it is. -/
theorem requestUrl_requestPass (filters : List OrderedFilter) (x : Exchange) :
    (requestPass filters x).2.requestUrl = x.requestUrl := by
  obtain ⟨p, -, hp, -⟩ := exists_passage filters x
  rw [hp x rfl rfl]
  rfl

theorem run_forward_plain [TokenArithmetic τ] (s : Scene τ) {url : Uri}
    (hurl : s.exchange.requestUrl = some url) :
    Filter.forwardThen c.bodyLimit (runChain c.behind) s =
      match c.makeOutbound url s.exchange with
      | (.error e, x) => (.error e, { s with exchange := x })
      | (.ok o, x) => match s.world.send o with
        | (.error e, world) => (.error e, ⟨x, world⟩)
        | (.ok reply, world) => runChain c.behind
            ⟨x.capture { reply with headers := reply.headers.stripHopByHop }, world⟩ := by
  simp only [Filter.forwardThen, hurl, makeOutbound, Scene.mapExchange]
  rcases Filter.outboundBody c.bodyLimit s.exchange.request with ⟨_ | body, r⟩ <;> rfl

/-- What the chain does, when the request can be made and when it cannot. -/
theorem runChain_filters [TokenArithmetic τ] (s : Scene τ) :
    runChain c.filters s = match c.prepare s with
      | (.error e, t) => (.error e, t)
      | (.ok o, t) =>
        let (answer, world) := t.world.send o
        let (outcome, y) := c.conclude answer t.exchange
        (outcome, ⟨y, world⟩) := by
  rw [filters, runChain_append_of_plain _ c.isPlain_before]
  simp only [passThen, prepare]
  rcases requestPass c.before s.exchange with ⟨_ | ⟨⟨⟩⟩, x⟩
  · rfl
  · simp only [runChain, Filter.run, Filter.resolveThen]
    rcases Filter.targetUrl x s.world with ⟨_ | url, world⟩
    · rfl
    · have hurl := requestUrl_requestPass c.between { x with requestUrl := some url }
      simp only [runChain_append_of_plain _ c.isPlain_between, passThen]
      rcases hpass : requestPass c.between { x with requestUrl := some url } with ⟨_ | ⟨⟨⟩⟩, y⟩
      · rfl
      · rw [hpass] at hurl
        simp only [runChain, Filter.run, c.run_forward_plain ⟨y, world⟩ hurl]
        rcases c.makeOutbound url y with ⟨_ | o, y⟩
        · rfl
        · dsimp only [conclude]
          rcases world.send o with ⟨_ | reply, world⟩
          · rfl
          · simp only [runChain_of_plain c.isPlain_behind, passThen]
            rcases requestPass c.behind _ with ⟨_ | ⟨⟨⟩⟩, x⟩ <;> rfl

/-! ### Making the request again -/

/-- What making a request comes to: what is sent, and what it leaves of the exchange. -/
structure Prepared where
  outbound : Outbound
  url : Uri
  uri : Uri
  headers : Headers
  trail : List Uri

/-- The exchange after the request has been made. -/
def Prepared.apply (p : Prepared) (x : Exchange) : Exchange :=
  { x with
    request := { x.request with uri := p.uri, headers := p.headers }
    requestUrl := some p.url
    originalUrls := keepUrls x.originalUrls p.trail }

/-- A body that can be handed out again is handed out as a whole, and stays as it is. -/
theorem outboundBody_of_isReplayable (limit : Nat) {r : Request}
    (hbody : r.body.isReplayable = true) :
    ∃ bytes headers, Filter.outboundBody limit r = (.ok (.whole bytes), { r with headers }) := by
  rcases r with ⟨method, uri, headers, body, remote⟩
  simp only [Filter.outboundBody]
  split
  · cases body with
    | empty | buffered => exact ⟨_, _, rfl⟩
    | _ => simp [RequestBody.isReplayable] at hbody
  · cases body with
    | empty | buffered => exact ⟨_, _, rfl⟩
    | _ => simp [RequestBody.isReplayable] at hbody

theorem targetUrl_of_steady [TokenArithmetic τ] {w w' : World τ} (hsteady : w.directory.Steady)
    (hdirectory : w'.directory = w.directory) {x y : Exchange} (hroute : y.route = x.route)
    (huri : y.request.uri = x.request.uri) :
    (Filter.targetUrl y w').1 = (Filter.targetUrl x w).1 := by
  have hbase (uri : Uri) : (Filter.backendBase uri w').1 = (Filter.backendBase uri w).1 := by
    have hfind (service : String) : (w'.find service).1 = (w.find service).1 := by
      rw [World.find, World.find, hdirectory]
      exact hsteady ..
    unfold Filter.backendBase
    split
    · have hfind := hfind (uri.host.getD "")
      dsimp only
      generalize w'.find (uri.host.getD "") = found' at hfind ⊢
      generalize w.find (uri.host.getD "") = found at hfind ⊢
      obtain ⟨base, _⟩ := found
      obtain ⟨base', _⟩ := found'
      obtain rfl : base' = base := hfind
      cases base' <;> rfl
    · rfl
  simp only [Filter.targetUrl, hroute, huri]
  cases x.route with
  | none => rfl
  | some route =>
      have hbase := hbase route.uri
      dsimp only
      generalize Filter.backendBase route.uri w' = found' at hbase ⊢
      generalize Filter.backendBase route.uri w = found at hbase ⊢
      obtain ⟨base, _⟩ := found
      obtain ⟨base', _⟩ := found'
      obtain rfl : base' = base := hbase
      cases base' <;> rfl

theorem isUpstream_of_targetUrl [TokenArithmetic τ] {x : Exchange} {w : World τ} {e : GatewayError}
    (h : (Filter.targetUrl x w).1 = .error e) : e.isUpstream = false := by
  unfold Filter.targetUrl at h
  split at h
  · cases h
    rfl
  · split at h
    next hbase =>
      cases h
      unfold Filter.backendBase at hbase
      split at hbase
      · dsimp only at hbase
        split at hbase <;> cases hbase
        rfl
      · cases hbase
    next =>
      dsimp only at h
      split at h <;> cases h
      rfl

/-- What the first part of a chain looks at: two scenes that agree in this prepare alike. -/
structure Agree (s t : Scene τ) : Prop where
  request : t.exchange.request = s.exchange.request
  pathMatch : t.exchange.pathMatch = s.exchange.pathMatch
  route : t.exchange.route = s.exchange.route
  directory : t.world.directory = s.world.directory

/-- Wherever there is as much known as in this scene, the first part of the chain makes this request. -/
def Makes [TokenArithmetic τ] (c : ForwardingChain) (p : Prepared) (s : Scene τ) : Prop :=
  ∀ t, Agree s t →
    ∃ world, t.world.Finds world ∧ c.prepare t = (.ok p.outbound, ⟨p.apply t.exchange, world⟩)

/-- What agrees with a scene gets as far as the pass after the address has been found, and goes
through it in the same way. -/
theorem prepare_of_covers [TokenArithmetic τ] {s t : Scene τ} (hsteady : s.world.directory.Steady)
    {p q : Passage} {url : Uri} (hp : p.Covers (requestPass c.before) s.exchange)
    (hout : p.outcome = .ok ())
    (hurl : (Filter.targetUrl (p.apply s.exchange).2 s.world).1 = .ok url)
    (hq : q.Covers (requestPass c.between)
      { (p.apply s.exchange).2 with requestUrl := some url })
    (h : Agree s t) :
    ∃ world, t.world.Finds world ∧
      c.prepare t = match q.apply { (p.apply t.exchange).2 with requestUrl := some url } with
        | (.error e, z) => (.error e, ⟨z, world⟩)
        | (.ok (), z) => ((c.makeOutbound url z).1, ⟨(c.makeOutbound url z).2, world⟩) := by
  have hurl' : (Filter.targetUrl (p.apply t.exchange).2 t.world).1 = .ok url := by
    rw [← hurl]
    exact targetUrl_of_steady hsteady h.directory h.route rfl
  have hfinds := Filter.finds_targetUrl (p.apply t.exchange).2 t.world
  have hpass := hq { (p.apply t.exchange).2 with requestUrl := some url }
    (by simp [Passage.apply, h.request]) h.pathMatch
  simp only [Passage.apply] at hurl' hfinds hpass
  simp only [prepare, hp t.exchange h.request h.pathMatch, Passage.apply, hout]
  generalize Filter.targetUrl _ t.world = found at hurl' hfinds ⊢
  obtain ⟨_ | _, world⟩ := found <;> cases hurl'
  exact ⟨world, hfinds, by simp only [hpass]⟩

/-- A request that can be handed out again is made in one way, and made so again wherever as much is
known; or it cannot be made, and the backend is not to blame. -/
theorem exists_prepared [TokenArithmetic τ] {s : Scene τ} (hsteady : s.world.directory.Steady)
    (hbody : s.exchange.request.body.isReplayable = true) :
    (∃ e y, e.isUpstream = false ∧ y.abandoned = s.exchange.abandoned ∧ ∀ w : World τ, w.directory = s.world.directory →
      ∃ world, w.Finds world ∧ c.prepare ⟨s.exchange, w⟩ = (.error e, ⟨y, world⟩)) ∨
    ∃ p : Prepared, c.Makes p s := by
  have hagree (w : World τ) (hw : w.directory = s.world.directory) : Agree s ⟨s.exchange, w⟩ :=
    ⟨rfl, rfl, rfl, hw⟩
  obtain ⟨p, hp, hcovers, -⟩ := exists_passage c.before s.exchange
  cases hout : p.outcome with
  | error e =>
      refine .inl ⟨e, (p.apply s.exchange).2, hp e hout, rfl, fun w _ => ⟨w, .inl rfl, ?_⟩⟩
      simp only [prepare, hcovers s.exchange rfl rfl, Passage.apply, hout]
  | ok _ =>
      cases hurl : (Filter.targetUrl (p.apply s.exchange).2 s.world).1 with
      | error e =>
          refine .inl ⟨e, (p.apply s.exchange).2, isUpstream_of_targetUrl hurl, rfl,
            fun w hw => ?_⟩
          refine ⟨_, Filter.finds_targetUrl (p.apply s.exchange).2 w, ?_⟩
          have hurl' := (targetUrl_of_steady hsteady hw (x := (p.apply s.exchange).2) rfl rfl).trans
            hurl
          simp only [Passage.apply] at hurl'
          simp only [prepare, hcovers s.exchange rfl rfl, Passage.apply, hout]
          generalize Filter.targetUrl _ w = found at hurl' ⊢
          obtain ⟨_ | _, world⟩ := found <;> cases hurl'
          rfl
      | ok url =>
          obtain ⟨q, hq, hcovers', -⟩ :=
            exists_passage c.between { (p.apply s.exchange).2 with requestUrl := some url }
          have hprepare {t : Scene τ} := c.prepare_of_covers hsteady hcovers hout hurl hcovers'
            (t := t)
          cases hout' : q.outcome with
          | error e =>
              refine .inl ⟨e, (q.apply { (p.apply s.exchange).2 with requestUrl := some url }).2,
                hq e hout', rfl, fun w hw => ?_⟩
              obtain ⟨world, hfinds, hmade⟩ := hprepare (hagree w hw)
              exact ⟨world, hfinds, by simp only [hmade, Passage.apply, hout']⟩
          | ok _ =>
              -- The body stays as it is, so that all there is to the request is known now.
              obtain ⟨bytes, headers, hmade⟩ := outboundBody_of_isReplayable c.bodyLimit
                (r := { s.exchange.request with uri := q.uri, headers := q.headers }) hbody
              refine .inr ⟨⟨⟨s.exchange.request.method, url, Filter.outboundHeaders
                { s.exchange.request with uri := q.uri, headers }, .whole bytes⟩, url, q.uri,
                headers, p.trail ++ q.trail⟩, fun t ht => ?_⟩
              obtain ⟨world, hfinds, hprepared⟩ := hprepare ht
              refine ⟨world, hfinds, ?_⟩
              simp only [hprepared, Passage.apply, hout', makeOutbound, ht.request, hmade,
                Except.map, Prepared.apply, keepUrls_append]

/-! ### After the answer -/

/-- What the filters behind the forwarding do depends on the record of addresses only in that they
add to it, and what they add does not depend on the answer. -/
theorem exists_trail_conclude (x : Exchange) :
    ∃ trail, ((∀ f ∈ c.behind, f.filter.isRewrite = false) → trail = []) ∧
      ∀ (reply : Reply) (y : Exchange) (urls : List Uri), y.request = x.request →
        y.pathMatch = x.pathMatch →
        c.conclude (.ok reply) { y with originalUrls := urls } =
          ((c.conclude (.ok reply) y).1,
            { (c.conclude (.ok reply) y).2 with originalUrls := keepUrls urls trail }) := by
  obtain ⟨p, -, hcovers, htrail⟩ := exists_passage c.behind x
  refine ⟨p.trail, htrail, fun reply y urls hy hm => ?_⟩
  have hpass := hcovers (y.capture { reply with headers := reply.headers.stripHopByHop }) hy hm
  have hpass' := hcovers
    ({ y with originalUrls := urls }.capture { reply with headers := reply.headers.stripHopByHop })
    hy hm
  simp only [conclude, hpass, hpass', Passage.apply]
  cases p.outcome <;> rfl

end ForwardingChain

/-! ### What an exchange keeps -/

/-- The parts of an exchange that no plain filter and no forwarding changes. -/
structure Exchange.Lasts (x y : Exchange) : Prop where
  method : y.request.method = x.request.method
  body : y.request.body = x.request.body
  remote : y.request.remote = x.request.remote
  requestId : y.requestId = x.requestId
  route : y.route = x.route
  pathMatch : y.pathMatch = x.pathMatch
  committed : y.response.body = x.response.body
  abandoned : y.abandoned = x.abandoned

namespace Exchange.Lasts

variable {x y z : Exchange}

theorem refl (x : Exchange) : x.Lasts x := ⟨rfl, rfl, rfl, rfl, rfl, rfl, rfl, rfl⟩

theorem trans (h : x.Lasts y) (h' : y.Lasts z) : x.Lasts z :=
  ⟨h'.method.trans h.method, h'.body.trans h.body, h'.remote.trans h.remote,
    h'.requestId.trans h.requestId, h'.route.trans h.route, h'.pathMatch.trans h.pathMatch,
    h'.committed.trans h.committed, h'.abandoned.trans h.abandoned⟩

theorem mapResponse {edit : Response → Response} (hedit : ∀ r, (edit r).body = r.body)
    (h : x.Lasts y) : x.Lasts (y.mapResponse edit) :=
  ⟨h.method, h.body, h.remote, h.requestId, h.route, h.pathMatch, (hedit _).trans h.committed,
    h.abandoned⟩

end Exchange.Lasts

theorem body_responsePass (filters : List OrderedFilter) (r : Response) :
    (responsePass filters r).body = r.body := by
  induction filters with
  | nil => rfl
  | cons f filters ih =>
      rcases f with ⟨order, filter⟩
      cases filter with
      | response edit => exact (edit.body_apply _).trans ih
      | _ => exact ih

theorem Exchange.lasts_capture (x : Exchange) (reply : Reply) : x.Lasts (x.capture reply) := by
  refine ⟨rfl, rfl, rfl, rfl, rfl, rfl, ?_, rfl⟩
  exact (Response.body_editHeaders _ _).trans (Response.body_setStatus _ _)

theorem lasts_requestPass (filters : List OrderedFilter) (x : Exchange) :
    x.Lasts (requestPass filters x).2 := by
  obtain ⟨p, -, hp, -⟩ := exists_passage filters x
  rw [hp x rfl rfl]
  exact ⟨rfl, rfl, rfl, rfl, rfl, rfl, rfl, rfl⟩

namespace ForwardingChain

variable (c : ForwardingChain)

theorem lasts_conclude (answer : Except GatewayError Reply) (x : Exchange) :
    x.Lasts (c.conclude answer x).2 := by
  cases answer with
  | error e => exact .refl x
  | ok reply =>
      have hcaptured := x.lasts_capture { reply with headers := reply.headers.stripHopByHop }
      have hlasts := hcaptured.trans (lasts_requestPass c.behind _)
      simp only [conclude]
      rcases hpass : requestPass c.behind _ with ⟨_ | ⟨⟨⟩⟩, y⟩
      · rw [hpass] at hlasts
        exact hlasts
      · rw [hpass] at hlasts
        refine hlasts.mapResponse fun r => ?_
        simp only [respond, body_responsePass]

end ForwardingChain

end HttpGateway
