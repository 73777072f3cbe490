import HttpGateway.Proofs.Filter.Events

/-!
# Headers across the gateway

Which headers of a request reach the backend and which headers of its answer reach the client. A
header that concerns one connection only is left behind, be it one of those that always do or one
that a connection header lists. The backend is told the client, the protocol and the host. All other
headers pass as they are.
-/

namespace HttpGateway

namespace Headers

/-- A readable connection header lists this name. -/
def Lists (h : Headers) (n : HeaderName) : Prop :=
  ∃ v ∈ h.values HeaderName.connection, ∃ text, v.text? = some text ∧
    ∃ piece ∈ piecesOf ',' text, HeaderName.parse? (trimText piece) = some n

/-- The header concerns this connection only. -/
def Drops (h : Headers) (n : HeaderName) : Prop := n ∈ hopByHop ∨ h.Lists n

theorem mem_listedNames {h : Headers} {n : HeaderName} : n ∈ h.listedNames ↔ h.Lists n := by
  simp only [listedNames, connectionNames, Lists, List.mem_flatMap, List.mem_filterMap]
  constructor
  · rintro ⟨text, ⟨v, hv, htext⟩, piece, hpiece, hn⟩
    exact ⟨v, hv, text, htext, piece, hpiece, hn⟩
  · rintro ⟨v, hv, text, htext, piece, hpiece, hn⟩
    exact ⟨text, ⟨v, hv, htext⟩, piece, hpiece, hn⟩

theorem drops_iff {h : Headers} {n : HeaderName} : h.Drops n ↔ n ∈ hopByHop ∨ n ∈ h.listedNames :=
  or_congr_right mem_listedNames.symm

instance (h : Headers) (n : HeaderName) : Decidable (h.Drops n) := decidable_of_iff _ drops_iff.symm

/-- The values that a name keeps where the headers leave a connection. -/
def passing (h : Headers) (n : HeaderName) : List HeaderValue :=
  if h.Drops n then [] else h.values n

variable (h : Headers) {n : HeaderName}

/-! ### Removing headers -/

theorem values_removeAll (names : List HeaderName) (n : HeaderName) :
    (h.removeAll names).values n = if n ∈ names then [] else h.values n := by
  induction names generalizing h with
  | nil => rfl
  | cons m names ih =>
      show ((h.remove m).removeAll names).values n = _
      rw [ih]
      by_cases hlater : n ∈ names
      · rw [if_pos hlater, if_pos (List.mem_cons_of_mem m hlater)]
      · rw [if_neg hlater]
        by_cases heq : n = m
        · rw [heq, values_remove_self, if_pos List.mem_cons_self]
        · rw [h.values_remove_of_ne heq, if_neg (List.not_mem_cons_of_ne_of_not_mem heq hlater)]

theorem values_stripHopByHop (n : HeaderName) : h.stripHopByHop.values n = h.passing n := by
  rw [stripHopByHop, values_removeAll, values_removeAll, passing]
  by_cases halways : n ∈ hopByHop
  · rw [if_pos halways, if_pos (drops_iff.mpr (.inl halways))]
  · rw [if_neg halways]
    simp only [drops_iff, halways, false_or]

variable {h}

theorem remove_of_values_eq_nil (hn : h.values n = []) : h.remove n = h := by
  have hnone := List.filter_eq_nil_iff.mp (List.map_eq_nil_iff.mp hn)
  refine congrArg Headers.mk (List.filter_eq_self.mpr fun e he => ?_)
  simpa using hnone e he

theorem removeAll_of_values_eq_nil {names : List HeaderName}
    (hnames : ∀ n ∈ names, h.values n = []) : h.removeAll names = h := by
  induction names with
  | nil => rfl
  | cons n names ih =>
      obtain ⟨hn, hnames⟩ := List.forall_mem_cons.mp hnames
      show (h.remove n).removeAll names = h
      rw [remove_of_values_eq_nil hn, ih hnames]

variable (h)

/-- Headers that have left one connection leave the next as they are. -/
theorem stripHopByHop_stripHopByHop : h.stripHopByHop.stripHopByHop = h.stripHopByHop := by
  have hgone : ∀ n ∈ hopByHop, h.stripHopByHop.values n = [] := fun n hn => by
    rw [values_stripHopByHop, passing, if_pos (.inl hn)]
  generalize h.stripHopByHop = stripped at hgone
  have hlisted : stripped.listedNames = [] := by
    rw [listedNames, hgone HeaderName.connection (by decide)]
    rfl
  rw [stripHopByHop, hlisted]
  exact removeAll_of_values_eq_nil hgone

/-! ### Telling the backend whom the gateway works for -/

theorem values_setIfAbsent (n : HeaderName) (v : HeaderValue) :
    (h.setIfAbsent n v).values n = if h.values n = [] then [v] else h.values n := by
  unfold setIfAbsent contains
  cases hn : h.values n with
  | nil => simp
  | cons w ws => simp [hn]

theorem values_setIfAbsent_of_ne {m : HeaderName} (v : HeaderValue) (hne : m ≠ n) :
    (h.setIfAbsent n v).values m = h.values m := by
  unfold setIfAbsent
  split
  · rfl
  · exact h.values_set_of_ne v hne

/-- The headers that the gateway adds itself. -/
def added : List HeaderName :=
  [HeaderName.forwardedFor, HeaderName.forwardedProto, HeaderName.forwardedHost]

section

variable (client : Option Address) (host : Option HeaderValue)

theorem values_addForwarded_of_not_mem (hn : n ∉ added) :
    (h.addForwarded client host).values n = h.values n := by
  obtain ⟨hfor, hproto, hhost⟩ : n ≠ HeaderName.forwardedFor ∧ n ≠ HeaderName.forwardedProto ∧
      n ≠ HeaderName.forwardedHost := by simpa [added] using hn
  cases client <;> cases host <;>
    simp only [addForwarded, values_setIfAbsent_of_ne _ _ hhost, values_setIfAbsent_of_ne _ _ hproto,
      values_set_of_ne _ _ hfor]

theorem values_forwardedFor_addForwarded :
    (h.addForwarded client host).values HeaderName.forwardedFor =
      match client with
      | none => h.values HeaderName.forwardedFor
      | some a => [HeaderValue.literal (h.clientChain a)] := by
  have hproto : HeaderName.forwardedFor ≠ HeaderName.forwardedProto := by decide
  have hhost : HeaderName.forwardedFor ≠ HeaderName.forwardedHost := by decide
  cases client <;> cases host <;>
    simp only [addForwarded, values_setIfAbsent_of_ne _ _ hhost, values_setIfAbsent_of_ne _ _ hproto,
      values_set_self]

theorem values_forwardedProto_addForwarded :
    (h.addForwarded client host).values HeaderName.forwardedProto =
      if h.values HeaderName.forwardedProto = [] then [HeaderValue.literal "http"]
      else h.values HeaderName.forwardedProto := by
  have hfor : HeaderName.forwardedProto ≠ HeaderName.forwardedFor := by decide
  have hhost : HeaderName.forwardedProto ≠ HeaderName.forwardedHost := by decide
  cases client <;> cases host <;>
    simp only [addForwarded, values_setIfAbsent_of_ne _ _ hhost, values_setIfAbsent,
      values_set_of_ne _ _ hfor]

theorem values_forwardedHost_addForwarded :
    (h.addForwarded client host).values HeaderName.forwardedHost =
      if h.values HeaderName.forwardedHost = [] then host.toList
      else h.values HeaderName.forwardedHost := by
  have hfor : HeaderName.forwardedHost ≠ HeaderName.forwardedFor := by decide
  have hproto : HeaderName.forwardedHost ≠ HeaderName.forwardedProto := by decide
  cases client <;> cases host <;>
    simp only [addForwarded, values_setIfAbsent_of_ne _ _ hproto, values_setIfAbsent,
      values_set_of_ne _ _ hfor, Option.toList] <;>
    split <;> simp_all

end

/-- What a backend gets of the headers of a request that comes in from a client. -/
structure PassedOn (inbound : Headers) (client : Option Address) (outbound : Headers) : Prop where
  others : ∀ n, n ∉ added →
    outbound.values n = if n = HeaderName.host then [] else inbound.passing n
  client : outbound.values HeaderName.forwardedFor =
    match client with
    | none => inbound.passing HeaderName.forwardedFor
    | some a => [HeaderValue.literal (inbound.stripHopByHop.clientChain a)]
  proto : outbound.values HeaderName.forwardedProto =
    if inbound.passing HeaderName.forwardedProto = [] then [HeaderValue.literal "http"]
    else inbound.passing HeaderName.forwardedProto
  host : outbound.values HeaderName.forwardedHost =
    if inbound.passing HeaderName.forwardedHost = [] then
      (inbound.passing HeaderName.host).head?.toList
    else inbound.passing HeaderName.forwardedHost

end Headers

theorem Request.passedOn_outboundHeaders (r : Request) :
    r.headers.PassedOn (r.remote.map SocketAddress.address) (Filter.outboundHeaders r) := by
  let kept := r.headers.stripHopByHop
  have hkept {n : HeaderName} (hne : n ≠ HeaderName.host) :
      (kept.remove HeaderName.host).values n = r.headers.passing n :=
    (kept.values_remove_of_ne hne).trans (r.headers.values_stripHopByHop n)
  have hfor := @hkept HeaderName.forwardedFor (by decide)
  have hproto := @hkept HeaderName.forwardedProto (by decide)
  have hhost := @hkept HeaderName.forwardedHost (by decide)
  refine ⟨fun n hn => ?_, ?_, ?_, ?_⟩
  · rw [Filter.outboundHeaders, Headers.values_addForwarded_of_not_mem _ _ _ hn]
    split
    next heq => rw [heq, Headers.values_remove_self]
    next hne => exact hkept hne
  · have hchain (a : Address) : (kept.remove HeaderName.host).clientChain a = kept.clientChain a := by
      simp only [Headers.clientChain, Headers.text?, Headers.first?, hfor, kept,
        r.headers.values_stripHopByHop]
    rw [Filter.outboundHeaders, Headers.values_forwardedFor_addForwarded]
    cases r.remote with
    | none => exact hfor
    | some remote => exact congrArg (fun text => [HeaderValue.literal text]) (hchain remote.address)
  · rw [Filter.outboundHeaders, Headers.values_forwardedProto_addForwarded, hproto]
  · rw [Filter.outboundHeaders, Headers.values_forwardedHost_addForwarded, hhost, Headers.first?,
      r.headers.values_stripHopByHop]

/-- The headers of a request once its body is at hand: if that is a form, which is written anew, they
give its new length, and otherwise they are as before. -/
def Filter.Measures (bodyLimit : Nat) (r : Request) (body : Body) (measured : Headers) : Prop :=
  if isForm r then
    ∃ raw, (r.body.materialize bodyLimit).1 = .ok raw ∧ body = .whole (Form.reencode raw) ∧
      measured = r.headers.set HeaderName.contentLength
        (HeaderValue.literal (Text.decimal (Form.reencode raw).length))
  else measured = r.headers

theorem Filter.measures_outboundBody {bodyLimit : Nat} {r left : Request} {body : Body}
    (h : outboundBody bodyLimit r = (.ok body, left)) :
    left.remote = r.remote ∧ Measures bodyLimit r body left.headers := by
  unfold outboundBody at h
  unfold Measures
  by_cases hform : isForm r = true
  · rw [if_pos hform] at h
    rw [if_pos hform]
    rcases hread : r.body.materialize bodyLimit with ⟨_ | raw, rest⟩
    · rw [hread] at h
      cases h
    · rw [hread] at h
      cases h
      exact ⟨rfl, raw, rfl, rfl, rfl⟩
  · rw [if_neg hform] at h
    rw [if_neg hform]
    obtain ⟨-, rfl⟩ := Prod.mk.inj h
    exact ⟨rfl, rfl⟩

/-- What the backend is called with comes of the request once its body is at hand. -/
theorem Filter.exists_outboundBody_of_outbound {bodyLimit : Nat} {x : Exchange} {o : Outbound}
    (h : outbound? bodyLimit x = some o) :
    ∃ left, outboundBody bodyLimit x.request = (.ok o.body, left) ∧
      o.headers = outboundHeaders left := by
  unfold outbound? at h
  cases hurl : x.requestUrl with
  | none =>
      rw [hurl] at h
      cases h
  | some url =>
      rw [hurl] at h
      dsimp only at h
      generalize outboundBody bodyLimit x.request = made at h ⊢
      obtain ⟨_ | body, left⟩ := made
      · cases h
      · obtain rfl := Option.some.inj h
        exact ⟨left, rfl, by dsimp only⟩

theorem Filter.exists_measured {bodyLimit : Nat} {x : Exchange} {o : Outbound}
    (h : outbound? bodyLimit x = some o) :
    ∃ measured, Measures bodyLimit x.request o.body measured ∧
      measured.PassedOn (x.request.remote.map SocketAddress.address) o.headers := by
  obtain ⟨left, hmade, hheaders⟩ := exists_outboundBody_of_outbound h
  obtain ⟨hremote, hmeasures⟩ := measures_outboundBody hmade
  refine ⟨left.headers, hmeasures, ?_⟩
  rw [hheaders, ← hremote]
  exact left.passedOn_outboundHeaders

theorem Filter.values_takenOver (reply : Reply) (n : HeaderName) :
    (takenOver reply).headers.values n = reply.headers.passing n := by
  simp only [takenOver, Headers.values_stripHopByHop]

/-- The answer of a backend that is taken over has lost the headers that concern its connection, and
its other headers come after those that the response has already. -/
theorem Exchange.values_capture_takenOver (x : Exchange) (reply : Reply)
    (hopen : x.response.isCommitted = false) (n : HeaderName) :
    (x.capture (Filter.takenOver reply)).response.headers.values n =
      x.response.headers.values n ++ reply.headers.passing n := by
  have hset : (x.response.setStatus (Filter.takenOver reply).status).isCommitted = false :=
    (x.response.isCommitted_setStatus _).trans hopen
  rw [capture, Response.editHeaders_of_open hset, Response.setStatus_of_open hopen]
  exact (Headers.values_appendAll ..).trans
    (congrArg (x.response.headers.values n ++ ·) (Filter.values_takenOver reply n))

/-- Header hygiene of forwarding. The backend is called with headers from which those that concern
the connection of the client are gone, always or because a connection header lists them, and the
host. In their place the gateway tells the client, and the protocol and the host unless that has been
told before. All others are there with all their values, and no more than these. The answer of the
backend is taken over without the headers that concern its connection, and with all others. What has
been cleared of such headers once has none to be cleared of. -/
theorem forward_header_hygiene [TokenArithmetic τ] (bodyLimit : Nat) {s : Scene τ} {o : Outbound}
    (h : Filter.outbound? bodyLimit s.exchange = some o) (next : Stage τ) :
    (∃ measured, Filter.Measures bodyLimit s.exchange.request o.body measured ∧
      measured.PassedOn (s.exchange.request.remote.map SocketAddress.address) o.headers) ∧
    (match s.world.send o with
      | (.error e, world) =>
        ∃ x, (Filter.forward bodyLimit).run next s = (.error e, ⟨x, world⟩)
      | (.ok reply, world) =>
        ∃ x captured, (Filter.forward bodyLimit).run next s = next ⟨x, world⟩ ∧
          x.upstream = some ⟨reply.status, captured, some reply.body⟩ ∧
          (∀ n, captured.values n = reply.headers.passing n) ∧
          (s.exchange.response.isCommitted = false → ∀ n, x.response.headers.values n =
            s.exchange.response.headers.values n ++ reply.headers.passing n)) ∧
    ∀ headers : Headers, headers.stripHopByHop.stripHopByHop = headers.stripHopByHop := by
  refine ⟨Filter.exists_measured h, ?_, Headers.stripHopByHop_stripHopByHop⟩
  rw [Filter.run_eq, Filter.enter, Filter.enterForward, Filter.sendOn_of_outbound h]
  generalize s.world.send o = sent
  obtain ⟨e | reply, world⟩ := sent
  · exact ⟨_, rfl⟩
  · have hupstream (x : Exchange) : (x.capture (Filter.takenOver reply)).upstream =
        some ⟨reply.status, (Filter.takenOver reply).headers, some reply.body⟩ := by
      simp only [Exchange.capture, Filter.takenOver]
    exact ⟨_, (Filter.takenOver reply).headers, rfl, hupstream _, Filter.values_takenOver reply,
      Exchange.values_capture_takenOver _ reply⟩

/-- A request over a connection that says which of its headers concern it. The answer says so too. -/
def listingScene : Scene Rat where
  exchange :=
    { request :=
        { uri := ⟨none, none, ⟨"/a", none⟩⟩
          headers := ⟨[(HeaderName.connection, HeaderValue.literal "close, X-Hop"),
            (⟨"accept"⟩, HeaderValue.literal "a"), (⟨"x-hop"⟩, HeaderValue.literal "1"),
            (HeaderName.host, HeaderValue.literal "shop"), (⟨"accept"⟩, HeaderValue.literal "b"),
            (HeaderName.forwardedFor, HeaderValue.literal "10.0.0.9")]⟩
          remote := some ⟨.v4 0x0A000001, 4000, 0⟩ }
      requestUrl := some ⟨some "http", some "b", ⟨"/a", none⟩⟩ }
  world :=
    { backend := fun _ =>
        { answer := .ok
            { status := Status.ok
              headers := ⟨[(⟨"etag"⟩, HeaderValue.literal "e"),
                (⟨"x-gone"⟩, HeaderValue.literal "1"),
                (HeaderName.connection, HeaderValue.literal "x-gone")]⟩ } }
      limiter := .empty }

/-- What the connection lists is left behind on both ways, and the gateway tells of the client and
the host. -/
theorem forward_header_hygiene_listed :
    ∃ o, Filter.outbound? 1024 listingScene.exchange = some o ∧
      o.headers.values ⟨"x-hop"⟩ = [] ∧ o.headers.values HeaderName.host = [] ∧
      o.headers.values ⟨"accept"⟩ = [HeaderValue.literal "a", HeaderValue.literal "b"] ∧
      o.headers.values HeaderName.forwardedFor = [HeaderValue.literal "10.0.0.9, 10.0.0.1"] ∧
      o.headers.values HeaderName.forwardedProto = [HeaderValue.literal "http"] ∧
      o.headers.values HeaderName.forwardedHost = [HeaderValue.literal "shop"] ∧
      ∃ s, runChain [⟨0, .forward 1024⟩] listingScene = (.ok (), s) ∧
        s.exchange.response.headers.values ⟨"x-gone"⟩ = [] ∧
        s.exchange.response.headers.values ⟨"etag"⟩ = [HeaderValue.literal "e"] := by
  let o : Outbound := ⟨Method.get, ⟨some "http", some "b", ⟨"/a", none⟩⟩,
    Filter.outboundHeaders listingScene.exchange.request, .whole []⟩
  have hmade : Filter.outboundBody 1024 listingScene.exchange.request =
      (.ok (.whole []), listingScene.exchange.request) := by rfl
  have ho : Filter.outbound? 1024 listingScene.exchange = some o := by
    simp only [Filter.outbound?, hmade]
    rfl
  obtain ⟨⟨measured, hmeasured, hpassed⟩, hanswered, -⟩ :=
    forward_header_hygiene 1024 ho (runChain [])
  obtain rfl : measured = listingScene.exchange.request.headers := hmeasured
  obtain ⟨x, captured, hrun, -, -, hvalues⟩ := hanswered
  refine ⟨o, ho, ?_, ?_, ?_, ?_, ?_, ?_, ⟨x, _⟩, hrun, ?_, ?_⟩
  · exact (hpassed.others _ (by decide)).trans (by decide)
  · exact (hpassed.others _ (by decide)).trans (by decide)
  · exact (hpassed.others _ (by decide)).trans (by decide)
  · exact hpassed.client.trans (by rfl)
  · exact hpassed.proto.trans (by decide)
  · exact hpassed.host.trans (by decide)
  · exact (hvalues rfl _).trans (by decide)
  · exact (hvalues rfl _).trans (by decide)

end HttpGateway
