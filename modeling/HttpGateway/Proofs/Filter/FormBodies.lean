import HttpGateway.Proofs.Answer
import HttpGateway.Proofs.Exchange.RequestBody
import HttpGateway.Proofs.Form
import HttpGateway.Proofs.Http.Hygiene
import HttpGateway.Proofs.Retry.Attempts

/-!
# Form bodies

A form is read as a whole and written anew before it is forwarded. Its fields stay what they were,
and the length that the backend is told is that of what has been written. The request keeps the
bytes it came with. So the backend gets the same request again in another attempt.
-/

namespace HttpGateway

variable {τ : Type}

/-- The body holds these bytes: they are what any call gives, and no call changes the body. -/
def RequestBody.Holds (body : RequestBody) (raw : Bytes) : Prop :=
  ∀ c : Call, c.make body = (.ok (c.give raw), body)

/-- A body that has been read as a whole holds what has been read. -/
theorem RequestBody.holds_of_materialize {body : RequestBody} {limit : Nat} {raw : Bytes}
    (h : (body.materialize limit).1 = .ok raw) : (body.materialize limit).2.Holds raw := by
  cases body with
  | empty =>
      obtain rfl := Except.ok.inj h
      exact make_empty
  | buffered bytes =>
      obtain rfl := Except.ok.inj h
      exact make_buffered bytes
  | consumed => cases h
  | streaming b =>
      rw [materialize_streaming] at h ⊢
      by_cases hlimit : limit < b.content.length
      · rw [if_pos hlimit] at h
        cases h
      · rw [if_neg hlimit] at h ⊢
        cases hfailure : b.failure with
        | some reason =>
            rw [hfailure] at h
            cases h
        | none =>
            rw [hfailure] at h
            obtain rfl := Except.ok.inj h
            exact make_buffered b.content

theorem RequestBody.Holds.materialize {body : RequestBody} {raw : Bytes} (h : body.Holds raw)
    (limit : Nat) : body.materialize limit = (.ok raw, body) := by
  obtain ⟨hgiven, hleft⟩ := Prod.mk.inj (h (.materialize limit))
  obtain ⟨bytes, hbytes, hraw⟩ := map_eq_ok_iff.mp hgiven
  obtain rfl := Given.bytes.inj hraw
  exact Prod.ext hbytes hleft

/-- The request with the length of a body that is sent in place of its own. -/
def Request.measured (r : Request) (body : Bytes) : Request :=
  let length := HeaderValue.literal (Text.decimal body.length)
  { r with headers := r.headers.set HeaderName.contentLength length }

/-- What is sent to an address for a request whose body is a form, when these are the bytes of it. -/
def Request.formOutbound (r : Request) (url : Uri) (raw : Bytes) : Outbound :=
  let encoded := Form.reencode raw
  ⟨r.method, url, Filter.outboundHeaders (r.measured encoded), .whole encoded⟩

theorem Request.body_formOutbound (r : Request) (url : Uri) (raw : Bytes) :
    (r.formOutbound url raw).body = .whole (Form.reencode raw) := rfl

/-- Unless it is left behind, the length is that of the body. -/
theorem Request.contentLength_formOutbound (r : Request) (url : Uri) (raw : Bytes)
    (h : ¬r.headers.Lists HeaderName.contentLength) :
    (r.formOutbound url raw).headers.values HeaderName.contentLength =
      [HeaderValue.literal (Text.decimal (Form.reencode raw).length)] := by
  rw [formOutbound]
  generalize Form.reencode raw = body
  have hpassed := (r.measured body).passedOn_outboundHeaders.others HeaderName.contentLength
    (by decide)
  rw [if_neg (by decide)] at hpassed
  have hlists : ¬(r.measured body).headers.Lists HeaderName.contentLength := by
    unfold Headers.Lists
    rw [measured, Headers.values_set_of_ne _ _ (by decide)]
    exact h
  have hkept : ¬(r.measured body).headers.Drops HeaderName.contentLength :=
    not_or.mpr ⟨by decide, hlists⟩
  rw [hpassed, Headers.passing, if_neg hkept, measured, Headers.values_set_self]

namespace Filter

variable {bodyLimit : Nat} {raw : Bytes}

/-- Forwarding sends just this one request, and leaves the other in the exchange. If the backend
answers, the rest of the chain is run with its answer taken over. -/
def ForwardsAs [TokenArithmetic τ] (bodyLimit : Nat) (s : Scene τ) (o : Outbound)
    (left : Request) : Prop :=
  ∀ next, (Filter.forward bodyLimit).run next s =
    match s.world.send o with
    | (.error e, world) => (.error e, ⟨{ s.exchange with request := left }, world⟩)
    | (.ok reply, world) =>
      next ⟨({ s.exchange with request := left }).capture (takenOver reply), world⟩

theorem outboundBody_of_form {r : Request} (hform : isForm r = true)
    (hraw : (r.body.materialize bodyLimit).1 = .ok raw) :
    outboundBody bodyLimit r = (.ok (.whole (Form.reencode raw)),
      { r.measured (Form.reencode raw) with body := (r.body.materialize bodyLimit).2 }) := by
  rw [outboundBody, if_pos hform]
  rcases hread : r.body.materialize bodyLimit with ⟨_ | bytes, left⟩
  · rw [hread] at hraw
    cases hraw
  · rw [hread] at hraw
    obtain rfl := Except.ok.inj hraw
    rfl

/-- The headers to be sent do not depend on the body. -/
theorem outboundHeaders_body (r : Request) (body : RequestBody) :
    outboundHeaders { r with body } = outboundHeaders r := rfl

/-- The body of a form is forwarded as it is when written anew, and then the request holds the bytes
that have been read. -/
theorem forwardsAs_of_form [TokenArithmetic τ] {s : Scene τ} {url : Uri}
    (hurl : s.exchange.requestUrl = some url) (hform : isForm s.exchange.request = true)
    (hraw : (s.exchange.request.body.materialize bodyLimit).1 = .ok raw) :
    ForwardsAs bodyLimit s (s.exchange.request.formOutbound url raw)
      { s.exchange.request.measured (Form.reencode raw) with
        body := (s.exchange.request.body.materialize bodyLimit).2 } := by
  have hmade := outboundBody_of_form hform hraw
  have hmade' : outbound? bodyLimit s.exchange = some (s.exchange.request.formOutbound url raw) := by
    simp only [outbound?, hurl, hmade, Except.toOption, Option.map_some, outboundHeaders_body]
    simp only [Request.formOutbound, Request.measured]
  intro next
  rw [run_eq, enter, enterForward, sendOn_of_outbound hmade', hmade]
  rcases s.world.send (s.exchange.request.formOutbound url raw) with ⟨_ | reply, world⟩ <;> rfl

/-! ### Attempts -/

/-- The scene is one in which a form with these bytes is to be forwarded as this request. -/
structure Awaits (bodyLimit : Nat) (s : Scene τ) (raw : Bytes) (o : Outbound) : Prop where
  isForm : isForm s.exchange.request = true
  read : (s.exchange.request.body.materialize bodyLimit).1 = .ok raw
  url : ∃ url, s.exchange.requestUrl = some url ∧ s.exchange.request.formOutbound url raw = o

/-- Nothing that matters for the request to be sent is lost when the body has been read. -/
theorem Awaits.of_read {s t : Scene τ} {o : Outbound} (h : Awaits bodyLimit s raw o)
    (hurl : t.exchange.requestUrl = s.exchange.requestUrl)
    (hrequest : ∃ uri, t.exchange.request = { s.exchange.request with
      uri, body := (s.exchange.request.body.materialize bodyLimit).2 }) :
    Awaits bodyLimit t raw o := by
  obtain ⟨uri, hrequest⟩ := hrequest
  obtain ⟨url, hsome, hmade⟩ := h.url
  have hread := (RequestBody.holds_of_materialize h.read).materialize bodyLimit
  refine ⟨?_, ?_, url, hurl.trans hsome, ?_⟩ <;> rw [hrequest]
  · exact h.isForm
  · exact congrArg Prod.fst hread
  · exact hmade

/-- A stage that sends nothing, and keeps all of the request that is not put back before another
attempt. -/
structure Spares (next : Stage τ) : Prop where
  sent : ∀ s, (next s).2.world.sent = s.world.sent
  requestUrl : ∀ s, (next s).2.exchange.requestUrl = s.exchange.requestUrl
  request : ∀ s, ∃ uri headers,
    (next s).2.exchange.request = { s.exchange.request with uri, headers }

/-- Plain filters send nothing, and change no more of the request than its URI and headers. -/
theorem spares_of_plain [TokenArithmetic τ] {filters : List OrderedFilter}
    (h : ∀ f ∈ filters, f.filter.isPlain = true) : Spares (runChain (τ := τ) filters) := by
  have hpass (s : Scene τ) : ∃ uri headers urls response,
      (runChain filters s).2 = { s with exchange := { s.exchange with
        request := { s.exchange.request with uri, headers }, originalUrls := urls, response } } := by
    obtain ⟨p, -, hp, -⟩ := exists_passage filters s.exchange
    rw [runChain_of_plain h, passThen, hp s.exchange rfl rfl, Passage.apply]
    cases p.outcome with
    | error e => exact ⟨p.uri, p.headers, _, s.exchange.response, rfl⟩
    | ok _ => exact ⟨p.uri, p.headers, _, _, rfl⟩
  refine ⟨fun s => ?_, fun s => ?_, fun s => ?_⟩ <;>
    obtain ⟨uri, headers, urls, response, hleft⟩ := hpass s <;> rw [hleft]
  exact ⟨uri, headers, rfl⟩

section

variable [TokenArithmetic τ] {s : Scene τ} {o : Outbound} {next : Stage τ}

/-- What there is after a form has been forwarded, if the rest of the chain spares the request. -/
theorem Awaits.run (h : Awaits bodyLimit s raw o) (hnext : Spares next) :
    let t := ((Filter.forward bodyLimit).run next s).2
    t.world.sent = s.world.sent ++ [o] ∧ t.exchange.requestUrl = s.exchange.requestUrl ∧
      ∃ uri headers, t.exchange.request = { s.exchange.request with
        uri, headers, body := (s.exchange.request.body.materialize bodyLimit).2 } := by
  obtain ⟨url, hurl, rfl⟩ := h.url
  intro t
  have ht : t = _ := congrArg Prod.snd (forwardsAs_of_form hurl h.isForm h.read next)
  have hsent : (s.world.send (s.exchange.request.formOutbound url raw)).2.sent =
      s.world.sent ++ [s.exchange.request.formOutbound url raw] := rfl
  generalize s.world.send (s.exchange.request.formOutbound url raw) = answered at ht hsent
  obtain ⟨_ | reply, world⟩ := answered
  · rw [ht]
    exact ⟨hsent, rfl, _, _, rfl⟩
  · rw [ht]
    obtain ⟨uri, headers, hrequest⟩ := hnext.request _
    exact ⟨(hnext.sent _).trans hsent, hnext.requestUrl _, uri, headers, hrequest⟩

/-- Every attempt begins where the same request is to be sent again. -/
theorem Awaits.sceneAfter (h : Awaits bodyLimit s raw o) (policy : RetryPolicy)
    (hnext : Spares next) {point : RetryPoint}
    (hpoint : point.requestHeaders = s.exchange.request.headers) (i : Nat) :
    let t := sceneAfter policy point ((Filter.forward bodyLimit).run next) s i
    Awaits bodyLimit t raw o ∧ t.exchange.request.headers = point.requestHeaders ∧
      t.world.sent = s.world.sent ++ List.replicate i o := by
  induction i with
  | zero => exact ⟨h, hpoint.symm, (List.append_nil _).symm⟩
  | succ i ih =>
      obtain ⟨hawaits, hheaders, hsent⟩ := ih
      let t := ((Filter.forward bodyLimit).run next (Filter.sceneAfter policy point
        ((Filter.forward bodyLimit).run next) s i)).2
      obtain ⟨hrun, hurl, uri, headers, hrequest⟩ := hawaits.run hnext
      refine ⟨hawaits.of_read hurl ⟨point.uri, ?_⟩, rfl, ?_⟩
      · -- The headers that the attempt began with are put back.
        show { ({ t.exchange.request with uri := point.uri } : Request) with
          headers := point.requestHeaders } = _
        rw [hrequest, ← hheaders]
      · rw [Filter.sceneAfter, again, sent_paused, hrun, hsent, List.replicate_succ',
          List.append_assoc]

/-- Whether the exchange is given up makes no difference to what has been sent. -/
theorem Settles.sent {policy : RetryPolicy} {k : Nat} {last left : Outcome × Scene τ}
    (h : Settles policy k last left) : left.2.world.sent = last.2.world.sent := by
  cases h with
  | stands => rfl
  | givenUp => exact sent_paused ..

/-- With attempts, a form is sent once or several times, as the same request each time. -/
theorem Awaits.exists_sent_retry (h : Awaits bodyLimit s raw o) (hnext : Spares next)
    (policy : RetryPolicy) :
    ∃ k, 1 ≤ k ∧ k ≤ max 1 policy.maxAttempts ∧
      ((Filter.retry policy bodyLimit).run
          ((Filter.forward bodyLimit).run next) s).2.world.sent =
        s.world.sent ++ List.replicate k o := by
  by_cases hmay : policy.allowsMethod s.exchange.request.method = true ∧ 2 ≤ policy.maxAttempts
  · let entry := s.mapExchange (materialized bodyLimit)
    let point := RetryPoint.of entry.exchange
    have hentry : Awaits bodyLimit entry raw o := h.of_read rfl ⟨s.exchange.request.uri, rfl⟩
    obtain ⟨k, hk, hle, -, hsettles⟩ := exists_attempts_eq point
      ((Filter.forward bodyLimit).run next) entry hmay.1 (policy.maxAttempts - 1) 0 (by omega)
    obtain ⟨hawaits, -, hsent⟩ := hentry.sceneAfter policy hnext
      (show point.requestHeaders = entry.exchange.request.headers from rfl) (k - 1)
    have hlast : (leaves policy point ((Filter.forward bodyLimit).run next) entry k).2.world.sent =
        s.world.sent ++ List.replicate k o := by
      rw [leaves, (hawaits.run hnext).1, hsent, List.append_assoc, ← List.replicate_succ',
        Nat.sub_add_cancel hk]
      rfl
    refine ⟨k, hk, by omega, ?_⟩
    have hrun : (Filter.retry policy bodyLimit).run ((Filter.forward bodyLimit).run next) s = _ :=
      retryThen_of_allowed hmay.1 hmay.2 h.read
    rw [hrun]
    exact hsettles.sent.trans hlast
  · have hno : ¬mayRetry policy s.exchange = true := by
      simpa [mayRetry] using hmay
    refine ⟨1, Nat.le_refl 1, Nat.le_max_left .., ?_⟩
    rw [run_eq, enter, enterRetry, if_neg hno]
    simp only [Entry.andThen, around, if_neg hno]
    exact (h.run hnext).1

end

end Filter

/-- Forms keep their fields on the way to the backend. What a form has been written anew as, from
whatever bytes, holds the same fields in the same order, uses no letters but those of the encoding,
and is not changed when it is written anew once more. A request whose body is a form that can be read
is forwarded with the form written anew for its body and, unless a connection header lists it, with
the length of this. The request holds the bytes it came with afterwards. Wherever the form is forwarded again, the same body is sent again. In
attempts at a chain that begins with the forwarding and then spares the request, one and the same
request is sent each time. -/
theorem form_forwarded_anew [TokenArithmetic τ] :
    (∀ raw, Form.decode (Form.reencode raw) = Form.decode raw ∧
      (∀ b ∈ Form.reencode raw, Form.isCoded b = true ∨ b = 0x3D ∨ b = 0x26) ∧
      Form.reencode (Form.reencode raw) = Form.reencode raw) ∧
    ∀ (bodyLimit : Nat) (s : Scene τ) (url : Uri) (raw : Bytes),
      s.exchange.requestUrl = some url → Filter.isForm s.exchange.request = true →
      (s.exchange.request.body.materialize bodyLimit).1 = .ok raw →
      ∃ (o : Outbound) (left : Request), Filter.ForwardsAs bodyLimit s o left ∧
        o.body = .whole (Form.reencode raw) ∧
        (¬s.exchange.request.headers.Lists HeaderName.contentLength →
          o.headers.values HeaderName.contentLength =
            [HeaderValue.literal (Text.decimal (Form.reencode raw).length)]) ∧
        left.body.Holds raw ∧
        (∀ (limit : Nat) (t : Scene τ) (url' : Uri), t.exchange.request.body = left.body →
          t.exchange.requestUrl = some url' → Filter.isForm t.exchange.request = true →
          ∃ o' left', Filter.ForwardsAs limit t o' left' ∧ o'.body = o.body ∧
            left'.body = left.body) ∧
        ∀ (policy : RetryPolicy) (next : Stage τ),
          Filter.Spares next → ∃ k, 1 ≤ k ∧ k ≤ max 1 policy.maxAttempts ∧
            ((Filter.retry policy bodyLimit).run
                ((Filter.forward bodyLimit).run next) s).2.world.sent =
              s.world.sent ++ List.replicate k o := by
  refine ⟨fun raw => ⟨Form.decode_reencode raw, fun b => Form.isCoded_of_mem_encode,
    Form.reencode_reencode raw⟩, ?_⟩
  intro bodyLimit s url raw hurl hform hread
  have hholds := RequestBody.holds_of_materialize hread
  have hawaits : Filter.Awaits bodyLimit s raw (s.exchange.request.formOutbound url raw) :=
    ⟨hform, hread, url, hurl, rfl⟩
  refine ⟨_, _, Filter.forwardsAs_of_form hurl hform hread, Request.body_formOutbound _ _ _,
    Request.contentLength_formOutbound _ _ _, hholds, ?_, ?_⟩
  · intro limit t url' hbody hurl' hform'
    have hagain : t.exchange.request.body.materialize limit =
        (.ok raw, t.exchange.request.body) := by
      rw [hbody]
      exact hholds.materialize limit
    refine ⟨_, _, Filter.forwardsAs_of_form hurl' hform' (congrArg Prod.fst hagain),
      Request.body_formOutbound _ _ _, ?_⟩
    exact (congrArg Prod.snd hagain).trans hbody
  · exact fun policy next hnext => hawaits.exists_sent_retry hnext policy

/-- A request with the form `a=~&&b`, which arrives in two chunks. -/
def formScene : Scene Rat where
  exchange :=
    { request :=
        { method := Method.put
          uri := ⟨none, none, ⟨"/a", none⟩⟩
          headers := ⟨[(HeaderName.contentType, HeaderValue.literal Filter.formType),
            (HeaderName.contentLength, HeaderValue.literal "6")]⟩
          body := .ofBody (.stream [bytesOf "a=", bytesOf "~&&b"] none) }
      requestUrl := some ⟨some "http", some "b", ⟨"/a", none⟩⟩ }
  world :=
    { backend := fun _ => { answer := .error (.upstream "http://b/a" "gone") }
      limiter := .empty }

/-- The tilde is encoded, the empty field is left out, and each of the attempts sends the same. -/
theorem form_forwarded_anew_tilde :
    ∃ o left, Filter.ForwardsAs 1024 formScene o left ∧ o.body = .whole (bytesOf "a=%7E&b=") ∧
      o.headers.values HeaderName.contentLength = [HeaderValue.literal "8"] ∧
      left.body.Holds (bytesOf "a=~&&b") ∧
      ∃ k, 1 ≤ k ∧ ((Filter.retry {} 1024).run ((Filter.forward 1024).run
        (runChain [])) formScene).2.world.sent = List.replicate k o := by
  have hencoded : Form.reencode (bytesOf "a=~&&b") = bytesOf "a=%7E&b=" := by cbv
  obtain ⟨o, left, hforwards, hbody, hlength, hholds, -, hretry⟩ :=
    (form_forwarded_anew (τ := Rat)).2 1024 formScene ⟨some "http", some "b", ⟨"/a", none⟩⟩
      (bytesOf "a=~&&b") rfl (by cbv) (by cbv)
  have hlists : ¬formScene.exchange.request.headers.Lists HeaderName.contentLength :=
    fun h => absurd (Headers.mem_listedNames.mpr h) List.not_mem_nil
  rw [hencoded] at hbody hlength
  obtain ⟨k, hk, -, hsent⟩ := hretry {} (runChain []) (Filter.spares_of_plain (by simp))
  exact ⟨o, left, hforwards, hbody, hlength hlists, hholds, k, hk, hsent⟩

end HttpGateway
