import HttpGateway.Proofs.Filter.Forwarding
import Mathlib

/-!
# Retrying is transparent

When a chain of plain filters around forwarding is retried, every attempt sends the same request,
and what is left in the end is what one run leaves that is given the last answer. The one exception
is the record of addresses. It is not put back between attempts, so that it also holds what filters
behind the forwarding kept in an earlier attempt that was answered.
-/

namespace HttpGateway

open ForwardingChain (Prepared)

variable {τ : Type}

/-- What the backend answers when it is sent the same request for the `i`-th time. -/
def World.answer (w : World τ) (o : Outbound) (i : Nat) : Except GatewayError Reply :=
  (w.backend (w.sent ++ List.replicate i o)).answer

/-- The same scene with a backend that always gives this answer. -/
def Scene.answering (s : Scene τ) (answer : Except GatewayError Reply) : Scene τ :=
  { s with world := { s.world with backend := fun _ => { answer } } }

/-- The surroundings are the same, but for what has been sent, counted and used up. -/
structure World.Stays (w w' : World τ) : Prop where
  backend : w'.backend = w.backend
  directory : w'.directory = w.directory

namespace Filter

/-! ### Between two attempts -/

/-- The pause after an attempt sends nothing, and the attempt counts as retried. -/
theorem paused_spec [TokenArithmetic τ] (policy : RetryPolicy) (attempt : Nat) (s : Scene τ) :
    s.world.Stays (paused policy attempt s) ∧
      (paused policy attempt s).metrics =
        s.world.metrics ++ [.retry s.exchange.routeLabel attempt] := by
  have hcounted : s.world.Stays (s.world.count (.retry s.exchange.routeLabel attempt)) ∧
      (s.world.count (.retry s.exchange.routeLabel attempt)).metrics =
        s.world.metrics ++ [.retry s.exchange.routeLabel attempt] := ⟨⟨rfl, rfl⟩, rfl⟩
  unfold paused
  generalize s.world.count (.retry s.exchange.routeLabel attempt) = w at hcounted ⊢
  obtain ⟨⟨hbackend, hdirectory⟩, hmetrics⟩ := hcounted
  obtain ⟨-, h⟩ | ⟨_, -, ⟨_, -, h⟩ | ⟨-, h⟩⟩ := pause_cases policy.backoff attempt w <;> rw [h] <;>
    exact ⟨⟨hbackend, hdirectory⟩, hmetrics⟩

/-- What is put back makes the exchange the one before the attempt again, but for the address of the
backend and the record of addresses. -/
theorem restore_of_lasts {x y : Exchange} (h : x.Lasts y) (hresponse : x.response.body = none)
    (hupstream : x.upstream = none) :
    (RetryPoint.of x).restore y =
      { x with requestUrl := y.requestUrl, originalUrls := y.originalUrls } := by
  obtain ⟨hmethod, hbody, hremote, hid, hroute, hmatch, hcommitted, habandoned⟩ := h
  rw [hresponse] at hcommitted
  have hreset : y.response.reset x.response.status x.response.headers = x.response := by
    have hopen : y.response.isCommitted = false := by simp [Response.isCommitted, hcommitted]
    simp only [Response.reset, Response.reset?, Response.change?, hopen, hcommitted,
      ← hresponse]
    rfl
  simp only [RetryPoint.restore, RetryPoint.of, Exchange.clearUpstream, Exchange.mapResponse,
    Exchange.mapRequest, hreset, hmethod, hbody, hremote, hid, hroute, hmatch, habandoned, ← hupstream]

/-! ### One attempt -/

/-- The exchange at the start of an attempt is the one at the entry, but for the address of the
backend and a record of addresses from which making the request comes to this one. -/
structure Resumes (p : Prepared) (x : Exchange) (urls : List Uri) (y : Exchange) : Prop where
  same : y = { x with requestUrl := y.requestUrl, originalUrls := y.originalUrls }
  record : keepUrls y.originalUrls p.trail = urls

section Attempt

variable {c : ForwardingChain} {p : Prepared} {x y : Exchange} {urls : List Uri}

theorem resumes_self (p : Prepared) (x : Exchange) : Resumes p x (p.apply x).originalUrls x :=
  ⟨rfl, rfl⟩

/-- An attempt sends the one request, and leaves what the answer leads to. -/
theorem runChain_of_resumes [TokenArithmetic τ] {entry s : Scene τ} (hmakes : c.Makes p entry)
    (hs : Resumes p entry.exchange urls s.exchange)
    (hdirectory : s.world.directory = entry.world.directory) :
    let left :=
      c.conclude (s.world.answer p.outbound 1) { p.apply entry.exchange with originalUrls := urls }
    ∃ world, runChain c.filters s = (left.1, ⟨left.2, world⟩) ∧ s.world.Stays world ∧
      world.sent = s.world.sent ++ [p.outbound] ∧ world.metrics = s.world.metrics := by
  obtain ⟨hsame, hrecord⟩ := hs
  have hagree : ForwardingChain.Agree entry s :=
    ⟨by rw [hsame], by rw [hsame], by rw [hsame], hdirectory⟩
  have hleft : p.apply s.exchange = { p.apply entry.exchange with originalUrls := urls } := by
    rw [← hrecord, hsame]
    rfl
  obtain ⟨found, hfinds, hprepare⟩ := hmakes s hagree
  rw [c.runChain_filters, hprepare, hleft]
  refine ⟨(found.send p.outbound).2, ?_, ?_⟩
  · obtain rfl | ⟨service, rfl⟩ := hfinds <;> rfl
  · obtain rfl | ⟨service, rfl⟩ := hfinds <;> exact ⟨⟨rfl, rfl⟩, rfl, rfl⟩

/-- The next attempt starts from the exchange at the entry again, with the record that is left. -/
theorem resumes_restore (answer : Except GatewayError Reply) (hresponse : x.response.body = none)
    (hupstream : x.upstream = none)
    (hknown : (p.apply x).originalUrls ⊆
      (c.conclude answer { p.apply x with originalUrls := urls }).2.originalUrls) :
    let left := (c.conclude answer { p.apply x with originalUrls := urls }).2
    Resumes p x left.originalUrls ((RetryPoint.of x).restore left) := by
  intro left
  have hprepared : x.Lasts { p.apply x with originalUrls := urls } :=
    ⟨rfl, rfl, rfl, rfl, rfl, rfl, rfl, rfl⟩
  rw [restore_of_lasts (hprepared.trans (c.lasts_conclude answer _)) hresponse hupstream]
  exact ⟨rfl, keepUrls_of_subset hknown⟩

/-- What the filters behind the forwarding add to a record of addresses, whatever the answer. -/
def Adds (c : ForwardingChain) (p : Prepared) (x : Exchange) (trail : List Uri) : Prop :=
  ∀ (reply : Reply) (urls : List Uri),
    c.conclude (.ok reply) { p.apply x with originalUrls := urls } =
      ((c.conclude (.ok reply) (p.apply x)).1,
        { (c.conclude (.ok reply) (p.apply x)).2 with originalUrls := keepUrls urls trail })

/-- The record of addresses after attempts: that of making the request, or with what the filters
behind the forwarding add. -/
def IsRecord (p : Prepared) (x : Exchange) (trail urls : List Uri) : Prop :=
  urls = (p.apply x).originalUrls ∨ urls = keepUrls (p.apply x).originalUrls trail

variable {trail : List Uri}

theorem IsRecord.subset (h : IsRecord p x trail urls) : (p.apply x).originalUrls ⊆ urls := by
  rcases h with rfl | rfl
  · exact List.Subset.refl _
  · exact (prefix_keepUrls _ trail).subset

theorem IsRecord.keepUrls_eq (h : IsRecord p x trail urls) :
    keepUrls urls trail = keepUrls (p.apply x).originalUrls trail := by
  rcases h with rfl | rfl
  · rfl
  · exact keepUrls_of_subset (List.Subset.refl _)

/-- The record stays one, and an attempt without an answer leaves it as it is. -/
theorem IsRecord.conclude (h : IsRecord p x trail urls) (hadds : Adds c p x trail)
    (answer : Except GatewayError Reply) :
    let left := (c.conclude answer { p.apply x with originalUrls := urls }).2
    IsRecord p x trail left.originalUrls ∧
      ((∃ e, answer = .error e) → left.originalUrls = urls) := by
  cases answer with
  | error e => exact ⟨h, fun _ => rfl⟩
  | ok reply =>
      intro left
      have hleft : left.originalUrls = keepUrls (p.apply x).originalUrls trail := by
        simp only [left, hadds reply urls, h.keepUrls_eq]
      exact ⟨.inr hleft, nofun⟩

end Attempt

/-! ### Several attempts -/

/-- What some attempts, the first with this number and this record of addresses, come to: each sends
the one request, all but the last are counted as retried, and what is left is what the last answer
leads to. Attempts that are given up have the last counted as well, since there was to be another
after it. -/
structure Attempted (policy : RetryPolicy) (c : ForwardingChain) (p : Prepared) (x : Exchange)
    (trail urls : List Uri) (attempt : Nat) (s : Scene τ) (k : Nat) (r : Outcome × Scene τ) :
    Prop where
  sent : r.2.world.sent = s.world.sent ++ List.replicate k p.outbound
  metrics : r.2.world.metrics = s.world.metrics ++
    (List.range (if r.2.exchange.abandoned then k else k - 1)).map fun i =>
      Metric.retry x.routeLabel (attempt + i)
  kept : r.2.exchange.abandoned = true →
    ∃ b draw, policy.backoff = some b ∧ b.delay (attempt + (k - 1)) draw = none
  left : ∃ record, IsRecord p x trail record ∧
    (r.1, { r.2.exchange with abandoned := false }) =
      c.conclude (s.world.answer p.outbound k) { p.apply x with originalUrls := record } ∧
    ((∀ i, 1 ≤ i → i < k → ∃ e, s.world.answer p.outbound i = .error e) → record = urls)

section Attempts

variable {policy : RetryPolicy} {c : ForwardingChain} {p : Prepared} {x : Exchange}
  {trail urls : List Uri} {attempt : Nat} {s : Scene τ}

/-- One attempt, whose outcome stands. -/
theorem attempted_once {world : World τ} (hrecord : IsRecord p x trail urls)
    (hsent : world.sent = s.world.sent ++ [p.outbound])
    (hmetrics : world.metrics = s.world.metrics) (hx : x.abandoned = false) :
    let left := c.conclude (s.world.answer p.outbound 1) { p.apply x with originalUrls := urls }
    Attempted policy c p x trail urls attempt s 1 (left.1, ⟨left.2, world⟩) := by
  intro left
  have hleft : left.2.abandoned = false := (c.lasts_conclude _ _).abandoned.trans hx
  refine ⟨hsent, ?_, fun h => ?_, urls, hrecord, ?_, fun _ => rfl⟩
  · rw [hmetrics, hleft]
    exact (List.append_nil _).symm
  · rw [hleft] at h
    cases h
  · exact Prod.ext rfl (by rw [← hleft])

/-- One attempt, behind which the exchange is given up. -/
theorem attempted_givenUp {world : World τ} (hrecord : IsRecord p x trail urls)
    (hsent : world.sent = s.world.sent ++ [p.outbound])
    (hmetrics : world.metrics = s.world.metrics ++ [.retry x.routeLabel attempt])
    (hx : x.abandoned = false) {b : Backoff} (hb : policy.backoff = some b) {draw : Nat}
    (hdelay : b.delay attempt draw = none) :
    let left := c.conclude (s.world.answer p.outbound 1) { p.apply x with originalUrls := urls }
    Attempted policy c p x trail urls attempt s 1 (left.1, ⟨left.2.abandon, world⟩) := by
  intro left
  have hleft : left.2.abandoned = false := (c.lasts_conclude _ _).abandoned.trans hx
  refine ⟨hsent, hmetrics, fun _ => ⟨b, draw, hb, hdelay⟩, urls, hrecord, ?_, fun _ => rfl⟩
  exact Prod.ext rfl (by rw [← hleft]; rfl)

/-- One attempt more at the front. -/
theorem Attempted.cons {s' : Scene τ} {record : List Uri} {k : Nat} {r : Outcome × Scene τ}
    (h : Attempted policy c p x trail record (attempt + 1) s' k r) (hk : 1 ≤ k)
    (hsent : s'.world.sent = s.world.sent ++ [p.outbound])
    (hbackend : s'.world.backend = s.world.backend)
    (hmetrics : s'.world.metrics = s.world.metrics ++ [.retry x.routeLabel attempt])
    (hrecord : (∃ e, s.world.answer p.outbound 1 = .error e) → record = urls) :
    Attempted policy c p x trail urls attempt s (k + 1) r := by
  have hanswer (i : Nat) : s'.world.answer p.outbound i = s.world.answer p.outbound (i + 1) := by
    simp only [World.answer, hbackend, hsent, List.append_assoc, List.replicate_succ,
      List.singleton_append]
  obtain ⟨sent, metrics, kept, record', isRecord, left, hkept⟩ := h
  obtain ⟨j, rfl⟩ : ∃ j, k = j + 1 := ⟨k - 1, by omega⟩
  refine ⟨?_, ?_, fun habandoned => ?_, record', isRecord, ?_, fun hall => ?_⟩
  · rw [sent, hsent, List.append_assoc, List.singleton_append, ← List.replicate_succ]
  · have hcount : (if r.2.exchange.abandoned = true then j + 1 + 1 else j + 1 + 1 - 1) =
        (if r.2.exchange.abandoned = true then j + 1 else j + 1 - 1) + 1 := by
      split <;> rfl
    rw [metrics, hmetrics, hcount, List.range_succ_eq_map, List.map_cons, List.map_map,
      List.append_assoc, List.singleton_append]
    simp [Function.comp_def, Nat.add_comm, Nat.add_left_comm]
  · obtain ⟨b, draw, hb, hdelay⟩ := kept habandoned
    refine ⟨b, draw, hb, ?_⟩
    rwa [Nat.add_sub_cancel, Nat.add_assoc, Nat.add_comm 1] at hdelay
  · rw [left, hanswer]
  · rw [hkept fun i hi hlt => ?_, hrecord (hall 1 (Nat.le_refl _) (by omega))]
    rw [hanswer]
    exact hall (i + 1) (by omega) (by omega)

theorem exists_attempted [TokenArithmetic τ] {entry : Scene τ} (policy : RetryPolicy)
    (method : Method) (hkept : entry.exchange.abandoned = false)
    (hresponse : entry.exchange.response.body = none) (hupstream : entry.exchange.upstream = none)
    (hadds : Adds c p entry.exchange trail) (hmakes : c.Makes p entry)
    (hs : Resumes p entry.exchange urls s.exchange)
    (hdirectory : s.world.directory = entry.world.directory)
    (hrecord : IsRecord p entry.exchange trail urls) (further attempt : Nat) :
    ∃ k, 1 ≤ k ∧ k ≤ further + 1 ∧ Attempted policy c p entry.exchange trail urls attempt s k
      (attempts policy method (RetryPoint.of entry.exchange) (runChain c.filters) further attempt
        s) := by
  induction further generalizing attempt urls s with
  | zero =>
      obtain ⟨world, hrun, -, hsent, hmetrics⟩ := runChain_of_resumes hmakes hs hdirectory
      rw [attempts, hrun]
      exact ⟨1, Nat.le_refl _, Nat.le_refl _, attempted_once hrecord hsent hmetrics hkept⟩
  | succ further ih =>
      obtain ⟨world, hrun, hstays, hsent, hmetrics⟩ := runChain_of_resumes hmakes hs hdirectory
      obtain ⟨hrecord', hsame⟩ := hrecord.conclude hadds (s.world.answer p.outbound 1)
      have hresumes := resumes_restore (s.world.answer p.outbound 1) hresponse hupstream
        hrecord'.subset
      have honce :=
        @attempted_once τ policy c p entry.exchange trail urls attempt s world hrecord hsent
          hmetrics hkept
      have hgivenUp (w : World τ) :=
        @attempted_givenUp τ policy c p entry.exchange trail urls attempt s w hrecord
      have hroute := (c.lasts_conclude (s.world.answer p.outbound 1)
        { p.apply entry.exchange with originalUrls := urls }).route
      -- From here on it does not matter what the answer has led to.
      generalize c.conclude (s.world.answer p.outbound 1)
        { p.apply entry.exchange with originalUrls := urls } = left at *
      have hsequel := ensues_sequel policy method (RetryPoint.of entry.exchange) attempt left.1
        ⟨left.2, world⟩
      obtain ⟨hpaused, hcounted⟩ := paused_spec policy attempt ⟨left.2, world⟩
      have hlabel : left.2.routeLabel = entry.exchange.routeLabel := by
        simp only [Exchange.routeLabel, Exchange.routeId?, hroute]
        rfl
      have hpausedSent := (sent_paused policy attempt ⟨left.2, world⟩).trans hsent
      rw [hlabel, hmetrics] at hcounted
      simp only [attempts, hrun]
      generalize sequel policy method (RetryPoint.of entry.exchange) attempt left.1 ⟨left.2, world⟩ =
        ensuing at hsequel ⊢
      cases hsequel with
      | stands => exact ⟨1, Nat.le_refl _, by omega, honce⟩
      | givenUp _ hb hdelay =>
          exact ⟨1, Nat.le_refl _, by omega, hgivenUp _ hpausedSent hcounted hkept hb hdelay⟩
      | again =>
          -- The exchange is put back, and the induction goes on from the record that is left.
          obtain ⟨k, hk, hle, rest⟩ := @ih _
            (again policy (RetryPoint.of entry.exchange) attempt ⟨left.2, world⟩) hresumes
            (hpaused.directory.trans (hstays.directory.trans hdirectory)) hrecord' (attempt + 1)
          exact ⟨k + 1, by omega, by omega, rest.cons hk hpausedSent
            (hpaused.backend.trans hstays.backend) hcounted hsame⟩

end Attempts

/-- A run that fails without the backend being to blame is the only one. -/
theorem attempts_of_error [TokenArithmetic τ] {policy : RetryPolicy} {method : Method}
    {point : RetryPoint} {next : Stage τ} {s s' : Scene τ} {e : GatewayError}
    (h : next s = (.error e, s')) (he : e.isUpstream = false) (further attempt : Nat) :
    attempts policy method point next further attempt s = (.error e, s') := by
  cases further with
  | zero => exact h
  | succ further => simp [attempts, h, sequel, RetryPolicy.shouldRetry, he]

theorem isReplayable_materialize {limit : Nat} {body : RequestBody} {bytes : Bytes}
    (h : (body.materialize limit).1 = .ok bytes) :
    (body.materialize limit).2.isReplayable = true := by
  cases body with
  | empty | buffered => rfl
  | consumed => cases h
  | streaming body =>
      simp only [RequestBody.materialize] at h ⊢
      split at h
      next => rfl
      next => cases h

/-- The exchange with its body read. -/
def materialized (limit : Nat) (x : Exchange) : Exchange :=
  x.mapRequest fun r => { r with body := (r.body.materialize limit).2 }

section

variable {policy : RetryPolicy} {limit : Nat} {next : Stage τ} {s : Scene τ}

/-- A chain that may be retried is not run before the body of the request has been read. -/
theorem retryThen_eq_match [TokenArithmetic τ] (hmethod : policy.allowsMethod s.exchange.request.method = true)
    (hattempts : 2 ≤ policy.maxAttempts) :
    retryThen policy limit next s =
      match (s.exchange.request.body.materialize limit).1 with
      | .error e => (.error e, s.mapExchange (materialized limit))
      | .ok _ => attempts policy s.exchange.request.method
          (RetryPoint.of (materialized limit s.exchange)) next (policy.maxAttempts - 1) 1
          (s.mapExchange (materialized limit)) := by
  have hmore : ¬policy.maxAttempts ≤ 1 := by omega
  simp only [retryThen, hmethod, hmore, Bool.not_true, decide_false, Bool.or_self,
    Bool.false_eq_true, if_false]
  cases (s.exchange.request.body.materialize limit).1 <;> rfl

/-- It is run on the exchange with its body read. -/
theorem retryThen_of_allowed [TokenArithmetic τ] {bytes : Bytes}
    (hmethod : policy.allowsMethod s.exchange.request.method = true)
    (hattempts : 2 ≤ policy.maxAttempts)
    (hbody : (s.exchange.request.body.materialize limit).1 = .ok bytes) :
    retryThen policy limit next s =
      attempts policy s.exchange.request.method (RetryPoint.of (materialized limit s.exchange)) next
        (policy.maxAttempts - 1) 1 (s.mapExchange (materialized limit)) := by
  rw [retryThen_eq_match hmethod hattempts, hbody]

end

end Filter

/-- How the chain left by attempts compares with the chain run once on the last answer. -/
theorem Filter.Attempted.eq_once [TokenArithmetic τ] {policy : RetryPolicy} {c : ForwardingChain}
    {p : Prepared} {trail : List Uri} {attempt k : Nat} {s : Scene τ} {r : Outcome × Scene τ}
    (h : Attempted policy c p s.exchange trail (p.apply s.exchange).originalUrls attempt s k r)
    (hadds : Adds c p s.exchange trail) (hmakes : c.Makes p s)
    (hkept : s.exchange.abandoned = false) :
    let once := runChain c.filters (s.answering (s.world.answer p.outbound k))
    r.1 = once.1 ∧
      r.2.exchange = { once.2.exchange with
        originalUrls := r.2.exchange.originalUrls, abandoned := r.2.exchange.abandoned } ∧
      once.2.exchange.abandoned = false ∧
      once.2.exchange.originalUrls <+: r.2.exchange.originalUrls ∧
      ((∃ reply, s.world.answer p.outbound k = .ok reply) ∨
          (∀ i, 1 ≤ i → i < k → ∃ e, s.world.answer p.outbound i = .error e) ∨ trail = [] →
        r.2.exchange.originalUrls = once.2.exchange.originalUrls) := by
  intro once
  obtain ⟨world, hrun, -⟩ := runChain_of_resumes
    (s := s.answering (s.world.answer p.outbound k)) hmakes (resumes_self p s.exchange) rfl
  have honce : once = ((c.conclude (s.world.answer p.outbound k) (p.apply s.exchange)).1,
      ⟨(c.conclude (s.world.answer p.outbound k) (p.apply s.exchange)).2, world⟩) := hrun
  have hlasts := c.lasts_conclude (s.world.answer p.outbound k) (p.apply s.exchange)
  -- Both sides conclude with the same answer, if perhaps from different records of addresses.
  obtain ⟨record, isRecord, hleft, hsame⟩ := h.left
  have hout : r.1 = (c.conclude (s.world.answer p.outbound k)
      { p.apply s.exchange with originalUrls := record }).1 := congrArg Prod.fst hleft
  have hexchange : ({ r.2.exchange with abandoned := false } : Exchange) =
      (c.conclude (s.world.answer p.outbound k)
        { p.apply s.exchange with originalUrls := record }).2 := congrArg Prod.snd hleft
  have hparts : r.2.exchange = { ({ r.2.exchange with abandoned := false } : Exchange) with
    abandoned := r.2.exchange.abandoned } := rfl
  have hurls : r.2.exchange.originalUrls =
    ({ r.2.exchange with abandoned := false } : Exchange).originalUrls := rfl
  rw [hexchange] at hparts hurls
  rw [honce, hout]
  cases hanswer : s.world.answer p.outbound k with
  | error e =>
      rw [hanswer] at hparts hurls
      refine ⟨rfl, ?_, hkept, ?_, ?_⟩
      · rw [hurls]
        exact hparts
      · rw [hurls]
        rcases isRecord with rfl | rfl
        · exact List.prefix_refl _
        · exact prefix_keepUrls _ _
      · rw [hurls]
        rintro (⟨_, hreply⟩ | hall | rfl)
        · cases hreply
        · exact hsame hall
        · rcases isRecord with rfl | rfl <;> rfl
  | ok reply =>
      have hself : (c.conclude (.ok reply) (p.apply s.exchange)).2.originalUrls =
          keepUrls (p.apply s.exchange).originalUrls trail :=
        congrArg (fun r => r.2.originalUrls) (hadds reply (p.apply s.exchange).originalUrls)
      rw [hanswer] at hparts hurls hlasts
      rw [hadds reply record] at hparts hurls
      rw [isRecord.keepUrls_eq, ← hself] at hurls
      rw [hadds reply record, hurls]
      rw [isRecord.keepUrls_eq, ← hself] at hparts
      exact ⟨rfl, hparts, hlasts.abandoned.trans hkept, List.prefix_refl _, fun _ => rfl⟩

/-- Retrying is transparent but for the record of addresses. If it takes `k` attempts, they all send
the same request, or the only one fails before it sends any; and result and exchange are those of
the chain run once, on the exchange with its body read and with a backend that gives the `k`-th
answer. The record of addresses begins with the one of that run; it is the same if the `k`-th
attempt was answered, if none before it was, or if no filter behind the forwarding rewrites the
path. The exchange is given up only where the pause after the `k`-th attempt has no length. -/
theorem retry_transparent [TokenArithmetic τ] (policy : RetryPolicy) (bodyLimit : Nat)
    (order : Int32) (c : ForwardingChain) (s : Scene τ)
    (hmethod : policy.allowsMethod s.exchange.request.method = true)
    (hattempts : 2 ≤ policy.maxAttempts) (hresponse : s.exchange.response.isCommitted = false)
    (hupstream : s.exchange.upstream = none) (hkept : s.exchange.abandoned = false)
    (hsteady : s.world.directory.Steady)
    (hbody : ∃ bytes, (s.exchange.request.body.materialize bodyLimit).1 = .ok bytes) :
    let left := runChain (⟨order, .retry policy bodyLimit⟩ :: c.filters) s
    ∃ k o, 1 ≤ k ∧ k ≤ policy.maxAttempts ∧
      left.2.world.metrics = s.world.metrics ++
        (List.range (if left.2.exchange.abandoned then k else k - 1)).map
          (fun i => .retry s.exchange.routeLabel (i + 1)) ∧
      (left.2.world.sent = s.world.sent ++ List.replicate k o ∨
        k = 1 ∧ left.2.world.sent = s.world.sent) ∧
      (left.2.exchange.abandoned = true →
        ∃ b draw, policy.backoff = some b ∧ b.delay k draw = none) ∧
      let entry := s.mapExchange (Filter.materialized bodyLimit)
      let once := runChain c.filters (entry.answering (s.world.answer o k))
      left.1 = once.1 ∧
      left.2.exchange = { once.2.exchange with
        originalUrls := left.2.exchange.originalUrls, abandoned := left.2.exchange.abandoned } ∧
      once.2.exchange.abandoned = false ∧
      once.2.exchange.originalUrls <+: left.2.exchange.originalUrls ∧
      ((∃ reply, s.world.answer o k = .ok reply) ∨
          (∀ i, 1 ≤ i → i < k → ∃ e, s.world.answer o i = .error e) ∨
          (∀ f ∈ c.behind, f.filter.isRewrite = false) →
        left.2.exchange.originalUrls = once.2.exchange.originalUrls) := by
  intro left
  obtain ⟨bytes, hbytes⟩ := hbody
  have hreplayable := Filter.isReplayable_materialize hbytes
  have hnone : (Filter.materialized bodyLimit s.exchange).response.body = none :=
    Option.isNone_iff_eq_none.mp (Option.isSome_eq_false_iff.mp hresponse)
  let entry := s.mapExchange (Filter.materialized bodyLimit)
  have hentry : entry.exchange.abandoned = false := hkept
  have hruns : left = Filter.attempts policy s.exchange.request.method
    (Filter.RetryPoint.of entry.exchange) (runChain c.filters) (policy.maxAttempts - 1) 1 entry :=
    Filter.retryThen_of_allowed hmethod hattempts hbytes
  obtain ⟨e, y, he, hy, hprepare⟩ | ⟨p, hmakes⟩ :=
    c.exists_prepared (s := entry) hsteady hreplayable
  · -- The request cannot be made: there is one attempt, and it sends nothing.
    have hrun (w : World τ) (hw : w.directory = s.world.directory) : ∃ world, w.Finds world ∧
        runChain c.filters ⟨Filter.materialized bodyLimit s.exchange, w⟩ = (.error e, ⟨y, world⟩) := by
      obtain ⟨world, hfinds, hprepare⟩ := hprepare w hw
      refine ⟨world, hfinds, ?_⟩
      rw [c.runChain_filters, show c.prepare ⟨Filter.materialized bodyLimit s.exchange, w⟩ = _ from
        hprepare]
    obtain ⟨world, hfinds, hfirst⟩ := hrun s.world rfl
    have hsilent : world.sent = s.world.sent ∧ world.metrics = s.world.metrics := by
      obtain rfl | ⟨service, rfl⟩ := hfinds <;> exact ⟨rfl, rfl⟩
    have hleft : left = _ := hruns.trans (Filter.attempts_of_error hfirst he _ _)
    have hgone : y.abandoned = false := hy.trans hkept
    rw [hleft]
    refine ⟨1, ⟨s.exchange.request.method, s.exchange.request.uri, Headers.empty, .whole []⟩,
      Nat.le_refl _, by omega, by simp [hsilent.2, hgone], .inr ⟨rfl, hsilent.1⟩, ?_, ?_⟩
    · intro h
      rw [hgone] at h
      cases h
    · intro entry once
      obtain ⟨world', -, honce⟩ := hrun (entry.answering _).world rfl
      have honce : once = (.error e, ⟨y, world'⟩) := honce
      rw [honce]
      exact ⟨rfl, rfl, hgone, List.prefix_refl _, fun _ => rfl⟩
  · obtain ⟨trail, htrail, hconclude⟩ := c.exists_trail_conclude (p.apply entry.exchange)
    have hadds : Filter.Adds c p entry.exchange trail :=
      fun reply urls => hconclude reply _ urls rfl rfl
    obtain ⟨k, hk, hle, attempted⟩ := Filter.exists_attempted (s := entry) policy
      s.exchange.request.method hentry hnone hupstream hadds hmakes
      (Filter.resumes_self p _) rfl (.inl rfl) (policy.maxAttempts - 1) 1
    rw [← hruns] at attempted
    obtain ⟨hout, hexchange, honce, hprefix, hrecord⟩ := attempted.eq_once hadds hmakes hentry
    refine ⟨k, p.outbound, hk, by omega, ?_, .inl attempted.sent, fun h => ?_, hout, hexchange,
      honce, hprefix, ?_⟩
    · rw [attempted.metrics]
      simp [Nat.add_comm]
      rfl
    · obtain ⟨b, draw, hb, hdelay⟩ := attempted.kept h
      rw [show 1 + (k - 1) = k by omega] at hdelay
      exact ⟨b, draw, hb, hdelay⟩
    · exact fun h => hrecord (h.imp_right fun h => h.imp_right htrail)

/-! ### Two attempts -/

/-- A request for `/a` on a route to `http://b`, which is answered that the service is unavailable
at first, and with this afterwards. -/
def twiceSent (answer : Except GatewayError Reply) : Scene Rat where
  exchange :=
    { request := { uri := ⟨none, none, ⟨"/a", none⟩⟩ }
      route := some ⟨"r", ⟨some "http", some "b", Target.root⟩⟩ }
  world :=
    { backend := fun sent =>
        { answer := if sent.length = 1 then .ok { status := Status.serviceUnavailable } else answer }
      limiter := .empty }

/-- Forwarding, and behind it a filter that puts `/p` in front of the path. -/
def prefixBehind : ForwardingChain where
  before := []
  resolveOrder := OrderedFilter.resolveOrder
  between := []
  forwardOrder := OrderedFilter.forwardOrder
  bodyLimit := 1024
  behind := [⟨OrderedFilter.forwardOrder, .request (.prefixPath "/p")⟩]
  isPlain_before := nofun
  isPlain_between := nofun
  isPlain_behind := by simp [Filter.isPlain]

/-- The second attempt is answered: all is as after one run. -/
theorem retry_transparent_answered :
    let s := twiceSent (.ok { status := Status.ok })
    let left := runChain (⟨1, .retry { maxAttempts := 2 } 1024⟩ :: prefixBehind.filters) s
    ∃ o, left.2.world.sent = [o, o] ∧
      let once := runChain prefixBehind.filters (s.answering (.ok { status := Status.ok }))
      left.1 = once.1 ∧ left.2.exchange = once.2.exchange := by
  dsimp only
  have hcounted : (runChain (⟨1, .retry { maxAttempts := 2 } 1024⟩ :: prefixBehind.filters)
      (twiceSent (.ok { status := Status.ok }))).2.world.metrics = [.retry "r" 1] := by cbv
  obtain ⟨k, o, hk, -, hmetrics, hsent, hkept, hout, hexchange, honce, -, hrecord⟩ :=
    retry_transparent { maxAttempts := 2 } 1024 1 prefixBehind
      (twiceSent (.ok { status := Status.ok })) (by decide) (by decide) rfl rfl rfl
      (fun _ _ _ => rfl) ⟨[], rfl⟩
  generalize runChain (⟨1, .retry { maxAttempts := 2 } 1024⟩ :: prefixBehind.filters)
    (twiceSent (.ok { status := Status.ok })) = left at *
  have hleft : left.2.exchange.abandoned = false :=
    Bool.eq_false_iff.mpr fun h => by simpa using hkept h
  rw [hleft] at hexchange
  have htwo : k = 2 := by
    have hlength := congrArg List.length (hcounted.symm.trans hmetrics)
    simp only [hleft, Bool.false_eq_true, if_false, List.length_append, List.length_map,
      List.length_range, List.length_singleton] at hlength
    have hnone : (twiceSent (.ok { status := Status.ok })).world.metrics.length = 0 := rfl
    omega
  subst htwo
  have hanswer : (twiceSent (.ok { status := Status.ok })).world.answer o 2 =
      .ok { status := Status.ok } := rfl
  have hentry : (twiceSent (.ok { status := Status.ok })).mapExchange (Filter.materialized 1024) =
      twiceSent (.ok { status := Status.ok }) := rfl
  rw [hanswer, hentry] at hout hexchange honce hrecord
  rw [hrecord (.inl ⟨_, rfl⟩), ← honce] at hexchange
  exact ⟨o, hsent.resolve_right (by simp), hout, hexchange⟩

/-- The second attempt is not answered: the first one has left its record of addresses. -/
theorem record_outlives_attempt :
    let s := twiceSent (.error (.upstream "http://b/a" "gone"))
    let policy : RetryPolicy := { maxAttempts := 2 }
    let left := runChain (⟨1, .retry policy 1024⟩ :: prefixBehind.filters) s
    let o : Outbound := ⟨Method.get, ⟨some "http", some "b", ⟨"/a", none⟩⟩,
      Filter.outboundHeaders s.exchange.request, .whole []⟩
    let once := runChain prefixBehind.filters (s.answering (s.world.answer o 2))
    policy.allowsMethod s.exchange.request.method = true ∧ 2 ≤ policy.maxAttempts ∧
      s.exchange.response.isCommitted = false ∧ s.exchange.upstream = none ∧
      s.exchange.abandoned = false ∧ s.world.directory.Steady ∧
      s.exchange.request.body.materialize 1024 = (.ok [], s.exchange.request.body) ∧
      left.2.world.metrics = [.retry "r" 1] ∧ left.2.world.sent = [o, o] ∧
      left.2.exchange.originalUrls = [⟨none, none, ⟨"/a", none⟩⟩] ∧
      once.2.exchange.originalUrls = [] := by
  dsimp only
  refine ⟨by decide, by decide, rfl, rfl, rfl, fun _ _ _ => rfl, rfl, ?_, ?_, ?_, ?_⟩
  · cbv
  · cbv
  · cbv
  · cbv

end HttpGateway
