import HttpGateway.Filter.Chain

/-!
# Entering filters

The work of a filter before the rest of its chain, apart from what it does around the rest. A filter
that has been entered goes on, or ends the work on the exchange, or fails; only if it goes on is the
rest of the chain run.
-/

namespace HttpGateway

variable {τ : Type}

/-- What entering a filter leads to. -/
inductive Entry (τ : Type) where
  | onward (s : Scene τ)
  | ended (s : Scene τ)
  | failed (e : GatewayError) (s : Scene τ)

def Entry.goesOn : Entry τ → Bool
  | .onward _ => true
  | _ => false

def Entry.scene : Entry τ → Scene τ
  | .onward s | .ended s | .failed _ s => s

/-- Runs a stage if the filter goes on. -/
def Entry.andThen (entry : Entry τ) (next : Stage τ) : Outcome × Scene τ :=
  match entry with
  | .onward s => next s
  | .ended s => (.ok (), s)
  | .failed e s => (.error e, s)

/-- The directory has been asked for a service, or has not. -/
def World.Finds [TokenArithmetic τ] (w w' : World τ) : Prop :=
  w' = w ∨ ∃ service, w' = (w.find service).2

namespace Filter

def enterRequest (edit : RequestEdit) (s : Scene τ) : Entry τ :=
  match edit.apply s.exchange with
  | (.ok (), x) => .onward { s with exchange := x }
  | (.error e, x) => .failed e { s with exchange := x }

def enterResolve [TokenArithmetic τ] (s : Scene τ) : Entry τ :=
  match targetUrl s.exchange s.world with
  | (.ok url, world) => .onward { exchange := { s.exchange with requestUrl := some url }, world }
  | (.error e, world) => .failed e { s with world }

/-- Makes the request for the backend and sends it. -/
def sendOn [TokenArithmetic τ] (bodyLimit : Nat) (s : Scene τ) : Except GatewayError Reply × Scene τ :=
  match s.exchange.requestUrl with
  | none => (.error (.missingState .requestUrl), s)
  | some url =>
    let (body, r) := outboundBody bodyLimit s.exchange.request
    let s := s.mapExchange fun x => { x with request := r }
    match body with
    | .error e => (.error e, s)
    | .ok body =>
      let (answer, world) := s.world.send ⟨r.method, url, outboundHeaders r, body⟩
      (answer, { s with world })

/-- The answer of the backend as it is taken over. -/
def takenOver (reply : Reply) : Reply := { reply with headers := reply.headers.stripHopByHop }

def enterForward [TokenArithmetic τ] (bodyLimit : Nat) (s : Scene τ) : Entry τ :=
  match sendOn bodyLimit s with
  | (.ok reply, s) => .onward (s.mapExchange fun x => x.capture (takenOver reply))
  | (.error e, s) => .failed e s

/-- Whether the policy may ever have this request tried again. -/
def mayRetry (policy : RetryPolicy) (x : Exchange) : Bool :=
  policy.allowsMethod x.request.method && 1 < policy.maxAttempts

def enterRetry (policy : RetryPolicy) (bodyLimit : Nat) (s : Scene τ) : Entry τ :=
  if mayRetry policy s.exchange then
    let (result, body) := s.exchange.request.body.materialize bodyLimit
    let s := s.mapExchange fun x => x.mapRequest fun r => { r with body }
    match result with
    | .ok _ => .onward s
    | .error e => .failed e s
  else .onward s

/-- What the limiter's answer leads to. -/
def applyVerdict (limit : RateLimit) (answer : Except GatewayError Verdict) (s : Scene τ) :
    Entry τ :=
  match answer with
  | .error _ => .onward s
  | .ok verdict =>
    let told := s.mapResponse fun r => r.editHeaders (limitHeaders limit verdict)
    if verdict.allowed then .onward told
    else .ended (refuse Status.tooManyRequests
      (told.mapWorld fun w => w.count (.rateLimited s.exchange.routeLabel))).2

def enterLimit [TokenArithmetic τ] (limit : RateLimit) (s : Scene τ) : Entry τ :=
  match resolveKey limit.resolver s.exchange with
  | none => if limit.denyWithoutKey then .ended (refuse Status.forbidden s).2 else .onward s
  | some key =>
    let (answer, limiter) := s.world.limiter.check s.world.clock
      (bucketName s.exchange.routeLabel key) limit.rate limit.burst
    applyVerdict limit answer (s.mapWorld fun w => { w with limiter })

/-- Enters a filter. -/
def enter [TokenArithmetic τ] (f : Filter) (s : Scene τ) : Entry τ :=
  match f with
  | .request edit => enterRequest edit s
  | .redirect status location => .ended (redirectTo status location s).2
  | .retry policy bodyLimit => enterRetry policy bodyLimit s
  | .rateLimit limit => enterLimit limit s
  | .resolveUrl => enterResolve s
  | .forward bodyLimit => enterForward bodyLimit s
  | .response _ => .onward s
  | .commit => .onward s

/-- What a filter that goes on does with the rest of the chain. -/
def around [TokenArithmetic τ] (f : Filter) (next : Stage τ) : Stage τ :=
  match f with
  | .response edit => edit.run next
  | .retry policy _ => fun s =>
    if mayRetry policy s.exchange then
      attempts policy s.exchange.request.method (RetryPoint.of s.exchange) next
        (policy.maxAttempts - 1) 1 s
    else next s
  | .commit => commitAfter next
  | _ => next

theorem forwardThen_eq [TokenArithmetic τ] (bodyLimit : Nat) (next : Stage τ) (s : Scene τ) :
    forwardThen bodyLimit next s = (enterForward bodyLimit s).andThen next := by
  simp only [forwardThen, enterForward, sendOn]
  cases s.exchange.requestUrl with
  | none => rfl
  | some url =>
      dsimp only
      rcases outboundBody bodyLimit s.exchange.request with ⟨_ | body, r⟩
      · rfl
      · dsimp only [Scene.mapExchange]
        rcases s.world.send ⟨r.method, url, outboundHeaders r, body⟩ with ⟨_ | reply, world⟩ <;> rfl

theorem not_mayRetry (policy : RetryPolicy) (x : Exchange) :
    (!policy.allowsMethod x.request.method || decide (policy.maxAttempts ≤ 1)) =
      !mayRetry policy x := by
  rw [mayRetry, Bool.not_and, ← decide_not, decide_eq_decide.mpr Nat.not_lt]

theorem retryThen_eq [TokenArithmetic τ] (policy : RetryPolicy) (bodyLimit : Nat) (next : Stage τ)
    (s : Scene τ) : retryThen policy bodyLimit next s =
      (enterRetry policy bodyLimit s).andThen (around (.retry policy bodyLimit) next) := by
  simp only [retryThen, not_mayRetry, enterRetry]
  by_cases hretry : mayRetry policy s.exchange = true
  · simp only [hretry, Bool.not_true, if_true]
    rcases s.exchange.request.body.materialize bodyLimit with ⟨_ | bytes, body⟩
    · rfl
    · -- Reading the body has left the method as it was.
      have hread : mayRetry policy
          (s.exchange.mapRequest fun r => { r with body := body }) = true := hretry
      simp only [Entry.andThen, around, Scene.mapExchange, hread, if_true]
      rfl
  · have hnever : mayRetry policy s.exchange = false := Bool.eq_false_iff.mpr hretry
    simp [hnever, Entry.andThen, around]

theorem limitThen_eq [TokenArithmetic τ] (limit : RateLimit) (next : Stage τ) (s : Scene τ) :
    limitThen limit next s = (enterLimit limit s).andThen next := by
  simp only [limitThen, enterLimit]
  cases resolveKey limit.resolver s.exchange with
  | none =>
      dsimp only
      split <;> rfl
  | some key =>
      dsimp only
      rcases s.world.limiter.check s.world.clock (bucketName s.exchange.routeLabel key) limit.rate
        limit.burst with ⟨_ | verdict, limiter⟩
      · rfl
      · simp only [applyVerdict]
        split <;> rfl

/-- To run a filter is to enter it, and to run the rest of the chain if it goes on. -/
theorem run_eq [TokenArithmetic τ] (f : Filter) (next : Stage τ) (s : Scene τ) :
    f.run next s = (f.enter s).andThen (f.around next) := by
  cases f with
  | request edit =>
      simp only [run, RequestEdit.run, enter, enterRequest]
      rcases edit.apply s.exchange with ⟨_ | ⟨⟨⟩⟩, x⟩ <;> rfl
  | resolveUrl =>
      simp only [run, resolveThen, enter, enterResolve]
      rcases targetUrl s.exchange s.world with ⟨_ | url, world⟩ <;> rfl
  | retry policy bodyLimit => exact retryThen_eq policy bodyLimit next s
  | rateLimit limit => exact limitThen_eq limit next s
  | forward bodyLimit => exact forwardThen_eq bodyLimit next s
  | response | redirect | commit => rfl

/-- To find the URL of a request, the directory is asked once at most. -/
theorem finds_targetUrl [TokenArithmetic τ] (x : Exchange) (w : World τ) :
    w.Finds (targetUrl x w).2 := by
  cases hroute : x.route with
  | none => exact .inl (by rw [targetUrl, hroute])
  | some route =>
      have hbase : w.Finds (backendBase route.uri w).2 := by
        unfold backendBase
        split
        · refine .inr ⟨route.uri.host.getD "", ?_⟩
          dsimp only
          rcases w.find (route.uri.host.getD "") with ⟨_ | base, _⟩ <;> rfl
        · exact .inl rfl
      have hsame : (targetUrl x w).2 = (backendBase route.uri w).2 := by
        simp only [targetUrl, hroute]
        rcases backendBase route.uri w with ⟨_ | base, _⟩ <;> rfl
      rwa [hsame]

theorem sent_targetUrl [TokenArithmetic τ] (x : Exchange) (w : World τ) :
    (targetUrl x w).2.sent = w.sent := by
  obtain h | ⟨service, h⟩ := finds_targetUrl x w
  · rw [h]
  · rw [h]
    rfl

/-! ### Between two attempts -/

section Sequels

variable [TokenArithmetic τ] {policy : RetryPolicy} {method : Method} {point : RetryPoint}
  {attempt : Nat} {outcome : Outcome} {s : Scene τ}

/-- A pause draws a number if there is a backoff, and takes its time if it has a length. -/
theorem pause_cases (backoff : Option Backoff) (attempt : Nat) (w : World τ) :
    backoff = none ∧ pause backoff attempt w = (true, w) ∨
      ∃ b, backoff = some b ∧
        ((∃ length, b.delay attempt w.draw.1 = some length ∧
            pause backoff attempt w =
              (true, w.draw.2.wait (Duration.ofMillis length.toNat))) ∨
          b.delay attempt w.draw.1 = none ∧ pause backoff attempt w = (false, w.draw.2)) := by
  cases backoff with
  | none => exact .inl ⟨rfl, rfl⟩
  | some b =>
      refine .inr ⟨b, rfl, ?_⟩
      simp only [pause]
      cases b.delay attempt w.draw.1 with
      | none => exact .inr ⟨rfl, rfl⟩
      | some length => exact .inl ⟨length, rfl, rfl⟩

/-- The surroundings after the pause behind an attempt, which counts as retried. -/
def paused (policy : RetryPolicy) (attempt : Nat) (s : Scene τ) : World τ :=
  (pause policy.backoff attempt (s.world.count (.retry s.exchange.routeLabel attempt))).2

/-- The scene of another attempt. -/
def again (policy : RetryPolicy) (point : RetryPoint) (attempt : Nat) (s : Scene τ) : Scene τ :=
  ⟨point.restore s.exchange, paused policy attempt s⟩

/-- The scene of an exchange that is given up for want of a pause. -/
def givenUp (policy : RetryPolicy) (attempt : Nat) (s : Scene τ) : Scene τ :=
  ⟨s.exchange.abandon, paused policy attempt s⟩

theorem sent_paused (policy : RetryPolicy) (attempt : Nat) (s : Scene τ) :
    (paused policy attempt s).sent = s.world.sent := by
  unfold paused
  have hsent : (s.world.count (.retry s.exchange.routeLabel attempt)).sent = s.world.sent := rfl
  generalize s.world.count (.retry s.exchange.routeLabel attempt) = w at hsent ⊢
  obtain ⟨-, h⟩ | ⟨_, -, ⟨_, -, h⟩ | ⟨-, h⟩⟩ := pause_cases policy.backoff attempt w <;> rw [h] <;>
    exact hsent

/-- Another attempt is asked for. -/
structure Asked (policy : RetryPolicy) (method : Method) (attempt : Nat) (outcome : Outcome)
    (s : Scene τ) : Prop where
  kept : s.exchange.abandoned = false
  isOpen : s.exchange.response.isCommitted = false
  retry : policy.shouldRetry attempt method outcome (s.exchange.upstream.map Captured.status) = true

/-- All that may follow an attempt: its outcome stands, there is another one, or the exchange is
given up because the pause has no length. -/
inductive Ensues (policy : RetryPolicy) (method : Method) (point : RetryPoint) (attempt : Nat)
    (outcome : Outcome) (s : Scene τ) : Sequel τ → Prop
  | stands (h : ¬Asked policy method attempt outcome s) :
    Ensues policy method point attempt outcome s (.over s)
  | again (h : Asked policy method attempt outcome s)
    (hdelay : ∀ b, policy.backoff = some b → ∃ length, b.delay attempt s.world.draw.1 = some length) :
    Ensues policy method point attempt outcome s (.again (again policy point attempt s))
  | givenUp (h : Asked policy method attempt outcome s) {b : Backoff} (hb : policy.backoff = some b)
    (hdelay : b.delay attempt s.world.draw.1 = none) :
    Ensues policy method point attempt outcome s (.over (givenUp policy attempt s))

theorem ensues_sequel (policy : RetryPolicy) (method : Method) (point : RetryPoint) (attempt : Nat)
    (outcome : Outcome) (s : Scene τ) :
    Ensues policy method point attempt outcome s
      (sequel policy method point attempt outcome s) := by
  unfold sequel
  dsimp only
  split
  next hover =>
    refine .stands fun h => ?_
    rw [h.kept, h.isOpen, h.retry] at hover
    cases hover
  next hmore =>
    simp only [Bool.or_eq_true, Bool.not_eq_true', not_or, Bool.not_eq_true, Bool.not_eq_false]
      at hmore
    have h : Asked policy method attempt outcome s := ⟨hmore.1.1, hmore.1.2, hmore.2⟩
    have hcases := pause_cases policy.backoff attempt
      (s.world.count (.retry s.exchange.routeLabel attempt))
    have hagain : _ → Ensues policy method point attempt outcome s _ := Ensues.again h
    have hgivenUp {b : Backoff} :
        policy.backoff = some b → _ → Ensues policy method point attempt outcome s _ :=
      Ensues.givenUp h
    simp only [Filter.again, Filter.givenUp, paused] at hagain hgivenUp
    generalize pause policy.backoff attempt
      (s.world.count (.retry s.exchange.routeLabel attempt)) = waited at *
    obtain ⟨hnone, rfl⟩ | ⟨b, hb, ⟨length, hlength, rfl⟩ | ⟨hdelay, rfl⟩⟩ := hcases
    · exact hagain fun b hb => nomatch hnone.symm.trans hb
    · exact hagain fun b' hb' => Option.some.inj (hb.symm.trans hb') ▸ ⟨length, hlength⟩
    · exact hgivenUp hb hdelay

variable {next : Stage τ} {further : Nat} {t : Scene τ}

/-- An attempt that is the last leaves what it leaves. -/
theorem attempts_of_over
    (h : sequel policy method point attempt (next s).1 (next s).2 = .over t) :
    attempts policy method point next (further + 1) attempt s = ((next s).1, t) := by
  simp only [attempts, h]

theorem attempts_of_again
    (h : sequel policy method point attempt (next s).1 (next s).2 = .again t) :
    attempts policy method point next (further + 1) attempt s =
      attempts policy method point next further (attempt + 1) t := by
  simp only [attempts, h]

/-- Only while the response is open is the request tried again, and it is open then. -/
theorem Asked.isCommitted_again (h : Asked policy method attempt outcome s) :
    (again policy point attempt s).exchange.response.isCommitted = false :=
  (congrArg Option.isSome (Response.body_reset ..)).trans h.isOpen

end Sequels

end Filter

end HttpGateway
