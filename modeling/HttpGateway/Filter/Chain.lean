import HttpGateway.Filter.Basic
import HttpGateway.Filter.World

/-!
# Running filter chains

What each filter does with the rest of the chain, and chains as a whole: a chain runs its first
filter on the chain of the others, and a chain without filters succeeds and changes nothing.
-/

namespace HttpGateway

variable {τ : Type}

/-- Edits the request and goes on, unless the edit fails. -/
def RequestEdit.run (e : RequestEdit) (next : Stage τ) : Stage τ := fun s =>
  match e.apply s.exchange with
  | (.ok (), x) => next { s with exchange := x }
  | (.error err, x) => (.error err, { s with exchange := x })

/-- Goes on, and edits the response if that succeeds. -/
def ResponseEdit.run (e : ResponseEdit) (next : Stage τ) : Stage τ := fun s =>
  match next s with
  | (.ok (), s) => (.ok (), s.mapResponse e.apply)
  | (.error err, s) => (.error err, s)

namespace Filter

/-- Commits a response without a body, and goes no further. -/
def refuse (status : Status) : Stage τ := fun s =>
  (.ok (), s.mapResponse fun r => (r.setStatus status).commit Body.empty)

/-- Sends the client elsewhere. -/
def redirectTo (status : Status) (location : HeaderValue) : Stage τ := fun s =>
  (.ok (), s.mapResponse fun r =>
    ((r.setStatus status).editHeaders fun h => h.set HeaderName.location location).commit
      Body.empty)

/-- Goes on, and commits the response: with the body of the backend's answer, or as the report of an
error. A response that a filter has committed already stays as it is. -/
def commitAfter (next : Stage τ) : Stage τ := fun s =>
  let (outcome, s) := next s
  if s.exchange.response.isCommitted then (.ok (), s)
  else match outcome with
    | .ok () =>
      let (body, x) := s.exchange.takeUpstreamBody
      (.ok (), { s with exchange := x.mapResponse fun r => r.commit (body.getD Body.empty) })
    | .error e =>
      (.ok (), s.mapExchange fun x => x.clearUpstream.mapResponse fun r => r.commitError e)

/-- The scheme of routes that name a service. -/
def serviceScheme : String := "lb"

/-- The address of the backend of a route: its URI, or where the directory says that the service is
which it names. -/
def backendBase [TokenArithmetic τ] (uri : Uri) (w : World τ) : Except GatewayError Uri × World τ :=
  if uri.scheme = some serviceScheme then
    let service := uri.host.getD ""
    match w.find service with
    | (some base, w) => (.ok base, w)
    | (none, w) => (.error (.noInstance service), w)
  else (.ok uri, w)

/-- The URL a request is sent to: scheme and authority of the backend, path and query of the
request. -/
def targetUrl [TokenArithmetic τ] (x : Exchange) (w : World τ) : Except GatewayError Uri × World τ :=
  match x.route with
  | none => (.error (.missingState .route), w)
  | some route => match backendBase route.uri w with
    | (.error e, w) => (.error e, w)
    | (.ok base, w) => (match base.rebase x.request.uri with
      | .error e => .error (.invalidRequest e.message)
      | .ok url => .ok url, w)

/-- Finds the URL of the request and goes on. -/
def resolveThen [TokenArithmetic τ] (next : Stage τ) : Stage τ := fun s =>
  match targetUrl s.exchange s.world with
  | (.error e, world) => (.error e, { s with world })
  | (.ok url, world) => next { exchange := { s.exchange with requestUrl := some url }, world }

/-- The type of form bodies. -/
def formType : String := "application/x-www-form-urlencoded"

/-- Whether the body of a request is a form. -/
def isForm (r : Request) : Bool :=
  r.contentType.any fun t => formType.toList.isPrefixOf (Text.lower t.toList)

/-- The body to be sent. That of a form is read, written anew, and its length is set; any other is
handed on as it is. -/
def outboundBody (bodyLimit : Nat) (r : Request) : Except GatewayError Body × Request :=
  if isForm r then
    match r.body.materialize bodyLimit with
    | (.error e, body) => (.error e, { r with body })
    | (.ok raw, body) =>
      let encoded := Form.reencode raw
      let length := HeaderValue.literal (Text.decimal encoded.length)
      (.ok (.whole encoded), { r with body, headers := r.headers.set HeaderName.contentLength length })
  else
    let (result, body) := r.body.take
    (result, { r with body })

/-- The headers to be sent. -/
def outboundHeaders (r : Request) : Headers :=
  let kept := r.headers.stripHopByHop
  (kept.remove HeaderName.host).addForwarded (r.remote.map SocketAddress.address)
    (kept.first? HeaderName.host)

/-- Sends the request to the backend, takes over its answer, and goes on. -/
def forwardThen [TokenArithmetic τ] (bodyLimit : Nat) (next : Stage τ) : Stage τ := fun s =>
  match s.exchange.requestUrl with
  | none => (.error (.missingState .requestUrl), s)
  | some url =>
    let (body, r) := outboundBody bodyLimit s.exchange.request
    let s := s.mapExchange fun x => { x with request := r }
    match body with
    | .error e => (.error e, s)
    | .ok body =>
      match s.world.send ⟨r.method, url, outboundHeaders r, body⟩ with
      | (.error e, world) => (.error e, { s with world })
      | (.ok reply, world) =>
        let reply := { reply with headers := reply.headers.stripHopByHop }
        next { exchange := s.exchange.capture reply, world }

/-- The key of a client. -/
def resolveKey (resolver : KeyResolver) (x : Exchange) : Option String :=
  match resolver with
  | .remoteAddress => x.request.remote.map fun a => a.address.render
  | .header name => match (x.request.headers.text? name).map trimText with
    | some "" => none
    | key => key
  | .routeId => x.routeId?

/-- The name of the bucket of a client on a route. -/
def bucketName (route key : String) : String := route ++ ":" ++ key

def remainingHeader : HeaderName := ⟨"x-ratelimit-remaining"⟩

def replenishRateHeader : HeaderName := ⟨"x-ratelimit-replenish-rate"⟩

def burstCapacityHeader : HeaderName := ⟨"x-ratelimit-burst-capacity"⟩

/-- Tells the client what is left of its limit. -/
def limitHeaders (limit : RateLimit) (verdict : Verdict) (h : Headers) : Headers :=
  ((h.set remainingHeader (HeaderValue.literal (Text.signedDecimal (max verdict.remaining 0)))).set
    replenishRateHeader (HeaderValue.literal (Text.decimal limit.rate))).set
    burstCapacityHeader (HeaderValue.literal (Text.decimal limit.burst))

/-- Asks the limiter, and goes on or refuses the request. A limiter that fails lets it pass. -/
def limitThen [TokenArithmetic τ] (limit : RateLimit) (next : Stage τ) : Stage τ := fun s =>
  let route := s.exchange.routeLabel
  match resolveKey limit.resolver s.exchange with
  | none => if limit.denyWithoutKey then refuse Status.forbidden s else next s
  | some key =>
    let (answer, limiter) :=
      s.world.limiter.check s.world.clock (bucketName route key) limit.rate limit.burst
    let s := s.mapWorld fun w => { w with limiter }
    match answer with
    | .error _ => next s
    | .ok verdict =>
      let s := s.mapResponse fun r => r.editHeaders (limitHeaders limit verdict)
      if verdict.allowed then next s
      else refuse Status.tooManyRequests (s.mapWorld fun w => w.count (.rateLimited route))

/-- What is put back before another attempt. -/
structure RetryPoint where
  uri : Uri
  requestHeaders : Headers
  status : Option Status
  responseHeaders : Headers

/-- What would have to be put back now. -/
def RetryPoint.of (x : Exchange) : RetryPoint :=
  ⟨x.request.uri, x.request.headers, x.response.status, x.response.headers⟩

/-- Puts it back. -/
def RetryPoint.restore (p : RetryPoint) (x : Exchange) : Exchange :=
  (x.clearUpstream.mapResponse fun r => r.reset p.status p.responseHeaders).mapRequest fun r =>
    { r with uri := p.uri, headers := p.requestHeaders }

/-- Waits before another attempt. The answer tells whether the length of the pause is a word; if it
is not, there is no pause. -/
def pause [TokenArithmetic τ] (backoff : Option Backoff) (attempt : Nat) (w : World τ) :
    Bool × World τ :=
  match backoff with
  | none => (true, w)
  | some b =>
    let (number, w) := w.draw
    match b.delay attempt number with
    | some length => (true, w.wait (Duration.ofMillis length.toNat))
    | none => (false, w)

/-- What follows an attempt: its outcome stands, or another attempt begins in this scene. -/
inductive Sequel (τ : Type) where
  | over (s : Scene τ)
  | again (s : Scene τ)

/-- What follows an attempt with this number and outcome. If another one is asked for and the length
of the pause before it is no word, the exchange is given up. -/
def sequel [TokenArithmetic τ] (policy : RetryPolicy) (method : Method) (point : RetryPoint)
    (attempt : Nat) (outcome : Outcome) (s : Scene τ) : Sequel τ :=
  let x := s.exchange
  if x.abandoned || x.response.isCommitted ||
      !policy.shouldRetry attempt method outcome (x.upstream.map Captured.status) then
    .over s
  else
    match pause policy.backoff attempt (s.world.count (.retry x.routeLabel attempt)) with
    | (true, world) => .again { exchange := point.restore x, world }
    | (false, world) => .over { exchange := x.abandon, world }

/-- Runs the rest of the chain as the attempt with this number, and up to `further` times more while
the policy asks for it. -/
def attempts [TokenArithmetic τ] (policy : RetryPolicy) (method : Method) (point : RetryPoint)
    (next : Stage τ) : (further attempt : Nat) → Stage τ
  | 0, _, s => next s
  | further + 1, attempt, s =>
    let (outcome, s) := next s
    match sequel policy method point attempt outcome s with
    | .over s => (outcome, s)
    | .again s => attempts policy method point next further (attempt + 1) s

/-- Goes on, several times if need be. For that the body of the request is read first. -/
def retryThen [TokenArithmetic τ] (policy : RetryPolicy) (bodyLimit : Nat) (next : Stage τ) : Stage τ := fun s =>
  let r := s.exchange.request
  if !policy.allowsMethod r.method || policy.maxAttempts ≤ 1 then next s
  else
    let (result, body) := r.body.materialize bodyLimit
    let s := s.mapExchange fun x => x.mapRequest fun r => { r with body }
    match result with
    | .error e => (.error e, s)
    | .ok _ =>
      attempts policy r.method (RetryPoint.of s.exchange) next (policy.maxAttempts - 1) 1 s

/-- Runs a filter on the rest of the chain. -/
def run [TokenArithmetic τ] (f : Filter) (next : Stage τ) : Stage τ :=
  match f with
  | .request edit => edit.run next
  | .response edit => edit.run next
  | .redirect status location => redirectTo status location
  | .retry policy bodyLimit => retryThen policy bodyLimit next
  | .rateLimit limit => limitThen limit next
  | .commit => commitAfter next
  | .resolveUrl => resolveThen next
  | .forward bodyLimit => forwardThen bodyLimit next

end Filter

/-- Runs a chain of filters. -/
def runChain [TokenArithmetic τ] : List OrderedFilter → Stage τ
  | [] => fun s => (.ok (), s)
  | f :: rest => f.filter.run (runChain rest)

end HttpGateway
