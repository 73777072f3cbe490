import HttpGateway.Handler
import HttpGateway.Proofs.Filter.Entry
import HttpGateway.Proofs.Filter.Plain

/-!
# The course of an exchange

What happens to an exchange on its way through a chain, as far as the client will see it: the
answers of the backend that are taken over and given up again, and what commits the response. The
first to commit it decides, and the course tells what the response is in the end.
-/

namespace HttpGateway

variable {τ : Type}

/-- An answer of the backend is taken over, or what was taken over is given up. -/
inductive Moment where
  | captured (reply : Reply)
  | discarded

def Moment.apply : Option Captured → Moment → Option Captured
  | _, .captured reply => some ⟨reply.status, reply.headers, some reply.body⟩
  | _, .discarded => none

/-- What commits the response: a filter that goes no further, with the response as it commits it; an
error; or the end of the chain, with the response as it stands then. -/
inductive Commit where
  | refused (r : Response)
  | failed (e : GatewayError)
  | delivered (r : Response)

/-- The response once it is committed, while this is held of the backend's answers. -/
def Commit.response (held : Option Captured) : Commit → Response
  | .refused r => { r with body := some Body.empty }
  | .failed e =>
    { status := some e.status
      headers := Response.errorHeaders
      body := some (Body.ofText e.status.reasonText) }
  | .delivered r => { r with body := some ((held.bind Captured.body).getD Body.empty) }

/-- How the response is committed where the chain has ended. -/
def Commit.atEnd (outcome : Outcome) (r : Response) : Commit :=
  match outcome with
  | .ok () => .delivered r
  | .error e => .failed e

theorem Commit.isCommitted_response (k : Commit) (held : Option Captured) :
    (k.response held).isCommitted = true := by
  cases k <;> rfl

structure Course where
  moments : List Moment := []
  commit : Option Commit := none

namespace Course

/-- What is held of the backend's answers in the end. -/
def held (c : Course) (before : Option Captured) : Option Captured :=
  c.moments.foldl Moment.apply before

def after (c : Course) (moments : List Moment) : Course :=
  { c with moments := moments ++ c.moments }

/-- The response is committed where the chain has ended, unless it has been before. -/
def closedBy (c : Course) (result : Outcome × Scene τ) : Course :=
  { c with commit := some (c.commit.getD (.atEnd result.1 result.2.exchange.response)) }

end Course

namespace Filter

/-- The answer that is taken over where the filter is entered, if any is. -/
def arrivals [TokenArithmetic τ] (f : Filter) (s : Scene τ) : List Moment :=
  match f with
  | .forward bodyLimit => match (sendOn bodyLimit s).1 with
    | .ok reply => [.captured (takenOver reply)]
    | .error _ => []
  | _ => []

/-- The course of several attempts, given that of the rest of the chain. -/
def attemptsCourse [TokenArithmetic τ] (policy : RetryPolicy) (method : Method)
    (point : RetryPoint) (next : Stage τ) (later : Scene τ → Course) :
    (further attempt : Nat) → Scene τ → Course
  | 0, _, s => later s
  | further + 1, attempt, s =>
    let (outcome, t) := next s
    match sequel policy method point attempt outcome t with
    | .over _ => later s
    | .again t =>
      (attemptsCourse policy method point next later further (attempt + 1) t).after
        ((later s).moments ++ [.discarded])

/-- What a filter that goes on makes of the course of the rest of the chain. -/
def courseAround [TokenArithmetic τ] (f : Filter) (next : Stage τ) (later : Scene τ → Course) (s : Scene τ) : Course :=
  match f with
  | .retry policy _ =>
    if mayRetry policy s.exchange then
      attemptsCourse policy s.exchange.request.method (RetryPoint.of s.exchange) next later
        (policy.maxAttempts - 1) 1 s
    else later s
  | .commit => (later s).closedBy (next s)
  | _ => later s

def course [TokenArithmetic τ] (f : Filter) (next : Stage τ) (later : Scene τ → Course)
    (s : Scene τ) : Course :=
  match f.enter s with
  | .onward t => (f.courseAround next later t).after (f.arrivals s)
  | .ended t => { commit := some (.refused t.exchange.response) }
  | .failed _ _ => {}

end Filter

/-- The course of an exchange through a chain of filters. -/
def chainCourse [TokenArithmetic τ] : List OrderedFilter → Scene τ → Course
  | [] => fun _ => {}
  | f :: rest => f.filter.course (runChain rest) (chainCourse rest)

/-! ### The response at the end of the course -/

/-- The course tells what the response has become, and as long as it is open, what is held of the
backend's answers. -/
def Course.Describes (c : Course) (before : Option Captured) (result : Outcome × Scene τ) : Prop :=
  match c.commit with
  | some k => result.1 = .ok () ∧ result.2.exchange.response = k.response (c.held before)
  | none => result.2.exchange.response.isCommitted = false ∧
      result.2.exchange.upstream = c.held before

def Stage.DescribedBy (next : Stage τ) (later : Scene τ → Course) : Prop :=
  ∀ s : Scene τ, s.exchange.response.isCommitted = false →
    (later s).Describes s.exchange.upstream (next s)

namespace Course

theorem held_after (c : Course) (moments : List Moment) (before : Option Captured) :
    (c.after moments).held before = c.held (moments.foldl Moment.apply before) :=
  List.foldl_append

theorem Describes.after {c : Course} {moments : List Moment} {before : Option Captured}
    {result : Outcome × Scene τ} (h : c.Describes (moments.foldl Moment.apply before) result) :
    (c.after moments).Describes before result := by
  unfold Describes at h ⊢
  rw [held_after]
  exact h

end Course

/-- While the response is open, the course has not come to a commit. -/
theorem Course.Describes.of_open {c : Course} {before : Option Captured}
    {result : Outcome × Scene τ} (h : c.Describes before result)
    (hopen : result.2.exchange.response.isCommitted = false) :
    c.commit = none ∧ result.2.exchange.upstream = c.held before := by
  unfold Describes at h
  cases hcommit : c.commit with
  | none =>
      rw [hcommit] at h
      exact ⟨rfl, h.2⟩
  | some k =>
      rw [hcommit] at h
      rw [h.2, k.isCommitted_response] at hopen
      cases hopen

theorem Handler.finish_of_committed (outcome : Outcome) {x : Exchange}
    (h : x.response.isCommitted = true) : finish outcome x = x :=
  if_pos h

theorem Handler.response_finish (outcome : Outcome) {x : Exchange}
    (hopen : x.response.isCommitted = false) :
    (finish outcome x).response = (Commit.atEnd outcome x.response).response x.upstream := by
  unfold finish
  rw [if_neg (ne_true_of_eq_false hopen)]
  cases outcome with
  | error e => exact Response.commitError_of_open hopen e
  | ok _ =>
      dsimp only [Exchange.takeUpstreamBody]
      cases x.upstream <;> exact Response.commit_of_open hopen _

theorem Handler.isCommitted_finish (outcome : Outcome) (x : Exchange) :
    (finish outcome x).response.isCommitted = true := by
  cases hopen : x.response.isCommitted with
  | true => rw [finish_of_committed outcome hopen, hopen]
  | false =>
      rw [response_finish outcome hopen]
      exact Commit.isCommitted_response ..

theorem Course.Describes.finish {c : Course} {before : Option Captured}
    {result : Outcome × Scene τ} (h : c.Describes before result) :
    (Handler.finish result.1 result.2.exchange).response =
      (c.commit.getD (.atEnd result.1 result.2.exchange.response)).response (c.held before) := by
  cases hopen : result.2.exchange.response.isCommitted with
  | false =>
      obtain ⟨hcommit, hupstream⟩ := h.of_open hopen
      rw [hcommit, Option.getD_none, ← hupstream]
      exact Handler.response_finish result.1 hopen
  | true =>
      unfold Describes at h
      cases hcommit : c.commit with
      | none =>
          rw [hcommit, hopen] at h
          cases h.1
      | some k =>
          rw [hcommit] at h
          rw [Handler.finish_of_committed _ hopen]
          exact h.2

/-! ### Entering filters -/

/-- Whether the filter may have committed this response. -/
def Filter.Refuses (f : Filter) (r : Response) : Prop :=
  match f with
  | .redirect status _ => r.status = some status
  | .rateLimit limit => r.status = some Status.tooManyRequests ∨
      limit.denyWithoutKey = true ∧ r.status = some Status.forbidden
  | _ => False

/-- All that entering a filter can come to: the response is prepared, and a filter that ends the
work on the exchange commits it with an empty body. -/
def Entry.Arises [TokenArithmetic τ] (entry : Entry τ) (f : Filter) (s : Scene τ) : Prop :=
  match entry with
  | .onward t => s.exchange.response.Prepared t.exchange.response ∧
      t.exchange.upstream = (f.arrivals s).foldl Moment.apply s.exchange.upstream
  | .ended t => ∃ r, s.exchange.response.Prepared r ∧
      t.exchange.response = r.commit Body.empty ∧
      (s.exchange.response.isCommitted = false → f.Refuses t.exchange.response)
  | .failed _ t => t.exchange.response = s.exchange.response ∧
      t.exchange.upstream = s.exchange.upstream

/-- What no filter changes of an exchange where it is entered. -/
structure Exchange.Remains (x y : Exchange) : Prop where
  route : y.route = x.route
  pathMatch : y.pathMatch = x.pathMatch
  abandoned : y.abandoned = x.abandoned

/-- What entering a filter does to an open response, and to what is held. -/
def Entry.Follows (entry : Entry τ) (before : Option Captured) (moments : List Moment) : Prop :=
  match entry with
  | .onward t => t.exchange.response.isCommitted = false ∧
      t.exchange.upstream = moments.foldl Moment.apply before
  | .ended t => t.exchange.response.body = some Body.empty
  | .failed _ t => t.exchange.response.isCommitted = false ∧ t.exchange.upstream = before

namespace Filter

theorem exists_exchange_sendOn [TokenArithmetic τ] (bodyLimit : Nat) (s : Scene τ) :
    ∃ request, (sendOn bodyLimit s).2.exchange = { s.exchange with request } := by
  unfold sendOn
  cases s.exchange.requestUrl with
  | none => exact ⟨s.exchange.request, rfl⟩
  | some url =>
      dsimp only
      cases (outboundBody bodyLimit s.exchange.request).1 <;> exact ⟨_, rfl⟩

theorem status_refuse (status : Status) {s : Scene τ}
    (hopen : s.exchange.response.isCommitted = false) :
    (refuse status s).2.exchange.response.status = some status :=
  (Response.status_commit ..).trans (congrArg Response.status (Response.setStatus_of_open hopen _))

theorem arises_enterLimit [TokenArithmetic τ] (limit : RateLimit) (s : Scene τ) :
    (enterLimit limit s).Arises (.rateLimit limit) s := by
  unfold enterLimit
  cases resolveKey limit.resolver s.exchange with
  | none =>
      cases hdeny : limit.denyWithoutKey with
      | true => exact ⟨_, .setStatus .same _, rfl, fun hopen => .inr ⟨hdeny, status_refuse _ hopen⟩⟩
      | false => exact ⟨.same, rfl⟩
  | some key =>
      dsimp only
      generalize s.world.limiter.check s.world.clock (bucketName s.exchange.routeLabel key)
        limit.rate limit.burst = checked
      obtain ⟨answer, limiter⟩ := checked
      cases answer with
      | error e => exact ⟨.same, rfl⟩
      | ok verdict =>
          have htold : s.exchange.response.Prepared
              (s.exchange.response.editHeaders (limitHeaders limit verdict)) := .editHeaders .same _
          simp only [applyVerdict]
          cases verdict.allowed with
          | true => exact ⟨htold, rfl⟩
          | false => exact ⟨_, htold.setStatus _, rfl, fun hopen =>
              .inl (status_refuse _ (htold.isCommitted_eq.trans hopen))⟩

theorem arises_enter [TokenArithmetic τ] (f : Filter) (s : Scene τ) : (f.enter s).Arises f s := by
  cases f with
  | request edit =>
      obtain ⟨p, -, hcovers, -⟩ := edit.exists_passage s.exchange
      simp only [enter, enterRequest, hcovers s.exchange rfl rfl, Passage.apply]
      cases p.outcome with
      | error e => exact ⟨rfl, rfl⟩
      | ok _ => exact ⟨.same, rfl⟩
  | redirect status location =>
      refine ⟨_, (Response.Prepared.same.setStatus status).editHeaders _, rfl, fun hopen => ?_⟩
      refine (Response.status_commit ..).trans ((Response.status_editHeaders ..).trans ?_)
      exact congrArg Response.status (Response.setStatus_of_open hopen _)
  | retry policy bodyLimit =>
      simp only [enter, enterRetry]
      split
      · cases (s.exchange.request.body.materialize bodyLimit).1 with
        | error e => exact ⟨rfl, rfl⟩
        | ok _ => exact ⟨.same, rfl⟩
      · exact ⟨.same, rfl⟩
  | rateLimit limit => exact arises_enterLimit limit s
  | resolveUrl =>
      simp only [enter, enterResolve]
      rcases targetUrl s.exchange s.world with ⟨_ | url, world⟩
      · exact ⟨rfl, rfl⟩
      · exact ⟨.same, rfl⟩
  | forward bodyLimit =>
      obtain ⟨request, hsent⟩ := exists_exchange_sendOn bodyLimit s
      simp only [enter, enterForward, Entry.Arises, arrivals]
      rcases hsend : sendOn bodyLimit s with ⟨_ | reply, ⟨x, world⟩⟩ <;> rw [hsend] at hsent <;>
        obtain rfl : x = _ := hsent
      · exact ⟨rfl, rfl⟩
      · exact ⟨(Response.Prepared.same.setStatus _).editHeaders _, rfl⟩
  | response | commit => exact ⟨.same, rfl⟩

theorem exists_exchange_enterLimit [TokenArithmetic τ] (limit : RateLimit) (s : Scene τ) :
    ∃ response, (enterLimit limit s).scene.exchange = { s.exchange with response } := by
  unfold enterLimit
  cases resolveKey limit.resolver s.exchange with
  | none =>
      dsimp only
      split <;> exact ⟨_, rfl⟩
  | some key =>
      dsimp only
      rcases s.world.limiter.check s.world.clock (bucketName s.exchange.routeLabel key) limit.rate
        limit.burst with ⟨_ | verdict, limiter⟩
      · exact ⟨_, rfl⟩
      · simp only [applyVerdict]
        split <;> exact ⟨_, rfl⟩

theorem remains_enter [TokenArithmetic τ] (f : Filter) (s : Scene τ) :
    s.exchange.Remains (f.enter s).scene.exchange := by
  cases f with
  | request edit =>
      obtain ⟨p, -, hcovers, -⟩ := edit.exists_passage s.exchange
      simp only [enter, enterRequest, hcovers s.exchange rfl rfl, Passage.apply]
      cases p.outcome <;> exact ⟨rfl, rfl, rfl⟩
  | retry policy bodyLimit =>
      simp only [enter, enterRetry]
      split
      · cases (s.exchange.request.body.materialize bodyLimit).1 <;> exact ⟨rfl, rfl, rfl⟩
      · exact ⟨rfl, rfl, rfl⟩
  | rateLimit limit =>
      obtain ⟨response, hentered⟩ := exists_exchange_enterLimit limit s
      rw [enter, hentered]
      exact ⟨rfl, rfl, rfl⟩
  | resolveUrl =>
      simp only [enter, enterResolve]
      rcases targetUrl s.exchange s.world with ⟨_ | url, world⟩ <;> exact ⟨rfl, rfl, rfl⟩
  | forward bodyLimit =>
      obtain ⟨request, hsent⟩ := exists_exchange_sendOn bodyLimit s
      simp only [enter, enterForward]
      rcases hsend : sendOn bodyLimit s with ⟨_ | reply, ⟨x, world⟩⟩ <;> rw [hsend] at hsent <;>
        obtain rfl : x = _ := hsent <;> exact ⟨rfl, rfl, rfl⟩
  | response | redirect | commit => exact ⟨rfl, rfl, rfl⟩

theorem follows_enter [TokenArithmetic τ] (f : Filter) {s : Scene τ}
    (hopen : s.exchange.response.isCommitted = false) :
    (f.enter s).Follows s.exchange.upstream (f.arrivals s) := by
  have harises := f.arises_enter s
  cases hentry : f.enter s with
  | onward t =>
      rw [hentry] at harises
      exact ⟨harises.1.isCommitted_eq.trans hopen, harises.2⟩
  | ended t =>
      rw [hentry] at harises
      obtain ⟨r, hprepared, hcommit, -⟩ := harises
      rw [Response.commit_of_open (hprepared.isCommitted_eq.trans hopen)] at hcommit
      exact congrArg Response.body hcommit
  | failed e t =>
      rw [hentry] at harises
      exact ⟨(congrArg Response.isCommitted harises.1).trans hopen, harises.2⟩

variable {next : Stage τ} {later : Scene τ → Course}

theorem describes_response (edit : ResponseEdit) (h : Stage.DescribedBy next later) :
    Stage.DescribedBy (edit.run next) later := by
  intro s hopen
  have hnext := h s hopen
  simp only [ResponseEdit.run]
  rcases hrun : next s with ⟨_ | ⟨⟨⟩⟩, t⟩
  · rw [hrun] at hnext
    exact hnext
  · rw [hrun] at hnext
    unfold Course.Describes at hnext ⊢
    cases hcommit : (later s).commit with
    | none =>
        rw [hcommit] at hnext
        have hbody := congrArg Option.isSome (edit.body_apply t.exchange.response)
        exact ⟨hbody.trans hnext.1, hnext.2⟩
    | some k =>
        rw [hcommit] at hnext
        obtain ⟨-, hresponse⟩ := hnext
        have hfinal : t.exchange.response.isCommitted = true :=
          hresponse ▸ k.isCommitted_response _
        exact ⟨rfl, (edit.apply_of_committed hfinal).trans hresponse⟩

theorem describes_attempts [TokenArithmetic τ] (policy : RetryPolicy) (method : Method) (point : RetryPoint)
    (h : Stage.DescribedBy next later) (further attempt : Nat) :
    Stage.DescribedBy (attempts policy method point next further attempt)
      (attemptsCourse policy method point next later further attempt) := by
  induction further generalizing attempt with
  | zero => exact h
  | succ further ih =>
      intro s hopen
      have hnext := h s hopen
      have hsequel := ensues_sequel policy method point attempt (next s).1 (next s).2
      simp only [attempts, attemptsCourse]
      generalize sequel policy method point attempt (next s).1 (next s).2 = ensuing at hsequel ⊢
      cases hsequel with
      | stands | givenUp => exact hnext
      | again hasked =>
          -- What the attempt has captured is discarded, so the next one starts with nothing held.
          refine Course.Describes.after ?_
          rw [List.foldl_append]
          exact ih (attempt + 1) _ hasked.isCommitted_again

theorem commitAfter_eq (next : Stage τ) (s : Scene τ) : (commitAfter next s).1 = .ok () ∧
    (commitAfter next s).2.exchange.response =
      (Handler.finish (next s).1 (next s).2.exchange).response := by
  unfold commitAfter Handler.finish
  dsimp only
  split
  · exact ⟨rfl, rfl⟩
  · cases (next s).1 <;> exact ⟨rfl, rfl⟩

theorem remains_commitAfter (next : Stage τ) (s : Scene τ) :
    (next s).2.exchange.Remains (commitAfter next s).2.exchange ∧
      (commitAfter next s).2.exchange.requestUrl = (next s).2.exchange.requestUrl := by
  simp only [commitAfter]
  split
  · exact ⟨⟨rfl, rfl, rfl⟩, rfl⟩
  · split
    · unfold Exchange.takeUpstreamBody
      split <;> exact ⟨⟨rfl, rfl, rfl⟩, rfl⟩
    · exact ⟨⟨rfl, rfl, rfl⟩, rfl⟩

theorem describes_commitAfter (h : Stage.DescribedBy next later) :
    Stage.DescribedBy (commitAfter next) fun s => (later s).closedBy (next s) := by
  intro s hopen
  obtain ⟨hok, hresponse⟩ := commitAfter_eq next s
  exact ⟨hok, hresponse.trans (h s hopen).finish⟩

theorem describes_run [TokenArithmetic τ] (f : Filter) (h : Stage.DescribedBy next later) :
    Stage.DescribedBy (f.run next) (f.course next later) := by
  intro s hopen
  have henter := f.follows_enter hopen
  rw [run_eq, course]
  cases hentry : f.enter s with
  | failed e t =>
      rw [hentry] at henter
      exact henter
  | ended t =>
      rw [hentry] at henter
      refine ⟨rfl, ?_⟩
      rw [Commit.response, ← (henter : t.exchange.response.body = some Body.empty)]
      rfl
  | onward t =>
      rw [hentry] at henter
      obtain ⟨hopen', hupstream⟩ := henter
      -- The rest of the chain begins with what the entry holds, and so does its course.
      refine Course.Describes.after ?_
      rw [← hupstream]
      cases f with
      | response edit => exact describes_response edit h t hopen'
      | commit => exact describes_commitAfter h t hopen'
      | retry policy bodyLimit =>
          simp only [Entry.andThen, around, courseAround]
          split
          · exact describes_attempts policy _ _ h _ 1 t hopen'
          · exact h t hopen'
      | _ => exact h t hopen'

end Filter

theorem describes_runChain [TokenArithmetic τ] (chain : List OrderedFilter) :
    Stage.DescribedBy (runChain (τ := τ) chain) (chainCourse chain) := by
  induction chain with
  | nil => exact fun s hopen => ⟨hopen, rfl⟩
  | cons f rest ih => exact f.filter.describes_run ih

end HttpGateway
