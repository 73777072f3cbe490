import HttpGateway.Proofs.Filter.Commitment

/-!
# Committed responses are frozen

The operations on a response one after the other. Once one of them has committed the response, all
later ones are refused and the answer to the client is the one of that moment. A chain of filters
leaves a committed response as it is, too.
-/

namespace HttpGateway

namespace Response

/-- What can be done to a response. -/
inductive Operation where
  | setStatus (s : Status)
  | editHeaders (edit : Headers → Headers)
  | reset (status : Option Status) (headers : Headers)
  | commit (body : Body)
  | commitError (e : GatewayError)

namespace Operation

/-- The response after the operation, unless it is refused. -/
def attempt (o : Operation) (r : Response) : Option Response :=
  match o with
  | .setStatus s => r.setStatus? s
  | .editHeaders edit => r.editHeaders? edit
  | .reset status headers => r.reset? status headers
  | .commit body => r.commit? body
  | .commitError e => r.commitError? e

def commits : Operation → Bool
  | .commit _ => true
  | .commitError _ => true
  | _ => false

end Operation

/-- The response after some operations, of which those that are refused change nothing. -/
def perform (r : Response) (operations : List Operation) : Response :=
  operations.foldl (fun r o => (o.attempt r).getD r) r

/-- Which of the operations are carried out. -/
def answers (r : Response) : List Operation → List Bool
  | [] => []
  | o :: later => (o.attempt r).isSome :: ((o.attempt r).getD r).answers later

theorem perform_append (r : Response) (before later : List Operation) :
    r.perform (before ++ later) = (r.perform before).perform later :=
  List.foldl_append

theorem answers_append (r : Response) (before later : List Operation) :
    r.answers (before ++ later) = r.answers before ++ (r.perform before).answers later := by
  induction before generalizing r with
  | nil => rfl
  | cons o before ih => exact congrArg _ (ih _)

variable {r done : Response} {o : Operation}

theorem attempt_of_committed (h : r.isCommitted = true) (o : Operation) : o.attempt r = none := by
  cases o <;> simp only [Operation.attempt, setStatus?, editHeaders?, reset?, commit?, commitError?,
    change?_of_committed h]

theorem perform_of_committed (h : r.isCommitted = true) (operations : List Operation) :
    r.perform operations = r := by
  induction operations with
  | nil => rfl
  | cons o later ih =>
      rw [perform, List.foldl_cons, attempt_of_committed h, Option.getD_none]
      exact ih

theorem answers_of_committed (h : r.isCommitted = true) (operations : List Operation) :
    r.answers operations = List.replicate operations.length false := by
  induction operations with
  | nil => rfl
  | cons o later ih =>
      rw [answers, attempt_of_committed h, Option.getD_none, ih]
      rfl

/-- What commits a response gives it a body. -/
theorem exists_body_of_commits (hcommits : o.commits = true) (h : o.attempt r = some done) :
    ∃ body, done.body = some body := by
  cases hopen : r.isCommitted with
  | true =>
      rw [attempt_of_committed hopen] at h
      cases h
  | false =>
      cases o with
      | commit body =>
          rw [Operation.attempt, commit?, change?_of_open hopen] at h
          cases h
          exact ⟨body, rfl⟩
      | commitError e =>
          rw [Operation.attempt, commitError?, change?_of_open hopen] at h
          cases h
          exact ⟨_, rfl⟩
      | _ => cases hcommits

end Response

variable {τ : Type}

/-- A committed response is frozen. Whatever is done to a response, in whatever order: once it has
been committed, by an answer or by the report of an error, every further operation is refused, and
the client gets status, headers and body as they were at that moment. And no chain of filters
changes a response that has been committed before, whatever its filters are, whatever the backend
answers, and however often the request is tried. -/
theorem committed_response_frozen [TokenArithmetic τ] :
    (∀ (r : Response) (before later : List Response.Operation) (o : Response.Operation)
        (done : Response), o.commits = true → o.attempt (r.perform before) = some done →
      r.answers (before ++ o :: later) =
          r.answers before ++ true :: List.replicate later.length false ∧
        r.perform (before ++ o :: later) = done ∧
        ∃ body, done.body = some body ∧ (r.perform (before ++ o :: later)).toReply =
          { status := done.status.getD Status.ok, headers := done.headers, body }) ∧
      ∀ (chain : List OrderedFilter) (s : Scene τ), s.exchange.response.isCommitted = true →
        (runChain chain s).2.exchange.response = s.exchange.response := by
  refine ⟨fun r before later o done hcommits hdone => ?_, fun chain s hdone => ?_⟩
  · obtain ⟨body, hbody⟩ := Response.exists_body_of_commits hcommits hdone
    have hfrozen : done.isCommitted = true := congrArg Option.isSome hbody
    have hlast : r.perform (before ++ o :: later) = done := by
      rw [Response.perform_append]
      show ((o.attempt (r.perform before)).getD (r.perform before)).perform later = done
      rw [hdone, Option.getD_some, Response.perform_of_committed hfrozen]
    refine ⟨?_, hlast, body, hbody, ?_⟩
    · rw [Response.answers_append, Response.answers, hdone, Option.getD_some,
        Response.answers_of_committed hfrozen, Option.isSome_some]
    · rw [hlast, Response.toReply, hbody, Option.getD_some]
  · exact leaves_runChain chain s hdone

/-- An exchange that has been answered before it comes, and a backend that is unavailable. -/
def answeredEarly : Scene Rat where
  exchange :=
    { request := { uri := ⟨none, none, ⟨"/a", none⟩⟩ }
      response := { status := some Status.tooManyRequests, body := some Body.empty }
      requestUrl := some ⟨some "http", some "b", ⟨"/a", none⟩⟩ }
  world :=
    { backend := fun _ => { answer := .ok { status := Status.serviceUnavailable } }
      limiter := .empty }

/-- A response is committed, and then again in several ways; and an exchange that has been answered
is retried, forwarded and given another status. -/
theorem committed_response_frozen_twice :
    let later : List Response.Operation :=
      [.commit (Body.ofText "second"), .setStatus Status.ok, .editHeaders fun _ => .empty,
        .commitError (.missingState .requestUrl), .reset none .empty]
    let operations := .setStatus Status.notFound :: .commit (Body.ofText "first") :: later
    let chain : List OrderedFilter :=
      [⟨1, .retry { maxAttempts := 3 } 1024⟩, ⟨2, .response (.setStatus Status.ok)⟩,
        ⟨3, .forward 1024⟩]
    Response.answers {} operations = [true, true, false, false, false, false, false] ∧
      (Response.perform {} operations).toReply =
        { status := Status.notFound, body := Body.ofText "first" } ∧
      (runChain chain answeredEarly).2.world.calls = 1 ∧
      (runChain chain answeredEarly).2.exchange.response = answeredEarly.exchange.response := by
  intro later operations chain
  obtain ⟨hoperations, hchain⟩ := committed_response_frozen (τ := Rat)
  obtain ⟨hanswers, -, body, hbody, hreply⟩ := hoperations {} [.setStatus Status.notFound] later
    (.commit (Body.ofText "first")) ⟨some Status.notFound, .empty, some (Body.ofText "first")⟩ rfl rfl
  cases hbody
  exact ⟨hanswers, hreply, by decide +kernel, hchain chain answeredEarly rfl⟩

end HttpGateway
