import HttpGateway.Proofs.Filter.Commitment
import HttpGateway.Proofs.Gateway.Reachable
import Mathlib

/-!
# The answers of the gateway

A request is answered in one of five ways. Without a route, or without the list of routes, a status
and its reason phrase are all there is. On a route the first to commit the response decides: a
filter that refuses the request, an error, or the filter that commits responses, which gives the
client what has been prepared, with the body that the backend has sent last.
-/

namespace HttpGateway

variable {τ : Type}

theorem GatewayError.isSome_reason? (e : GatewayError) : e.status.reason?.isSome = true := by
  cases e <;> rfl

/-- The answer to the client, while this is held of the backend's answers. -/
def Commit.reply (held : Option Captured) : Commit → Reply
  | .refused r => { status := r.status.getD Status.ok, headers := r.headers, body := Body.empty }
  | .failed e =>
    { status := e.status
      headers := Headers.empty.append HeaderName.contentType
        (HeaderValue.literal "text/plain; charset=utf-8")
      body := Body.ofText (e.status.reason?.getD "") }
  | .delivered r =>
    { status := r.status.getD Status.ok
      headers := r.headers
      body := (held.bind Captured.body).getD Body.empty }

theorem Commit.toReply_response (k : Commit) (held : Option Captured) :
    (k.response held).toReply = k.reply held := by
  cases k with
  | refused r => rfl
  | delivered r => rfl
  | failed e =>
      obtain ⟨text, htext⟩ := Option.isSome_iff_exists.mp e.isSome_reason?
      simp only [response, reply, Response.toReply, Status.reasonText, htext]
      rfl

namespace Handler

/-- The exchange as it comes to the filters of its route. -/
def enterRoute (route : Route) (found : Option PathMatch) (s : Scene τ) : Scene τ :=
  (s.mapExchange fun x => { x with pathMatch := found }).mapExchange fun x =>
    { x with route := some route.toRef }

theorem commit_mem_merge (bodyLimit : Nat) (filters : List OrderedFilter) :
    ∃ f ∈ OrderedFilter.merge (Gateway.globalFilters bodyLimit) filters, f.filter = .commit :=
  ⟨⟨OrderedFilter.commitOrder, .commit⟩, OrderedFilter.mem_merge.mpr (.inl List.mem_cons_self), rfl⟩

variable [TokenArithmetic τ] {globals : List OrderedFilter} {route : Route}
  {found : Option PathMatch} {s : Scene τ}

/-- What the chain of a route comes to. -/
def passRoute (globals : List OrderedFilter) (route : Route) (found : Option PathMatch)
    (s : Scene τ) : Outcome × Scene τ :=
  runChain (OrderedFilter.merge globals route.filters) (enterRoute route found s)

omit [TokenArithmetic τ] in
theorem abandoned_finish (outcome : Outcome) (x : Exchange) :
    (finish outcome x).abandoned = x.abandoned := by
  unfold finish
  split
  · rfl
  · cases outcome with
    | error e => rfl
    | ok _ =>
        dsimp only [Exchange.takeUpstreamBody]
        cases x.upstream <;> rfl

variable {list : List Route} {now : Timestamp}

/-- On a route an exchange is answered with the response of its chain, unless it has been given up. -/
theorem handle_of_select
    (hselect : Route.select list s.exchange.request now = some (route, found)) :
    handle globals (.ok list) now s =
      let left := passRoute globals route found s
      if left.2.exchange.abandoned then (none, left.2.world)
      else
        let reply := (finish left.1 left.2.exchange).response.toReply
        (some reply, record s.exchange.request.method reply.status route.id left.2.world) := by
  have habandoned := abandoned_finish (passRoute globals route found s).1
    (passRoute globals route found s).2.exchange
  simp only [handle, lookup, hselect, ← habandoned]
  rfl

/-- Nothing that is done after the chain touches more of the surroundings than what is recorded. -/
theorem exists_world_handle (globals : List OrderedFilter)
    (hselect : Route.select list s.exchange.request now = some (route, found)) :
    ∃ metrics, (handle globals (.ok list) now s).2 =
      { (passRoute globals route found s).2.world with metrics } := by
  rw [handle_of_select hselect]
  dsimp only
  split <;> exact ⟨_, rfl⟩

/-- On a route the response is committed as the course tells. -/
theorem exists_commit_passRoute (found : Option PathMatch)
    (hcommit : ∃ f ∈ OrderedFilter.merge globals route.filters, f.filter = .commit)
    (hopen : s.exchange.response.isCommitted = false) :
    let chain := OrderedFilter.merge globals route.filters
    let t := enterRoute route found s
    let left := passRoute globals route found s
    let course := (chainCourse chain t).closedBy left
    ∃ k, course.commit = some k ∧
      (finish left.1 left.2.exchange).response = k.response (course.held s.exchange.upstream) ∧
      match k with
      | .refused r => ∃ f ∈ chain, f.filter.Refuses r
      | .failed e => left.1 = .error e ∨ (chainCourse chain t).commit = some k
      | .delivered _ => (chainCourse chain t).commit = some k := by
  intro chain t left course
  have hends := describes_runChain chain t hopen
  refine ⟨_, rfl, hends.finish, ?_⟩
  cases hfirst : (chainCourse chain t).commit with
  | some k =>
      rw [Option.getD_some]
      cases k with
      | refused r => exact refusing_chainCourse chain t hopen r hfirst
      | failed e => exact .inr rfl
      | delivered r => rfl
  | none =>
      rw [Option.getD_none]
      cases houtcome : left.1 with
      | error e => exact .inl rfl
      | ok _ =>
          -- A chain that succeeds has committed the response itself.
          have hdone := finishes_runChain hcommit t hopen houtcome
          unfold Course.Describes at hends
          rw [hfirst, hdone] at hends
          cases hends.1

/-- A request to a backend that is unavailable at first. -/
def unavailableAtFirst : Scene Rat where
  exchange := { request := { method := Method.get, uri := ⟨none, none, ⟨"/a", none⟩⟩ } }
  world :=
    { limiter := .empty
      backend := fun sent =>
        { answer := .ok
            (if sent.length ≤ 1 then
              { status := Status.serviceUnavailable, body := Body.ofText "no" }
            else { status := Status.ok, body := Body.ofText "yes" }) } }

end Handler

end HttpGateway
