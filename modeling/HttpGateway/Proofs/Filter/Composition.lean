import HttpGateway.Proofs.Filter.Course
import HttpGateway.Proofs.Filter.Forwarding
import HttpGateway.Proofs.Filter.Order

/-!
# Chains compute the composition of their filters

What a chain of plain filters in the usual places comes to, said without running it. The request for
the backend is that of the client after all edits of the request in the order of the chain. The
client gets the answer of the backend after all edits of the response in the reverse order, or the
report of the first error.
-/

namespace HttpGateway

variable {τ : Type}

/-! ### The two sides of a composition -/

/-- The edits of the request, in the order of the chain. -/
def requestEdits (filters : List OrderedFilter) : List RequestEdit :=
  filters.filterMap fun f => match f.filter with
    | .request edit => some edit
    | _ => none

/-- The edits of the response, in the order of the chain. -/
def responseEdits (filters : List OrderedFilter) : List ResponseEdit :=
  filters.filterMap fun f => match f.filter with
    | .response edit => some edit
    | _ => none

/-- The exchange after an edit, unless the edit fails. -/
def RequestEdit.made (e : RequestEdit) (x : Exchange) : Except GatewayError Exchange :=
  match e.apply x with
  | (.ok (), x) => .ok x
  | (.error err, _) => .error err

/-- The request for the backend: first all edits of the request, then the address, then the body and
the headers; and the surroundings once the address has been found. -/
def composedOutbound [TokenArithmetic τ] (filters : List OrderedFilter) (bodyLimit : Nat)
    (s : Scene τ) : Except GatewayError Outbound × World τ :=
  match (requestEdits filters).foldlM (fun x e => e.made x) s.exchange with
  | .error e => (.error e, s.world)
  | .ok x =>
    let (url, world) := Filter.targetUrl x s.world
    let (body, r) := Filter.outboundBody bodyLimit x.request
    (url.bind fun url => body.map fun body => ⟨r.method, url, Filter.outboundHeaders r, body⟩, world)

/-- The response before it is committed: the captured answer after the edits of the response, the
last of the chain first. -/
def composedResponse (filters : List OrderedFilter) (prepared : Headers) (answer : Reply) : Response :=
  (responseEdits filters).foldr ResponseEdit.apply
    { status := some answer.status
      headers := prepared.appendAll answer.headers.stripHopByHop }

/-- What the client gets to know of an error. -/
def GatewayError.report (e : GatewayError) : Reply :=
  { status := e.status, headers := Response.errorHeaders, body := Body.ofText e.status.reasonText }

/-- The status that an edit sets. -/
def ResponseEdit.status? : ResponseEdit → Option Status
  | .setStatus s => some s
  | _ => none

/-! ### The edits of both sides -/

theorem foldlM_requestEdits (filters : List OrderedFilter) (x : Exchange) :
    (requestEdits filters).foldlM (fun x e => RequestEdit.made e x) x =
      match requestPass filters x with
      | (.ok (), x) => .ok x
      | (.error e, _) => .error e := by
  induction filters generalizing x with
  | nil => rfl
  | cons f filters ih =>
      rcases f with ⟨order, filter⟩
      cases filter with
      | request edit =>
          show (edit.made x >>= fun x => (requestEdits filters).foldlM _ x) = _
          simp only [RequestEdit.made, requestPass]
          rcases edit.apply x with ⟨_ | ⟨⟨⟩⟩, y⟩
          · rfl
          · exact ih y
      | _ => exact ih x

theorem responsePass_eq_foldr (filters : List OrderedFilter) (r : Response) :
    responsePass filters r = (responseEdits filters).foldr ResponseEdit.apply r := by
  induction filters with
  | nil => rfl
  | cons f filters ih =>
      rcases f with ⟨order, filter⟩
      cases filter with
      | response edit => exact congrArg edit.apply ih
      | _ => exact ih

theorem body_foldr_apply (edits : List ResponseEdit) (r : Response) :
    (edits.foldr ResponseEdit.apply r).body = r.body := by
  induction edits with
  | nil => rfl
  | cons e edits ih => exact (e.body_apply _).trans ih

theorem ResponseEdit.status_apply (e : ResponseEdit) {r : Response} (h : r.isCommitted = false) :
    (e.apply r).status = e.status?.or r.status := by
  cases e with
  | setStatus s => exact congrArg Response.status (Response.setStatus_of_open h s)
  | _ => exact r.status_editHeaders _

/-- Of several edits that set the status, the first of the chain decides. -/
theorem status_foldr_apply (edits : List ResponseEdit) {r : Response} (h : r.isCommitted = false) :
    (edits.foldr ResponseEdit.apply r).status =
      (edits.findSome? ResponseEdit.status?).or r.status := by
  induction edits with
  | nil => rfl
  | cons e edits ih =>
      have hopen : (edits.foldr ResponseEdit.apply r).isCommitted = false :=
        (congrArg Option.isSome (body_foldr_apply edits r)).trans h
      rw [List.foldr_cons, e.status_apply hopen, ih, List.findSome?_cons]
      cases e.status? <;> rfl

/-! ### The chain as a whole -/

theorem isPlain_nil : ∀ f ∈ ([] : List OrderedFilter), f.filter.isPlain = true :=
  List.forall_mem_nil _

/-- Plain filters in front of finding the address and forwarding. -/
def ForwardingChain.ofPlain (bodyLimit : Nat) {filters : List OrderedFilter}
    (h : ∀ f ∈ filters, f.filter.isPlain = true) : ForwardingChain where
  before := filters
  resolveOrder := OrderedFilter.resolveOrder
  between := []
  forwardOrder := OrderedFilter.forwardOrder
  bodyLimit := bodyLimit
  behind := []
  isPlain_before := h
  isPlain_between := isPlain_nil
  isPlain_behind := isPlain_nil

theorem response_requestPass (filters : List OrderedFilter) (x : Exchange) :
    (requestPass filters x).2.response = x.response := by
  obtain ⟨p, -, hp, -⟩ := exists_passage filters x
  rw [hp x rfl rfl]
  rfl

section

variable {bodyLimit : Nat} {filters : List OrderedFilter}

/-- In the usual places filters of a route stand right behind the filter that commits responses. -/
theorem merge_globalFilters (bodyLimit : Nat)
    (horder : ∀ f ∈ filters, 0 ≤ f.order ∧ f.order ≤ 9999)
    (hsorted : OrderedFilter.Ascending filters) :
    OrderedFilter.merge (Gateway.globalFilters bodyLimit) filters =
      (⟨OrderedFilter.commitOrder, .commit⟩ :: filters) ++
        [⟨OrderedFilter.resolveOrder, .resolveUrl⟩,
          ⟨OrderedFilter.forwardOrder, .forward bodyLimit⟩] := by
  have hcommit : OrderedFilter.commitOrder ≤ 0 := by decide
  have hresolve : 9999 < OrderedFilter.resolveOrder := by decide
  have hforward : OrderedFilter.resolveOrder < OrderedFilter.forwardOrder := by decide
  have hlow : OrderedFilter.Ascending (⟨OrderedFilter.commitOrder, .commit⟩ :: filters) :=
    List.pairwise_cons.mpr ⟨fun f hf => Int32.le_trans hcommit (horder f hf).1, hsorted⟩
  have hhigh : OrderedFilter.Ascending [⟨OrderedFilter.resolveOrder, .resolveUrl⟩,
      ⟨OrderedFilter.forwardOrder, .forward bodyLimit⟩] :=
    List.pairwise_pair.mpr (Int32.le_of_lt hforward)
  refine OrderedFilter.merge_eq_append OrderedFilter.resolveOrder hlow hhigh
    (((List.Sublist.refl filters).cons _).cons _ |>.cons_cons _)
    (((List.nil_sublist filters).cons_cons _).cons_cons _ |>.cons _)
    (by simp [Gateway.globalFilters]) ?_ (by simp; decide)
  refine List.forall_mem_cons.mpr ⟨by decide, fun f hf => ?_⟩
  exact Int32.lt_of_le_of_lt (horder f hf).2 hresolve

theorem composedOutbound_eq [TokenArithmetic τ] (hplain : ∀ f ∈ filters, f.filter.isPlain = true)
    (s : Scene τ) : composedOutbound filters bodyLimit s =
      (((ForwardingChain.ofPlain bodyLimit hplain).prepare s).1,
        ((ForwardingChain.ofPlain bodyLimit hplain).prepare s).2.world) := by
  simp only [composedOutbound, ForwardingChain.prepare, ForwardingChain.ofPlain,
    foldlM_requestEdits]
  rcases requestPass filters s.exchange with ⟨_ | ⟨⟨⟩⟩, x⟩
  · rfl
  · dsimp only
    rcases Filter.targetUrl x s.world with ⟨_ | url, world⟩
    · rfl
    · simp only [requestPass, ForwardingChain.makeOutbound]
      rfl

/-- Making the request leaves the response alone, and nothing is sent for it. -/
theorem ForwardingChain.keeps_prepare [TokenArithmetic τ] (c : ForwardingChain) (s : Scene τ) :
    (c.prepare s).2.exchange.response = s.exchange.response ∧
      (c.prepare s).2.world.sent = s.world.sent := by
  have hbefore := response_requestPass c.before s.exchange
  simp only [prepare]
  generalize requestPass c.before s.exchange = passed at hbefore ⊢
  obtain ⟨_ | ⟨⟨⟩⟩, x⟩ := passed
  · exact ⟨hbefore, rfl⟩
  · have hsent := Filter.sent_targetUrl x s.world
    dsimp only
    generalize Filter.targetUrl x s.world = found at hsent ⊢
    obtain ⟨_ | url, world⟩ := found
    · exact ⟨hbefore, hsent⟩
    · have hbetween := response_requestPass c.between { x with requestUrl := some url }
      dsimp only
      generalize requestPass c.between { x with requestUrl := some url } = passed at hbetween ⊢
      obtain ⟨_ | ⟨⟨⟩⟩, y⟩ := passed <;> exact ⟨hbetween.trans hbefore, hsent⟩

theorem Exchange.response_capture {x : Exchange} (h : x.response.isCommitted = false)
    (reply : Reply) : (x.capture reply).response =
      { status := some reply.status, headers := x.response.headers.appendAll reply.headers } := by
  have hbody : x.response.body = none := Option.not_isSome_iff_eq_none.mp (Bool.eq_false_iff.mp h)
  have hset : (x.response.setStatus reply.status).isCommitted = false :=
    (x.response.isCommitted_setStatus _).trans h
  rw [capture, Response.editHeaders_of_open hset, Response.setStatus_of_open h, hbody]

/-- The edits of the response leave it open. -/
theorem isCommitted_composedResponse (filters : List OrderedFilter) (prepared : Headers)
    (answer : Reply) : (composedResponse filters prepared answer).isCommitted = false :=
  congrArg Option.isSome (body_foldr_apply (responseEdits filters) _)

theorem status_composedResponse (filters : List OrderedFilter) (prepared : Headers)
    (answer : Reply) : (composedResponse filters prepared answer).status =
      some (((responseEdits filters).findSome? ResponseEdit.status?).getD answer.status) := by
  rw [composedResponse, status_foldr_apply _ rfl]
  cases (responseEdits filters).findSome? ResponseEdit.status? <;> rfl

/-- What the chain makes of an answer. -/
theorem ForwardingChain.conclude_ofPlain (hplain : ∀ f ∈ filters, f.filter.isPlain = true)
    {x : Exchange} (h : x.response.isCommitted = false) (answer : Reply) :
    let left := (ofPlain bodyLimit hplain).conclude (.ok answer) x
    left.1 = .ok () ∧ left.2.response = composedResponse filters x.response.headers answer := by
  refine ⟨rfl, ?_⟩
  show responsePass filters (x.capture _).response = _
  rw [x.response_capture h, responsePass_eq_foldr]
  rfl

/-- The answer that the client gets where the chain has ended with the answer of the backend. -/
theorem ForwardingChain.toReply_conclude (hplain : ∀ f ∈ filters, f.filter.isPlain = true)
    {x : Exchange} (h : x.response.isCommitted = false) (answer : Reply) :
    let left := (ofPlain bodyLimit hplain).conclude (.ok answer) x
    (Handler.finish left.1 left.2).response.toReply =
      { (composedResponse filters x.response.headers answer).toReply with body := answer.body } := by
  obtain ⟨hok, hresponse⟩ := conclude_ofPlain hplain h answer
  intro left
  have hleft : left.2.response.isCommitted = false :=
    (congrArg Response.isCommitted hresponse).trans (isCommitted_composedResponse ..)
  rw [Handler.response_finish _ hleft, hok, hresponse]
  rfl

theorem Filter.world_commitAfter (next : Stage τ) (s : Scene τ) :
    (commitAfter next s).2.world = (next s).2.world := by
  simp only [commitAfter]
  split
  · rfl
  · split <;> rfl

/-- A chain computes the composition of its filters. With plain filters in the usual places the
backend is called with one request at most: that of the client after all edits of the request, in
the order of the chain. If it answers, the client gets the body of the answer, and its status and
headers after all edits of the response, in the reverse order, so that the first filter of the chain
that sets the status decides. If an edit, finding the address, reading the body or the call fails,
the client gets the report of that error, and no edit of the response has any effect. -/
theorem runChain_composes [TokenArithmetic τ] (bodyLimit : Nat) (filters : List OrderedFilter)
    (hplain : ∀ f ∈ filters, f.filter.isPlain = true)
    (horder : ∀ f ∈ filters, 0 ≤ f.order ∧ f.order ≤ 9999)
    (hsorted : OrderedFilter.Ascending filters) (s : Scene τ)
    (hopen : s.exchange.response.isCommitted = false) :
    let left := runChain (OrderedFilter.merge (Gateway.globalFilters bodyLimit) filters) s
    let reply := left.2.exchange.response.toReply
    left.1 = .ok () ∧
      match composedOutbound filters bodyLimit s with
      | (.error e, world) =>
        left.2.world = world ∧ left.2.world.sent = s.world.sent ∧ reply = e.report
      | (.ok o, world) =>
        left.2.world = (world.send o).2 ∧ left.2.world.calls = s.world.calls + 1 ∧
          left.2.world.sent = s.world.sent ++ [o] ∧
          match (world.send o).1 with
          | .error e => reply = e.report
          | .ok answer =>
            let composed := composedResponse filters s.exchange.response.headers answer
            reply.body = answer.body ∧ reply.headers = composed.headers ∧
              composed.status = some reply.status ∧
              reply.status =
                ((responseEdits filters).findSome? ResponseEdit.status?).getD answer.status := by
  intro left reply
  let c := ForwardingChain.ofPlain bodyLimit hplain
  have hleft : left = Filter.commitAfter (runChain c.filters) s :=
    congrArg (runChain · s) (merge_globalFilters bodyLimit horder hsorted)
  obtain ⟨hok, hresponse⟩ := Filter.commitAfter_eq (runChain c.filters) s
  have hworld := Filter.world_commitAfter (runChain c.filters) s
  rw [← hleft] at hok hresponse hworld
  refine ⟨hok, ?_⟩
  have hkept := c.keeps_prepare s
  rw [c.runChain_filters] at hresponse hworld
  rw [composedOutbound_eq hplain]
  -- From here on only what making the request has come to matters, not how it has been made.
  change match ((c.prepare s).1, (c.prepare s).2.world) with | (.error e, _) => _ | (.ok o, _) => _
  generalize c.prepare s = prepared at hkept hresponse hworld ⊢
  obtain ⟨hheld, hunsent⟩ := hkept
  have hopen' : prepared.2.exchange.response.isCommitted = false :=
    (congrArg Response.isCommitted hheld).trans hopen
  obtain ⟨e | o, t⟩ := prepared
  · rw [Handler.response_finish _ hopen'] at hresponse
    exact ⟨hworld, (congrArg World.sent hworld).trans hunsent, congrArg Response.toReply hresponse⟩
  · have hsent : (t.world.send o).2.sent = s.world.sent ++ [o] :=
      congrArg (· ++ [o]) (hunsent : t.world.sent = s.world.sent)
    dsimp only at hresponse hworld ⊢
    generalize t.world.send o = answered at hsent hresponse hworld ⊢
    obtain ⟨answer, world⟩ := answered
    have hall : left.2.world.sent = s.world.sent ++ [o] := (congrArg World.sent hworld).trans hsent
    refine ⟨hworld, (congrArg List.length hall).trans List.length_append, hall, ?_⟩
    cases answer with
    | error e =>
        rw [ForwardingChain.conclude, Handler.response_finish _ hopen'] at hresponse
        exact congrArg Response.toReply hresponse
    | ok answer =>
        have hreply : reply = { (composedResponse filters s.exchange.response.headers answer).toReply
            with body := answer.body } := by
          rw [← hheld, ← ForwardingChain.toReply_conclude hplain hopen' answer]
          exact congrArg Response.toReply hresponse
        have hstatus := status_composedResponse filters s.exchange.response.headers answer
        rw [hreply]
        refine ⟨rfl, rfl, ?_, ?_⟩ <;> simp [Response.toReply, hstatus]

end

/-- Five filters of a route, two of which set the status. -/
def editingFilters : List OrderedFilter :=
  [⟨0, .response (.setStatus Status.notFound)⟩,
    ⟨1, .request (.addHeader ⟨"x-tag"⟩ (HeaderValue.literal "a"))⟩,
    ⟨1, .request (.prefixPath "/v1")⟩,
    ⟨2, .response (.addHeader ⟨"x-seen"⟩ (HeaderValue.literal "b"))⟩,
    ⟨9999, .response (.setStatus Status.forbidden)⟩]

/-- A request for `/a` on a route to `http://b`, and a backend that has an answer to it. -/
def editedScene : Scene Rat where
  exchange :=
    { request := { uri := ⟨none, none, ⟨"/a", none⟩⟩ }
      route := some ⟨"r", ⟨some "http", some "b", ⟨"", none⟩⟩⟩ }
  world :=
    { backend := fun _ =>
        { answer := .ok
            { status := Status.ok
              headers := ⟨[(⟨"x-seen"⟩, HeaderValue.literal "c")]⟩
              body := Body.ofText "found" } }
      limiter := .empty }

/-- The prefix and the header are in the request that is sent, the header is after that of the
backend in the answer, and the first of both statuses is that of the answer. -/
theorem runChain_composes_edited :
    let chain := OrderedFilter.merge (Gateway.globalFilters 1024) editingFilters
    let left := (runChain chain editedScene).2
    let reply := left.exchange.response.toReply
    left.world.sent = [⟨Method.get, ⟨some "http", some "b", ⟨"/v1/a", none⟩⟩,
        ⟨[(⟨"x-tag"⟩, HeaderValue.literal "a"),
          (HeaderName.forwardedProto, HeaderValue.literal "http")]⟩, .whole []⟩] ∧
      reply.status = Status.notFound ∧
      reply.headers.entries =
        [(⟨"x-seen"⟩, HeaderValue.literal "c"), (⟨"x-seen"⟩, HeaderValue.literal "b")] ∧
      reply.body = Body.ofText "found" := by
  intro chain left reply
  have hcomposes := (runChain_composes 1024 editingFilters (by decide) (by decide)
    (by unfold OrderedFilter.Ascending; decide) editedScene rfl).2
  have hcomposed : composedOutbound editingFilters 1024 editedScene =
      (.ok ⟨Method.get, ⟨some "http", some "b", ⟨"/v1/a", none⟩⟩,
        ⟨[(⟨"x-tag"⟩, HeaderValue.literal "a"),
          (HeaderName.forwardedProto, HeaderValue.literal "http")]⟩, .whole []⟩,
        editedScene.world) := rfl
  rw [hcomposed] at hcomposes
  obtain ⟨-, -, hsent, hbody, hheaders, -, hstatus⟩ := hcomposes
  exact ⟨hsent, hstatus, congrArg Headers.entries hheaders, hbody⟩

end HttpGateway
