import HttpGateway.Error
import HttpGateway.Http.Reply

/-!
# Responses

The response that filters prepare. It can be changed until it is committed with a body; from then on
every change is refused.
-/

namespace HttpGateway

/-- A response in preparation, or committed once it has a body. -/
structure Response where
  status : Option Status := none
  headers : Headers := Headers.empty
  body : Option Body := none
  deriving DecidableEq, Repr

namespace Response

/-- Whether the response has been committed. -/
def isCommitted (r : Response) : Bool := r.body.isSome

/-- A change, unless the response has been committed. -/
def change? (r : Response) (edit : Response → Response) : Option Response :=
  if r.isCommitted then none else some (edit r)

/-- Sets the status. -/
def setStatus? (r : Response) (s : Status) : Option Response :=
  r.change? fun r => { r with status := some s }

/-- Changes the headers. -/
def editHeaders? (r : Response) (edit : Headers → Headers) : Option Response :=
  r.change? fun r => { r with headers := edit r.headers }

/-- Puts back an earlier status and earlier headers. -/
def reset? (r : Response) (status : Option Status) (headers : Headers) : Option Response :=
  r.change? fun r => { r with status, headers }

/-- Commits the response with a body. -/
def commit? (r : Response) (body : Body) : Option Response :=
  r.change? fun r => { r with body := some body }

/-- The headers of an answer that reports an error. -/
def errorHeaders : Headers :=
  Headers.empty.append HeaderName.contentType (HeaderValue.literal "text/plain; charset=utf-8")

/-- Commits the response as the report of an error, in place of all that was prepared. -/
def commitError? (r : Response) (e : GatewayError) : Option Response :=
  r.change? fun _ =>
    { status := some e.status
      headers := errorHeaders
      body := some (Body.ofText e.status.reasonText) }

/-- Sets the status if that is still possible. -/
def setStatus (r : Response) (s : Status) : Response := (r.setStatus? s).getD r

/-- Changes the headers if that is still possible. -/
def editHeaders (r : Response) (edit : Headers → Headers) : Response :=
  (r.editHeaders? edit).getD r

/-- Puts back an earlier status and earlier headers if that is still possible. -/
def reset (r : Response) (status : Option Status) (headers : Headers) : Response :=
  (r.reset? status headers).getD r

/-- Commits the response if that is still possible. -/
def commit (r : Response) (body : Body) : Response := (r.commit? body).getD r

/-- Commits the response as the report of an error if that is still possible. -/
def commitError (r : Response) (e : GatewayError) : Response := (r.commitError? e).getD r

/-- The answer to the client. Without a status it is a success, without a body it has none. -/
def toReply (r : Response) : Reply :=
  { status := r.status.getD Status.ok
    headers := r.headers
    body := r.body.getD Body.empty }

theorem body_setStatus (r : Response) (s : Status) : (r.setStatus s).body = r.body := by
  unfold setStatus setStatus? change?
  split <;> rfl

theorem body_editHeaders (r : Response) (edit : Headers → Headers) :
    (r.editHeaders edit).body = r.body := by
  unfold editHeaders editHeaders? change?
  split <;> rfl

theorem status_editHeaders (r : Response) (edit : Headers → Headers) :
    (r.editHeaders edit).status = r.status := by
  unfold editHeaders editHeaders? change?
  split <;> rfl

theorem status_commit (r : Response) (body : Body) : (r.commit body).status = r.status := by
  unfold commit commit? change?
  split <;> rfl

theorem body_reset (r : Response) (status : Option Status) (headers : Headers) :
    (r.reset status headers).body = r.body := by
  unfold reset reset? change?
  split <;> rfl

theorem isCommitted_setStatus (r : Response) (s : Status) :
    (r.setStatus s).isCommitted = r.isCommitted :=
  congrArg Option.isSome (r.body_setStatus s)

theorem isCommitted_editHeaders (r : Response) (edit : Headers → Headers) :
    (r.editHeaders edit).isCommitted = r.isCommitted :=
  congrArg Option.isSome (r.body_editHeaders edit)

variable {r : Response}

theorem change?_of_open (h : r.isCommitted = false) (edit : Response → Response) :
    r.change? edit = some (edit r) :=
  if_neg (ne_true_of_eq_false h)

theorem change?_of_committed (h : r.isCommitted = true) (edit : Response → Response) :
    r.change? edit = none :=
  if_pos h

theorem setStatus_of_open (h : r.isCommitted = false) (s : Status) :
    r.setStatus s = { r with status := some s } := by
  rw [setStatus, setStatus?, change?_of_open h, Option.getD_some]

theorem editHeaders_of_open (h : r.isCommitted = false) (edit : Headers → Headers) :
    r.editHeaders edit = { r with headers := edit r.headers } := by
  rw [editHeaders, editHeaders?, change?_of_open h, Option.getD_some]

theorem commit_of_open (h : r.isCommitted = false) (body : Body) :
    r.commit body = { r with body := some body } := by
  rw [commit, commit?, change?_of_open h, Option.getD_some]

theorem commitError_of_open (h : r.isCommitted = false) (e : GatewayError) :
    r.commitError e =
      { status := some e.status
        headers := errorHeaders
        body := some (Body.ofText e.status.reasonText) } := by
  rw [commitError, commitError?, change?_of_open h, Option.getD_some]

theorem setStatus_of_committed (h : r.isCommitted = true) (s : Status) : r.setStatus s = r := by
  rw [setStatus, setStatus?, change?_of_committed h, Option.getD_none]

theorem editHeaders_of_committed (h : r.isCommitted = true) (edit : Headers → Headers) :
    r.editHeaders edit = r := by
  rw [editHeaders, editHeaders?, change?_of_committed h, Option.getD_none]

theorem commit_of_committed (h : r.isCommitted = true) (body : Body) : r.commit body = r := by
  rw [commit, commit?, change?_of_committed h, Option.getD_none]

theorem isCommitted_commit (r : Response) (body : Body) : (r.commit body).isCommitted = true := by
  cases h : r.isCommitted with
  | false => rw [commit_of_open h]; rfl
  | true => rw [commit_of_committed h, h]

/-- What can be made of a response by setting its status and changing its headers. -/
inductive Prepared (r : Response) : Response → Prop
  | same : r.Prepared r
  | setStatus {r' : Response} (h : r.Prepared r') (s : Status) : r.Prepared (r'.setStatus s)
  | editHeaders {r' : Response} (h : r.Prepared r') (edit : Headers → Headers) :
      r.Prepared (r'.editHeaders edit)

variable {r' : Response}

theorem Prepared.isCommitted_eq (h : r.Prepared r') : r'.isCommitted = r.isCommitted := by
  induction h with
  | same => rfl
  | setStatus _ s ih => exact (isCommitted_setStatus _ s).trans ih
  | editHeaders _ edit ih => exact (isCommitted_editHeaders _ edit).trans ih

theorem Prepared.eq_of_committed (h : r.Prepared r') (hdone : r.isCommitted = true) : r' = r := by
  induction h with
  | same => rfl
  | setStatus h s ih => exact (setStatus_of_committed (h.isCommitted_eq.trans hdone) s).trans ih
  | editHeaders h edit ih =>
      exact (editHeaders_of_committed (h.isCommitted_eq.trans hdone) edit).trans ih

end Response

end HttpGateway
