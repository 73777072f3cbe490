import HttpGateway.Error
import HttpGateway.Retry.Backoff

/-!
# Retry policies

Which requests are tried again, after which outcomes, and how often.
-/

namespace HttpGateway

/-- When a request is tried again. -/
structure RetryPolicy where
  maxAttempts : Nat := 4
  methods : List Method := [Method.get]
  series : List Status.Series := [.serverError]
  statuses : List Status := []
  retryOnError : Bool := true
  backoff : Option Backoff := none
  deriving DecidableEq, Repr

namespace RetryPolicy

/-- Whether requests of this method are tried again at all. -/
def allowsMethod (p : RetryPolicy) (m : Method) : Bool := p.methods.contains m

/-- Whether an answer with this status calls for another attempt. -/
def isRetryableStatus (p : RetryPolicy) (s : Status) : Bool :=
  p.statuses.contains s || s.series?.any p.series.contains

/-- Whether another attempt follows this one, given how it ended and the status of the backend's
answer if there was one. -/
def shouldRetry (p : RetryPolicy) (attempt : Nat) (m : Method) (outcome : Outcome)
    (status : Option Status) : Bool :=
  if p.maxAttempts ≤ attempt || !p.allowsMethod m then false
  else match outcome with
    | .error e => p.retryOnError && e.isUpstream
    | .ok () => status.any p.isRetryableStatus

end RetryPolicy

end HttpGateway
