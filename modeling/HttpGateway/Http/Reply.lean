import HttpGateway.Http.Body
import HttpGateway.Http.Header
import HttpGateway.Http.Status

/-!
# Replies

The answer of a backend to the gateway, or of the gateway to a client.
-/

namespace HttpGateway

/-- A status, headers and a body. -/
structure Reply where
  status : Status
  headers : Headers := Headers.empty
  body : Body := Body.empty
  deriving DecidableEq, Repr

end HttpGateway
