import HttpGateway.Error
import HttpGateway.Http.Body

/-!
# Request bodies

The body of a request as the gateway holds it: there is none, it has been read as a whole, it is
still to arrive, or it has been handed on.
-/

namespace HttpGateway

/-- The body of a request. -/
inductive RequestBody where
  | empty
  | buffered (bytes : Bytes)
  | streaming (body : Body)
  | consumed
  deriving DecidableEq, Repr

namespace RequestBody

/-- The body as it comes in. One that is known to hold no bytes counts as none. -/
def ofBody : Body → RequestBody
  | .whole [] => .empty
  | b => .streaming b

/-- The state of the body in a word. -/
def state : RequestBody → String
  | .empty => "Empty"
  | .buffered _ => "Buffered"
  | .streaming _ => "Streaming"
  | .consumed => "Consumed"

/-- Whether the body can be handed out any number of times. -/
def isReplayable : RequestBody → Bool
  | .empty => true
  | .buffered _ => true
  | _ => false

/-- Hands out the body, and tells what is left of it. -/
def take : RequestBody → Except GatewayError Body × RequestBody
  | .empty => (.ok Body.empty, .empty)
  | .buffered bytes => (.ok (.whole bytes), .buffered bytes)
  | .streaming body => (.ok body, .consumed)
  | .consumed => (.error (.missingState .requestBody), .consumed)

/-- Reads chunks up to a limit on their total size. A chunk over the limit ends the reading, and so
does the error after the last chunk. -/
def collect (limit : Nat) (failure : Option String) : (room : Nat) → List Bytes →
    Except GatewayError Bytes
  | _, [] => match failure with
    | some reason => .error (.bodyRead reason)
    | none => .ok []
  | room, chunk :: rest =>
    if room < chunk.length then .error (.bodyTooLarge limit)
    else (collect limit failure (room - chunk.length) rest).map (chunk ++ ·)

/-- Reads the body as a whole, if it is not larger than a limit. A body that cannot be read is
lost. -/
def materialize (limit : Nat) : RequestBody → Except GatewayError Bytes × RequestBody
  | .empty => (.ok [], .empty)
  | .buffered bytes => (.ok bytes, .buffered bytes)
  | .streaming body => match collect limit body.failure limit body.chunks with
    | .ok bytes => (.ok bytes, .buffered bytes)
    | .error e => (.error e, .consumed)
  | .consumed => (.error (.missingState .requestBody), .consumed)

end RequestBody

end HttpGateway
