import HttpGateway.Http.Header
import HttpGateway.Text.Hex

/-!
# Request ids

Every request is known by an id, which its sender may choose. One that comes without gets a random
one, and the response carries the id of its request.
-/

namespace HttpGateway.RequestId

/-- A random id, made from random bits: 32 hexadecimal digits in five groups. The thirteenth digit
tells that the id is random, and the seventeenth lies between 8 and b. -/
def ofRandom (bits : Nat) : String :=
  let ds := Hex.digits 32 bits
  let variant := Nat.digitChar (8 + bits / Nat.pow 16 15 % 4)
  let groups := [ds.take 8, (ds.drop 8).take 4, '4' :: (ds.drop 13).take 3,
    variant :: (ds.drop 17).take 3, ds.drop 20]
  String.ofList (Text.join ['-'] groups)

/-- The headers of a request with the id made for it, unless it has one. -/
def assign (made : String) (h : Headers) : Headers :=
  if h.contains HeaderName.requestId then h
  else h.set HeaderName.requestId (HeaderValue.literal made)

/-- The headers of a response with the id of its request, unless it has one. -/
def propagate (request response : Headers) : Headers :=
  if response.contains HeaderName.requestId then response
  else match request.first? HeaderName.requestId with
    | some id => response.set HeaderName.requestId id
    | none => response

end HttpGateway.RequestId
