import HttpGateway.Exchange.RequestBody
import HttpGateway.Form
import HttpGateway.Http.Header
import HttpGateway.Http.Method
import HttpGateway.Net.Address
import HttpGateway.Uri.Parser

/-!
# Requests

A request on its way through the gateway, what predicates look at, and the changes filters make to
its path and query.
-/

namespace HttpGateway

/-- A request. -/
structure Request where
  method : Method := Method.get
  uri : Uri
  headers : Headers := Headers.empty
  body : RequestBody := .empty
  remote : Option SocketAddress := none
  deriving DecidableEq, Repr

namespace Request

/-- The path of the request. -/
def path (r : Request) : String := r.uri.path

/-- The query of the request, without the question mark. -/
def query (r : Request) : Option String := r.uri.query

/-- The fields of the query. -/
def queryParams (r : Request) : List Form.Field :=
  match r.query with
  | some q => Form.decode (bytesOf q)
  | none => []

/-- The host in a host header or an authority: without a port, and without the brackets of a
literal. -/
def bareHost (s : List Char) : List Char :=
  if s.head? = some '[' then (s.takeWhile (· ≠ ']')).dropWhile (· = '[')
  else s.takeWhile (· ≠ ':')

/-- The host the request is meant for, in lower case: that of a readable host header, else that of
the URI. -/
def host (r : Request) : Option String :=
  ((r.headers.text? HeaderName.host).or r.uri.host).map fun raw =>
    lowerText (String.ofList (bareHost raw.toList))

/-- The pairs in one cookie header. Pieces without an equals sign are passed over. -/
def cookiePairs (text : String) : List (String × String) :=
  (piecesOf ';' text).filterMap fun piece =>
    (cutText '=' piece).map fun (name, value) => (trimText name, trimText value)

/-- The cookies of the request. -/
def cookies (r : Request) : List (String × String) :=
  ((r.headers.values HeaderName.cookie).filterMap HeaderValue.text?).flatMap cookiePairs

/-- The type of the body, if it is readable. -/
def contentType (r : Request) : Option String := r.headers.text? HeaderName.contentType

/-- Replaces path and query by a target read from a text. -/
def setTarget (r : Request) (text : String) : Except GatewayError Request :=
  match Target.parse text with
  | .error e => .error (.invalidRequest (text ++ ": " ++ e.message))
  | .ok target => match r.uri.withTarget target with
    | .error e => .error (.invalidRequest e.message)
    | .ok uri => .ok { r with uri }

/-- Replaces the path and keeps the query. -/
def setPath (r : Request) (path : String) : Except GatewayError Request :=
  r.setTarget (match r.query with
    | some q => path ++ "?" ++ q
    | none => path)

/-- Replaces the query and keeps the path. An empty query is none. -/
def setQuery (r : Request) (query : Option String) : Except GatewayError Request :=
  r.setTarget (match query with
    | some q => if q = "" then r.path else r.path ++ "?" ++ q
    | none => r.path)

end Request

end HttpGateway
