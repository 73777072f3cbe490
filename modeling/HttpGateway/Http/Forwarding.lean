import HttpGateway.Http.Header
import HttpGateway.Net.Address
import HttpGateway.Text.Pieces

/-!
# Headers on the way to the backend

Which headers concern only one connection and are not passed on, and the headers in which a gateway
tells the backend whom it works for.
-/

namespace HttpGateway

namespace Headers

/-- The headers that concern one connection only. -/
def hopByHop : List HeaderName :=
  ["connection", "keep-alive", "proxy-authenticate", "proxy-authorization", "te", "trailer",
    "transfer-encoding", "upgrade", "proxy-connection"].map HeaderName.mk

/-- The header names in one connection header. -/
def connectionNames (text : String) : List HeaderName :=
  (piecesOf ',' text).filterMap fun piece => HeaderName.parse? (trimText piece)

/-- The header names listed in all readable connection headers. -/
def listedNames (h : Headers) : List HeaderName :=
  ((h.values HeaderName.connection).filterMap HeaderValue.text?).flatMap connectionNames

/-- Removes the headers that concern one connection only: those listed in a connection header, and
those that always do. -/
def stripHopByHop (h : Headers) : Headers := (h.removeAll h.listedNames).removeAll hopByHop

/-- The chain of clients with one more at its end. A chain that is empty or cannot be read is begun
anew. -/
def clientChain (h : Headers) (client : Address) : String :=
  match h.text? HeaderName.forwardedFor with
  | some chain => if chain = "" then client.render else chain ++ ", " ++ client.render
  | none => client.render

/-- Sets a header that has no value yet. -/
def setIfAbsent (h : Headers) (n : HeaderName) (v : HeaderValue) : Headers :=
  if h.contains n then h else h.set n v

/-- Tells the backend the client, the protocol and the host of the request. What a gateway before
this one has told of the protocol and the host stays. -/
def addForwarded (h : Headers) (client : Option Address) (host : Option HeaderValue) : Headers :=
  let h := match client with
    | some a => h.set HeaderName.forwardedFor (HeaderValue.literal (h.clientChain a))
    | none => h
  let h := h.setIfAbsent HeaderName.forwardedProto (HeaderValue.literal "http")
  match host with
  | some v => h.setIfAbsent HeaderName.forwardedHost v
  | none => h

/-- Headers by which a response asks a browser for caution. -/
def secureDefaults : List (HeaderName × HeaderValue) :=
  [("x-xss-protection", "1 ; mode=block"),
    ("strict-transport-security", "max-age=631138519"),
    ("x-frame-options", "DENY"),
    ("x-content-type-options", "nosniff"),
    ("referrer-policy", "no-referrer"),
    ("content-security-policy",
      "default-src 'self' https:; font-src 'self' https: data:; img-src 'self' https: data:; " ++
        "object-src 'none'; script-src https:; style-src 'self' https: 'unsafe-inline'"),
    ("x-download-options", "noopen"),
    ("x-permitted-cross-domain-policies", "none")].map fun (name, value) =>
      (HeaderName.mk name, HeaderValue.literal value)

end Headers

end HttpGateway
