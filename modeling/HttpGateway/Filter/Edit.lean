import HttpGateway.Exchange.Basic
import HttpGateway.Http.Forwarding
import HttpGateway.Pattern.Template
import HttpGateway.Regex.Basic

/-!
# Edits

The changes that filters make to a request before it goes on, and to a response after it has come
back. An edit of a request may fail, an edit of a response may not.
-/

namespace HttpGateway

/-- A change to a request. -/
inductive RequestEdit where
  | addHeader (name : HeaderName) (value : HeaderValue)
  | addParameter (field : Form.Field)
  | removeHeader (name : HeaderName)
  | removeHeaders (names : List HeaderName)
  | stripHopByHop
  | prefixPath (start : String)
  | rewritePath (pattern : Regex) (replacement : String)
  | setPath (template : PathTemplate)
  deriving Repr

/-- A change to a response. -/
inductive ResponseEdit where
  | addHeader (name : HeaderName) (value : HeaderValue)
  | setHeader (name : HeaderName) (value : HeaderValue)
  | removeHeader (name : HeaderName)
  | setSecureHeaders (headers : List (HeaderName × HeaderValue))
  | setStatus (status : Status)
  deriving DecidableEq, Repr

namespace RequestEdit

/-- The name of the filter that makes the change. -/
def name : RequestEdit → String
  | .addHeader _ _ => "AddRequestHeader"
  | .addParameter _ => "AddRequestParameter"
  | .removeHeader _ => "RemoveRequestHeader"
  | .removeHeaders _ => "RemoveNonProxyHeaders"
  | .stripHopByHop => "RemoveNonProxyHeaders"
  | .prefixPath _ => "PrefixPath"
  | .rewritePath _ _ => "RewritePath"
  | .setPath _ => "SetPath"

/-- Replaces the request of an exchange by one that may have failed to come about. -/
def replaceRequest (x : Exchange) (r : Except GatewayError Request) : Outcome × Exchange :=
  match r with
  | .ok request => (.ok (), { x with request })
  | .error e => (.error e, x)

/-- Replaces the path, and keeps the URI as it was before. -/
def rewrite (x : Exchange) (path : String) : Outcome × Exchange :=
  replaceRequest x.recordOriginalUrl (x.request.setPath path)

/-- The path after a substitution, `/` if nothing is left of it. -/
def substitute (pattern : Regex) (replacement path : String) : String :=
  let rewritten := pattern.replaceAll path replacement
  if rewritten = "" then "/" else rewritten

/-- Makes the change. -/
def apply (e : RequestEdit) (x : Exchange) : Outcome × Exchange :=
  match e with
  | .addHeader n v => (.ok (), x.mapRequestHeaders fun h => h.append n v)
  | .addParameter f =>
    replaceRequest x (x.request.setQuery (some (Form.appendField x.request.query f)))
  | .removeHeader n => (.ok (), x.mapRequestHeaders fun h => h.remove n)
  | .removeHeaders ns => (.ok (), x.mapRequestHeaders fun h => h.removeAll ns)
  | .stripHopByHop => (.ok (), x.mapRequestHeaders Headers.stripHopByHop)
  | .prefixPath start => rewrite x (start ++ x.request.path)
  | .rewritePath pattern replacement =>
    if pattern.replaceAll x.request.path replacement = x.request.path then (.ok (), x)
    else rewrite x (substitute pattern replacement x.request.path)
  | .setPath template =>
    match template.expand fun name => x.pathMatch.bind fun m => m.captured.get? name with
    | none => (.error (.missingState .templateVariable), x)
    | some path => rewrite x path

end RequestEdit

namespace ResponseEdit

/-- The name of the filter that makes the change. -/
def name : ResponseEdit → String
  | .addHeader _ _ => "AddResponseHeader"
  | .setHeader _ _ => "SetResponseHeader"
  | .removeHeader _ => "RemoveResponseHeader"
  | .setSecureHeaders _ => "SecureHeaders"
  | .setStatus _ => "SetStatus"

/-- Makes the change, unless the response has been committed. -/
def apply (e : ResponseEdit) (r : Response) : Response :=
  match e with
  | .addHeader n v => r.editHeaders fun h => h.append n v
  | .setHeader n v => r.editHeaders fun h => h.set n v
  | .removeHeader n => r.editHeaders fun h => h.remove n
  | .setSecureHeaders headers =>
    r.editHeaders fun h => headers.foldl (fun h (n, v) => h.set n v) h
  | .setStatus s => r.setStatus s

end ResponseEdit

end HttpGateway
