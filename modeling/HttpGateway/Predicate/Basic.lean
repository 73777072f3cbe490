import HttpGateway.Exchange.Request
import HttpGateway.Pattern.Segment
import HttpGateway.Regex.Basic
import HttpGateway.Time.Timestamp

/-!
# Predicates

Conditions on requests. All conditions of a route are checked in their order until one fails; a
condition on the path leaves behind what its pattern captured.
-/

namespace HttpGateway

/-- A condition on a request. -/
inductive Predicate where
  | path (patterns : List SegmentPattern)
  | host (patterns : List SegmentPattern)
  | method (methods : List Method)
  | header (name : HeaderName) (value : Option Regex)
  | cookie (name : String) (value : Regex)
  | query (param : String) (value : Option Regex)
  | remoteAddress (sources : List Network)
  | before (limit : Timestamp)
  | after (limit : Timestamp)
  | between (start stop : Timestamp)
  deriving Repr

/-- What a check knows besides the request, and what it finds out about the path. -/
structure MatchContext where
  now : Timestamp
  pathMatch : Option PathMatch := none
  deriving Repr

namespace Predicate

/-- Checks one condition. -/
def check (p : Predicate) (r : Request) (ctx : MatchContext) : Bool × MatchContext :=
  match p with
  | .path patterns => match patterns.findSome? fun p => p.match? r.path with
    | some m => (true, { ctx with pathMatch := some m })
    | none => (false, ctx)
  | .host patterns =>
    (r.host.any fun host => patterns.any fun p => (p.match? host).isSome, ctx)
  | .method methods => (methods.contains r.method, ctx)
  | .header name none => (r.headers.contains name, ctx)
  | .header name (some value) =>
    (((r.headers.values name).filterMap HeaderValue.text?).any value.isMatch, ctx)
  | .cookie name value => (r.cookies.any fun c => c.1 = name && value.isMatch c.2, ctx)
  | .query param value =>
    (r.queryParams.any fun f => f.1 = param && value.all fun v => v.isMatch f.2, ctx)
  | .remoteAddress sources =>
    (r.remote.any fun a => sources.any fun s => s.contains a.address, ctx)
  | .before limit => (ctx.now.before limit, ctx)
  | .after limit => (limit.before ctx.now, ctx)
  | .between start stop => (start.before ctx.now && ctx.now.before stop, ctx)

/-- Checks all conditions, up to the first that fails. -/
def checkAll : List Predicate → Request → MatchContext → Bool × MatchContext
  | [], _, ctx => (true, ctx)
  | p :: rest, r, ctx =>
    match p.check r ctx with
    | (true, ctx) => checkAll rest r ctx
    | (false, ctx) => (false, ctx)

end Predicate

end HttpGateway
