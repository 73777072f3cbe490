import HttpGateway.Text.Pieces
import HttpGateway.Text.Number
import HttpGateway.Text.Utf8

/-!
# URIs

A URI has an optional scheme, an optional authority, and a target: a path and an optional query. The
four forms a request line allows are the origin form (`/path?query`), the absolute form
(`scheme://authority/path`), the authority form (`host:port`) and the asterisk form (`*`).
-/

namespace HttpGateway

/-- A path and an optional query, as written. -/
structure Target where
  path : String
  query : Option String
  deriving DecidableEq, Repr, Inhabited

namespace Target

/-- The target `/`. -/
def root : Target := ⟨"/", none⟩

/-- Nothing at all is written. -/
def isEmpty (t : Target) : Bool := t.path.isEmpty && t.query.isNone

/-- The path, where an empty one counts as `/`. -/
def shownPath (t : Target) : String := if t.path.isEmpty then "/" else t.path

end Target

/-- A URI. -/
structure Uri where
  scheme : Option String
  authority : Option String
  target : Target
  deriving DecidableEq, Repr, Inhabited

/-- Why a text is no URI, or parts make up none. -/
inductive UriError where
  | invalidCharacter
  | invalidAuthority
  | invalidFormat
  | schemeMissing
  | authorityMissing
  | pathWithoutSlash
  | tooLong
  | empty
  | schemeTooLong
  deriving DecidableEq, Repr

/-- The wording of each cause. -/
def UriError.message : UriError → String
  | .invalidCharacter => "invalid uri character"
  | .invalidAuthority => "invalid authority"
  | .invalidFormat => "invalid format"
  | .schemeMissing => "scheme missing"
  | .authorityMissing => "authority missing"
  | .pathWithoutSlash => "path does not start with slash"
  | .tooLong => "uri too long"
  | .empty => "empty string"
  | .schemeTooLong => "scheme too long"

namespace Uri

/-- The URI has a target: one is written, or the scheme calls for one. -/
def hasTarget (u : Uri) : Bool := !u.target.isEmpty || u.scheme.isSome

/-- The path: `/` when the URI has a target with an empty path, and nothing without a target. -/
def path (u : Uri) : String := if u.hasTarget then u.target.shownPath else ""

/-- The query, without the question mark. -/
def query (u : Uri) : Option String := u.target.query

/-- The text of a URI. -/
def render (u : Uri) : String :=
  (match u.scheme with | some s => s ++ "://" | none => "") ++ u.authority.getD "" ++ u.path ++
    (match u.query with | some q => "?" ++ q | none => "")

/-- The text after the last occurrence of a character, or all of it. -/
def afterLast (sep : Char) (s : List Char) : List Char :=
  (s.reverse.takeWhile (· ≠ sep)).reverse

/-- The host of an authority: what follows the user information, up to the port. A literal in
brackets keeps its brackets. -/
def hostOf (authority : String) : String :=
  let hostPort := afterLast '@' authority.toList
  match hostPort with
  | '[' :: _ => String.ofList (hostPort.takeWhile (· ≠ ']') ++ [']'])
  | _ => String.ofList (hostPort.takeWhile (· ≠ ':'))

/-- The host. -/
def host (u : Uri) : Option String := u.authority.map hostOf

/-- The port, if what follows the last colon of the authority is a port number. -/
def port (u : Uri) : Option Nat :=
  match u.authority with
  | none => none
  | some a =>
    if a.toList.contains ':' then (Text.natural 65535 (afterLast ':' a.toList)).toOption else none

/-- Two URIs name the same resource: scheme and authority agree up to the case of letters, path and
query exactly. -/
def same (u v : Uri) : Bool :=
  (u.scheme.map lowerText == v.scheme.map lowerText) &&
    (u.authority.map lowerText == v.authority.map lowerText) &&
    u.path == v.path && u.query == v.query

/-- Joins parts. A scheme needs an authority, and an authority with a target needs a scheme. -/
def ofParts (scheme authority : Option String) (target : Target) : Except UriError Uri :=
  match scheme, authority with
  | some _, none => .error .authorityMissing
  | none, some _ => .error .schemeMissing
  | _, _ => .ok ⟨scheme, authority, target⟩

end Uri

end HttpGateway
