import HttpGateway.Uri.Basic

/-!
# Reading URIs

Readers for the parts of a URI and for whole URIs. A fragment is dropped. Characters above ASCII
are let through in paths and queries, where they stand for their UTF-8 bytes.
-/

namespace HttpGateway

/-- A character that may stand unescaped in a path. -/
def isPathChar (c : Char) : Bool :=
  let n := c.toNat
  n == 0x21 || n == 0x22 || (0x24 ≤ n && n ≤ 0x3B) || n == 0x3D || (0x40 ≤ n && n ≤ 0x5F) ||
    (0x61 ≤ n && n ≤ 0x7E) || 0x80 ≤ n

/-- A character that may stand unescaped in a query. -/
def isQueryChar (c : Char) : Bool :=
  let n := c.toNat
  n == 0x21 || (0x24 ≤ n && n ≤ 0x3B) || n == 0x3D || (0x3F ≤ n && n ≤ 0x7E) || 0x80 ≤ n

namespace Target

/-- Reads a path and a query in which no question mark or hash is left in the path and no hash in
the query. -/
def ofPieces (path : List Char) (query : Option (List Char)) : Except UriError Target :=
  if !path.all isPathChar || !(query.getD []).all isQueryChar then .error .invalidCharacter
  else .ok ⟨String.ofList path, query.map String.ofList⟩

/-- Reads a target: a path, a query after the first question mark, and a fragment, which is dropped,
after the first hash. -/
def scan (s : List Char) : Except UriError Target :=
  let written := s.takeWhile (· ≠ '#')
  match Text.cut '?' written with
  | some (path, query) => ofPieces path (some query)
  | none => ofPieces written none

/-- Reads a target that stands alone: it is not empty, and it is an asterisk or starts with a
slash, a question mark or a hash. -/
def parse (text : String) : Except UriError Target :=
  let s := text.toList
  match s with
  | [] => .error .empty
  | ['*'] => .ok ⟨"*", none⟩
  | c :: _ =>
    if c = '/' ∨ c = '?' ∨ c = '#' then scan s else .error .pathWithoutSlash

end Target

namespace Uri

/-- A character of a scheme. -/
def isSchemeChar (c : Char) : Bool :=
  c.isAlphanum || c = '+' || c = '-' || c = '.' || c = '~'

/-- A character of an authority, the percent sign apart. -/
def isAuthorityChar (c : Char) : Bool :=
  c.isAlphanum || "!$&'()*+,-.:;=@[]_~".toList.contains c

/-- The longest scheme. -/
def longestScheme : Nat := 64

/-- The longest URI, in bytes. -/
def longest : Nat := 65534

/-- Splits off a scheme and the `://` after it. The schemes `http` and `https` are put in lower
case. -/
def splitScheme (s : List Char) : Except UriError (Option String × List Char) :=
  match Text.afterPrefix? "http://".toList (Text.lower (s.take 7)),
      Text.afterPrefix? "https://".toList (Text.lower (s.take 8)) with
  | some _, _ => .ok (some "http", s.drop 7)
  | _, some _ => .ok (some "https", s.drop 8)
  | none, none =>
    let name := s.takeWhile isSchemeChar
    match Text.afterPrefix? "://".toList (s.drop name.length) with
    | none => .ok (none, s)
    | some rest =>
      if s.length ≤ 3 then .ok (none, s)
      else if longestScheme < name.length then .error .schemeTooLong
      else .ok (some (String.ofList name), rest)

/-- What the reader of an authority keeps in mind: the colons since the user information or bracket,
whether a bracket was opened and closed, and whether a percent sign stands outside the user
information. -/
structure AuthorityScan where
  colons : Nat := 0
  opened : Bool := false
  closed : Bool := false
  percent : Bool := false
  endsInAt : Bool := false

/-- The most colons before a port, as in a literal in brackets. -/
def mostColons : Nat := 8

/-- Reads one character of an authority. -/
def AuthorityScan.step (st : AuthorityScan) (c : Char) : Except UriError AuthorityScan :=
  let st := { st with endsInAt := false }
  if c = ':' then
    if mostColons ≤ st.colons then .error .invalidAuthority
    else .ok { st with colons := st.colons + 1 }
  else if c = '[' then
    if st.percent || st.opened then .error .invalidAuthority else .ok { st with opened := true }
  else if c = ']' then
    if !st.opened || st.closed then .error .invalidAuthority
    else .ok { st with closed := true, colons := 0, percent := false }
  else if c = '@' then .ok { st with colons := 0, percent := false, endsInAt := true }
  else if c = '%' then .ok { st with percent := true }
  else if isAuthorityChar c then .ok st
  else .error .invalidCharacter

/-- Splits off an authority, which ends at the first slash, question mark or hash. -/
def splitAuthority (s : List Char) : Except UriError (List Char × List Char) := do
  let ends (c : Char) : Bool := c = '/' || c = '?' || c = '#'
  let name := s.takeWhile fun c => !ends c
  let st ← name.foldlM AuthorityScan.step {}
  if st.opened != st.closed || 1 < st.colons || st.endsInAt || st.percent then
    .error .invalidAuthority
  else .ok (name, s.dropWhile fun c => !ends c)

/-- Reads a URI that is an authority and nothing else. -/
def parseAuthorityForm (s : List Char) : Except UriError Uri := do
  let (name, rest) ← splitAuthority s
  if rest.isEmpty then .ok ⟨none, some (String.ofList name), ⟨"", none⟩⟩
  else .error .invalidCharacter

/-- Reads a URI of more than one character that does not start with a slash. -/
def parseFull (s : List Char) : Except UriError Uri := do
  let (scheme, afterScheme) ← splitScheme s
  if afterScheme.isEmpty then .error .empty
  let (name, rest) ← splitAuthority afterScheme
  match scheme with
  | none =>
    if rest.isEmpty then .ok ⟨none, some (String.ofList name), ⟨"", none⟩⟩
    else .error .invalidFormat
  | some _ =>
    if name.isEmpty then .error .invalidFormat
    let target ← Target.scan rest
    .ok ⟨scheme, some (String.ofList name), target⟩

/-- Reads a URI. -/
def parse (text : String) : Except UriError Uri :=
  let s := text.toList
  if longest < Utf8.size s then .error .tooLong
  else match s with
    | [] => .error .empty
    | ['/'] => .ok ⟨none, none, Target.root⟩
    | ['*'] => .ok ⟨none, none, ⟨"*", none⟩⟩
    | [_] => parseAuthorityForm s
    | '/' :: _ => do .ok ⟨none, none, ← Target.scan s⟩
    | _ => parseFull s

/-- The URI with another target. It is refused for a URI in authority form. -/
def withTarget (u : Uri) (t : Target) : Except UriError Uri := ofParts u.scheme u.authority t

/-- The scheme and authority of `base` with the target of `request`, or `/` if that has none. -/
def rebase (base request : Uri) : Except UriError Uri :=
  ofParts base.scheme base.authority (if request.hasTarget then request.target else Target.root)

end Uri

end HttpGateway
