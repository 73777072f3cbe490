import HttpGateway.Text.Pieces
import HttpGateway.Text.Number

/-!
# Network addresses

Addresses of both families as numbers of 32 and 128 bits, their texts, socket addresses, and blocks
of addresses given by an address and a prefix length.
-/

namespace HttpGateway

/-- An address of either family. -/
inductive Address where
  | v4 (bits : Nat)
  | v6 (bits : Nat)
  deriving DecidableEq, Repr

/-- An address with a port; a scope is kept for IPv6 addresses that name one. -/
structure SocketAddress where
  address : Address
  port : Nat
  scope : Nat := 0
  deriving DecidableEq, Repr

/-- The addresses that agree with one address in a number of leading bits. -/
structure Network where
  address : Address
  length : Nat
  deriving DecidableEq, Repr

namespace Net

/-- A reader takes what it understands off the front of a text. -/
abbrev Reader (α : Type) := List Char → Option (α × List Char)

/-- Reads one given character. -/
def readChar (c : Char) : Reader Unit
  | [] => none
  | d :: rest => if d = c then some ((), rest) else none

/-- How a number may be written: its base, the most digits, the largest value, and whether a zero
may stand before other digits. -/
structure NumberRule where
  base : Nat
  digits : Nat
  largest : Nat
  leadingZeros : Bool

/-- Reads all digits at the front as one number. -/
def readNumber (rule : NumberRule) : Reader Nat := fun s =>
  let isDigit (c : Char) : Bool := (Text.hexDigit? c).any (· < rule.base)
  let ds := s.takeWhile isDigit
  let value := ds.foldl (fun acc c => acc * rule.base + (Text.hexDigit? c).getD 0) 0
  if ds.isEmpty || rule.digits < ds.length || rule.largest < value then none
  else if !rule.leadingZeros && ds.head? == some '0' && 1 < ds.length then none
  else some (value, s.dropWhile isDigit)

/-- An octet of a dotted address. -/
def octet (leadingZeros : Bool) : NumberRule := ⟨10, 3, 255, leadingZeros⟩

/-- A group of an IPv6 address. -/
def group : NumberRule := ⟨16, 4, 65535, true⟩

/-- A port. -/
def portNumber : NumberRule := ⟨10, 64, 65535, true⟩

/-- Reads four octets between dots. -/
def readV4 (leadingZeros : Bool) : Reader Nat := fun s => do
  let (a, s) ← readNumber (octet leadingZeros) s
  let ((), s) ← readChar '.' s
  let (b, s) ← readNumber (octet leadingZeros) s
  let ((), s) ← readChar '.' s
  let (c, s) ← readNumber (octet leadingZeros) s
  let ((), s) ← readChar '.' s
  let (d, s) ← readNumber (octet leadingZeros) s
  some (((a * 256 + b) * 256 + c) * 256 + d, s)

/-- Reads at most `limit` groups between colons. The last two may be written as a dotted address;
the flag tells whether they are. -/
def readGroups (leadingZeros : Bool) : (limit : Nat) → (first : Bool) → List Char →
    List Nat × Bool × List Char
  | 0, _, s => ([], false, s)
  | limit + 1, first, s =>
    let start := if first then some s else (readChar ':' s).map Prod.snd
    match start with
    | none => ([], false, s)
    | some t =>
      match (if limit = 0 then none else readV4 leadingZeros t) with
      | some (v4, rest) => ([v4 / 65536, v4 % 65536], true, rest)
      | none => match readNumber group t with
        | none => ([], false, s)
        | some (g, rest) =>
          let (more, dotted, rest) := readGroups leadingZeros limit false rest
          (g :: more, dotted, rest)

/-- The number whose groups these are. -/
def ofGroups (gs : List Nat) : Nat := gs.foldl (fun acc g => acc * 65536 + g) 0

/-- Reads eight groups, or fewer with a double colon in place of the missing ones. -/
def readV6 (leadingZeros : Bool) : Reader Nat := fun s => do
  let (before, dotted, rest) := readGroups leadingZeros 8 true s
  if before.length = 8 then some (ofGroups before, rest)
  else if dotted then none
  else
    let ((), rest) ← readChar ':' rest
    let ((), rest) ← readChar ':' rest
    let (after, _, rest) := readGroups leadingZeros (7 - before.length) true rest
    let zeros := List.replicate (8 - before.length - after.length) 0
    some (ofGroups (before ++ zeros ++ after), rest)

/-- What a reader makes of a whole text. -/
def whole {α : Type} (r : Reader α) (s : List Char) : Option α :=
  match r s with
  | some (a, []) => some a
  | _ => none

/-- The longest text of a dotted address. -/
def longestV4 : Nat := 15

end Net

open Net

/-- Reads an address. -/
def Address.parse? (text : String) : Option Address :=
  let s := text.toList
  let v4 := if longestV4 < s.length then none else whole (readV4 false) s
  match v4 with
  | some n => some (.v4 n)
  | none => (whole (readV6 false) s).map .v6

/-- Reads a socket address: a dotted address or one in brackets, a colon and a port. -/
def SocketAddress.parse? (text : String) : Option SocketAddress :=
  let v4 : Reader SocketAddress := fun s => do
    let (a, s) ← readV4 false s
    let ((), s) ← readChar ':' s
    let (port, s) ← readNumber portNumber s
    some (⟨.v4 a, port, 0⟩, s)
  let v6 : Reader SocketAddress := fun s => do
    let ((), s) ← readChar '[' s
    let (a, s) ← readV6 false s
    let (scope, s) ← match readChar '%' s with
      | none => some (0, s)
      | some ((), s) => readNumber ⟨10, 64, 4294967295, true⟩ s
    let ((), s) ← readChar ']' s
    let ((), s) ← readChar ':' s
    let (port, s) ← readNumber portNumber s
    some (⟨.v6 a, port, scope⟩, s)
  (whole v4 text.toList).or (whole v6 text.toList)

/-- Reads a block: an address, a slash and a prefix length, or an address alone. -/
def Network.parse? (text : String) : Option Network :=
  let block4 : Reader Network := fun s => do
    let (a, s) ← readV4 true s
    let ((), s) ← readChar '/' s
    let (n, s) ← readNumber ⟨10, 2, 32, true⟩ s
    some (⟨.v4 a, n⟩, s)
  let block6 : Reader Network := fun s => do
    let (a, s) ← readV6 true s
    let ((), s) ← readChar '/' s
    let (n, s) ← readNumber ⟨10, 3, 128, true⟩ s
    some (⟨.v6 a, n⟩, s)
  match (whole block4 text.toList).or (whole block6 text.toList) with
  | some net => some net
  | none => match Address.parse? text with
    | some (.v4 a) => some ⟨.v4 a, 32⟩
    | some (.v6 a) => some ⟨.v6 a, 128⟩
    | none => none

/-- Whether the address belongs to the block: same family, same leading bits. -/
def Network.contains (net : Network) (a : Address) : Bool :=
  match net.address, a with
  | .v4 base, .v4 x => base / Nat.pow 2 (32 - net.length) == x / Nat.pow 2 (32 - net.length)
  | .v6 base, .v6 x => base / Nat.pow 2 (128 - net.length) == x / Nat.pow 2 (128 - net.length)
  | _, _ => false

namespace Net

/-- The four octets of a number between dots. -/
def dotted (n : Nat) : String :=
  joinTexts "." ([n / 16777216 % 256, n / 65536 % 256, n / 256 % 256, n % 256].map Text.decimal)

/-- The eight groups of a number. -/
def groupsOf (n : Nat) : List Nat :=
  (List.range 8).map fun i => n / Nat.pow 65536 (7 - i) % 65536

/-- A group in hexadecimal digits. -/
def hex (n : Nat) : String := String.ofList (Nat.toDigits 16 n)

/-- The start and length of the longest run of zeros, the first of equal ones. -/
def longestZeros (gs : List Nat) : Nat × Nat :=
  let runs := (List.range gs.length).map fun i => (i, ((gs.drop i).takeWhile (· == 0)).length)
  runs.foldl (fun best run => if best.2 < run.2 then run else best) (0, 0)

/-- The text of an IPv6 address: two or more zero groups in a row are written as a double colon. -/
def colons (n : Nat) : String :=
  let gs := groupsOf n
  if n / 4294967296 = 65535 then "::ffff:" ++ dotted (n % 4294967296)
  else
    let (start, len) := longestZeros gs
    let text (part : List Nat) : String := joinTexts ":" (part.map hex)
    if 1 < len then text (gs.take start) ++ "::" ++ text (gs.drop (start + len)) else text gs

end Net

/-- The text of an address. -/
def Address.render : Address → String
  | .v4 n => Net.dotted n
  | .v6 n => Net.colons n

/-- The text of a socket address. -/
def SocketAddress.render (a : SocketAddress) : String :=
  match a.address with
  | .v4 n => Net.dotted n ++ ":" ++ Text.decimal a.port
  | .v6 n =>
    let scope := if a.scope = 0 then "" else "%" ++ Text.decimal a.scope
    "[" ++ Net.colons n ++ scope ++ "]:" ++ Text.decimal a.port

end HttpGateway
