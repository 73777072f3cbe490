import HttpGateway.Regex.Syntax

/-!
# The size of patterns

A pattern is refused when the machine that would run it backwards over bytes grows too large. The
size of that machine is counted here without building it: each of its states takes 32 bytes and
each choice of a branch 4, a character outside ASCII is read as its UTF-8 bytes, and two characters
of a set that start with the same bytes share the states for these.
-/

namespace HttpGateway.Regex

/-- The bytes that one state takes. -/
def stateWeight : Nat := 32

/-- The bytes that one choice of a branch takes. -/
def choiceWeight : Nat := 4

/-- The bytes that one range of ASCII characters takes beside its state. -/
def rangeWeight : Nat := 8

/-- The byte ranges that spell the numbers from `low` to `high` with a first byte, on top of
`marker`, and `trailing` more of six bits each. In each sequence any choice of bytes is meant. -/
def byteRanges : (trailing marker low high : Nat) → List (List (Nat × Nat))
  | 0, marker, low, high => [[(marker + low, marker + high)]]
  | t + 1, marker, low, high =>
    let block := Nat.pow 64 (t + 1)
    let within (q low high : Nat) : List (List (Nat × Nat)) :=
      (byteRanges t 0x80 low high).map ((marker + q, marker + q) :: ·)
    let (a, x) := (low / block, low % block)
    let (b, y) := (high / block, high % block)
    if a = b then within a x y
    else
      let (first, head) := if x = 0 then (a, []) else (a + 1, within a x (block - 1))
      let (next, tail) := if y + 1 = block then (b + 1, []) else (b, within b 0 y)
      let middle := if first < next then
          [(marker + first, marker + next - 1) :: List.replicate (t + 1) (0x80, 0xBF)]
        else []
      head ++ middle ++ tail

/-- The numbers of trailing bytes with their markers and the characters they are used for. -/
def byteLengths : List (Nat × Nat × Nat × Nat) :=
  [(0, 0, 0, 0x7F), (1, 0xC0, 0x80, 0x7FF), (2, 0xE0, 0x800, 0xD7FF), (2, 0xE0, 0xE000, 0xFFFF),
    (3, 0xF0, 0x10000, 0x10FFFF)]

/-- The byte ranges that spell the characters of a set, in the order of the characters. -/
def byteSequences (s : CharSet) : List (List (Nat × Nat)) :=
  s.flatMap fun (low, high) => byteLengths.flatMap fun (trailing, marker, first, last) =>
    if max low first ≤ min high last then byteRanges trailing marker (max low first) (min high last)
    else []

/-- The length of the longest common start of two lists. -/
def commonStart : List (Nat × Nat) → List (Nat × Nat) → Nat
  | a :: as, b :: bs => if a = b then commonStart as bs + 1 else 0
  | _, _ => 0

/-- The number of states for sequences of byte ranges, each of which shares its start with the one
before it. -/
def sharedStates : (before : List (Nat × Nat)) → List (List (Nat × Nat)) → Nat
  | _, [] => 0
  | before, s :: rest => (s.length - commonStart before s) + sharedStates s rest

/-- The weight of a set: one character is read byte by byte, ASCII ranges in one state, and any
other set by a branch. -/
def setWeight (s : CharSet) : Nat :=
  let sequences := byteSequences s
  match s with
  | [(low, high)] =>
    if low = high then stateWeight * sharedStates [] sequences else branching sequences
  | _ => branching sequences
where
  /-- The weight of a set of more than one character. -/
  branching (sequences : List (List (Nat × Nat))) : Nat :=
    if s.isAscii then 2 * stateWeight + rangeWeight * s.length
    else 2 * stateWeight + choiceWeight * sequences.length + stateWeight * sharedStates [] sequences

/-- The weight of a branch of two choices. -/
def branchWeight : Nat := stateWeight + 2 * choiceWeight

/-- The weight of an expression. -/
def Expr.weight : Expr → Nat
  | .empty => stateWeight
  | .set s => setWeight s
  | .look _ => stateWeight
  | .capture _ e => 2 * stateWeight + e.weight
  | .cat a b => a.weight + b.weight
  | .alt a b => branchWeight + a.weight + b.weight
  | .repeat low none _ e => max low 1 * e.weight + branchWeight
  | .repeat low (some high) _ e => low * e.weight + (high - low) * (branchWeight + e.weight)

end HttpGateway.Regex
