/-!
# Sets of characters

Finite unions of ranges of code points, kept sorted and apart from each other, with the operations
that character classes are built from.
-/

namespace HttpGateway

/-- Ranges of code points, ends included. -/
abbrev CharSet := List (Nat × Nat)

namespace CharSet

/-- The largest code point. -/
def top : Nat := 0x10FFFF

/-- All characters. -/
def full : CharSet := [(0, top)]

/-- One character. -/
def single (c : Char) : CharSet := [(c.toNat, c.toNat)]

/-- Whether the set holds a code point. -/
def holds (s : CharSet) (n : Nat) : Bool := s.any fun r => r.1 ≤ n && n ≤ r.2

/-- Whether the set holds a character. -/
def contains (s : CharSet) (c : Char) : Bool := s.holds c.toNat

/-- Puts a range among sorted ranges, by its lower end. -/
def insertSorted (r : Nat × Nat) : CharSet → CharSet
  | [] => [r]
  | q :: rest => if r.1 ≤ q.1 then r :: q :: rest else q :: insertSorted r rest

/-- Joins neighbouring ranges that overlap or touch; the ranges are sorted by their lower ends. -/
def joinSorted : CharSet → CharSet
  | [] => []
  | r :: rest =>
    match joinSorted rest with
    | [] => [r]
    | q :: qs => if q.1 ≤ r.2 + 1 then (r.1, max r.2 q.2) :: qs else r :: q :: qs

/-- Sorts and joins ranges given in any order. -/
def normal (s : CharSet) : CharSet := joinSorted (s.foldr insertSorted [])

/-- The characters of either of two normal sets. -/
def union (s t : CharSet) : CharSet := joinSorted (List.merge s t fun r q => r.1 ≤ q.1)

/-- The characters of any of several normal sets. -/
def unionAll (sets : List CharSet) : CharSet := sets.foldr union []

/-- The gaps of a normal set from a code point on. -/
def gaps (start : Nat) : CharSet → CharSet
  | [] => if start ≤ top then [(start, top)] else []
  | r :: rest => if start < r.1 then (start, r.1 - 1) :: gaps (r.2 + 1) rest else gaps (r.2 + 1) rest

/-- The characters outside a normal set. -/
def complement (s : CharSet) : CharSet := gaps 0 s

/-- The characters of both sets. -/
def inter (s t : CharSet) : CharSet :=
  normal (s.flatMap fun r => t.filterMap fun q =>
    if max r.1 q.1 ≤ min r.2 q.2 then some (max r.1 q.1, min r.2 q.2) else none)

/-- The characters of the first set that are not in the second, normal set. -/
def diff (s t : CharSet) : CharSet := inter s (complement t)

/-- The characters of exactly one of the sets. -/
def symmDiff (s t : CharSet) : CharSet := union (diff s t) (diff t s)

/-- Whether all characters are ASCII. -/
def isAscii (s : CharSet) : Bool := s.all fun r => r.2 < 128

end CharSet

end HttpGateway
