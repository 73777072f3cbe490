import HttpGateway.Regex.Scan

/-!
# Character classes

Classes in brackets: characters, ranges, named classes, nested classes, and the set operations
`&&`, `--` and `~~`, which bind to the left.
-/

namespace HttpGateway.Regex

/-- The operations between the parts of a class. -/
inductive ClassOp where
  | inter
  | diff
  | symmDiff
  deriving Repr, DecidableEq

/-- The left side of an operator: its set, and how deep classes are nested in it. -/
structure LeftSide where
  op : ClassOp
  set : CharSet
  depth : Nat
  deriving Repr

/-- A class that is being read: whether it is negated, what stands before its last operator, and the
ranges since, with the number of items they came from and how deep the deepest of these is. -/
structure OpenClass where
  negated : Bool
  pending : Option LeftSide := none
  ranges : CharSet := []
  items : Nat := 0
  depth : Nat := 0
  deriving Repr

namespace OpenClass

/-- Adds the ranges of an item, which may itself be a class of some depth. -/
def add (k : OpenClass) (s : CharSet) (depth : Nat := 0) : OpenClass :=
  { k with ranges := k.ranges ++ s, items := k.items + 1, depth := max k.depth depth }

/-- The set read so far. With an operator both of its sides are folded first. -/
def value (f : Flags) (k : OpenClass) : CharSet :=
  let right := CharSet.normal k.ranges
  match k.pending with
  | none => right
  | some side =>
    let left := fold f side.set
    let right := fold f right
    match side.op with
    | .inter => CharSet.inter left right
    | .diff => CharSet.diff left right
    | .symmDiff => CharSet.symmDiff left right

/-- The nesting of what has been read so far: items side by side are one level, and so are the two
sides of an operator. -/
def nesting (k : OpenClass) : Nat :=
  let right := if k.items ≤ 1 then k.depth else k.depth + 1
  match k.pending with
  | none => right
  | some side => max side.depth right + 1

/-- Takes an operator. -/
def operator (f : Flags) (k : OpenClass) (op : ClassOp) : OpenClass :=
  { negated := k.negated, pending := some ⟨op, k.value f, k.nesting⟩ }

/-- The set of the finished class and its nesting. -/
def close (f : Flags) (k : OpenClass) : CharSet × Nat :=
  let s := fold f (k.value f)
  (if k.negated then s.complement else s, k.nesting + 1)

end OpenClass

/-- The named classes of ASCII characters. -/
def asciiClass? (name : String) : Option CharSet :=
  match name with
  | "alnum" => some [(0x30, 0x39), (0x41, 0x5A), (0x61, 0x7A)]
  | "alpha" => some [(0x41, 0x5A), (0x61, 0x7A)]
  | "ascii" => some [(0, 0x7F)]
  | "blank" => some [(9, 9), (0x20, 0x20)]
  | "cntrl" => some [(0, 0x1F), (0x7F, 0x7F)]
  | "digit" => some asciiDigits
  | "graph" => some [(0x21, 0x7E)]
  | "lower" => some [(0x61, 0x7A)]
  | "print" => some [(0x20, 0x7E)]
  | "punct" => some [(0x21, 0x2F), (0x3A, 0x40), (0x5B, 0x60), (0x7B, 0x7E)]
  | "space" => some asciiBlanks
  | "upper" => some [(0x41, 0x5A)]
  | "word" => some asciiWord
  | "xdigit" => some [(0x30, 0x39), (0x41, 0x46), (0x61, 0x66)]
  | _ => none

/-- Reads a named class such as `[:alpha:]`, after its opening bracket. -/
def scanNamedClass? (f : Flags) (s : List Char) : Option (CharSet × List Char) :=
  match s with
  | ':' :: rest =>
    let (negated, rest) := match rest with
      | '^' :: rest => (true, rest)
      | rest => (false, rest)
    let name := rest.takeWhile (· ≠ ':')
    match asciiClass? (String.ofList name), rest.drop name.length with
    | some s, ':' :: ']' :: after =>
      let s := fold f s
      some (if negated then s.complement else s, after)
    | _, _ => none
  | _ => none

/-- Reads hyphens at the start of a class, which stand for themselves. -/
def scanHyphens (f : Flags) : (fuel : Nat) → OpenClass → List Char → OpenClass × List Char
  | fuel + 1, k, '-' :: rest => scanHyphens f fuel (k.add [(0x2D, 0x2D)]) (skip f rest)
  | _, k, s => (k, s)

/-- Opens a class, after its opening bracket. A closing bracket that comes first stands for itself. -/
def openClass (f : Flags) : Scan OpenClass := fun s =>
  let (negated, s) := match skip f s with
    | '^' :: rest => (true, skip f rest)
    | s => (false, s)
  let (k, s) := scanHyphens f s.length { negated := negated } s
  match s with
  | [] => .error .classUnclosed
  | ']' :: rest =>
    if k.items = 0 then .ok (k.add [(0x5D, 0x5D)], skip f rest) else .ok (k, s)
  | s => .ok (k, s)

/-- Without the Unicode notation a class names ASCII characters only. -/
def Atom.admitted (f : Flags) : Atom → Bool
  | .char c => f.unicode || c.toNat < 128
  | .byte n => f.unicode || n < 128
  | _ => true

/-- Reads one item of a class: an escape or a character. -/
def scanClassItem (f : Flags) : Scan Atom
  | [] => .error .classUnclosed
  | '\\' :: rest => do
    let (a, rest) ← scanEscape f rest
    if a.admitted f then .ok (a, rest) else .error .notText
  | c :: rest => if Atom.admitted f (.char c) then .ok (.char c, rest) else .error .notText

/-- The code point of an item that may bound a range. -/
def Atom.bound? : Atom → Option Nat
  | .char c => some c.toNat
  | .byte n => some n
  | _ => none

/-- The characters of an item. An assertion is none. -/
def Atom.members? : Atom → Option CharSet
  | .char c => some (CharSet.single c)
  | .byte n => some [(n, n)]
  | .set s => some s
  | .look _ => none

/-- Reads an item or a range of a class. -/
def scanClassRange (f : Flags) : Scan CharSet := fun s => do
  let (first, rest) ← scanClassItem f s
  let rest := skip f rest
  let alone : Except PatternError (CharSet × List Char) :=
    match first.members? with
    | some set => .ok (set, rest)
    | none => .error .classItem
  match rest with
  | [] => .error .classUnclosed
  | '-' :: after => match skip f after with
    | [] => alone
    | c :: _ =>
      if c = ']' ∨ c = '-' then alone
      else
        let (last, rest) ← scanClassItem f (skip f after)
        match first.bound?, last.bound? with
        | some low, some high => if low ≤ high then .ok ([(low, high)], rest) else .error .classRange
        | _, _ => .error .classItem
  | _ => alone

/-- Reads the rest of a class, given the classes around it, innermost first. The answer holds the set
and the nesting of the class. -/
def scanClassBody (f : Flags) : (fuel : Nat) → OpenClass → List OpenClass → Scan (CharSet × Nat)
  | 0, _, _, _ => .error .classUnclosed
  | fuel + 1, k, outer, s =>
    match skip f s with
    | [] => .error .classUnclosed
    | '[' :: rest => match scanNamedClass? f rest with
      | some (set, after) => scanClassBody f fuel (k.add set) outer after
      | none => do
        let (inner, rest) ← openClass f rest
        scanClassBody f fuel inner (k :: outer) rest
    | ']' :: rest => match outer with
      | [] => .ok (k.close f, rest)
      | o :: os =>
        let (set, depth) := k.close f
        scanClassBody f fuel (o.add set depth) os rest
    | '&' :: '&' :: rest => scanClassBody f fuel (k.operator f .inter) outer rest
    | '-' :: '-' :: rest => scanClassBody f fuel (k.operator f .diff) outer rest
    | '~' :: '~' :: rest => scanClassBody f fuel (k.operator f .symmDiff) outer rest
    | s => do
      let (set, rest) ← scanClassRange f s
      scanClassBody f fuel (k.add set) outer rest

/-- Reads a class, after its opening bracket. -/
def scanClass (f : Flags) : Scan (CharSet × Nat) := fun s => do
  let (k, rest) ← openClass f s
  scanClassBody f (rest.length + 1) k [] rest

end HttpGateway.Regex
