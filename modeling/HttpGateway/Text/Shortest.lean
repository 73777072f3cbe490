import HttpGateway.Text.Number

/-!
# Shortest decimals

The fewest decimal digits that read back as a given floating-point number. A finite number is
`m · 2 ^ q`; the reals that round to it form an interval around it, and the digits wanted are those
of the coarsest decimal grid with a point in that interval. Of two such points the nearer is taken.
All arithmetic is on exact fractions of natural numbers.
-/

namespace HttpGateway.Text

/-- A positive decimal `digits · 10 ^ exponent`. -/
structure ShortDecimal where
  digits : Nat
  exponent : Int
  deriving Repr, DecidableEq

/-- The interval of reals that round to a number: ends and centre over one denominator, and whether
the ends themselves belong to it. -/
structure RoundingInterval where
  low : Nat
  centre : Nat
  high : Nat
  denominator : Nat
  closed : Bool

/-- The interval of the positive number `m · 2 ^ q`. Below a power of two the grid is twice as fine,
so there the lower half is half as wide. -/
def RoundingInterval.of (m : Nat) (q : Int) (lowest : Bool) : RoundingInterval :=
  let below := if m = Nat.pow 2 52 ∧ ¬ lowest then 1 else 2
  let unit := Nat.pow 2 (q - 2).toNat
  { low := (4 * m - below) * unit
    centre := 4 * m * unit
    high := (4 * m + 2) * unit
    denominator := Nat.pow 2 (2 - q).toNat
    closed := m % 2 = 0 }

/-- Whether `digits · 10 ^ exponent` rounds to the number. -/
def RoundingInterval.holds (i : RoundingInterval) (d : ShortDecimal) : Bool :=
  let x := d.digits * Nat.pow 10 d.exponent.toNat * i.denominator
  let scale := Nat.pow 10 (-d.exponent).toNat
  if i.closed then i.low * scale ≤ x && x ≤ i.high * scale
  else i.low * scale < x && x < i.high * scale

/-- The neighbours of the centre on the grid `10 ^ p`, the nearer first. -/
def RoundingInterval.neighbours (i : RoundingInterval) (p : Int) : List ShortDecimal :=
  let num := i.centre * Nat.pow 10 (-p).toNat
  let den := i.denominator * Nat.pow 10 p.toNat
  let down : ShortDecimal := ⟨num / den, p⟩
  let up : ShortDecimal := ⟨num / den + 1, p⟩
  if 2 * (num % den) < den then [down, up]
  else if 2 * (num % den) = den then (if num / den % 2 = 0 then [down, up] else [up, down])
  else [up, down]

/-- The exponent `k` with `10 ^ (k - 1) ≤ num / den < 10 ^ k`. -/
def decimalMagnitude (num den : Nat) : Int :=
  if den ≤ num then ((Nat.toDigits 10 (num / den)).length : Int)
  else
    let shift := (Nat.toDigits 10 (den / num)).length
    if den ≤ num * Nat.pow 10 (shift - 1) then 2 - (shift : Int)
    else if den ≤ num * Nat.pow 10 shift then 1 - (shift : Int) else -(shift : Int)

/-- Drops trailing zeros of the digits. -/
def ShortDecimal.normal (d : ShortDecimal) : (fuel : Nat) → ShortDecimal
  | 0 => d
  | fuel + 1 =>
    if d.digits % 10 = 0 ∧ d.digits ≠ 0 then ShortDecimal.normal ⟨d.digits / 10, d.exponent + 1⟩ fuel
    else d

/-- The shortest decimal of the positive number with this interval. -/
def RoundingInterval.shortest (i : RoundingInterval) : ShortDecimal :=
  let k := decimalMagnitude i.centre i.denominator
  let grids := (List.range 17).map fun (n : Nat) => k - (n : Int) - 1
  let hit := grids.findSome? fun p => (i.neighbours p).find? i.holds
  (hit.getD ⟨0, 0⟩).normal 20

/-- The sign and the shortest decimal of a finite number other than zero. -/
def shortest (x : Float) : Bool × ShortDecimal :=
  let bits : Nat := x.toBits.toNat
  let fraction : Nat := bits % Nat.pow 2 52
  let exponent : Nat := bits / Nat.pow 2 52 % Nat.pow 2 11
  let (m, q) : Nat × Int :=
    if exponent = 0 then (fraction, -1074) else (Nat.pow 2 52 + fraction, (exponent : Int) - 1075)
  (decide (Nat.pow 2 63 ≤ bits), (RoundingInterval.of m q (exponent ≤ 1)).shortest)

/-- How a notation writes decimals: the powers of ten between which it is positional. A number
`0.d₁d₂… · 10 ^ k` is positional when `positionalAbove < k ≤ positionalUpTo`. -/
structure DecimalNotation where
  positionalAbove : Int
  positionalUpTo : Int

/-- One digit, and the others, if there are any, after a point. -/
def mantissa : List Char → List Char
  | c :: c' :: rest => c :: '.' :: c' :: rest
  | other => other

/-- Writes a positive decimal: positionally with at least one digit on each side of the point, or as
one digit, the others after a point, and the power of ten after `e`. -/
def DecimalNotation.write (f : DecimalNotation) (d : ShortDecimal) : String :=
  let ds := Nat.toDigits 10 d.digits
  let n : Int := ds.length
  let k := n + d.exponent
  if 0 ≤ d.exponent ∧ k ≤ f.positionalUpTo then
    String.ofList (ds ++ List.replicate d.exponent.toNat '0' ++ ['.', '0'])
  else if 0 < k ∧ k ≤ f.positionalUpTo then
    String.ofList (ds.take k.toNat ++ '.' :: ds.drop k.toNat)
  else if f.positionalAbove < k ∧ k ≤ 0 then
    String.ofList ('0' :: '.' :: List.replicate (-k).toNat '0' ++ ds)
  else
    String.ofList (mantissa ds) ++ "e" ++ signedDecimal (k - 1)

end HttpGateway.Text
