import HttpGateway.Text.Number

/-!
# Durations

Spans of time in whole nanoseconds, and their text in the largest unit of which they hold one.
-/

namespace HttpGateway

/-- A span of time in nanoseconds. -/
structure Duration where
  nanos : Nat
  deriving DecidableEq, Repr, Inhabited

namespace Duration

def zero : Duration := ⟨0⟩

def ofMillis (n : Nat) : Duration := ⟨n * 1000000⟩

instance : Add Duration := ⟨fun a b => ⟨a.nanos + b.nanos⟩⟩

/-- A number of units with as many decimals as it needs. -/
def inUnits (nanos unit : Nat) : String :=
  let digits := (Nat.toDigits 10 unit).length - 1
  let ds := Nat.toDigits 10 (nanos % unit)
  let fraction := (List.replicate (digits - ds.length) '0' ++ ds).reverse.dropWhile (· == '0')
  Text.decimal (nanos / unit) ++
    (if fraction.isEmpty then "" else "." ++ String.ofList fraction.reverse)

/-- The text of a duration, such as `1.5s`, `100ms`, `2µs` or `0ns`. -/
def render (d : Duration) : String :=
  if 1000000000 ≤ d.nanos then inUnits d.nanos 1000000000 ++ "s"
  else if 1000000 ≤ d.nanos then inUnits d.nanos 1000000 ++ "ms"
  else if 1000 ≤ d.nanos then inUnits d.nanos 1000 ++ "µs"
  else Text.decimal d.nanos ++ "ns"

end Duration

end HttpGateway
