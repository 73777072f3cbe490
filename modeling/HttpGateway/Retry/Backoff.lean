import HttpGateway.Json.Decode

/-!
# Backoff

The pause before a request is tried again: it grows by a factor with each attempt up to a bound, and
may be lengthened at random by up to a tenth.
-/

namespace HttpGateway

/-- How pauses grow. All times are in milliseconds. -/
structure Backoff where
  firstMs : UInt64
  maxMs : UInt64
  factor : UInt32 := 2
  jitter : Bool := true
  deriving DecidableEq, Repr

/-- Arithmetic on words of 64 bits that stays at the largest word where it would leave the range. -/
def saturate (n : Nat) : UInt64 := if n < 18446744073709551616 then n.toUInt64 else 0xFFFFFFFFFFFFFFFF

/-- A power that stays at the largest word. A base of at least two leaves the range by the 64th
power at the latest, so no larger power has to be computed. -/
def saturatingPow (base : UInt64) (exponent : Nat) : UInt64 :=
  if base.toNat ≤ 1 then (if exponent = 0 then 1 else base)
  else saturate (Nat.pow base.toNat (min exponent 64))

namespace Backoff

/-- The pause after an attempt before anything random is added. There is none before the first. -/
def plain (b : Backoff) (attempt : Nat) : UInt64 :=
  if attempt = 0 then 0
  else
    let multiplier := saturatingPow (max b.factor 1).toUInt64 (attempt - 1)
    min (saturate (b.firstMs.toNat * multiplier.toNat)) b.maxMs

/-- What is added to the pause after an attempt, by a random number. -/
def added (b : Backoff) (attempt : Nat) (draw : Nat) : Nat :=
  let range := (b.plain attempt).toNat / 10
  if b.jitter && 0 < range then draw % range else 0

/-- The pause after an attempt; `draw` is the random number that decides how much is added. There is
none if the sum is no word. -/
def delay (b : Backoff) (attempt : Nat) (draw : Nat) : Option UInt64 :=
  let sum := (b.plain attempt).toNat + b.added attempt draw
  if sum < 18446744073709551616 then some sum.toUInt64 else none

def firstField : Field Nat :=
  { name := "first_ms", read := Decoder.flexibleNatural "u64" Decoder.max64 }

def maxField : Field Nat :=
  { name := "max_ms", read := Decoder.flexibleNatural "u64" Decoder.max64 }

def factorField : Field Nat :=
  { name := "factor", read := Decoder.flexibleNatural "u32" Decoder.max32, fallback := some 2 }

def jitterField : Field Bool :=
  { name := "jitter", read := Decoder.flexibleFlag, fallback := some true }

/-- The form of a backoff. -/
def rule : RecordRule :=
  ⟨"struct BackoffConfig", [firstField.rule, maxField.rule, factorField.rule, jitterField.rule],
    true⟩

/-- Reads a backoff. -/
def ofJson (origin : Origin) : Decoder Backoff := fun j => do
  let entries ← rule.entries origin j
  .ok {
    firstMs := (← firstField.take entries).toUInt64
    maxMs := (← maxField.take entries).toUInt64
    factor := (← factorField.take entries).toUInt32
    jitter := ← jitterField.take entries }

end Backoff

end HttpGateway
