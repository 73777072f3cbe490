import HttpGateway.Dictionary
import HttpGateway.Error
import HttpGateway.Time.Duration

/-!
# Token buckets

A bucket holds tokens up to its capacity and gains them at a steady rate. Each admitted request
takes one; a request that finds less than one is denied. Token counts are fractional, and the rules
are stated for any arithmetic: binary floating-point numbers when the gateway runs, and rational
numbers where exact results are wanted.
-/

namespace HttpGateway

/-- The arithmetic of token counts. -/
class TokenArithmetic (τ : Type) where
  /-- A whole number of tokens. -/
  ofNat : Nat → τ
  add : τ → τ → τ
  sub : τ → τ → τ
  mul : τ → τ → τ
  smaller : τ → τ → τ
  larger : τ → τ → τ
  atMost : τ → τ → Bool
  /-- The largest whole number that is not above. -/
  floor : τ → Int
  /-- The part of a token that a count may lack and still pass for whole. -/
  tolerance : τ
  /-- A span of time in seconds. -/
  seconds : Duration → τ

/-- Exact arithmetic. -/
instance : TokenArithmetic Rat where
  ofNat n := n
  add := (· + ·)
  sub := (· - ·)
  mul := (· * ·)
  smaller a b := if a ≤ b then a else b
  larger a b := if a ≤ b then b else a
  atMost a b := a ≤ b
  floor := Rat.floor
  tolerance := 1 / 1000000
  seconds d := (d.nanos : Rat) / 1000000000

/-- Floating-point arithmetic. Of a number and something that is none, the number is both the
smaller and the larger. -/
instance : TokenArithmetic Float where
  ofNat := Float.ofNat
  add := (· + ·)
  sub := (· - ·)
  mul := (· * ·)
  smaller a b := if a.isNaN then b else if b < a then b else a
  larger a b := if a.isNaN then b else if a < b then b else a
  atMost a b := a ≤ b
  floor x := x.floor.toInt64.toInt
  tolerance := 1e-6
  seconds d := Float.ofNat (d.nanos / 1000000000) + Float.ofNat (d.nanos % 1000000000) / 1e9

/-- A bucket: its tokens, and when they were last counted, in nanoseconds of the clock. -/
structure BucketState (τ : Type) where
  tokens : τ
  lastRefill : Nat
  deriving Repr, DecidableEq

/-- The answer to a request for a token: whether it is granted, and the whole tokens left. -/
structure Verdict where
  allowed : Bool
  remaining : Int
  deriving Repr, DecidableEq

namespace Bucket

variable {τ : Type} [TokenArithmetic τ]

open TokenArithmetic

/-- The tokens in a bucket at a moment: it starts full, and overflows at its capacity. -/
def filled (previous : Option (BucketState τ)) (now rate burst : Nat) : τ :=
  match previous with
  | none => ofNat burst
  | some state =>
    let elapsed : τ := seconds ⟨now - state.lastRefill⟩
    smaller (add state.tokens (mul elapsed (ofNat rate))) (ofNat burst)

/-- Asks a bucket for a token. -/
def take (previous : Option (BucketState τ)) (now rate burst : Nat) : BucketState τ × Verdict :=
  let tokens := filled previous now rate burst
  if atMost (ofNat 1) (add tokens tolerance) then
    let left := larger (sub tokens (ofNat 1)) (ofNat 0)
    (⟨left, now⟩, ⟨true, floor (add left tolerance)⟩)
  else (⟨larger tokens (ofNat 0), now⟩, ⟨false, floor (sub tokens (ofNat 1))⟩)

end Bucket

/-- Buckets by name. -/
abbrev BucketStore (τ : Type) := Dictionary (BucketState τ)

namespace BucketStore

variable {τ : Type}

/-- What is done to one bucket: from what it was, if it existed, to what it becomes. -/
abbrev Update (τ : Type) := Option (BucketState τ) → BucketState τ × Verdict

/-- Updates a bucket that exists. -/
def updateExisting? (store : BucketStore τ) (name : String) (update : Update τ) :
    Option (BucketStore τ × Verdict) :=
  (store.get? name).map fun state =>
    let (next, verdict) := update (some state)
    (store.insert name next, verdict)

/-- Updates a bucket, or makes it if it does not exist. -/
def updateOrCreate (store : BucketStore τ) (name : String) (update : Update τ) :
    BucketStore τ × Verdict :=
  let (next, verdict) := update (store.get? name)
  (store.insert name next, verdict)

/-- Updates a bucket: first as one that exists, and if it does not, as one to be made. Another
request may have made it in between. -/
def modify (store : BucketStore τ) (name : String) (update : Update τ) : BucketStore τ × Verdict :=
  (store.updateExisting? name update).getD (store.updateOrCreate name update)

end BucketStore

/-- A limiter of requests: buckets in memory, or one that is out of order and always fails with the
same text. -/
inductive RateLimiter (τ : Type) where
  | buckets (store : BucketStore τ)
  | failing (reason : String)

namespace RateLimiter

/-- A request for a token: when it is made, for which bucket, and what this gains and holds. -/
structure Check where
  now : Nat
  name : String
  rate : Nat
  burst : Nat
  deriving DecidableEq, Repr

variable {τ : Type} [TokenArithmetic τ]

/-- A limiter without any buckets yet. -/
def empty : RateLimiter τ := .buckets []

/-- Asks for a token from the bucket of a name. -/
def check (limiter : RateLimiter τ) (now : Nat) (name : String) (rate burst : Nat) :
    Except GatewayError Verdict × RateLimiter τ :=
  match limiter with
  | .failing reason => (.error (.rateLimiter reason), limiter)
  | .buckets store =>
    if burst = 0 then
      (.error (.rateLimiter ("burst capacity for " ++ ticked name ++ " must be at least 1")), limiter)
    else
      let (store, verdict) := store.modify name fun previous => Bucket.take previous now rate burst
      (.ok verdict, .buckets store)

/-- The limiter after requests for tokens that have been made one after the other. -/
def afterAll (limiter : RateLimiter τ) (checks : List Check) : RateLimiter τ :=
  checks.foldl (fun l c => (l.check c.now c.name c.rate c.burst).2) limiter

end RateLimiter

end HttpGateway
