import HttpGateway.Text.Number
import HttpGateway.Text.Utf8

/-!
# Hexadecimal texts

Bytes and numbers written with two or a fixed number of hexadecimal digits.
-/

namespace HttpGateway.Hex

/-- The lowest `count` hexadecimal digits of a number, in lower case. -/
def digits (count n : Nat) : List Char :=
  (List.range count).reverse.map fun i => Nat.digitChar (n / Nat.pow 16 i % 16)

/-- Two digits for each byte. -/
def encode (bs : Bytes) : List Char := bs.flatMap fun b => digits 2 b.toNat

/-- Reads pairs of digits as bytes. -/
def decode? : List Char → Option Bytes
  | [] => some []
  | [_] => none
  | a :: b :: rest => do
    let high ← Text.hexDigit? a
    let low ← Text.hexDigit? b
    some ((high * 16 + low).toUInt8 :: (← decode? rest))

/-- Reads digits as a number. -/
def number? (s : List Char) : Option Nat :=
  (s.mapM Text.hexDigit?).map fun ds => ds.foldl (fun acc d => acc * 16 + d) 0

end HttpGateway.Hex
