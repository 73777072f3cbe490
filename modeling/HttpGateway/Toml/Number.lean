import HttpGateway.Text.Decimal
import HttpGateway.Toml.Text

/-!
# Numbers of a document

Whole numbers in four bases, fractional numbers, and the words for what is no finite number. Between
two digits an underscore may stand.
-/

namespace HttpGateway.Toml

/-- Reads digits after the first one. The answer holds their values. -/
def moreDigits (digit? : Char → Option Nat) : Scan (List Nat)
  | [] => some ([], [])
  | '_' :: rest => match rest with
    | [] => none
    | c :: rest => (digit? c).bind fun d =>
      (moreDigits digit? rest).map fun (ds, rest) => (d :: ds, rest)
  | c :: rest => match digit? c with
    | some d => (moreDigits digit? rest).map fun (ds, rest) => (d :: ds, rest)
    | none => some ([], c :: rest)

/-- Reads at least one digit. -/
def someDigits (digit? : Char → Option Nat) : Scan (List Nat)
  | [] => none
  | c :: rest => (digit? c).bind fun d =>
    (moreDigits digit? rest).map fun (ds, rest) => (d :: ds, rest)

/-- Reads the digits of a decimal number before its point: nothing follows a zero at their start. -/
def leadingDigits : Scan (List Nat)
  | '0' :: rest => some ([0], rest)
  | s => someDigits Text.digit? s

/-- The number with the given digits. -/
def numberOf (base : Nat) (digits : List Nat) : Nat := digits.foldl (fun acc d => acc * base + d) 0

/-- The whole numbers of 64 bits. -/
def wholeNumber? (n : Int) : Option Json :=
  if -9223372036854775808 ≤ n ∧ n ≤ 9223372036854775807 then some (.int n) else none

/-- A number with a sign. -/
def signed (negative : Bool) (n : Nat) : Int := if negative then -(n : Int) else n

/-- The value of a digit below eight, or below two. -/
def digitBelow? (bound : Nat) (c : Char) : Option Nat := (Text.digit? c).filter (· < bound)

/-- Reads a number in base sixteen, eight or two, behind its mark. -/
def basedNumber (base : Nat) (digit? : Char → Option Nat) : Scan Json := fun s => do
  let (ds, rest) ← someDigits digit? s
  some (← wholeNumber? (numberOf base ds), rest)

/-- Reads an optional sign; the answer tells whether it is a minus. -/
def sign : List Char → Bool × List Char
  | '-' :: rest => (true, rest)
  | '+' :: rest => (false, rest)
  | s => (false, s)

/-- Reads the exponent of a fractional number, if there is one. -/
def exponent : Scan (Option Int)
  | c :: rest =>
    if c = 'e' ∨ c = 'E' then do
      let (negative, rest) := sign rest
      let (ds, rest) ← someDigits Text.digit? rest
      some (some (signed negative (numberOf 10 ds)), rest)
    else some (none, c :: rest)
  | [] => some (none, [])

/-- Reads the digits after a point, if there is one. -/
def fraction : Scan (Option (List Nat))
  | '.' :: rest => (someDigits Text.digit? rest).map fun (ds, rest) => (some ds, rest)
  | s => some (none, s)

/-- A fractional number. One that is too large is refused if it is positive. -/
def fractional? (negative : Bool) (digits : List Nat) (exponent : Int) : Option Json :=
  let x := Text.nearestFloat (numberOf 10 digits) exponent
  if negative then some (.float (-x)) else if x.isInf then none else some (.float x)

/-- Reads a decimal number behind its sign. -/
def decimalNumber (negative : Bool) : Scan Json := fun s => do
  let (whole, rest) ← leadingDigits s
  let (parts, rest) ← fraction rest
  let (power, rest) ← exponent rest
  match parts, power with
  | none, none => some (← wholeNumber? (signed negative (numberOf 10 whole)), rest)
  | _, _ =>
    let ds := parts.getD []
    some (← fractional? negative (whole ++ ds) (power.getD 0 - ds.length), rest)

/-- The words for an infinite number, and for none, behind their sign. -/
def notFinite (negative : Bool) : Scan Json
  | 'i' :: 'n' :: 'f' :: rest => some (.float ((if negative then -1.0 else 1.0) / 0.0), rest)
  | 'n' :: 'a' :: 'n' :: rest => some (.float (0.0 / 0.0), rest)
  | _ => none

/-- Reads a number. -/
def number : Scan Json
  | '0' :: 'x' :: rest => basedNumber 16 Text.hexDigit? rest
  | '0' :: 'o' :: rest => basedNumber 8 (digitBelow? 8) rest
  | '0' :: 'b' :: rest => basedNumber 2 (digitBelow? 2) rest
  | s =>
    let (negative, rest) := sign s
    (notFinite negative rest).or (decimalNumber negative rest)

end HttpGateway.Toml
