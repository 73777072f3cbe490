/-!
# Numbers as text

Decimal texts: reading a natural number below a bound, with the cause when that fails, and reading
the words `true` and `false`.
-/

namespace HttpGateway

/-- Why a text is not a number or truth value. -/
inductive NumberError where
  | empty
  | invalidDigit
  | tooLarge
  | notBool
  deriving DecidableEq, Repr

/-- The wording of each cause. -/
def NumberError.message : NumberError → String
  | .empty => "cannot parse integer from empty string"
  | .invalidDigit => "invalid digit found in string"
  | .tooLarge => "number too large to fit in target type"
  | .notBool => "provided string was not \x60true\x60 or \x60false\x60"

namespace Text

/-- The value of a decimal digit. -/
def digit? (c : Char) : Option Nat :=
  if '0' ≤ c ∧ c ≤ '9' then some (c.toNat - '0'.toNat) else none

/-- The value of a hexadecimal digit of either case. -/
def hexDigit? (c : Char) : Option Nat :=
  if '0' ≤ c ∧ c ≤ '9' then some (c.toNat - '0'.toNat)
  else if 'a' ≤ c ∧ c ≤ 'f' then some (c.toNat - 'a'.toNat + 10)
  else if 'A' ≤ c ∧ c ≤ 'F' then some (c.toNat - 'A'.toNat + 10)
  else none

/-- Reads digits onto `acc`, refusing a number above `max` as soon as it shows. -/
def digits (max acc : Nat) : List Char → Except NumberError Nat
  | [] => .ok acc
  | c :: rest =>
    match digit? c with
    | none => .error .invalidDigit
    | some d => if acc * 10 + d ≤ max then digits max (acc * 10 + d) rest else .error .tooLarge

/-- Reads a natural number of at most `max`: digits, with at most one plus sign before them. -/
def natural (max : Nat) : List Char → Except NumberError Nat
  | [] => .error .empty
  | ['+'] => .error .invalidDigit
  | '+' :: rest => digits max 0 rest
  | s => digits max 0 s

/-- Reads `true` or `false`. -/
def truth (s : String) : Except NumberError Bool :=
  if s = "true" then .ok true else if s = "false" then .ok false else .error .notBool

/-- The decimal digits of a natural number. -/
def decimal (n : Nat) : String := String.ofList (Nat.toDigits 10 n)

/-- The decimal digits of an integer, with a minus sign if it is negative. -/
def signedDecimal (n : Int) : String :=
  if n < 0 then "-" ++ decimal n.natAbs else decimal n.natAbs

end Text

end HttpGateway
