import HttpGateway.Json.Basic
import HttpGateway.Text.Decimal

/-!
# Structured values as text

Writing structured values as text, and reading them back. A number without a point and an exponent
is whole as long as it fits 64 bits. A text that nests arrays and objects too deeply is not read.
-/

namespace HttpGateway.Json

/-- One character of a quoted text. -/
def quoteChar (c : Char) : List Char :=
  if c = '"' then ['\\', '"']
  else if c = '\\' then ['\\', '\\']
  else if c = '\x08' then ['\\', 'b']
  else if c = '\t' then ['\\', 't']
  else if c = '\n' then ['\\', 'n']
  else if c = '\x0c' then ['\\', 'f']
  else if c = '\r' then ['\\', 'r']
  else if c.toNat < 32 then
    ['\\', 'u', '0', '0', Nat.digitChar (c.toNat / 16), Nat.digitChar (c.toNat % 16)]
  else [c]

/-- A text between quotes. -/
def quote (s : String) : String := String.ofList ('"' :: s.toList.flatMap quoteChar ++ ['"'])

mutual

/-- The text of a value. A number that is not finite has none of its own. -/
def render : Json → String
  | .null => "null"
  | .bool b => if b then "true" else "false"
  | .int n => Text.signedDecimal n
  | .float x => if x.isFinite then floatText x else "null"
  | .str s => quote s
  | .arr items => "[" ++ renderItems items ++ "]"
  | .obj fields => "\x7b" ++ renderFields fields ++ "\x7d"

/-- The text of the items of an array. -/
def renderItems : List Json → String
  | [] => ""
  | [j] => j.render
  | j :: rest => j.render ++ "," ++ renderItems rest

/-- The text of the fields of an object. -/
def renderFields : List (String × Json) → String
  | [] => ""
  | [(key, j)] => quote key ++ ":" ++ j.render
  | (key, j) :: rest => quote key ++ ":" ++ j.render ++ "," ++ renderFields rest

end

/-- Skips blanks and line ends. -/
def skipBlanks (s : List Char) : List Char := s.dropWhile fun c => c = ' ' || c = '\t' || c = '\n' || c = '\r'

/-- Reads four hexadecimal digits. -/
def hexWord (s : List Char) : Option (Nat × List Char) :=
  match (s.take 4).mapM Text.hexDigit? with
  | some [a, b, c, d] => some (((a * 16 + b) * 16 + c) * 16 + d, s.drop 4)
  | _ => none

/-- Reads the character behind the mark for a numbered one. Two halves make up a character above
U+FFFF. -/
def numbered (s : List Char) : Option (Char × List Char) :=
  match hexWord s with
  | none => none
  | some (n, rest) =>
    if n < 0xD800 ∨ 0xE000 ≤ n then some (Char.ofNat n, rest)
    else match rest with
      | '\\' :: 'u' :: more => match hexWord more with
        | some (m, rest) =>
          if n < 0xDC00 ∧ 0xDC00 ≤ m ∧ m < 0xE000 then
            some (Char.ofNat (0x10000 + (n - 0xD800) * 0x400 + (m - 0xDC00)), rest)
          else none
        | none => none
      | _ => none

/-- Reads the character behind a backslash. -/
def escaped : List Char → Option (Char × List Char)
  | 'b' :: rest => some ('\x08', rest)
  | 'f' :: rest => some ('\x0c', rest)
  | 'n' :: rest => some ('\n', rest)
  | 'r' :: rest => some ('\r', rest)
  | 't' :: rest => some ('\t', rest)
  | 'u' :: rest => numbered rest
  | c :: rest => if c = '"' ∨ c = '\\' ∨ c = '/' then some (c, rest) else none
  | [] => none

/-- Reads a quoted text up to its closing quote; `acc` holds what has been read, last first. -/
def readString : (fuel : Nat) → (acc : List Char) → List Char → Option (String × List Char)
  | 0, _, _ => none
  | _ + 1, _, [] => none
  | fuel + 1, acc, c :: rest =>
    if c = '"' then some (String.ofList acc.reverse, rest)
    else if c = '\\' then match escaped rest with
      | some (c, rest) => readString fuel (c :: acc) rest
      | none => none
    else if c.toNat < 32 then none
    else readString fuel (c :: acc) rest

/-- The largest number that the digits of a number are added up to. -/
def largestWord : Nat := 18446744073709551615

/-- Adds digits to a number as long as it stays a word of 64 bits. The answer holds the number, how
many digits it took, and the digits it did not take. -/
def addDigits (n taken : Nat) : List Char → Nat × Nat × List Char
  | [] => (n, taken, [])
  | c :: rest =>
    let next := n * 10 + (c.toNat - '0'.toNat)
    if largestWord < next then (n, taken, c :: rest) else addDigits next (taken + 1) rest

/-- Takes off the sign of an exponent, and tells whether it is a minus sign. -/
def takeSign : List Char → Bool × List Char
  | '-' :: rest => (true, rest)
  | '+' :: rest => (false, rest)
  | rest => (false, rest)

/-- Reads the exponent of a number, if there is one. -/
def readExponent (s : List Char) : Option (Option Int × List Char) :=
  match s with
  | c :: rest =>
    if c = 'e' ∨ c = 'E' then
      let (negative, rest) := takeSign rest
      let ds := rest.takeWhile Char.isDigit
      if ds.isEmpty then none
      else
        let n : Int := ds.foldl (fun acc c => acc * 10 + (c.toNat - '0'.toNat)) 0
        some (some (if negative then -n else n), rest.dropWhile Char.isDigit)
    else some (none, s)
  | [] => some (none, [])

/-- Reads the digits behind a point, if there is one. -/
def readFraction (s : List Char) : Option (Option (List Char) × List Char) :=
  match s with
  | '.' :: rest =>
    let ds := rest.takeWhile Char.isDigit
    if ds.isEmpty then none else some (some ds, rest.dropWhile Char.isDigit)
  | s => some (none, s)

/-- The fractional number `n · 10 ^ exponent`, unless it is too large. -/
def fractional (negative : Bool) (n : Nat) (exponent : Int) : Option Json :=
  let x := Text.scaledFloat n exponent
  if x.isInf then none else some (.float (if negative then -x else x))

/-- The number with these digits before and behind the point and this power of ten. -/
def numberOf (negative : Bool) (whole : List Char) (parts : Option (List Char))
    (power : Option Int) : Option Json :=
  let (n, _, left) := addDigits 0 0 whole
  if parts.isNone && power.isNone && left.isEmpty then
    if !negative then some (.int n)
    else if n ≠ 0 ∧ n ≤ 9223372036854775808 then some (.int (-(n : Int)))
    else fractional negative n 0
  else
    let (n, taken, _) := addDigits n 0 (parts.getD [])
    fractional negative n (left.length - taken + power.getD 0)

/-- Reads a number behind its sign. -/
def readNumber (negative : Bool) (s : List Char) : Option (Json × List Char) :=
  let whole := s.takeWhile Char.isDigit
  if whole.isEmpty || (whole.head? = some '0' && 1 < whole.length) then none
  else match readFraction (s.dropWhile Char.isDigit) with
    | none => none
    | some (parts, rest) => match readExponent rest with
      | none => none
      | some (power, rest) => (numberOf negative whole parts power).map (·, rest)

/-- How many arrays and objects may lie in one another in a text. -/
def deepest : Nat := 127

mutual

/-- Reads a value in which so many arrays and objects may lie in one another. -/
def readValue : (room fuel : Nat) → List Char → Option (Json × List Char)
  | _, 0, _ => none
  | room, fuel + 1, s => match skipBlanks s with
    | 'n' :: 'u' :: 'l' :: 'l' :: rest => some (.null, rest)
    | 't' :: 'r' :: 'u' :: 'e' :: rest => some (.bool true, rest)
    | 'f' :: 'a' :: 'l' :: 's' :: 'e' :: rest => some (.bool false, rest)
    | '"' :: rest => (readString (rest.length + 1) [] rest).map fun (t, rest) => (.str t, rest)
    | '[' :: rest => match room with
      | 0 => none
      | room + 1 => match skipBlanks rest with
        | ']' :: rest => some (.arr [], rest)
        | rest => (readItems room fuel rest).map fun (js, rest) => (.arr js, rest)
    | '\x7b' :: rest => match room with
      | 0 => none
      | room + 1 => match skipBlanks rest with
        | '\x7d' :: rest => some (.object [], rest)
        | rest => (readMembers room fuel rest).map fun (fs, rest) => (.object fs, rest)
    | '-' :: rest => readNumber true rest
    | rest => readNumber false rest

/-- Reads the items of an array and its closing bracket. -/
def readItems : (room fuel : Nat) → List Char → Option (List Json × List Char)
  | _, 0, _ => none
  | room, fuel + 1, s => do
    let (j, rest) ← readValue room fuel s
    match skipBlanks rest with
    | ',' :: rest =>
      let (js, rest) ← readItems room fuel rest
      some (j :: js, rest)
    | ']' :: rest => some ([j], rest)
    | _ => none

/-- Reads the fields of an object and its closing brace. -/
def readMembers : (room fuel : Nat) → List Char → Option (List (String × Json) × List Char)
  | _, 0, _ => none
  | room, fuel + 1, s => match skipBlanks s with
    | '"' :: rest => do
      let (name, rest) ← readString (rest.length + 1) [] rest
      match skipBlanks rest with
      | ':' :: rest => do
        let (j, rest) ← readValue room fuel rest
        match skipBlanks rest with
        | ',' :: rest =>
          let (fs, rest) ← readMembers room fuel rest
          some ((name, j) :: fs, rest)
        | '\x7d' :: rest => some ([(name, j)], rest)
        | _ => none
      | _ => none
    | _ => none

end

/-- Reads a text that holds one value and nothing else. -/
def parse? (text : String) : Option Json :=
  let s := text.toList
  match readValue deepest (2 * s.length + 2) s with
  | some (j, rest) => if (skipBlanks rest).isEmpty then some j else none
  | none => none

end HttpGateway.Json
