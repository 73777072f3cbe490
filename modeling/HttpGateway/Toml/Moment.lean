import HttpGateway.Time.Timestamp
import HttpGateway.Toml.Text

/-!
# Dates and times of a document

A date, a time of day, or both with or without an offset. A structured value has no dates, so they
become objects with their text, in one form, under a key of its own.
-/

namespace HttpGateway.Toml

/-- Reads a number of the given number of digits between two bounds. -/
def paddedNumber (count low high : Nat) : Scan Nat := fun s => do
  let ds ← (s.take count).mapM Text.digit?
  let n := ds.foldl (fun acc d => acc * 10 + d) 0
  if ds.length = count ∧ low ≤ n ∧ n ≤ high then some (n, s.drop count) else none

/-- Skips a character that must be there. -/
def expect (c : Char) : List Char → Option (List Char)
  | [] => none
  | d :: rest => if d = c then some rest else none

/-- A number with zeros before it up to a number of digits. -/
def padded (count n : Nat) : String :=
  let ds := Nat.toDigits 10 n
  String.ofList (List.replicate (count - ds.length) '0' ++ ds)

/-- Reads a date. The answer is its text. -/
def date : Scan String := fun s => do
  let (year, rest) ← paddedNumber 4 0 9999 s
  let (month, rest) ← paddedNumber 2 1 12 (← expect '-' rest)
  let (day, rest) ← paddedNumber 2 1 (Timestamp.daysInMonth year month) (← expect '-' rest)
  some (padded 4 year ++ "-" ++ padded 2 month ++ "-" ++ padded 2 day, rest)

/-- Reads a fraction of a second, if there is one: digits past the ninth are dropped, and so are
zeros at the end. -/
def secondFraction : List Char → String × List Char
  | '.' :: rest =>
    let ds := rest.takeWhile Char.isDigit
    if ds.isEmpty then ("", '.' :: rest)
    else
      let kept := ((ds.take 9).reverse.dropWhile (· = '0')).reverse
      ((if kept.isEmpty then "" else "." ++ String.ofList kept), rest.dropWhile Char.isDigit)
  | s => ("", s)

/-- Reads a time of day. The answer is its text. -/
def timeOfDay : Scan String := fun s => do
  let (hour, rest) ← paddedNumber 2 0 23 s
  let (minute, rest) ← paddedNumber 2 0 59 (← expect ':' rest)
  let (second, rest) ← paddedNumber 2 0 60 (← expect ':' rest)
  let (part, rest) := secondFraction rest
  some (padded 2 hour ++ ":" ++ padded 2 minute ++ ":" ++ padded 2 second ++ part, rest)

/-- Reads an offset, if there is one. The answer is its text, and an offset of nothing is
positive. -/
def offset : Scan String
  | [] => some ("", [])
  | c :: rest =>
    if c = 'Z' ∨ c = 'z' then some ("Z", rest)
    else if c = '+' ∨ c = '-' then do
      let (hours, rest) ← paddedNumber 2 0 23 rest
      let (minutes, rest) ← paddedNumber 2 0 59 (← expect ':' rest)
      let mark := if c = '-' ∧ hours + minutes ≠ 0 then "-" else "+"
      some (mark ++ padded 2 hours ++ ":" ++ padded 2 minutes, rest)
    else some ("", c :: rest)

/-- Whether a time of day begins here: two digits and a colon. -/
def startsTime (s : List Char) : Bool :=
  (s.take 2).all Char.isDigit && (s.drop 2).head? = some ':'

/-- Whether a date begins here: four digits and a hyphen. -/
def startsDate (s : List Char) : Bool :=
  (s.take 4).all Char.isDigit && (s.drop 4).head? = some '-'

/-- Reads a date, and the time and offset after it if there are any. -/
def dateAndTime : Scan String := fun s => do
  let (day, rest) ← date s
  match rest with
  | c :: more =>
    if (c = 'T' ∨ c = 't' ∨ c = ' ') ∧ startsTime more then do
      let (time, rest) ← timeOfDay more
      let (zone, rest) ← offset rest
      some (day ++ "T" ++ time ++ zone, rest)
    else some (day, rest)
  | [] => some (day, [])

/-- The key under which the text of a date or time stands. -/
def momentKey : String := "$__toml_private_datetime"

/-- The object of a date or time. -/
def momentJson (r : Option (String × List Char)) : Option (Json × List Char) :=
  r.map fun (text, rest) => (.object [(momentKey, .str text)], rest)

end HttpGateway.Toml
