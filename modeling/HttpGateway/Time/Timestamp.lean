import HttpGateway.Text.Number
import HttpGateway.Text.Utf8

/-!
# Timestamps

Points in time as RFC 3339 writes them: a date, a time of day with an optional fraction, and an
offset from UTC. A leap second is the last second of its minute with a nanosecond count of a
thousand million or more, and it comes before the next second begins.
-/

namespace HttpGateway

/-- A point in time: whole seconds since the start of 1970 in UTC, the nanoseconds within the
second, and the offset in seconds of the clock it was written for. -/
structure Timestamp where
  seconds : Int
  nanos : Nat
  offset : Int
  deriving Repr, DecidableEq

/-- Why a text is no timestamp. -/
inductive TimestampError where
  | outOfRange
  | invalid
  | tooShort
  | tooLong
  deriving Repr, DecidableEq

/-- The wording of each cause. -/
def TimestampError.message : TimestampError → String
  | .outOfRange => "input is out of range"
  | .invalid => "input contains invalid characters"
  | .tooShort => "premature end of input"
  | .tooLong => "trailing input"

namespace Timestamp

/-- The earlier point in time, whatever the offsets. -/
def before (a b : Timestamp) : Bool :=
  a.seconds < b.seconds || (a.seconds == b.seconds && a.nanos < b.nanos)

/-- Whether a year of the Gregorian calendar has a 29 February. -/
def isLeapYear (y : Nat) : Bool := y % 4 == 0 && (y % 100 != 0 || y % 400 == 0)

/-- The days of a month. -/
def daysInMonth (y m : Nat) : Nat :=
  match m with
  | 1 | 3 | 5 | 7 | 8 | 10 | 12 => 31
  | 4 | 6 | 9 | 11 => 30
  | 2 => if isLeapYear y then 29 else 28
  | _ => 0

/-- The days from the start of year 0 to the start of a year. -/
def daysBeforeYear (y : Nat) : Nat :=
  365 * y + (y + 3) / 4 - (y + 99) / 100 + (y + 399) / 400

/-- The days from the start of 1970 to a date. -/
def dayNumber (y m d : Nat) : Int :=
  let months := (List.range (m - 1)).foldl (fun days i => days + daysInMonth y (i + 1)) 0
  (daysBeforeYear y + months + (d - 1) : Nat) - (daysBeforeYear 1970 : Int)

/-- A number of exactly `count` digits at a place in a text. -/
def digitsAt (s : Array Char) (place count : Nat) : Except TimestampError Nat :=
  (List.range count).foldlM
    (fun acc i => match (s[place + i]?).bind Text.digit? with
      | some d => .ok (acc * 10 + d)
      | none => .error .invalid) 0

/-- A separator that must stand at a place in a text. -/
def separatorAt (s : Array Char) (place : Nat) (allowed : List Char) : Except TimestampError Unit :=
  match s[place]? with
  | some c => if allowed.contains c then .ok () else .error .invalid
  | none => .error .invalid

/-- Reads the digits of a fraction as nanoseconds; digits past the ninth are dropped. -/
def readFraction (s : List Char) : Except TimestampError (Nat × List Char) :=
  let ds := s.takeWhile fun c => (Text.digit? c).isSome
  match s, ds with
  | [], _ => .error .tooShort
  | _, [] => .error .invalid
  | _, _ =>
    let kept := ds.take 9
    let value := kept.foldl (fun acc c => acc * 10 + (Text.digit? c).getD 0) 0
    .ok (value * Nat.pow 10 (9 - kept.length), s.drop ds.length)

/-- Reads two digits. -/
def readPair : List Char → Except TimestampError (Nat × List Char)
  | a :: b :: rest => match Text.digit? a, Text.digit? b with
    | some x, some y => .ok (x * 10 + y, rest)
    | _, _ => .error .invalid
  | s => if Utf8.size s < 2 then .error .tooShort else .error .invalid

/-- Reads an offset in seconds: `Z`, or a sign, hours, a colon and minutes. -/
def readOffset : List Char → Except TimestampError (Int × List Char)
  | [] => .error .tooShort
  | c :: rest =>
    if c = 'Z' ∨ c = 'z' then .ok (0, rest)
    else if c = '+' ∨ c = '-' ∨ c = '−' then do
      let (hours, rest) ← readPair rest
      let rest ← match rest with
        | ':' :: rest => .ok rest
        | [] => .error .tooShort
        | _ => .error .invalid
      let (minutes, rest) ← readPair rest
      if 60 ≤ minutes then .error .outOfRange
      let total : Int := hours * 3600 + minutes * 60
      .ok (if c = '+' then total else -total, rest)
    else .error .invalid

/-- The number of characters up to the seconds. -/
def fixedLength : Nat := 19

/-- Reads a timestamp. -/
def parse (text : String) : Except TimestampError Timestamp := do
  let cs := text.toList
  if Utf8.size cs < fixedLength then .error .tooShort
  let s := cs.toArray
  let year ← digitsAt s 0 4
  separatorAt s 4 ['-']
  let month ← digitsAt s 5 2
  separatorAt s 7 ['-']
  let day ← digitsAt s 8 2
  if month = 0 ∨ 12 < month ∨ day = 0 ∨ daysInMonth year month < day then .error .outOfRange
  separatorAt s 10 ['t', 'T', ' ']
  let hour ← digitsAt s 11 2
  separatorAt s 13 [':']
  let minute ← digitsAt s 14 2
  separatorAt s 16 [':']
  let second ← digitsAt s 17 2
  let rest := cs.drop fixedLength
  let (fraction, rest) ← match rest with
    | '.' :: rest => readFraction rest
    | _ => .ok (0, rest)
  if 24 ≤ hour ∨ 60 ≤ minute ∨ 60 < second then .error .outOfRange
  let (offset, rest) ← readOffset rest
  if !rest.isEmpty then .error .tooLong
  if 86400 ≤ offset.natAbs then .error .outOfRange
  let leap := second = 60
  let inDay : Int := hour * 3600 + minute * 60 + (if leap then 59 else second : Nat)
  .ok { seconds := dayNumber year month day * 86400 + inDay - offset
        nanos := fraction + (if leap then 1000000000 else 0)
        offset := offset }

/-- Days to the year, month and day they fall on, counted from the start of year 0. -/
def dateOfDays (days : Nat) : Nat × Nat × Nat :=
  let guess := days / 366
  let years := (List.range 30).map fun i => guess + i
  let year := (years.filter fun y => daysBeforeYear y ≤ days).getLastD guess
  let inYear := days - daysBeforeYear year
  let (month, day) := (List.range 11).foldl
    (fun (m, d) _ => if daysInMonth year m ≤ d then (m + 1, d - daysInMonth year m) else (m, d))
    (1, inYear)
  (year, month, day + 1)

/-- A number in at least `width` digits. -/
def padded (width n : Nat) : String :=
  let ds := Nat.toDigits 10 n
  String.ofList (List.replicate (width - ds.length) '0' ++ ds)

/-- The text of a fraction in three, six or nine digits. -/
def fractionText (nanos : Nat) : String :=
  if nanos = 0 then ""
  else if nanos % 1000000 = 0 then "." ++ padded 3 (nanos / 1000000)
  else if nanos % 1000 = 0 then "." ++ padded 6 (nanos / 1000)
  else "." ++ padded 9 nanos

/-- The text of a timestamp on the clock it was written for. -/
def render (t : Timestamp) : String :=
  let fromZero := (t.seconds + t.offset + daysBeforeYear 1970 * 86400).toNat
  let (y, m, d) := dateOfDays (fromZero / 86400)
  let s := fromZero % 86400
  let leap := 1000000000 ≤ t.nanos
  let second := s % 60 + (if leap then 1 else 0)
  let nanos := if leap then t.nanos - 1000000000 else t.nanos
  let off := t.offset.natAbs
  padded 4 y ++ "-" ++ padded 2 m ++ "-" ++ padded 2 d ++ " " ++ padded 2 (s / 3600) ++ ":" ++
    padded 2 (s / 60 % 60) ++ ":" ++ padded 2 second ++ fractionText nanos ++ " " ++
    (if t.offset < 0 then "-" else "+") ++ padded 2 (off / 3600) ++ ":" ++ padded 2 (off / 60 % 60)

end Timestamp

end HttpGateway
