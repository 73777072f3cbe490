import HttpGateway.Unicode.Basic
import HttpGateway.Regex.Syntax

/-!
# Parts of patterns

Readers for the small parts of a pattern: blanks and comments in the extended notation, escapes,
counts, flags and group names. A reader takes the rest of the pattern and gives back what it has
left of it.
-/

namespace HttpGateway.Regex

open HttpGateway.Text (isBlank digit? hexDigit?)

/-- Why a pattern is refused. -/
inductive PatternError where
  | groupUnclosed
  | groupUnopened
  | groupName
  | lookAround
  | operandMissing
  | count
  | classUnclosed
  | classRange
  | classItem
  | escape
  | backreference
  | property
  | flags
  | nesting
  | notText
  | tooLarge
  deriving Repr, DecidableEq

/-- The largest compiled pattern, in bytes. -/
def largestPattern : Nat := 10485760

/-- The report on a refused pattern; of a syntax error only the first line is given. -/
def PatternError.message : PatternError → String
  | .tooLarge => "Compiled regex exceeds size limit of " ++ HttpGateway.Text.decimal largestPattern ++ " bytes."
  | _ => "regex parse error:"

/-- What the flags of a pattern turn on. -/
structure Flags where
  ignoreCase : Bool := false
  multiLine : Bool := false
  dotAll : Bool := false
  swapGreed : Bool := false
  unicode : Bool := true
  crlf : Bool := false
  extended : Bool := false
  deriving Repr, DecidableEq

/-- A reader of a part of a pattern. -/
abbrev Scan (α : Type) := List Char → Except PatternError (α × List Char)

/-- Drops blanks and comments; the flag tells whether the text starts within a comment. -/
def skipBlanks : (inComment : Bool) → List Char → List Char
  | _, [] => []
  | true, c :: rest => skipBlanks (c ≠ '\n') rest
  | false, c :: rest =>
    if isBlank c then skipBlanks false rest
    else if c = '#' then skipBlanks true rest
    else c :: rest

/-- Drops blanks and comments in the extended notation, and nothing otherwise. -/
def skip (f : Flags) (s : List Char) : List Char := if f.extended then skipBlanks false s else s

/-- What one escape or character of a pattern stands for. -/
inductive Atom where
  | char (c : Char)
  | byte (n : Nat)
  | set (s : CharSet)
  | look (l : Look)
  deriving Repr, DecidableEq

/-- The ASCII decimal digits. -/
def asciiDigits : CharSet := [(0x30, 0x39)]

/-- The ASCII characters of words. -/
def asciiWord : CharSet := [(0x30, 0x39), (0x41, 0x5A), (0x5F, 0x5F), (0x61, 0x7A)]

/-- The ASCII blanks. -/
def asciiBlanks : CharSet := [(9, 13), (0x20, 0x20)]

/-- The set of `\d`, `\s` or `\w`, or its complement for the upper-case letters. -/
def letterClass (f : Flags) (c : Char) : CharSet :=
  let base := match c.toLower with
    | 'd' => if f.unicode then Unicode.decimalDigits else asciiDigits
    | 's' => if f.unicode then Unicode.blanks else asciiBlanks
    | _ => if f.unicode then Unicode.wordChars else asciiWord
  if c.isUpper then base.complement else base

/-- The set with its case variants, if case is ignored. -/
def fold (f : Flags) (s : CharSet) : CharSet :=
  if !f.ignoreCase then s
  else if f.unicode then Unicode.foldClosure s else Unicode.foldClosureAscii s

/-- The character with a code point, if there is one. -/
def charOf? (n : Nat) : Option Char := if n.isValidChar then some (Char.ofNat n) else none

/-- Reads the hexadecimal digits of an escape up to a closing brace. -/
def scanHexBraced (f : Flags) : List Char → List Char → Except PatternError (List Char × List Char)
  | acc, '}' :: rest => .ok (acc.reverse, skip f rest)
  | acc, c :: rest =>
    if (hexDigit? c).isSome then scanHexBraced f (c :: acc) rest
    else if f.extended ∧ isBlank c then scanHexBraced f acc rest
    else .error .escape
  | _, [] => .error .escape

/-- Reads a fixed number of hexadecimal digits of an escape. -/
def scanHexFixed (f : Flags) : (count : Nat) → List Char → List Char →
    Except PatternError (List Char × List Char)
  | 0, acc, s => .ok (acc.reverse, skip f s)
  | k + 1, acc, s => match skip f s with
    | c :: rest =>
      if (hexDigit? c).isSome then scanHexFixed f k (c :: acc) rest else .error .escape
    | [] => .error .escape

/-- Reads the rest of `\x`, `\u` or `\U`. -/
def scanHex (f : Flags) (letter : Char) : Scan Atom := fun s => do
  let width := if letter = 'x' then 2 else if letter = 'u' then 4 else 8
  match skip f s with
  | '{' :: rest =>
    let (ds, rest) ← scanHexBraced f [] rest
    if ds.isEmpty then .error .escape
    match charOf? (Unicode.hexNumber ds) with
    | some c => .ok (.char c, rest)
    | none => .error .escape
  | s =>
    let (ds, rest) ← scanHexFixed f width [] s
    let n := Unicode.hexNumber ds
    match charOf? n with
    | some c => .ok (if width = 2 ∧ 127 < n then .byte n else .char c, rest)
    | none => .error .escape

/-- The set of a property, by the text between the braces. -/
def propertySet (text : List Char) : Option (Bool × CharSet) :=
  let rec splitNotEqual : List Char → List Char → Option (List Char × List Char)
    | acc, '!' :: '=' :: rest => some (acc.reverse, rest)
    | acc, c :: rest => splitNotEqual (c :: acc) rest
    | _, [] => none
  match splitNotEqual [] text with
  | some (property, value) => (Unicode.byValue? property value).map fun s => (true, s)
  | none => match (HttpGateway.Text.cut ':' text).or (HttpGateway.Text.cut '=' text) with
    | some (property, value) => (Unicode.byValue? property value).map fun s => (false, s)
    | none => (Unicode.byName? text).map fun s => (false, s)

/-- Reads the name of a property, in braces or of one letter. -/
def scanPropertyText (f : Flags) : Scan (List Char) := fun s =>
  match skip f s with
  | '{' :: rest =>
    match rest.dropWhile (· ≠ '}') with
    | _ :: after =>
      let inner := rest.takeWhile (· ≠ '}')
      .ok (if f.extended then inner.filter fun c => !isBlank c else inner, after)
    | [] => .error .escape
  | '\\' :: _ => .error .property
  | c :: rest => .ok ([c], skip f rest)
  | [] => .error .escape

/-- Reads the rest of `\p` or `\P`. -/
def scanProperty (f : Flags) (letter : Char) : Scan Atom := fun s => do
  let (text, rest) ← scanPropertyText f s
  if !f.unicode then .error .property
  match propertySet text with
  | none => .error .property
  | some (negated, set) =>
    let set := fold f set
    .ok (.set (if negated != (letter == 'P') then set.complement else set), rest)

/-- Reads the braces that may follow `\b`, such as `{start}`. Braces that hold no word are left for
a count. -/
def scanWordKind (f : Flags) : Scan (Option Look) := fun s =>
  match s with
  | '{' :: rest =>
    let inside := skip f rest
    let isKindChar (c : Char) : Bool := c.isAlpha || c = '-'
    match inside with
    | [] => .error .escape
    | c :: _ =>
      if !isKindChar c then .ok (none, s)
      else
        let isPart (c : Char) : Bool := isKindChar c || (f.extended && isBlank c)
        let word := (inside.takeWhile isPart).filter isKindChar
        match String.ofList word, inside.dropWhile isPart with
        | "start", '}' :: rest => .ok (some (.wordStart f.unicode), rest)
        | "end", '}' :: rest => .ok (some (.wordEnd f.unicode), rest)
        | "start-half", '}' :: rest => .ok (some (.wordStartHalf f.unicode), rest)
        | "end-half", '}' :: rest => .ok (some (.wordEndHalf f.unicode), rest)
        | _, _ => .error .escape
  | s => .ok (none, s)

/-- Reads the rest of an escape, after the backslash. -/
def scanEscape (f : Flags) : Scan Atom
  | [] => .error .escape
  | c :: rest =>
    if c.isDigit then .error .backreference
    else match c with
      | 'x' | 'u' | 'U' => scanHex f c rest
      | 'p' | 'P' => scanProperty f c rest
      | 'd' | 's' | 'w' | 'D' | 'S' | 'W' => .ok (.set (letterClass f c), rest)
      | 'a' => .ok (.char '\x07', rest)
      | 'f' => .ok (.char '\x0C', rest)
      | 't' => .ok (.char '\t', rest)
      | 'n' => .ok (.char '\n', rest)
      | 'r' => .ok (.char '\r', rest)
      | 'v' => .ok (.char '\x0B', rest)
      | 'A' => .ok (.look .start, rest)
      | 'z' => .ok (.look .finish, rest)
      | 'B' => .ok (.look (.notWord f.unicode), rest)
      | '<' => .ok (.look (.wordStart f.unicode), rest)
      | '>' => .ok (.look (.wordEnd f.unicode), rest)
      | 'b' => do
        let (kind, rest) ← scanWordKind f rest
        .ok (.look (kind.getD (.word f.unicode)), rest)
      | _ => if c.toNat < 128 ∧ !c.isAlphanum then .ok (.char c, rest) else .error .escape

/-- Reads a decimal number, with blanks around it. -/
def scanDecimal (f : Flags) : Scan Nat := fun s =>
  let s := s.dropWhile isBlank
  let isPart (c : Char) : Bool := c.isDigit || (f.extended && isBlank c)
  let ds := (s.takeWhile isPart).filter Char.isDigit
  let n := ds.foldl (fun acc c => acc * 10 + (digit? c).getD 0) 0
  if ds.isEmpty || 4294967295 < n then .error .count
  else .ok (n, (skip f (s.dropWhile isPart)).dropWhile isBlank)

/-- Reads the rest of a count, after the opening brace: a number, a lower bound with a comma, or both
bounds. -/
def scanCount (f : Flags) : Scan (Nat × Option Nat) := fun s => do
  let (low, rest) ← scanDecimal f (skip f s)
  match rest with
  | ',' :: rest => match skip f rest with
    | '}' :: rest => .ok ((low, none), rest)
    | rest =>
      let (high, rest) ← scanDecimal f rest
      match rest with
      | '}' :: rest => if low ≤ high then .ok ((low, some high), rest) else .error .count
      | _ => .error .count
  | '}' :: rest => .ok ((low, some low), rest)
  | _ => .error .count

/-- Reads flags up to a colon or a closing parenthesis. The answer tells which of the two it was and
whether any flag was given. -/
def scanFlags (outer : Flags) : (seen : List Char) → (negated : Bool) → Flags → Scan (Flags × Bool × Bool)
  | seen, _, f, ':' :: rest => .ok ((f, false, !seen.isEmpty), rest) |> guardDangling seen
  | seen, _, f, ')' :: rest => .ok ((f, true, !seen.isEmpty), rest) |> guardDangling seen
  | seen, negated, f, c :: rest =>
    if seen.contains c then .error .flags
    else match c with
      | '-' => scanFlags outer (c :: seen) true f rest
      | 'i' => scanFlags outer (c :: seen) negated { f with ignoreCase := !negated } rest
      | 'm' => scanFlags outer (c :: seen) negated { f with multiLine := !negated } rest
      | 's' => scanFlags outer (c :: seen) negated { f with dotAll := !negated } rest
      | 'U' => scanFlags outer (c :: seen) negated { f with swapGreed := !negated } rest
      | 'u' => scanFlags outer (c :: seen) negated { f with unicode := !negated } rest
      | 'R' => scanFlags outer (c :: seen) negated { f with crlf := !negated } rest
      | 'x' => scanFlags outer (c :: seen) negated { f with extended := !negated } rest
      | _ => .error .flags
  | _, _, _, [] => .error .flags
where
  /-- A minus sign must have a flag after it. -/
  guardDangling (seen : List Char) (r : Except PatternError ((Flags × Bool × Bool) × List Char)) :
      Except PatternError ((Flags × Bool × Bool) × List Char) :=
    if seen.head? == some '-' then .error .flags else r

/-- A character that may stand in a group name. -/
def isNameChar (first : Bool) (c : Char) : Bool :=
  let letter := c = '_' || (if c.toNat < 128 then c.isAlpha else Unicode.alphabetic.contains c)
  if first then letter
  else letter || c = '.' || c = '[' || c = ']' ||
    (if c.toNat < 128 then c.isDigit
      else ["Nd", "Nl", "No"].any fun k => (Unicode.leafCategory k).contains c)

/-- Reads a group name up to the closing angle bracket. -/
def scanName : Scan String := fun s =>
  let name := s.takeWhile (· ≠ '>')
  match name, s.drop name.length with
  | c :: cs, _ :: rest =>
    if isNameChar true c && cs.all (isNameChar false) then .ok (String.ofList name, rest)
    else .error .groupName
  | _, _ => .error .groupName

end HttpGateway.Regex
