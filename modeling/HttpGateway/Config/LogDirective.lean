import HttpGateway.Regex.Basic
import HttpGateway.Unicode.Basic

/-!
# Log levels

What a log level setting may say: directives between commas, each a level, or a target, a span in
brackets or both, with a level after an equals sign. A span may name fields in braces, with values
that are patterns.
-/

namespace HttpGateway.LogDirective

/-- The names of the levels. -/
def levelNames : List String := ["error", "warn", "info", "debug", "trace", "off"]

/-- Whether a text is a level: a name in any case, a number up to five, or nothing. -/
def isLevel (s : List Char) : Bool :=
  match Text.natural 18446744073709551615 s with
  | .ok n => n ≤ 5
  | .error _ => s.isEmpty || levelNames.any fun name => Text.sameIgnoringCase name.toList s

/-- How far a directive has been read. Places are counted in characters of the directive without the
blanks around it. -/
inductive Progress where
  | start
  | levelOrTarget
  | span
  | field (start : Nat)
  | fields
  | target
  | level (start : Nat)
  deriving DecidableEq, Repr

/-- Letters and digits of all scripts. -/
def isAlphanumeric (c : Char) : Bool :=
  c.isAlphanum || (128 ≤ c.toNat &&
    (Unicode.alphabetic.contains c ||
      ["Nd", "Nl", "No"].any fun n => (Unicode.leafCategory n).contains c))

/-- The text of a directive between two places. -/
def slice (text : List Char) (start stop : Nat) : List Char := (text.take stop).drop start

/-- Whether a field may be asked for: it has a value that is a truth value, a number or a pattern,
or no value at all. -/
def isField (s : List Char) : Bool :=
  if s.isEmpty then false
  else match Text.pieces '=' s with
    | _ :: value :: _ => (Regex.compile (String.ofList value)).toBool
    | _ => true

/-- Reads one character, at the given place. -/
def step (text : List Char) (place : Nat) (p : Progress) (c : Char) : Option Progress :=
  match p, c with
  | .start, '[' => some .span
  | .start, c =>
    if c = '-' || c = ':' || c = '_' || isAlphanumeric c then some .levelOrTarget else none
  | .levelOrTarget, '=' => some (.level (place + 1))
  | .levelOrTarget, '[' => some .span
  | .levelOrTarget, _ => some .levelOrTarget
  | .target, '=' => some (.level (place + 1))
  | .target, _ => none
  | .span, ']' => some .target
  | .span, '\x7b' => some (.field (place + 1))
  | .span, _ => some .span
  | .field start, '\x7d' => if isField (slice text start place) then some .fields else none
  | .field start, _ => some (.field start)
  | .fields, ']' => some .target
  | .fields, _ => none
  | .level start, _ => some (.level start)

/-- Reads the characters from a place on. -/
def scan (text : List Char) : (place : Nat) → Progress → List Char → Option Progress
  | _, p, [] => some p
  | place, p, c :: rest =>
    match step text place p c with
    | some q => scan text (place + 1) q rest
    | none => none

/-- Whether a text is a directive. Blanks before it shift the places at which its parts are looked
for. -/
def isDirective (text : List Char) : Bool :=
  match scan text 0 .start (Text.trim text) with
  | some .levelOrTarget => true
  | some .target => true
  | some (.level start) => isLevel (text.drop start)
  | _ => false

/-- Whether a text is a log level setting. -/
def isSetting (s : String) : Bool :=
  s = "" || (Text.pieces ',' s.toList).all isDirective

end HttpGateway.LogDirective
