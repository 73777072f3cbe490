import HttpGateway.Regex.Parser
import HttpGateway.Regex.Matcher
import HttpGateway.Regex.Weight

/-!
# Patterns in use

Compiled patterns, the test whether one matches a text, and the replacement of all its matches.
-/

namespace HttpGateway

open HttpGateway.Regex

/-- A compiled pattern with its text. -/
structure Regex where
  text : String
  program : Program
  captures : Nat
  names : List (String × Nat)
  deriving Repr

/-- The places of one match: where it and each of its groups starts and ends. -/
abbrev Regex.Found := Array (Option Nat)

namespace Regex

/-- Compiles a pattern. -/
def compile (text : String) : Except PatternError Regex := do
  let (e, captures, names) ← readPattern text
  if largestPattern < e.weight then .error .tooLarge
  .ok ⟨text, Program.ofExpr e, captures, names⟩

/-- The first match at or after a place. -/
def findFrom (r : Regex) (before : Option Char) (index : Nat) (rest : List Char) : Option Found :=
  r.program.search (2 * (r.captures + 1)) r.program.edges before index ⟨[], none⟩ rest

/-- Whether the pattern matches somewhere in a text. -/
def isMatch (r : Regex) (text : String) : Bool := (r.findFrom none 0 text.toList).isSome

/-- The start and the end of the group with this number. -/
def span (m : Found) (group : Nat) : Option (Nat × Nat) :=
  match m[2 * group]?, m[2 * group + 1]? with
  | some (some a), some (some b) => some (a, b)
  | _, _ => none

/-- All matches from left to right, none overlapping another. A match of no characters right after
the match before it is passed over. -/
def matchesFrom (r : Regex) (text : Array Char) :
    (fuel : Nat) → (start : Nat) → (lastEnd : Option Nat) → List Found
  | 0, _, _ => []
  | fuel + 1, start, lastEnd =>
    let find (i : Nat) : Option Found :=
      if text.size < i then none
      else r.findFrom (if i = 0 then none else text[i - 1]?) i (text.toList.drop i)
    let first := find start
    let empty := (first.bind (span · 0)).any fun (a, b) => a = b && some b = lastEnd
    match if empty then find (start + 1) else first with
    | none => []
    | some m => match span m 0 with
      | none => []
      | some (_, b) => m :: matchesFrom r text fuel b (some b)

/-- All matches of the pattern in a text. -/
def allMatches (r : Regex) (text : String) : List Found :=
  let cs := text.toList.toArray
  r.matchesFrom cs (2 * cs.size + 2) 0 none

/-- A part of a replacement: plain text, or a group by number or by name. -/
inductive ReplacementPart where
  | text (c : Char)
  | number (n : Nat)
  | name (s : String)
  deriving Repr, DecidableEq

/-- A character of a group's name without braces. -/
def isReferenceChar (c : Char) : Bool := c.isAlphanum || c = '_'

/-- The largest group number a reference is read as. -/
def largestReference : Nat := 18446744073709551615

/-- The part that refers to a group. -/
def reference (s : List Char) : ReplacementPart :=
  match HttpGateway.Text.natural largestReference s with
  | .ok n => .number n
  | .error _ => .name (String.ofList s)

/-- Reads a replacement. A dollar sign starts a reference, with or without braces; two of them, or
one that starts none, stand for a dollar sign. -/
def readReplacement : (fuel : Nat) → List Char → List ReplacementPart
  | 0, _ => []
  | _, [] => []
  | fuel + 1, '$' :: '$' :: rest => .text '$' :: readReplacement fuel rest
  | fuel + 1, '$' :: '{' :: rest =>
    let name := rest.takeWhile (· ≠ '}')
    match rest.drop name.length with
    | _ :: after => reference name :: readReplacement fuel after
    | [] => .text '$' :: readReplacement fuel ('{' :: rest)
  | fuel + 1, '$' :: rest =>
    let name := rest.takeWhile isReferenceChar
    if name.isEmpty then .text '$' :: readReplacement fuel rest
    else reference name :: readReplacement fuel (rest.drop name.length)
  | fuel + 1, c :: rest => .text c :: readReplacement fuel rest

/-- The text that a part of a replacement stands for in one match. A group that took no part in the
match, or that does not exist, stands for nothing. -/
def expandPart (r : Regex) (text : Array Char) (m : Found) : ReplacementPart → List Char
  | .text c => [c]
  | .number n => ((span m n).map fun (a, b) => (text.extract a b).toList).getD []
  | .name s => match r.names.lookup s with
    | some n => ((span m n).map fun (a, b) => (text.extract a b).toList).getD []
    | none => []

/-- Replaces all matches of the pattern in a text. -/
def replaceAll (r : Regex) (text replacement : String) : String :=
  let cs := text.toList.toArray
  let parts := readReplacement (replacement.toList.length + 1) replacement.toList
  let (out, last) := (r.allMatches text).foldl
    (fun (out, last) m => match span m 0 with
      | some (a, b) =>
        (out ++ (cs.extract last a).toList ++ parts.flatMap (r.expandPart cs m), b)
      | none => (out, last)) ([], 0)
  String.ofList (out ++ (cs.extract last cs.size).toList)

end Regex

end HttpGateway
