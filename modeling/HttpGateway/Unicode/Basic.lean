import HttpGateway.Unicode.CharSet
import HttpGateway.Unicode.Category
import HttpGateway.Unicode.Script
import HttpGateway.Unicode.Property
import HttpGateway.Unicode.Folding
import HttpGateway.Text.Pieces
import HttpGateway.Text.Number

/-!
# Properties of characters

Character sets by property name, and the closure of a set under case folding. The tables are read
once from their texts.
-/

namespace HttpGateway.Unicode

open HttpGateway.Text

/-- Reads a number in hexadecimal digits. -/
def hexNumber (s : List Char) : Nat := s.foldl (fun acc c => acc * 16 + (hexDigit? c).getD 0) 0

/-- The words of a text between blanks. -/
def wordsOf (s : String) : List (List Char) :=
  (pieces ' ' (s.toList.map fun c => if isBlank c then ' ' else c)).filter fun p => !p.isEmpty

/-- Reads ranges such as `41-5A 5F`. -/
def rangesOf (s : String) : CharSet :=
  (wordsOf s).map fun w => match cut '-' w with
    | some (low, high) => (hexNumber low, hexNumber high)
    | none => (hexNumber w, hexNumber w)

/-- The sets of the tabulated general categories. -/
def categorySets : List (String × CharSet) :=
  categoryRanges.map fun (name, ranges) => (name, rangesOf ranges)

/-- The characters of a general category given by its two-letter name. -/
def leafCategory (name : String) : CharSet :=
  match categorySets.lookup name with
  | some s => s
  | none =>
    if name = "Cs" then [(0xD800, 0xDFFF)]
    else
      (CharSet.unionAll ([(0xD800, 0xDFFF)] :: categorySets.map Prod.snd)).complement

/-- The general categories and their groups: two-letter names of the parts, then other names. -/
def categoryNames : List (List String × List String) :=
  [(["Lu"], ["lu", "uppercaseletter"]), (["Ll"], ["ll", "lowercaseletter"]),
    (["Lt"], ["lt", "titlecaseletter"]), (["Lu", "Ll", "Lt"], ["lc", "casedletter"]),
    (["Lm"], ["lm", "modifierletter"]), (["Lo"], ["lo", "otherletter"]),
    (["Lu", "Ll", "Lt", "Lm", "Lo"], ["l", "letter"]),
    (["Mn"], ["mn", "nonspacingmark"]), (["Mc"], ["mc", "spacingmark"]),
    (["Me"], ["me", "enclosingmark"]), (["Mn", "Mc", "Me"], ["m", "mark", "combiningmark"]),
    (["Nd"], ["nd", "decimalnumber", "digit"]), (["Nl"], ["nl", "letternumber"]),
    (["No"], ["no", "othernumber"]), (["Nd", "Nl", "No"], ["n", "number"]),
    (["Pc"], ["pc", "connectorpunctuation"]), (["Pd"], ["pd", "dashpunctuation"]),
    (["Ps"], ["ps", "openpunctuation"]), (["Pe"], ["pe", "closepunctuation"]),
    (["Pi"], ["pi", "initialpunctuation"]), (["Pf"], ["pf", "finalpunctuation"]),
    (["Po"], ["po", "otherpunctuation"]),
    (["Pc", "Pd", "Ps", "Pe", "Pi", "Pf", "Po"], ["p", "punctuation", "punct"]),
    (["Sm"], ["sm", "mathsymbol"]), (["Sc"], ["sc", "currencysymbol"]),
    (["Sk"], ["sk", "modifiersymbol"]), (["So"], ["so", "othersymbol"]),
    (["Sm", "Sc", "Sk", "So"], ["s", "symbol"]), (["Zs"], ["zs", "spaceseparator"]),
    (["Zl"], ["zl", "lineseparator"]), (["Zp"], ["zp", "paragraphseparator"]),
    (["Zs", "Zl", "Zp"], ["z", "separator"]), (["Cc"], ["cc", "control", "cntrl"]),
    (["Cf"], ["cf", "format"]), (["Cs"], ["cs", "surrogate"]), (["Co"], ["co", "privateuse"]),
    (["Cn"], ["cn", "unassigned"]), (["Cc", "Cf", "Cs", "Co", "Cn"], ["c", "other"])]

/-- The characters of a general category or a group of them, by a name in normal form. -/
def category? (name : String) : Option CharSet :=
  if name = "any" then some CharSet.full
  else if name = "assigned" then some (leafCategory "Cn").complement
  else if name = "ascii" then some [(0, 127)]
  else (categoryNames.find? fun e => e.2.contains name).map fun e =>
    CharSet.unionAll (e.1.map leafCategory)

/-- The characters of a script, by a name in normal form. -/
def script? (name : String) : Option CharSet :=
  (scriptRanges.find? fun e => (piecesOf ' ' e.1).contains name).map fun e =>
    rangesOf e.2

/-- The blank characters. -/
def blanks : CharSet :=
  [(9, 13), (0x20, 0x20), (0x85, 0x85), (0xA0, 0xA0), (0x1680, 0x1680), (0x2000, 0x200A),
    (0x2028, 0x2029), (0x202F, 0x202F), (0x205F, 0x205F), (0x3000, 0x3000)]

/-- The decimal digits of all scripts. -/
def decimalDigits : CharSet := leafCategory "Nd"

/-- The characters with a tabulated property. -/
def tabulated (name : String) : CharSet :=
  ((propertyRanges.lookup name).map rangesOf).getD []

/-- The alphabetic characters. -/
def alphabetic : CharSet := tabulated "alphabetic"

/-- The characters of words: alphabetic ones, marks, decimal digits, connecting punctuation and the
two joiners. -/
def wordChars : CharSet :=
  CharSet.unionAll [alphabetic, leafCategory "Mn", leafCategory "Mc", leafCategory "Me",
    decimalDigits, leafCategory "Pc", [(0x200C, 0x200D)]]

/-- The characters with a yes-or-no property, by a name in normal form. -/
def property? (name : String) : Option CharSet :=
  match name with
  | "alphabetic" | "alpha" => some alphabetic
  | "lowercase" | "lower" => some (tabulated "lowercase")
  | "uppercase" | "upper" => some (tabulated "uppercase")
  | "graphemeextend" | "grext" => some (tabulated "graphemeextend")
  | "whitespace" | "wspace" | "space" => some blanks
  | _ => none

/-- The normal form of a property name: lower case, without blanks, hyphens, underscores and a
leading `is`. -/
def normalName (s : List Char) : String :=
  let bare (cs : List Char) := (lower cs).filter fun c => !(c = '_' || c = '-' || isBlank c)
  let stem := match lower (s.take 2) with
    | ['i', 's'] => s.drop 2
    | _ => s
  let name := bare stem
  if stem.length < s.length && name == ['c'] then "isc" else String.ofList name

/-- The characters that a property name stands for. -/
def byName? (s : List Char) : Option CharSet :=
  let name := normalName s
  let property := if ["cf", "sc", "lc"].contains name then none else property? name
  (property.or (category? name)).or (script? name)

/-- The characters whose property of the first name has the value of the second name. -/
def byValue? (property value : List Char) : Option CharSet :=
  match normalName property with
  | "gc" | "generalcategory" => category? (normalName value)
  | "sc" | "script" | "scx" | "scriptextensions" => script? (normalName value)
  | _ => none

/-- A run of pairs that fold together: first, last, step and distance. -/
structure FoldingRun where
  first : Nat
  last : Nat
  step : Nat
  distance : Nat

/-- Reads a run such as `41-4A/1+20`. -/
def readRun (w : List Char) : Option FoldingRun := do
  let (first, rest) ← cut '-' w
  let (last, rest) ← cut '/' rest
  let (step, distance) ← cut '+' rest
  some ⟨hexNumber first, hexNumber last, hexNumber step, hexNumber distance⟩

/-- The runs of pairs that fold together. -/
def runs : List FoldingRun := (wordsOf foldingRuns).filterMap readRun

/-- The groups of three or more that fold together. -/
def groups : List (List Nat) := (wordsOf foldingGroups).map fun w => (pieces '-' w).map hexNumber

/-- The characters that fold together with some character of the set. -/
def foldingPartners (s : CharSet) : CharSet :=
  let pairs := runs.flatMap fun r =>
    (List.range ((r.last - r.first) / r.step + 1)).flatMap fun i =>
      let low := r.first + i * r.step
      let high := low + r.distance
      (if s.holds low then [(high, high)] else []) ++ (if s.holds high then [(low, low)] else [])
  let others := groups.flatMap fun g => if g.any s.holds then g.map fun n => (n, n) else []
  CharSet.normal (pairs ++ others)

/-- The closure of a set under simple case folding. -/
def foldClosure (s : CharSet) : CharSet := CharSet.union s (foldingPartners s)

/-- The closure of a set under the case of ASCII letters. -/
def foldClosureAscii (s : CharSet) : CharSet :=
  let letters (first : Nat) (distance : Int) :=
    (List.range 26).flatMap fun i =>
      let n := first + i
      if s.holds n then [(((n : Int) + distance).toNat, ((n : Int) + distance).toNat)] else []
  CharSet.union s (CharSet.normal (letters 0x41 32 ++ letters 0x61 (-32)))

end HttpGateway.Unicode
