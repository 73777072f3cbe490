import HttpGateway.Dictionary
import HttpGateway.Text.Shortest

/-!
# Structured values

The values that definitions and configurations are read from and written to. Numbers are whole or
fractional; the fields of an object are kept in the order of their keys, one value a key, so that
two objects with the same fields are equal.
-/

namespace HttpGateway

/-- A structured value. -/
inductive Json where
  | null
  | bool (b : Bool)
  | int (n : Int)
  | float (x : Float)
  | str (s : String)
  | arr (items : List Json)
  | obj (fields : List (String × Json))
  deriving Repr, BEq, Inhabited

/-- The fields of an object. -/
abbrev Fields := Dictionary Json

namespace Json

/-- An object of the given fields. -/
def object (entries : List (String × Json)) : Json := .obj (Dictionary.ofList entries)

mutual

/-- The value with null in place of every number that is not finite. -/
def finite : Json → Json
  | .float x => if x.isFinite then .float x else .null
  | .arr items => .arr (finiteItems items)
  | .obj fields => .obj (finiteFields fields)
  | j => j

/-- The items of an array, with null in place of what is not finite. -/
def finiteItems : List Json → List Json
  | [] => []
  | j :: rest => j.finite :: finiteItems rest

/-- The fields of an object, with null in place of what is not finite. -/
def finiteFields : List (String × Json) → List (String × Json)
  | [] => []
  | (key, j) :: rest => (key, j.finite) :: finiteFields rest

end

/-- Fractional numbers are positional from 10⁻⁵ up to 10¹⁶. -/
def floatNotation : Text.DecimalNotation := ⟨-5, 16⟩

/-- The text of a fractional number: the fewest digits that read back. -/
def floatText (x : Float) : String :=
  if x.isNaN then "NaN"
  else if x.isInf then (if x < 0 then "-inf" else "inf")
  else if x == 0 then (if x.toBits = 0 then "0.0" else "-0.0")
  else
    let (negative, d) := Text.shortest x
    (if negative then "-" else "") ++ floatNotation.write d

end Json

end HttpGateway
