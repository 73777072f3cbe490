import HttpGateway.Json.Basic
import HttpGateway.Text.Pieces
import HttpGateway.Text.Quoted

/-!
# Reading structured values

Readers from structured values to typed ones, with the cause when a value does not have the shape
asked for. A record is read from an object, whose fields are visited in key order before anything
missing is reported, or from an array of its fields in their declared order.
-/

namespace HttpGateway

/-- Why a value does not have the shape asked for. -/
inductive DecodeError where
  | invalidType (found expected : String)
  | invalidValue (found expected : String)
  | invalidLength (length : Nat) (expected : String)
  | missingField (name : String)
  | unknownField (name : String) (known : List String)
  | unknownVariant (name : String) (known : List String)
  | noVariant (type : String)
  | refused (reason : String)
  deriving DecidableEq, Repr

/-- A text between backticks. -/
def ticked (s : String) : String := "\x60" ++ s ++ "\x60"

namespace DecodeError

/-- The names that would have been accepted. -/
def alternatives : List String → String
  | [a] => ticked a
  | [a, b] => ticked a ++ " or " ++ ticked b
  | names => "one of " ++ joinTexts ", " (names.map ticked)

/-- The wording of each cause. -/
def message : DecodeError → String
  | .invalidType found expected => "invalid type: " ++ found ++ ", expected " ++ expected
  | .invalidValue found expected => "invalid value: " ++ found ++ ", expected " ++ expected
  | .invalidLength n expected => "invalid length " ++ Text.decimal n ++ ", expected " ++ expected
  | .missingField name => "missing field " ++ ticked name
  | .unknownField name known => "unknown field " ++ ticked name ++ ", expected " ++ alternatives known
  | .unknownVariant name known =>
    "unknown variant " ++ ticked name ++ ", expected " ++ alternatives known
  | .noVariant type => "data did not match any variant of untagged enum " ++ type
  | .refused reason => reason

end DecodeError

/-- What a value is called in a complaint. -/
def Json.found : Json → String
  | .null => "null"
  | .bool b => "boolean " ++ ticked (if b then "true" else "false")
  | .int n => "integer " ++ ticked (Text.signedDecimal n)
  | .float x => "floating point " ++ ticked (floatText x)
  | .str s => "string " ++ Text.quoted s
  | .arr _ => "sequence"
  | .obj _ => "map"

/-- Where a value comes from: it is read directly, it was set aside while something else was looked
for, or it stands in a configuration document. On this depends what becomes of the elements of an
array beyond the fields of a record: they are refused against the length the array should have had,
or against the number of fields, or passed over. -/
inductive Origin where
  | direct
  | held
  | document
  deriving DecidableEq, Repr

/-- A reader of one kind of value. -/
abbrev Decoder (α : Type) := Json → Except DecodeError α

namespace Decoder

variable {α : Type}

/-- Reads a text. -/
def text : Decoder String
  | .str s => .ok s
  | j => .error (.invalidType j.found "a string")

/-- Reads a truth value. -/
def flag : Decoder Bool
  | .bool b => .ok b
  | j => .error (.invalidType j.found "a boolean")

/-- Reads a whole number between two bounds; `type` names the range in complaints. -/
def integer (type : String) (low high : Int) : Decoder Int
  | .int n =>
    if low ≤ n ∧ n ≤ high then .ok n else .error (.invalidValue (Json.int n).found type)
  | j => .error (.invalidType j.found type)

/-- Reads a natural number up to a bound. -/
def natural (type : String) (high : Nat) : Decoder Nat := fun j =>
  (integer type 0 high j).map Int.toNat

/-- The largest numbers of 16, 32 and 64 bits. -/
def max16 : Nat := 65535

def max32 : Nat := 4294967295

def max64 : Nat := 18446744073709551615

/-- Reads a signed number of 32 bits. -/
def int32 : Decoder Int := integer "i32" (-2147483648) 2147483647

/-- Reads a list. -/
def list (item : Decoder α) : Decoder (List α)
  | .arr items => items.mapM item
  | j => .error (.invalidType j.found "a sequence")

/-- Reads a value that may be null. -/
def optional (d : Decoder α) : Decoder (Option α)
  | .null => .ok none
  | j => (d j).map some

/-- Reads one text or a list of texts. -/
def oneOrMany : Decoder (List String) := fun j =>
  match text j with
  | .ok s => .ok [s]
  | .error _ => match list text j with
    | .ok ss => .ok ss
    | .error _ => .error (.noVariant "OneOrMany")

/-- Reads a value given as such or as its text, around which blanks are ignored. -/
def flexible (native : Decoder α) (parse : String → Except NumberError α) : Decoder α := fun j =>
  match native j, j with
  | .ok a, _ => .ok a
  | .error _, .str s => match parse (trimText s) with
    | .ok a => .ok a
    | .error e => .error (.refused e.message)
  | .error _, _ => .error (.noVariant "Flex")

/-- Reads a natural number given as such or as its digits. -/
def flexibleNatural (type : String) (high : Nat) : Decoder Nat :=
  flexible (natural type high) fun s => Text.natural high s.toList

/-- Reads a truth value given as such or as its word. -/
def flexibleFlag : Decoder Bool := flexible flag Text.truth

/-- Reads a text, or a whole number of 64 bits as its digits. -/
def scalarText : Decoder String
  | .str s => .ok s
  | .int n =>
    if -9223372036854775808 ≤ n ∧ n ≤ 9223372036854775807 then .ok (Text.signedDecimal n)
    else .error (.noVariant "Scalar")
  | _ => .error (.noVariant "Scalar")

/-- Reads what stands beside the name of an alternative that holds nothing: null, in a value that was
set aside also an empty object, and in a document an empty array or table. -/
def nothing (origin : Origin) : Decoder Unit
  | .null => .ok ()
  | j => match j, origin with
    | .obj [], .held => .ok ()
    | .arr [], .document => .ok ()
    | .obj [], .document => .ok ()
    | _, _ => .error (.invalidType j.found "unit")

/-- Finds an alternative by its name. -/
def variant (known : List (String × α)) (name : String) : Except DecodeError α :=
  match known.lookup name with
  | some a => .ok a
  | none => .error (.unknownVariant name (known.map Prod.fst))

/-- Reads one of several names, given alone or as the only field of an object that holds nothing. -/
def oneOf (origin : Origin) (known : List (String × α)) : Decoder α
  | .str s => variant known s
  | .obj [(name, value)] => do
    let a ← variant known name
    let () ← nothing origin value
    .ok a
  | .obj _ => .error (.invalidValue "map" "map with a single key")
  | j => .error (.invalidType j.found "string or map")

end Decoder

/-- A field of a record: its name, how it is read, and its value when it is absent. A field without
such a value must be there. -/
structure Field (α : Type) where
  name : String
  read : Decoder α
  fallback : Option α := none

/-- What a record asks of one field. -/
structure FieldRule where
  name : String
  required : Bool
  check : Decoder Unit

namespace Field

variable {α : Type}

/-- What the record asks of the field. -/
def rule (f : Field α) : FieldRule :=
  ⟨f.name, f.fallback.isNone, fun j => (f.read j).map fun _ => ()⟩

/-- The value of the field among the entries of a record. -/
def take (f : Field α) (entries : List (String × Json)) : Except DecodeError α :=
  match entries.lookup f.name with
  | some j => f.read j
  | none => match f.fallback with
    | some a => .ok a
    | none => .error (.missingField f.name)

end Field

/-- A kind of record: what it is called, its fields in their declared order, and whether it refuses
fields that it does not know. -/
structure RecordRule where
  title : String
  fields : List FieldRule
  closed : Bool

namespace RecordRule

/-- The names of the fields. -/
def names (r : RecordRule) : List String := r.fields.map FieldRule.name

/-- Checks the entries of an object one after the other. -/
def visit (r : RecordRule) : List (String × Json) → Except DecodeError Unit
  | [] => .ok ()
  | (key, value) :: rest =>
    match r.fields.find? fun f => f.name = key with
    | some f => match f.check value with
      | .ok () => r.visit rest
      | .error e => .error e
    | none => if r.closed then .error (.unknownField key r.names) else r.visit rest

/-- The first field that is required and has no entry. -/
def missing? (r : RecordRule) (entries : List (String × Json)) : Option String :=
  (r.fields.find? fun f => f.required && (entries.lookup f.name).isNone).map FieldRule.name

/-- A number of elements in words. -/
def elements (n : Nat) : String := Text.decimal n ++ (if n = 1 then " element" else " elements")

/-- Gives the elements of an array to the fields in order. The answer holds the entries and the
number of elements left over. -/
def distribute (r : RecordRule) (index : Nat) :
    List FieldRule → List Json → Except DecodeError (List (String × Json) × Nat)
  | [], items => .ok ([], items.length)
  | f :: rest, [] =>
    if f.required then .error (.invalidLength index (r.title ++ " with " ++ elements r.fields.length))
    else r.distribute (index + 1) rest []
  | f :: rest, item :: items =>
    match f.check item with
    | .error e => .error e
    | .ok () => (r.distribute (index + 1) rest items).map fun (entries, left) =>
      ((f.name, item) :: entries, left)

/-- The checked entries of a record. -/
def entries (r : RecordRule) (origin : Origin) : Decoder (List (String × Json))
  | .obj fields => do
    let () ← r.visit fields
    match r.missing? fields with
    | some name => .error (.missingField name)
    | none => .ok fields
  | .arr items => do
    let (found, left) ← r.distribute 0 r.fields items
    if left = 0 then .ok found
    else match origin with
      | .direct => .error (.invalidLength items.length "fewer elements in array")
      | .held => .error (.invalidLength items.length (elements r.fields.length ++ " in sequence"))
      | .document => .ok found
  | j => .error (.invalidType j.found r.title)

end RecordRule

end HttpGateway
