import HttpGateway.Text.Pieces
import HttpGateway.Text.Number
import HttpGateway.Text.Utf8

/-!
# Form encoding

The notation of form bodies and query strings: fields between ampersands, a name and a value on the
two sides of the first equals sign, blanks written as plus signs, and all other bytes outside a
small alphabet as a percent sign with two hexadecimal digits.
-/

namespace HttpGateway.Form

/-- A field of a form: its name and its value. -/
abbrev Field := String × String

/-- A byte that stands for itself in an encoded part. -/
def isPlain (b : UInt8) : Bool :=
  let n := b.toNat
  (0x30 ≤ n && n ≤ 0x39) || (0x41 ≤ n && n ≤ 0x5A) || (0x61 ≤ n && n ≤ 0x7A) ||
    n == 0x2A || n == 0x2D || n == 0x2E || n == 0x5F

/-- The hexadecimal digit of a number below sixteen. -/
def hexDigit (n : Nat) : UInt8 := if n < 10 then (0x30 + n).toUInt8 else (0x37 + n).toUInt8

/-- The encoding of one byte. -/
def encodeByte (b : UInt8) : Bytes :=
  if isPlain b then [b]
  else if b = 0x20 then [0x2B]
  else [0x25, hexDigit (b.toNat / 16), hexDigit (b.toNat % 16)]

/-- The encoding of a name or value. -/
def encodePart (s : String) : Bytes := (bytesOf s).flatMap encodeByte

/-- The encoding of one field. -/
def encodeField (f : Field) : Bytes := encodePart f.1 ++ 0x3D :: encodePart f.2

/-- The encoding of a form. -/
def encode : List Field → Bytes
  | [] => []
  | [f] => encodeField f
  | f :: rest => encodeField f ++ 0x26 :: encode rest

/-- The number a byte denotes as a hexadecimal digit. -/
def hexValue? (b : UInt8) : Option Nat := Text.hexDigit? (Char.ofNat b.toNat)

/-- Replaces each percent sign that two hexadecimal digits follow, and them, by the byte they
denote, and each plus sign by a blank. -/
def decodeBytes : Bytes → Bytes
  | [] => []
  | b :: rest =>
    if b = 0x25 then
      match rest with
      | hi :: lo :: rest' => match hexValue? hi, hexValue? lo with
        | some h, some l => (h * 16 + l).toUInt8 :: decodeBytes rest'
        | _, _ => b :: decodeBytes (hi :: lo :: rest')
      | other => b :: decodeBytes other
    else (if b = 0x2B then 0x20 else b) :: decodeBytes rest

/-- The text of an encoded name or value. -/
def decodePart (bs : Bytes) : String := String.ofList (Utf8.decodeLossy (decodeBytes bs))

/-- Splits bytes at a separator; there is one more piece than separators. -/
def pieces (sep : UInt8) : Bytes → List Bytes
  | [] => [[]]
  | b :: rest =>
    if b = sep then [] :: pieces sep rest
    else match pieces sep rest with
      | [] => [[b]]
      | p :: ps => (b :: p) :: ps

/-- The field that one piece between ampersands holds. Without an equals sign the value is empty. -/
def decodeField (piece : Bytes) : Field :=
  (decodePart (piece.takeWhile (· ≠ 0x3D)), decodePart ((piece.dropWhile (· ≠ 0x3D)).drop 1))

/-- Reads a form. Empty pieces hold no field, and no input is refused. -/
def decode (bs : Bytes) : List Field :=
  ((pieces 0x26 bs).filter fun p => !p.isEmpty).map decodeField

/-- Reads a form and writes it again. -/
def reencode (bs : Bytes) : Bytes := encode (decode bs)

/-- Appends an encoded field to a query string. -/
def appendField (query : Option String) (f : Field) : String :=
  let pair := String.ofList ((encodeField f).map fun b => Char.ofNat b.toNat)
  match query with
  | some q => if q.isEmpty then pair else q ++ "&" ++ pair
  | none => pair

end HttpGateway.Form
