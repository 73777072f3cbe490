/-!
# UTF-8

Bytes and texts. `encode` writes the one to four bytes of each character, `decode?` reads them back
and refuses anything else, and `decodeLossy` puts one replacement character in place of each maximal
start of a sequence that cannot be completed.
-/

namespace HttpGateway

/-- A string of bytes, as it travels in bodies and header values. -/
abbrev Bytes := List UInt8

namespace Utf8

/-- The bytes of one character: one below U+0080, two below U+0800, three below U+10000, else four. -/
def encodeChar (c : Char) : Bytes :=
  let n := c.toNat
  if n < 0x80 then [n.toUInt8]
  else if n < 0x800 then [(0xC0 + n / 64).toUInt8, (0x80 + n % 64).toUInt8]
  else if n < 0x10000 then
    [(0xE0 + n / 4096).toUInt8, (0x80 + n / 64 % 64).toUInt8, (0x80 + n % 64).toUInt8]
  else
    [(0xF0 + n / 262144).toUInt8, (0x80 + n / 4096 % 64).toUInt8, (0x80 + n / 64 % 64).toUInt8,
      (0x80 + n % 64).toUInt8]

/-- The bytes of a text. -/
def encode (s : List Char) : Bytes := s.flatMap encodeChar

/-- The number of bytes a text takes. -/
def size (s : List Char) : Nat := (encode s).length

/-- The replacement character U+FFFD. -/
def replacement : Char := '\uFFFD'

/-- What the first byte of a sequence announces: the number of bytes that follow, the bits it
contributes, and the range in which the second byte must lie. The narrow ranges keep out overlong
forms, surrogates and numbers above U+10FFFF. -/
structure Lead where
  follow : Nat
  bits : Nat
  low : Nat
  high : Nat

/-- Reads a first byte above U+007F. -/
def lead? (b : Nat) : Option Lead :=
  if 0xC2 ≤ b ∧ b ≤ 0xDF then some ⟨1, b - 0xC0, 0x80, 0xBF⟩
  else if b = 0xE0 then some ⟨2, 0, 0xA0, 0xBF⟩
  else if b = 0xED then some ⟨2, 0xD, 0x80, 0x9F⟩
  else if 0xE1 ≤ b ∧ b ≤ 0xEF then some ⟨2, b - 0xE0, 0x80, 0xBF⟩
  else if b = 0xF0 then some ⟨3, 0, 0x90, 0xBF⟩
  else if b = 0xF4 then some ⟨3, 4, 0x80, 0x8F⟩
  else if 0xF1 ≤ b ∧ b ≤ 0xF3 then some ⟨3, b - 0xF0, 0x80, 0xBF⟩
  else none

/-- Reads the bytes that follow a first byte. The answer holds the number read, or nothing when a
byte was missing or out of range, together with the number of bytes used. -/
def continuation : (follow bits low high used : Nat) → Bytes → Option Nat × Nat
  | 0, bits, _, _, used, _ => (some bits, used)
  | _ + 1, _, _, _, used, [] => (none, used)
  | k + 1, bits, low, high, used, b :: rest =>
    if low ≤ b.toNat ∧ b.toNat ≤ high then
      continuation k (bits * 64 + (b.toNat - 0x80)) 0x80 0xBF (used + 1) rest
    else (none, used)

/-- The first character of a non-empty byte string, or nothing when the bytes form none, and the
number of bytes this settles. -/
def step (b : UInt8) (rest : Bytes) : Option Char × Nat :=
  if b.toNat < 0x80 then (some (Char.ofNat b.toNat), 1)
  else match lead? b.toNat with
    | none => (none, 1)
    | some l =>
      let r := continuation l.follow l.bits l.low l.high 1 rest
      (r.1.map Char.ofNat, r.2)

/-- The text of a byte string, with a replacement character for each part that is no character. -/
def decodeLossy : Bytes → List Char
  | [] => []
  | b :: rest =>
    (step b rest).1.getD replacement :: decodeLossy (rest.drop ((step b rest).2 - 1))
termination_by bs => bs.length
decreasing_by simp only [List.length_cons, List.length_drop]; omega

/-- The text of a byte string, if every byte belongs to a character. -/
def decode? : Bytes → Option (List Char)
  | [] => some []
  | b :: rest =>
    match (step b rest).1 with
    | none => none
    | some c => (decode? (rest.drop ((step b rest).2 - 1))).map (c :: ·)
termination_by bs => bs.length
decreasing_by simp only [List.length_cons, List.length_drop]; omega

end Utf8

/-- The bytes of a text. -/
def bytesOf (s : String) : Bytes := Utf8.encode s.toList

/-- The text of a byte string, if it is valid UTF-8. -/
def textOf? (bs : Bytes) : Option String := (Utf8.decode? bs).map String.ofList

end HttpGateway
