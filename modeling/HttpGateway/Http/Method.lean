import HttpGateway.Text.Utf8

/-!
# Request methods

A method is any non-empty token; the names registered for HTTP are only well-known examples.
-/

namespace HttpGateway

/-- The characters of a token, as used in method and header names. -/
def isTokenByte (b : UInt8) : Bool :=
  let n := b.toNat
  (0x30 ≤ n && n ≤ 0x39) || (0x41 ≤ n && n ≤ 0x5A) || (0x61 ≤ n && n ≤ 0x7A) ||
    [0x21, 0x23, 0x24, 0x25, 0x26, 0x27, 0x2A, 0x2B, 0x2D, 0x2E, 0x5E, 0x5F, 0x60, 0x7C, 0x7E].contains n

/-- The ASCII text of bytes below U+0080. -/
def asciiText (bs : Bytes) : String := String.ofList (bs.map fun b => Char.ofNat b.toNat)

/-- A request method. -/
structure Method where
  name : String
  deriving DecidableEq, Repr, Inhabited

namespace Method

def get : Method := ⟨"GET"⟩

def head : Method := ⟨"HEAD"⟩

def options : Method := ⟨"OPTIONS"⟩

def put : Method := ⟨"PUT"⟩

def delete : Method := ⟨"DELETE"⟩

def trace : Method := ⟨"TRACE"⟩

def post : Method := ⟨"POST"⟩

/-- Reads a method name: a non-empty token, kept as written. -/
def parse? (s : String) : Option Method :=
  let bs := bytesOf s
  if bs.isEmpty || !bs.all isTokenByte then none else some ⟨s⟩

/-- The complaint about a text that is no method. -/
def invalidMessage : String := "invalid HTTP method"

/-- The methods whose repetition has the effect of one request: the read-only ones, `PUT` and
`DELETE`. -/
def isIdempotent (m : Method) : Bool :=
  [get, head, options, trace, put, delete].contains m

end Method

end HttpGateway
