import HttpGateway.Http.Method
import HttpGateway.Text.Pieces

/-!
# Headers

Header names are tokens without regard to case, kept in lower case. Header values are bytes other
than control characters. A header map is a list of pairs: the values of one name keep their order,
and the order between different names carries no meaning.
-/

namespace HttpGateway

/-- A header name in lower case. -/
structure HeaderName where
  text : String
  deriving DecidableEq, Repr, Inhabited

namespace HeaderName

/-- Reads a header name from bytes: a non-empty token, in lower case. -/
def ofBytes? (bs : Bytes) : Option HeaderName :=
  if bs.isEmpty || !bs.all isTokenByte || 65535 < bs.length then none
  else some ⟨lowerText (asciiText bs)⟩

/-- Reads a header name from a text. -/
def parse? (s : String) : Option HeaderName := ofBytes? (bytesOf s)

/-- The complaint about a text that is no header name. -/
def invalidMessage : String := "invalid HTTP header name"

def connection : HeaderName := ⟨"connection"⟩

def contentLength : HeaderName := ⟨"content-length"⟩

def contentType : HeaderName := ⟨"content-type"⟩

def cookie : HeaderName := ⟨"cookie"⟩

def host : HeaderName := ⟨"host"⟩

def location : HeaderName := ⟨"location"⟩

def requestId : HeaderName := ⟨"x-request-id"⟩

def forwardedFor : HeaderName := ⟨"x-forwarded-for"⟩

def forwardedProto : HeaderName := ⟨"x-forwarded-proto"⟩

def forwardedHost : HeaderName := ⟨"x-forwarded-host"⟩

end HeaderName

/-- The bytes of a header value. -/
structure HeaderValue where
  bytes : Bytes
  deriving DecidableEq, Repr, Inhabited

namespace HeaderValue

/-- A byte that a header value may hold: a tab, or anything but the control characters. -/
def isAllowed (b : UInt8) : Bool := (32 ≤ b.toNat && b.toNat != 127) || b.toNat == 9

/-- A byte of a readable header value: a tab, or a printable ASCII character. -/
def isReadable (b : UInt8) : Bool := (32 ≤ b.toNat && b.toNat < 127) || b.toNat == 9

/-- Reads a header value from bytes. -/
def ofBytes? (bs : Bytes) : Option HeaderValue := if bs.all isAllowed then some ⟨bs⟩ else none

/-- Reads a header value from a text. -/
def parse? (s : String) : Option HeaderValue := ofBytes? (bytesOf s)

/-- The complaint about bytes that are no header value. -/
def invalidMessage : String := "failed to parse header value"

/-- The value with the bytes of a text known to be fit. -/
def literal (s : String) : HeaderValue := ⟨bytesOf s⟩

/-- The text of the value, if it is readable. -/
def text? (v : HeaderValue) : Option String :=
  if v.bytes.all isReadable then some (asciiText v.bytes) else none

end HeaderValue

/-- A header map. -/
structure Headers where
  entries : List (HeaderName × HeaderValue)
  deriving DecidableEq, Repr

namespace Headers

def empty : Headers := ⟨[]⟩

instance : Inhabited Headers := ⟨empty⟩

/-- All values of a name, in order. -/
def values (h : Headers) (n : HeaderName) : List HeaderValue :=
  (h.entries.filter fun e => e.1 = n).map Prod.snd

/-- The first value of a name. -/
def first? (h : Headers) (n : HeaderName) : Option HeaderValue := (h.values n).head?

/-- The text of the first value of a name, if that value is readable. -/
def text? (h : Headers) (n : HeaderName) : Option String := (h.first? n).bind HeaderValue.text?

/-- Whether the name has a value. -/
def contains (h : Headers) (n : HeaderName) : Bool := !(h.values n).isEmpty

/-- Adds a value after those the name has. -/
def append (h : Headers) (n : HeaderName) (v : HeaderValue) : Headers := ⟨h.entries ++ [(n, v)]⟩

/-- Removes every value of a name. -/
def remove (h : Headers) (n : HeaderName) : Headers := ⟨h.entries.filter fun e => e.1 ≠ n⟩

/-- Makes `v` the only value of a name. -/
def set (h : Headers) (n : HeaderName) (v : HeaderValue) : Headers := (h.remove n).append n v

/-- Adds all entries of another map after the present ones. -/
def appendAll (h other : Headers) : Headers := ⟨h.entries ++ other.entries⟩

/-- Removes every value of each of the names. -/
def removeAll (h : Headers) (names : List HeaderName) : Headers := names.foldl remove h

/-- The entries by their names; the values of one name keep their order. -/
def sorted (h : Headers) : List (HeaderName × HeaderValue) :=
  h.entries.mergeSort fun a b => a.1.text ≤ b.1.text

@[simp] theorem values_empty (n : HeaderName) : empty.values n = [] := rfl

@[simp] theorem values_append_self (h : Headers) (n : HeaderName) (v : HeaderValue) :
    (h.append n v).values n = h.values n ++ [v] := by
  simp [values, append]

theorem values_append_of_ne (h : Headers) {n m : HeaderName} (v : HeaderValue) (hne : m ≠ n) :
    (h.append n v).values m = h.values m := by
  simp [values, append, hne.symm]

@[simp] theorem values_remove_self (h : Headers) (n : HeaderName) : (h.remove n).values n = [] := by
  simp [values, remove]

theorem values_remove_of_ne (h : Headers) {n m : HeaderName} (hne : m ≠ n) :
    (h.remove n).values m = h.values m := by
  simp only [values, remove, List.filter_filter]
  congr 1
  apply List.filter_congr
  intro e _
  by_cases he : e.1 = m <;> simp_all

@[simp] theorem values_set_self (h : Headers) (n : HeaderName) (v : HeaderValue) :
    (h.set n v).values n = [v] := by
  simp [set]

theorem values_set_of_ne (h : Headers) {n m : HeaderName} (v : HeaderValue) (hne : m ≠ n) :
    (h.set n v).values m = h.values m := by
  rw [set, values_append_of_ne _ v hne, values_remove_of_ne _ hne]

@[simp] theorem values_appendAll (h other : Headers) (n : HeaderName) :
    (h.appendAll other).values n = h.values n ++ other.values n := by
  simp [values, appendAll]

end Headers

end HttpGateway
