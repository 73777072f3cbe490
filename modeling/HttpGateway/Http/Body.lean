import HttpGateway.Text.Utf8

/-!
# Bodies

A body is either at hand as a whole or arrives in chunks, and the arrival may break off with an
error.
-/

namespace HttpGateway

/-- A body of a request or response. -/
inductive Body where
  | whole (bytes : Bytes)
  | stream (chunks : List Bytes) (failure : Option String)
  deriving DecidableEq, Repr

namespace Body

/-- The body without any bytes. -/
def empty : Body := .whole []

instance : Inhabited Body := ⟨empty⟩

/-- The chunks in which the body arrives. -/
def chunks : Body → List Bytes
  | .whole bytes => [bytes]
  | .stream chunks _ => chunks

/-- The error in which the body breaks off. -/
def failure : Body → Option String
  | .whole _ => none
  | .stream _ failure => failure

/-- All bytes of the body, or the error in which it breaks off. -/
def read (b : Body) : Except String Bytes :=
  match b.failure with
  | some reason => .error reason
  | none => .ok b.chunks.flatten

/-- The body that holds a text. -/
def ofText (s : String) : Body := .whole (bytesOf s)

end Body

end HttpGateway
