import HttpGateway.Text.Utf8

/-!
# Globs

A glob is a text in which an asterisk may stand for any run of bytes and a question mark for any one
byte. The matcher walks along both texts and keeps the place after the last asterisk, to which it
comes back with one more byte given to that asterisk whenever the texts disagree.
-/

namespace HttpGateway.Glob

/-- The question mark. -/
def anyByte : UInt8 := 0x3F

/-- The asterisk. -/
def anyRun : UInt8 := 0x2A

/-- Walks along a glob and a text. `back` holds what follows the last asterisk of the glob, and the
text from the byte at which that asterisk's run now ends. A byte of the glob that equals the byte of
the text is taken for that byte before it is taken for an asterisk. -/
def walk : (fuel : Nat) → (glob text : Bytes) → (back : Option (Bytes × Bytes)) → Bool
  | 0, _, _, _ => false
  | _ + 1, glob, [], _ => glob.all (· = anyRun)
  | fuel + 1, g :: glob, c :: text, back =>
    if g = anyByte ∨ g = c then walk fuel glob text back
    else if g = anyRun then walk fuel glob (c :: text) (some (glob, c :: text))
    else match back with
      | some (glob', _ :: text') => walk fuel glob' text' (some (glob', text'))
      | _ => false
  | fuel + 1, [], _ :: _, back =>
    match back with
    | some (glob', _ :: text') => walk fuel glob' text' (some (glob', text'))
    | _ => false

/-- The number of steps a walk may take: one for each place of the glob between two returns to an
asterisk, and each return gives up a byte of the text. -/
def steps (glob text : Bytes) : Nat := (text.length + 1) * (glob.length + 1) + 1

/-- Whether a glob matches a text of bytes. -/
def matchesBytes (glob text : Bytes) : Bool := walk (steps glob text) glob text none

/-- Whether a glob matches a text. -/
def isMatch (glob text : String) : Bool := matchesBytes (bytesOf glob) (bytesOf text)

end HttpGateway.Glob
