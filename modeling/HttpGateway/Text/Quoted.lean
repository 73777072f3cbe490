import HttpGateway.Unicode.Basic

/-!
# Quoted texts

A text between double quotes, with escapes for the quote, the backslash, line ends, tabs and every
character that would not show on its own: controls, unassigned and private characters, blanks other
than the plain one, and marks that join the character before them.
-/

namespace HttpGateway.Text

/-- The characters that do not show. -/
def hiddenChars : CharSet :=
  let blanksButSpace := CharSet.diff (Unicode.leafCategory "Zs") [(0x20, 0x20)]
  CharSet.unionAll (blanksButSpace :: Unicode.tabulated "graphemeextend" ::
    ["Cc", "Cf", "Cs", "Co", "Cn", "Zl", "Zp"].map Unicode.leafCategory)

/-- One character of a quoted text. -/
def quoteChar (c : Char) : List Char :=
  match c with
  | '\x00' => ['\\', '0']
  | '\t' => ['\\', 't']
  | '\r' => ['\\', 'r']
  | '\n' => ['\\', 'n']
  | '"' => ['\\', '"']
  | '\\' => ['\\', '\\']
  | _ =>
    if ' ' ≤ c ∧ c ≤ '~' then [c]
    else if hiddenChars.contains c then
      ['\\', 'u', '\x7b'] ++ Nat.toDigits 16 c.toNat ++ ['\x7d']
    else [c]

/-- A text between quotes. -/
def quoted (s : String) : String := String.ofList ('"' :: s.toList.flatMap quoteChar ++ ['"'])

end HttpGateway.Text
