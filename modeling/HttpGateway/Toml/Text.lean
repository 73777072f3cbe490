import HttpGateway.Text.Number
import HttpGateway.Toml.Table

/-!
# Texts and keys of a document

Blanks, comments and line ends, the four kinds of quoted text, and keys. Each reader takes a start of
the text and answers with what it has read and what is left.
-/

namespace HttpGateway.Toml

/-- A reader of a start of a text. -/
abbrev Scan (α : Type) := List Char → Option (α × List Char)

/-- A blank within a line. -/
def isBlank (c : Char) : Bool := c = ' ' || c = '\t'

/-- A character that may stand in comments and quoted texts: anything but control characters, of
which the tab alone is allowed. -/
def isPlain (c : Char) : Bool := c = '\t' || (0x20 ≤ c.toNat && c.toNat != 0x7F)

/-- Skips blanks. -/
def skipBlanks (s : List Char) : List Char := s.dropWhile isBlank

/-- What follows a line end. -/
def afterLineEnd? : List Char → Option (List Char)
  | '\n' :: rest => some rest
  | '\r' :: '\n' :: rest => some rest
  | _ => none

/-- Skips blanks and line ends. -/
def skipBlankLines : List Char → List Char
  | ' ' :: rest => skipBlankLines rest
  | '\t' :: rest => skipBlankLines rest
  | '\n' :: rest => skipBlankLines rest
  | '\r' :: '\n' :: rest => skipBlankLines rest
  | s => s

/-- Skips a comment. -/
def skipComment : List Char → List Char
  | '#' :: rest => rest.dropWhile isPlain
  | s => s

/-- Skips what may stand at the end of a line, and the line end. -/
def finishLine (s : List Char) : Option (List Char) :=
  match skipComment (skipBlanks s) with
  | [] => some []
  | rest => afterLineEnd? rest

/-- Skips blanks, line ends and comments. -/
def skipSpace : (fuel : Nat) → List Char → Option (List Char)
  | 0, s => some s
  | fuel + 1, s => match skipBlankLines s with
    | '#' :: rest => (afterLineEnd? (skipComment ('#' :: rest))).bind (skipSpace fuel)
    | rest => some rest

/-- Reads the character that a number of hexadecimal digits denotes. -/
def codePoint (count : Nat) : Scan Char := fun s =>
  match (s.take count).mapM Text.hexDigit? with
  | none => none
  | some ds =>
    let n := ds.foldl (fun acc d => acc * 16 + d) 0
    if ds.length = count ∧ n.isValidChar then some (Char.ofNat n, s.drop count) else none

/-- Reads what follows a backslash. -/
def escape : Scan Char
  | 'b' :: rest => some ('\x08', rest)
  | 't' :: rest => some ('\t', rest)
  | 'n' :: rest => some ('\n', rest)
  | 'f' :: rest => some ('\x0c', rest)
  | 'r' :: rest => some ('\r', rest)
  | '"' :: rest => some ('"', rest)
  | '\\' :: rest => some ('\\', rest)
  | 'u' :: rest => codePoint 4 rest
  | 'U' :: rest => codePoint 8 rest
  | _ => none

/-- Puts a character before what is read next. -/
def before (c : Char) (next : Option (List Char × List Char)) : Option (List Char × List Char) :=
  next.map fun (cs, rest) => (c :: cs, rest)

/-- Reads a text on one line up to its closing quote. Only between double quotes a backslash has a
meaning. -/
def shortBody (quote : Char) : (fuel : Nat) → Scan (List Char)
  | 0, _ => none
  | _ + 1, [] => none
  | fuel + 1, c :: rest =>
    if c = quote then some ([], rest)
    else if c = '\\' ∧ quote = '"' then
      (escape rest).bind fun (e, rest) => before e (shortBody quote fuel rest)
    else if isPlain c then before c (shortBody quote fuel rest)
    else none

/-- Skips a line end after a backslash, and all blanks and line ends after it. -/
def foldedLine? (s : List Char) : Option (List Char) :=
  (afterLineEnd? (skipBlanks s)).map skipBlankLines

/-- Reads a text on several lines up to three closing quotes. One or two quotes before these belong
to the text. -/
def longBody (quote : Char) : (fuel : Nat) → Scan (List Char)
  | 0, _ => none
  | _ + 1, [] => none
  | fuel + 1, c :: rest =>
    if [quote, quote, quote].isPrefixOf (c :: rest) then
      let more := ((rest.drop 2).takeWhile (· = quote)).take 2
      some (more, rest.drop (2 + more.length))
    else if c = '\\' ∧ quote = '"' then
      match foldedLine? rest with
      | some rest => longBody quote fuel rest
      | none => (escape rest).bind fun (e, rest) => before e (longBody quote fuel rest)
    else match afterLineEnd? (c :: rest) with
      | some rest => before '\n' (longBody quote fuel rest)
      | none => if isPlain c then before c (longBody quote fuel rest) else none

/-- A text read as characters. -/
def packed (r : Option (List Char × List Char)) : Option (String × List Char) :=
  r.map fun (cs, rest) => (String.ofList cs, rest)

/-- Reads a quoted text on one line, behind its opening quote. -/
def shortText (quote : Char) : Scan String := fun s => packed (shortBody quote (s.length + 1) s)

/-- Reads a quoted text, behind its opening quote, or three of them for a text on several lines. A
line end right after these does not belong to the text. -/
def quotedText (quote : Char) : Scan String := fun s =>
  if [quote, quote].isPrefixOf s then
    let inner := s.drop 2
    let inner := (afterLineEnd? inner).getD inner
    packed (longBody quote (inner.length + 1) inner)
  else shortText quote s

/-- A character of a key without quotes. -/
def isKeyChar (c : Char) : Bool := c.isAlphanum || c = '-' || c = '_'

/-- Reads one part of a key. -/
def keyPart : Scan String
  | '"' :: rest => shortText '"' rest
  | '\'' :: rest => shortText '\'' rest
  | s =>
    let name := s.takeWhile isKeyChar
    if name.isEmpty then none else some (String.ofList name, s.dropWhile isKeyChar)

/-- Reads the parts of a key with blanks around them and dots between them. -/
def keyParts : (fuel : Nat) → Scan (String × List String)
  | 0, _ => none
  | fuel + 1, s => do
    let (part, rest) ← keyPart (skipBlanks s)
    match skipBlanks rest with
    | '.' :: rest =>
      let ((first, others), rest) ← keyParts fuel rest
      some ((part, first :: others), rest)
    | rest => some ((part, []), rest)

/-- The number of parts that a key must not reach, and of values within each other. -/
def nestingLimit : Nat := 80

/-- The path of a key with these parts. -/
def KeyPath.ofParts (first : String) : List String → KeyPath
  | [] => ⟨[], first⟩
  | second :: others =>
    let path := KeyPath.ofParts second others
    { path with parents := first :: path.parents }

/-- Reads a key. -/
def key : Scan KeyPath := fun s => do
  let ((first, others), rest) ← keyParts (s.length + 1) s
  if nestingLimit ≤ others.length + 1 then none else some (KeyPath.ofParts first others, rest)

end HttpGateway.Toml
