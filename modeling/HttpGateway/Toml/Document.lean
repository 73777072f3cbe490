import HttpGateway.Toml.Moment
import HttpGateway.Toml.Number

/-!
# Documents

A document is a list of statements, one a line: headers of tables and of lists of tables, and keys
with their values. Reading it gives the object of its root table.
-/

namespace HttpGateway.Toml

/-- A statement of a document. -/
inductive Statement where
  | table (path : KeyPath)
  | row (path : KeyPath)
  | entry (path : KeyPath) (value : Json)
  deriving Repr

/-- The object of an inline table with the given entries. -/
def inlineTable? (pairs : List (KeyPath × Json)) : Option Json :=
  let entries := pairs.foldlM (fun es (path, value) => Entries.assign path value .stated es) []
  match entries with
  | .ok es => some (.object (entriesToJson es))
  | .error _ => none

/-- Reads a value that consists of one piece. -/
def scalar : Scan Json
  | '"' :: rest => (quotedText '"' rest).map fun (t, rest) => (.str t, rest)
  | '\'' :: rest => (quotedText '\'' rest).map fun (t, rest) => (.str t, rest)
  | 't' :: 'r' :: 'u' :: 'e' :: rest => some (.bool true, rest)
  | 'f' :: 'a' :: 'l' :: 's' :: 'e' :: rest => some (.bool false, rest)
  | s =>
    if startsDate s then momentJson (dateAndTime s)
    else if startsTime s then momentJson (timeOfDay s)
    else number s

mutual

/-- Reads a value. An array or inline table may lie within `depth` others. -/
def value : (fuel depth : Nat) → Scan Json
  | 0, _, _ => none
  | fuel + 1, depth, s => match s, depth with
    | '[' :: _, 0 => none
    | '\x7b' :: _, 0 => none
    | '[' :: rest, depth + 1 =>
      (items fuel depth rest).map fun (js, rest) => (.arr js, rest)
    | '\x7b' :: rest, depth + 1 => match skipBlanks rest with
      | '\x7d' :: rest => some (.object [], rest)
      | rest => do
        let (ps, rest) ← pairs fuel depth rest
        some (← inlineTable? ps, rest)
    | s, _ => scalar s

/-- Reads the items of an array and its closing bracket. -/
def items : (fuel depth : Nat) → Scan (List Json)
  | 0, _, _ => none
  | fuel + 1, depth, s => match skipSpace s.length s with
    | none => none
    | some (']' :: rest) => some ([], rest)
    | some rest => do
      let (j, rest) ← value fuel depth rest
      match ← skipSpace rest.length rest with
      | ',' :: rest =>
        let (js, rest) ← items fuel depth rest
        some (j :: js, rest)
      | ']' :: rest => some ([j], rest)
      | _ => none

/-- Reads the keys and values of an inline table and its closing brace. -/
def pairs : (fuel depth : Nat) → Scan (List (KeyPath × Json))
  | 0, _, _ => none
  | fuel + 1, depth, s => do
    let (path, rest) ← key s
    let rest ← expect '=' rest
    let (j, rest) ← value fuel depth (skipBlanks rest)
    match skipBlanks rest with
    | ',' :: rest =>
      let (ps, rest) ← pairs fuel depth rest
      some ((path, j) :: ps, rest)
    | '\x7d' :: rest => some ([(path, j)], rest)
    | _ => none

end

/-- Reads a statement; the text does not start with a blank. -/
def statement : Scan Statement
  | '[' :: '[' :: rest => do
    let (path, rest) ← key rest
    some (.row path, ← expect ']' (← expect ']' rest))
  | '[' :: rest => do
    let (path, rest) ← key rest
    some (.table path, ← expect ']' rest)
  | s => do
    let (path, rest) ← key s
    let rest ← expect '=' rest
    let (j, rest) ← value (rest.length + 1) (nestingLimit - 1) (skipBlanks rest)
    some (.entry path j, rest)

/-- Reads the statements of a document. -/
def statements : (fuel : Nat) → List Char → Option (List Statement)
  | 0, _ => none
  | fuel + 1, s => match skipBlanks s with
    | [] => some []
    | c :: rest =>
      if c = '#' ∨ c = '\n' ∨ c = '\r' then (finishLine (c :: rest)).bind (statements fuel)
      else do
        let (st, rest) ← statement (c :: rest)
        let sts ← statements fuel (← finishLine rest)
        some (st :: sts)

/-- A document that is being built: its root table, and the path of the table that entries go to. -/
structure Building where
  root : Entries := []
  path : List String := []

/-- The keys on the way to a table under a header. -/
def KeyPath.keys (p : KeyPath) : List String := p.parents ++ [p.last]

/-- Carries out a statement. -/
def Building.run (b : Building) : Statement → Except DocumentError Building
  | .table path => do
    let root ← Entries.stateTable path .stated b.root
    .ok ⟨root, path.keys⟩
  | .row path => do
    let root ← Entries.stateRow path .stated b.root
    .ok ⟨root, path.keys⟩
  | .entry path value => do
    let root ← Entries.changeAt .implied (Entries.assign path value) b.path .stated b.root
    .ok { b with root }

/-- The mark that may stand at the start of a text to tell its encoding. -/
def byteOrderMark : Char := '\uFEFF'

/-- Reads a document. -/
def parse (text : String) : Except DocumentError Json := do
  let s := match text.toList with
    | c :: rest => if c = byteOrderMark then rest else c :: rest
    | [] => []
  match statements (s.length + 1) s with
  | none => .error .malformed
  | some sts => do
    let b ← sts.foldlM Building.run {}
    .ok (.object (entriesToJson b.root))

end HttpGateway.Toml
