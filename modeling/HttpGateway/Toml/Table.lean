import HttpGateway.Json.Basic

/-!
# Tables of a document

A document builds up a tree of tables. A table is stated once, by a header or by the keys of an
inline table; it may be implied before that by a longer header, and it may come about through the
dots of a key. Which of these it was decides what may still be added to it.
-/

namespace HttpGateway.Toml

/-- Why a text is no document. -/
inductive DocumentError where
  | malformed
  | duplicateKey (key : String)
  | notTable (key : String)
  deriving DecidableEq, Repr

/-- The keys that lead to a place in a document. -/
structure KeyPath where
  parents : List String
  last : String
  deriving DecidableEq, Repr

/-- How a table has come about: it was stated, it lies on the way to one that was, or it lies on the
way of a dotted key. -/
inductive TableForm where
  | stated
  | implied
  | dotted
  deriving DecidableEq, Repr

/-- A part of the tree: a finished value, a table, or a list of tables of which only the latest is
still open. -/
inductive Node where
  | value (v : Json)
  | table (form : TableForm) (entries : List (String × Node))
  | rows (earlier : List (List (String × Node))) (latest : List (String × Node))
  deriving Repr

/-- The entries of a table. -/
abbrev Entries := List (String × Node)

/-- Puts an entry in the place of the one with its key, or at the end. -/
def Entries.put (entries : Entries) (key : String) (node : Node) : Entries :=
  match entries with
  | [] => [(key, node)]
  | (k, n) :: rest => if k = key then (key, node) :: rest else (k, n) :: Entries.put rest key node

/-- A change to a table of some form. -/
abbrev Change := TableForm → Entries → Except DocumentError Entries

/-- Makes a change to the table at the end of a path. Tables missing on the way are made in the form
`made`. The way leads into the latest of a list of tables; a dotted key must not lead into a table
that was stated. -/
def Entries.changeAt (made : TableForm) (change : Change) : List String → Change
  | [], form, entries => change form entries
  | key :: path, _, entries =>
    match entries.lookup key with
    | none => do
      let sub ← changeAt made change path made []
      .ok (Entries.put entries key (.table made sub))
    | some (.value _) => .error (.notTable key)
    | some (.table form sub) =>
      if made = .dotted ∧ form = .stated then .error (.duplicateKey key)
      else do
        let sub ← changeAt made change path form sub
        .ok (Entries.put entries key (.table form sub))
    | some (.rows earlier latest) => do
      let latest ← changeAt made change path .stated latest
      .ok (Entries.put entries key (.rows earlier latest))

/-- Adds an entry to the table that a key leads to. With a dotted key that must be a table which has
come about through dots, and with a plain key one which has not. -/
def Entries.assign (path : KeyPath) (value : Json) : Change :=
  changeAt .dotted (fun form entries =>
    if (form = .dotted) ≠ (path.parents ≠ []) then .error (.duplicateKey path.last)
    else if (entries.lookup path.last).isSome then .error (.duplicateKey path.last)
    else .ok (Entries.put entries path.last (.value value))) path.parents

/-- States a table: a new one, or one that was implied. -/
def Entries.stateTable (path : KeyPath) : Change :=
  changeAt .implied (fun _ entries => match entries.lookup path.last with
    | none => .ok (Entries.put entries path.last (.table .stated []))
    | some (.table .implied sub) => .ok (Entries.put entries path.last (.table .stated sub))
    | some _ => .error (.duplicateKey path.last)) path.parents

/-- Adds a table to a list of tables, which is begun if need be. -/
def Entries.stateRow (path : KeyPath) : Change :=
  changeAt .implied (fun _ entries => match entries.lookup path.last with
    | none => .ok (Entries.put entries path.last (.rows [] []))
    | some (.rows earlier latest) =>
      .ok (Entries.put entries path.last (.rows (earlier ++ [latest]) []))
    | some _ => .error (.duplicateKey path.last)) path.parents

mutual

/-- The value of a part of the tree. -/
def Node.toJson : Node → Json
  | .value v => v
  | .table _ entries => .object (entriesToJson entries)
  | .rows earlier latest => .arr (rowsToJson earlier ++ [.object (entriesToJson latest)])

/-- The fields of a table. -/
def entriesToJson : List (String × Node) → List (String × Json)
  | [] => []
  | (key, node) :: rest => (key, node.toJson) :: entriesToJson rest

/-- The objects of a list of tables. -/
def rowsToJson : List (List (String × Node)) → List Json
  | [] => []
  | entries :: rest => .object (entriesToJson entries) :: rowsToJson rest

end

end HttpGateway.Toml
