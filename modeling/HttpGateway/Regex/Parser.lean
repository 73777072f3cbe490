import HttpGateway.Regex.Class

/-!
# Reading patterns

A pattern is read from left to right with a stack of open groups. Flags take effect from where they
stand to the end of their group, so the flags in force are part of what is kept for each open group.
-/

namespace HttpGateway.Regex

/-- A part of a pattern: its expression, and how deep groups, classes, repetitions, sequences and
alternatives are nested in it. -/
structure Part where
  expr : Expr
  depth : Nat
  deriving Repr, DecidableEq

/-- What stands in a sequence: a part, or a setting of flags, which nothing can repeat. -/
inductive Piece where
  | part (p : Part)
  | setting
  deriving Repr, DecidableEq

/-- The part that a piece is. -/
def Piece.part? : Piece → Option Part
  | .part p => some p
  | .setting => none

/-- A group that is being read: its number if it captures, the flags around it, and what stood in
its surroundings before it. Sequences and alternatives are held last first. -/
structure OpenGroup where
  index : Option Nat
  flags : Flags
  pieces : List Piece
  alternatives : List Part
  deriving Repr

/-- What the reader of a pattern keeps in mind. -/
structure Reading where
  flags : Flags := {}
  captures : Nat := 0
  names : List (String × Nat) := []
  pieces : List Piece := []
  alternatives : List Part := []
  stack : List OpenGroup := []
  deriving Repr

/-- The depth of parts side by side: a part that stands alone is no level of its own. -/
def depthOf (count : Nat) (parts : List Part) : Nat :=
  let deepest := parts.foldl (fun d p => max d p.depth) 0
  if count ≤ 1 then deepest else deepest + 1

/-- The part that a sequence held last first makes. -/
def sequence (pieces : List Piece) : Part :=
  let parts := pieces.reverse.filterMap Piece.part?
  ⟨Expr.catAll (parts.map (·.expr)), depthOf pieces.length parts⟩

namespace Reading

/-- Adds an expression to the sequence. -/
def add (r : Reading) (e : Expr) (depth : Nat := 0) : Reading :=
  { r with pieces := .part ⟨e, depth⟩ :: r.pieces }

/-- The content of the innermost open group. -/
def body (r : Reading) : Part :=
  let parts := (sequence r.pieces :: r.alternatives).reverse
  ⟨Expr.altAll (parts.map (·.expr)), depthOf parts.length parts⟩

/-- Starts a new alternative. -/
def alternative (r : Reading) : Reading :=
  { r with alternatives := sequence r.pieces :: r.alternatives, pieces := [] }

/-- Opens a group with flags of its own. -/
def openGroup (r : Reading) (index : Option Nat) (inner : Flags) : Reading :=
  { r with
    flags := inner
    pieces := []
    alternatives := []
    stack := ⟨index, r.flags, r.pieces, r.alternatives⟩ :: r.stack }

/-- Opens a capturing group. -/
def openCapture (r : Reading) (name : Option String) : Except PatternError Reading :=
  let index := r.captures + 1
  let r := { r with captures := index }
  match name with
  | none => .ok (r.openGroup (some index) r.flags)
  | some n =>
    if (r.names.lookup n).isSome then .error .groupName
    else .ok ({ r with names := r.names ++ [(n, index)] }.openGroup (some index) r.flags)

/-- Closes the innermost group. -/
def closeGroup (r : Reading) : Except PatternError Reading :=
  match r.stack with
  | [] => .error .groupUnopened
  | g :: rest =>
    let inner := r.body
    let e := match g.index with
      | some i => .capture i inner.expr
      | none => inner.expr
    .ok { r with
      flags := g.flags
      pieces := .part ⟨e, inner.depth + 1⟩ :: g.pieces
      alternatives := g.alternatives
      stack := rest }

/-- Repeats the last expression of the sequence. -/
def repeatLast (r : Reading) (low : Nat) (high : Option Nat) (greedy : Bool) :
    Except PatternError Reading :=
  match r.pieces with
  | .part p :: rest =>
    let e := .repeat low high (greedy != r.flags.swapGreed) p.expr
    .ok { r with pieces := .part ⟨e, p.depth + 1⟩ :: rest }
  | _ => .error .operandMissing

/-- The expression of one escape or character under the flags in force. -/
def atom (f : Flags) : Atom → Except PatternError Expr
  | .char c => .ok (.set (fold f (CharSet.single c)))
  | .byte n => if f.unicode then .ok (.set (fold f [(n, n)])) else .error .notText
  | .set s => if f.unicode || s.isAscii then .ok (.set s) else .error .notText
  | .look l => .ok (.look l)

/-- The characters that a dot stands for. -/
def dot (f : Flags) : CharSet :=
  if f.dotAll then CharSet.full
  else if f.crlf then CharSet.complement [(0x0A, 0x0A), (0x0D, 0x0D)]
  else CharSet.complement [(0x0A, 0x0A)]

/-- Reads what follows an opening parenthesis. -/
def afterOpen (r : Reading) (s : List Char) : Except PatternError (Reading × List Char) :=
  match skip r.flags s with
  | '?' :: '=' :: _ | '?' :: '!' :: _ | '?' :: '<' :: '=' :: _ | '?' :: '<' :: '!' :: _ =>
    .error .lookAround
  | '?' :: 'P' :: '<' :: rest | '?' :: '<' :: rest => do
    let (name, rest) ← scanName rest
    .ok (← r.openCapture (some name), rest)
  | '?' :: rest => do
    let ((inner, closed, given), rest) ← scanFlags r.flags [] false r.flags rest
    if closed then
      if given then .ok ({ r with flags := inner, pieces := .setting :: r.pieces }, rest)
      else .error .operandMissing
    else .ok (r.openGroup none inner, rest)
  | rest => do .ok (← r.openCapture none, rest)

/-- Reads the question mark that makes a repetition lazy. -/
def scanLazy : List Char → Bool × List Char
  | '?' :: rest => (false, rest)
  | s => (true, s)

/-- Reads one item of a pattern. -/
def step (r : Reading) (c : Char) (rest : List Char) : Except PatternError (Reading × List Char) :=
  let f := r.flags
  match c with
  | '(' => r.afterOpen rest
  | ')' => do .ok (← r.closeGroup, rest)
  | '|' => .ok (r.alternative, rest)
  | '[' => do
    let ((set, depth), rest) ← scanClass f rest
    .ok (r.add (← atom f (.set set)) depth, rest)
  | '?' => let (greedy, rest) := scanLazy rest
    do .ok (← r.repeatLast 0 (some 1) greedy, rest)
  | '*' => let (greedy, rest) := scanLazy rest
    do .ok (← r.repeatLast 0 none greedy, rest)
  | '+' => let (greedy, rest) := scanLazy rest
    do .ok (← r.repeatLast 1 none greedy, rest)
  | '{' => do
    let _ ← r.repeatLast 0 none true
    let ((low, high), rest) ← scanCount f rest
    let (greedy, rest) := scanLazy (skip f rest)
    .ok (← r.repeatLast low high greedy, rest)
  | '\\' => do
    let (a, rest) ← scanEscape f rest
    .ok (r.add (← atom f a), rest)
  | '.' => do .ok (r.add (← atom f (.set (dot f))), rest)
  | '^' => .ok (r.add (.look (if f.multiLine then .lineStart f.crlf else .start)), rest)
  | '$' => .ok (r.add (.look (if f.multiLine then .lineEnd f.crlf else .finish)), rest)
  | c => do .ok (r.add (← atom f (.char c)), rest)

/-- Reads the rest of a pattern; every item takes at least one character. -/
def loop : (fuel : Nat) → Reading → List Char → Except PatternError Reading
  | 0, r, _ => .ok r
  | fuel + 1, r, s =>
    match skip r.flags s with
    | [] => .ok r
    | c :: rest => do
      let (r, rest) ← r.step c rest
      loop fuel r rest

end Reading

/-- The deepest nesting of a pattern. -/
def deepest : Nat := 250

/-- Reads a pattern: its expression, the number of capturing groups, and their names. -/
def readPattern (text : String) : Except PatternError (Expr × Nat × List (String × Nat)) := do
  let s := text.toList
  let r ← Reading.loop (s.length + 1) {} s
  if !r.stack.isEmpty then .error .groupUnclosed
  else if deepest < r.body.depth then .error .nesting
  else .ok (r.body.expr, r.captures, r.names)

end HttpGateway.Regex
