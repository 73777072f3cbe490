import HttpGateway.Regex.Syntax

/-!
# Programs

A regular expression as a graph of nodes. A node reads a character, checks a place, notes a place,
or branches to other nodes in order of preference; a match is a path to the accepting node.
-/

namespace HttpGateway.Regex

/-- A node of a program. The numbers are the nodes that follow. -/
inductive Node where
  | pass (next : Nat)
  | read (chars : CharSet) (next : Nat)
  | check (l : Look) (next : Nat)
  | note (slot : Nat) (next : Nat)
  | branch (choices : List Nat)
  | accept
  deriving Repr, DecidableEq, Inhabited

/-- A program: its nodes and the one it starts at. -/
structure Program where
  nodes : Array Node
  start : Nat
  deriving Repr, DecidableEq, Inhabited

/-- Adds a node and gives its number. -/
def addNode (n : Node) (nodes : Array Node) : Nat × Array Node := (nodes.size, nodes.push n)

/-- The choices of a repetition: to go on first if it is greedy, to leave first if it is lazy. -/
def choices (greedy : Bool) (more leave : Nat) : List Nat :=
  if greedy then [more, leave] else [leave, more]

/-- A builder puts nodes in front of the node `next` and gives the node to enter. -/
abbrev Builder := (next : Nat) → Array Node → Nat × Array Node

/-- A number of copies in a row. -/
def copies (body : Builder) : (count : Nat) → Builder
  | 0, next, nodes => (next, nodes)
  | k + 1, next, nodes =>
    let (entry, nodes) := body next nodes
    copies body k entry nodes

/-- At most a number of copies in a row, after each of which the repetition may leave. -/
def upTo (body : Builder) (greedy : Bool) (leave : Nat) : (count : Nat) → Builder
  | 0, next, nodes => (next, nodes)
  | k + 1, next, nodes =>
    let (entry, nodes) := body next nodes
    let (entry, nodes) := addNode (.branch (choices greedy entry leave)) nodes
    upTo body greedy leave k entry nodes

/-- A repetition from one on: the body, and after it the choice to enter it again. The answer holds
the entry and the place of the choice. -/
def loopOf (body : Builder) (greedy : Bool) (next : Nat) (nodes : Array Node) :
    Nat × Nat × Array Node :=
  let (again, nodes) := addNode (.branch []) nodes
  let (entry, nodes) := body again nodes
  (entry, again, nodes.setIfInBounds again (.branch (choices greedy entry next)))

/-- A repetition from zero on. If the body can match nothing, a choice of its own comes before the
first round, so that a round without a character ends the repetition. -/
def starOf (body : Builder) (nullable greedy : Bool) : Builder := fun next nodes =>
  let (entry, again, nodes) := loopOf body greedy next nodes
  if nullable then addNode (.branch (choices greedy entry next)) nodes else (again, nodes)

/-- Builds the nodes of an expression. -/
def build : Expr → Builder
  | .empty, next, nodes => (next, nodes)
  | .set s, next, nodes => addNode (.read s next) nodes
  | .look l, next, nodes => addNode (.check l next) nodes
  | .capture i e, next, nodes =>
    let (close, nodes) := addNode (.note (2 * i + 1) next) nodes
    let (body, nodes) := build e close nodes
    addNode (.note (2 * i) body) nodes
  | .cat a b, next, nodes =>
    let (second, nodes) := build b next nodes
    build a second nodes
  | .alt a b, next, nodes =>
    let (first, nodes) := build a next nodes
    let (second, nodes) := build b next nodes
    addNode (.branch [first, second]) nodes
  | .repeat 0 none greedy e, next, nodes => starOf (build e) e.nullable greedy next nodes
  | .repeat (k + 1) none greedy e, next, nodes =>
    let (entry, _, nodes) := loopOf (build e) greedy next nodes
    copies (build e) k entry nodes
  | .repeat low (some high) greedy e, next, nodes =>
    let (entry, nodes) := upTo (build e) greedy next (high - low) next nodes
    copies (build e) low entry nodes

/-- The program of an expression. -/
def Program.ofExpr (e : Expr) : Program :=
  let (start, nodes) := build e 0 #[.accept]
  ⟨nodes, start⟩

end HttpGateway.Regex
