import HttpGateway.Regex.Program
import HttpGateway.Unicode.Basic

/-!
# Matching

Runs a program over a text, one character at a time, with a list of threads in order of preference.
Two threads at the same node differ only in preference, so the later one is dropped; hence a run
takes at most as many steps for each character as the program has edges. The match found is the one
that starts first, and of those the one that the pattern prefers.
-/

namespace HttpGateway.Regex

/-- A way the program may have gone so far: its node and the places noted. -/
structure Thread where
  node : Nat
  places : Array (Option Nat)
  deriving Repr

/-- A place in a text: the character before it and the character after it. -/
structure Place where
  before : Option Char
  after : Option Char
  deriving Repr, DecidableEq

/-- Whether a character belongs to words. -/
def isWordChar (unicode : Bool) (c : Char) : Bool :=
  if c.toNat < 128 then c.isAlphanum || c = '_' else unicode && Unicode.wordChars.contains c

/-- Whether an assertion holds at a place. -/
def Look.holds (l : Look) (p : Place) : Bool :=
  let wordBefore (unicode : Bool) := p.before.any (isWordChar unicode)
  let wordAfter (unicode : Bool) := p.after.any (isWordChar unicode)
  match l with
  | .start => p.before.isNone
  | .finish => p.after.isNone
  | .lineStart false => p.before.all (· = '\n')
  | .lineEnd false => p.after.all (· = '\n')
  | .lineStart true => p.before.all fun c => c = '\n' || (c = '\r' && p.after ≠ some '\n')
  | .lineEnd true => p.after.all fun c => c = '\r' || (c = '\n' && p.before ≠ some '\r')
  | .word u => wordBefore u != wordAfter u
  | .notWord u => wordBefore u == wordAfter u
  | .wordStart u => !wordBefore u && wordAfter u
  | .wordEnd u => wordBefore u && !wordAfter u
  | .wordStartHalf u => !wordBefore u
  | .wordEndHalf u => !wordAfter u

/-- Follows the nodes that read no character, in order of preference, from a stack of threads. The
nodes already reached at this place are the bits of `seen`; the threads that wait for a character or
accept are collected last first. -/
def Program.follow (p : Program) (place : Place) (index : Nat) :
    (fuel : Nat) → List Thread → (seen : Nat) → List Thread → List Thread × Nat
  | 0, _, seen, out => (out, seen)
  | _, [], seen, out => (out, seen)
  | fuel + 1, t :: stack, seen, out =>
    if seen.testBit t.node then p.follow place index fuel stack seen out
    else
      let seen := seen ||| 1 <<< t.node
      match p.nodes[t.node]? with
      | none => p.follow place index fuel stack seen out
      | some (.pass next) => p.follow place index fuel ({ t with node := next } :: stack) seen out
      | some (.check l next) =>
        if l.holds place then p.follow place index fuel ({ t with node := next } :: stack) seen out
        else p.follow place index fuel stack seen out
      | some (.note slot next) =>
        let t := { node := next, places := t.places.setIfInBounds slot (some index) : Thread }
        p.follow place index fuel (t :: stack) seen out
      | some (.branch choices) =>
        p.follow place index fuel (choices.map (fun n => { t with node := n }) ++ stack) seen out
      | some (.read _ _) => p.follow place index fuel stack seen (t :: out)
      | some .accept => p.follow place index fuel stack seen (t :: out)

/-- The edges of a program, and one more: an upper bound on the steps at one place. -/
def Program.edges (p : Program) : Nat :=
  p.nodes.foldl (fun n node => n + match node with
    | .branch choices => choices.length + 1
    | _ => 2) 1

/-- The threads that have read the character `c`, up to the first that accepts before it, and the
places of that one. -/
def Program.advance (p : Program) (c : Option Char) :
    List Thread → List Thread × Option (Array (Option Nat))
  | [] => ([], none)
  | t :: rest => match p.nodes[t.node]? with
    | some .accept => ([], some t.places)
    | some (.read chars next) =>
      let (threads, found) := p.advance c rest
      if c.any chars.contains then ({ t with node := next } :: threads, found) else (threads, found)
    | _ => p.advance c rest

/-- What a run keeps between two characters: the threads, in order of preference, and the places of
the best match so far. -/
structure Run where
  threads : List Thread
  found : Option (Array (Option Nat))

/-- A new thread at the start of the program. -/
def Program.fresh (p : Program) (slots index : Nat) : Thread :=
  ⟨p.start, (Array.replicate slots none).setIfInBounds 0 (some index)⟩

/-- Takes a run over one place. While nothing is found, a thread of least preference starts here. -/
def Program.pass (p : Program) (slots edges : Nat) (place : Place) (index : Nat) (r : Run) : Run :=
  let starting := if r.found.isSome then [] else [p.fresh slots index]
  let stack := r.threads ++ starting
  let (reached, _) := p.follow place index (edges + stack.length) stack 0 []
  let (threads, accepted) := p.advance place.after reached.reverse
  ⟨threads, (accepted.map fun places => places.setIfInBounds 1 (some index)).or r.found⟩

/-- Takes a run over the rest of a text. -/
def Program.search (p : Program) (slots edges : Nat) :
    (before : Option Char) → (index : Nat) → Run → List Char → Option (Array (Option Nat))
  | before, index, r, [] => (p.pass slots edges ⟨before, none⟩ index r).found
  | before, index, r, c :: rest =>
    let r := p.pass slots edges ⟨before, some c⟩ index r
    if r.threads.isEmpty && r.found.isSome then r.found
    else p.search slots edges (some c) (index + 1) r rest

end HttpGateway.Regex
