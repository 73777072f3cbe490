import HttpGateway.Unicode.CharSet

/-!
# Regular expressions

The expressions that patterns are read into. Case folding, classes and flags are already resolved:
a leaf is a set of characters or an assertion about the place between two characters.
-/

namespace HttpGateway.Regex

/-- An assertion about a place in a text. -/
inductive Look where
  | start
  | finish
  | lineStart (crlf : Bool)
  | lineEnd (crlf : Bool)
  | word (unicode : Bool)
  | notWord (unicode : Bool)
  | wordStart (unicode : Bool)
  | wordEnd (unicode : Bool)
  | wordStartHalf (unicode : Bool)
  | wordEndHalf (unicode : Bool)
  deriving Repr, DecidableEq

/-- A regular expression. -/
inductive Expr where
  | empty
  | set (chars : CharSet)
  | look (l : Look)
  | capture (index : Nat) (body : Expr)
  | cat (first second : Expr)
  | alt (first second : Expr)
  | repeat (low : Nat) (high : Option Nat) (greedy : Bool) (body : Expr)
  deriving Repr, DecidableEq, Inhabited

namespace Expr

/-- One after another. -/
def catAll : List Expr → Expr
  | [] => .empty
  | [e] => e
  | e :: es => .cat e (catAll es)

/-- The first that matches. -/
def altAll : List Expr → Expr
  | [] => .empty
  | [e] => e
  | e :: es => .alt e (altAll es)

/-- Whether the expression can match without using a character. -/
def nullable : Expr → Bool
  | .empty => true
  | .set _ => false
  | .look _ => true
  | .capture _ e => e.nullable
  | .cat a b => a.nullable && b.nullable
  | .alt a b => a.nullable || b.nullable
  | .repeat low _ _ e => low == 0 || e.nullable

end Expr

end HttpGateway.Regex
