import HttpGateway.Dictionary
import HttpGateway.Pattern.Glob
import HttpGateway.Text.Pieces
import HttpGateway.Json.Decode

/-!
# Segment patterns

Patterns for paths and hosts. Both are cut into pieces, at slashes or at dots, and a pattern says
for each piece what it must be: a given text, a glob, any non-empty text to be captured, or any
number of pieces.
-/

namespace HttpGateway

/-- What a pattern asks of the pieces it stands for. -/
inductive Segment where
  | literal (text : String)
  | glob (text : String)
  | capture (name : String)
  | anyPieces
  | captureRest (name : String)
  deriving DecidableEq, Repr

/-- The two kinds of texts that are matched piece by piece. -/
inductive PieceKind where
  | path
  | host
  deriving DecidableEq, Repr

/-- Why a text is no pattern. -/
inductive SegmentError where
  | pathWithoutSlash (pattern : String)
  | emptyHost
  | restNotLast (piece pattern : String)
  | badName (name pattern : String)
  | unbalanced (pattern : String)
  deriving DecidableEq, Repr

/-- The wording of each cause. -/
def SegmentError.message : SegmentError → String
  | .pathWithoutSlash p => "path pattern " ++ ticked p ++ " must start with " ++ ticked "/"
  | .emptyHost => "host pattern is empty"
  | .restNotLast piece p => ticked piece ++ " must be the last segment of " ++ ticked p
  | .badName name p => "invalid capture " ++ ticked ("\x7b" ++ name ++ "\x7d") ++ " in " ++ ticked p
  | .unbalanced p => "unbalanced capture in " ++ ticked p

/-- What a match leaves behind: the captured texts by name, and what the last segment took if it
takes any number of pieces. -/
structure PathMatch where
  captured : Dictionary String
  remainder : Option String
  deriving DecidableEq, Repr

namespace PieceKind

/-- The character between two pieces. -/
def separator : PieceKind → Char
  | .path => '/'
  | .host => '.'

/-- The pieces of a text. One slash at the start of a path is no separator, and an empty text has no
pieces. -/
def split (kind : PieceKind) (text : String) : List String :=
  let s := match kind, text.toList with
    | .path, '/' :: rest => rest
    | _, s => s
  if s.isEmpty then [] else (Text.pieces kind.separator s).map String.ofList

/-- The text of pieces: in a path a slash goes before each, in a host a dot between each two. -/
def join (kind : PieceKind) (pieces : List String) : String :=
  match kind with
  | .path => String.join (pieces.map ("/" ++ ·))
  | .host => joinTexts "." pieces

end PieceKind

namespace Segment

/-- What stands between an opening text and a closing brace, if the piece has this form. -/
def inside (opening : String) (piece : List Char) : Option (List Char) :=
  match Text.afterPrefix? opening.toList piece with
  | none => none
  | some tail => match tail.reverse with
    | '\x7d' :: name => some name.reverse
    | _ => none

/-- Checks the name of a capture: it is not empty and holds no colon. -/
def checkName (pattern : String) (name : List Char) : Except SegmentError String :=
  if name.isEmpty || name.contains ':' then .error (.badName (String.ofList name) pattern)
  else .ok (String.ofList name)

/-- Reads one piece of a pattern; `last` tells whether it is the last one. -/
def parse (pattern : String) (last : Bool) (piece : String) : Except SegmentError Segment :=
  let s := piece.toList
  if piece = "**" then .ok .anyPieces
  else match inside "\x7b*" s with
    | some name =>
      if last then (checkName pattern name).map .captureRest
      else .error (.restNotLast piece pattern)
    | none => match inside "\x7b" s with
      | some name => (checkName pattern name).map .capture
      | none =>
        if s.contains '\x7b' || s.contains '\x7d' then .error (.unbalanced pattern)
        else if s.contains '*' || s.contains '?' then .ok (.glob piece)
        else .ok (.literal piece)

/-- Reads the pieces of a pattern. -/
def parseAll (pattern : String) : List String → Except SegmentError (List Segment)
  | [] => .ok []
  | piece :: rest => do
    let segment ← parse pattern rest.isEmpty piece
    .ok (segment :: (← parseAll pattern rest))

end Segment

/-- A pattern: its kind, its text, and what it asks of the pieces. -/
structure SegmentPattern where
  kind : PieceKind
  text : String
  segments : List Segment
  deriving DecidableEq, Repr

namespace SegmentPattern

/-- Reads a pattern of either kind from its text. -/
def ofText (kind : PieceKind) (text : String) : Except SegmentError SegmentPattern :=
  (Segment.parseAll text (kind.split text)).map fun segments => ⟨kind, text, segments⟩

/-- Reads a pattern for paths, which must start with a slash. -/
def path (text : String) : Except SegmentError SegmentPattern :=
  if text.toList.head? = some '/' then ofText .path text else .error (.pathWithoutSlash text)

/-- Reads a pattern for hosts, in lower case. -/
def host (text : String) : Except SegmentError SegmentPattern :=
  if text = "" then .error .emptyHost else ofText .host (lowerText text)

/-- Reads a pattern of the given kind. -/
def parse : PieceKind → String → Except SegmentError SegmentPattern
  | .path => path
  | .host => host

/-- Texts captured along a match, in order, and what the last segment took. -/
abbrev Captures := List (String × String) × Option String

/-- The list itself and all its shorter ends, longest first. -/
def suffixes {α : Type} : List α → List (List α)
  | [] => [[]]
  | a :: rest => (a :: rest) :: suffixes rest

/-- Matches segments against pieces. A segment for any number of pieces takes as few as it can,
unless it is the last one, which takes all. -/
def matchFrom (kind : PieceKind) : List Segment → List String → Option Captures
  | [], [] => some ([], none)
  | [], _ :: _ => none
  | .literal text :: segments, pieces =>
    match pieces with
    | piece :: rest => if piece = text then matchFrom kind segments rest else none
    | [] => none
  | .glob text :: segments, pieces =>
    match pieces with
    | piece :: rest => if Glob.isMatch text piece then matchFrom kind segments rest else none
    | [] => none
  | .capture name :: segments, pieces =>
    match pieces with
    | piece :: rest =>
      if piece = "" then none
      else (matchFrom kind segments rest).map fun (found, tail) => ((name, piece) :: found, tail)
    | [] => none
  | .anyPieces :: segments, pieces =>
    if segments.isEmpty then some ([], some (kind.join pieces))
    else (suffixes pieces).findSome? fun rest => matchFrom kind segments rest
  | .captureRest name :: segments, pieces =>
    if segments.isEmpty then some ([(name, kind.join pieces)], some (kind.join pieces))
    else (suffixes pieces).findSome? fun rest => matchFrom kind segments rest

/-- Whether the pattern ends in an empty piece, as `/a/` does. -/
def endsEmpty (p : SegmentPattern) : Bool := p.segments.getLast? == some (.literal "")

/-- The pieces of a text as the pattern looks at them: the empty piece after the slash at the end of
a path counts only for a pattern that ends the same way. -/
def piecesOf (p : SegmentPattern) (text : String) : List String :=
  let pieces := p.kind.split text
  if p.kind = .path && pieces.getLast? == some "" && !p.endsEmpty then pieces.dropLast else pieces

/-- Matches a text. Of two captures with one name the later stays. -/
def match? (p : SegmentPattern) (text : String) : Option PathMatch :=
  (matchFrom p.kind p.segments (p.piecesOf text)).map fun (found, tail) =>
    ⟨Dictionary.ofList found, tail⟩

end SegmentPattern

end HttpGateway
