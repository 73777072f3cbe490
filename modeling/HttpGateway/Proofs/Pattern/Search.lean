import HttpGateway.Pattern.Segment

/-!
# The search for a match

Matching goes back and forth. Captures are put on as pieces are taken, and those of an attempt that
has failed are taken off again before the next one, so that at the end just those of the match are
left. This search with everything captured so far in hand finds what the segments find on their own.
-/

namespace HttpGateway.SegmentPattern

/-- Tries one list of pieces after the other. After an attempt that has failed, the captures are cut
back to those from before it. -/
def tryEach (attempt : List String → Captures → Bool × Captures) :
    List (List String) → Captures → Bool × Captures
  | [], held => (false, held)
  | pieces :: later, held =>
    match attempt pieces held with
    | (true, left) => (true, left)
    | (false, left) => tryEach attempt later (left.1.take held.1.length, left.2)

/-- Searches for a match with what has been captured so far in hand. A capture is put on before the
pieces behind it are looked at, and taken off again if these do not match. The answer holds whether
there is a match, and what is in hand then. -/
def search (kind : PieceKind) : List Segment → List String → Captures → Bool × Captures
  | [], pieces, held => (pieces.isEmpty, held)
  | .literal text :: segments, pieces, held =>
    match pieces with
    | piece :: rest => if piece = text then search kind segments rest held else (false, held)
    | [] => (false, held)
  | .glob text :: segments, pieces, held =>
    match pieces with
    | piece :: rest =>
      if Glob.isMatch text piece then search kind segments rest held else (false, held)
    | [] => (false, held)
  | .capture name :: segments, pieces, held =>
    match pieces with
    | piece :: rest =>
      if piece = "" then (false, held)
      else match search kind segments rest (held.1 ++ [(name, piece)], held.2) with
        | (true, left) => (true, left)
        | (false, left) => (false, left.1.dropLast, left.2)
    | [] => (false, held)
  | .anyPieces :: segments, pieces, held =>
    if segments.isEmpty then (true, held.1, some (kind.join pieces))
    else tryEach (search kind segments) (suffixes pieces) held
  | .captureRest name :: segments, pieces, held =>
    if segments.isEmpty then
      (true, held.1 ++ [(name, kind.join pieces)], some (kind.join pieces))
    else tryEach (search kind segments) (suffixes pieces) held

/-- What is found goes behind what is in hand, and nothing found leaves that as it is. -/
def Captures.answer (held : Captures) : Option Captures → Bool × Captures
  | some found => (true, held.1 ++ found.1, found.2.or held.2)
  | none => (false, held)

theorem tryEach_eq {attempt : List String → Captures → Bool × Captures}
    {find : List String → Option Captures}
    (h : ∀ pieces held, attempt pieces held = held.answer (find pieces)) (lists : List (List String))
    (held : Captures) : tryEach attempt lists held = held.answer (lists.findSome? find) := by
  induction lists with
  | nil => rfl
  | cons pieces later ih =>
      simp only [tryEach, h, List.findSome?_cons]
      cases find pieces with
      | some found => rfl
      | none =>
          simp only [Captures.answer, List.take_length]
          exact ih

/-- With something in hand the search finds what the segments find, and after a search in vain there
is in hand what was there before it. -/
theorem search_eq (kind : PieceKind) (segments : List Segment) (pieces : List String)
    (held : Captures) :
    search kind segments pieces held = held.answer (matchFrom kind segments pieces) := by
  induction segments generalizing pieces held with
  | nil => cases pieces <;> simp [search, matchFrom, Captures.answer]
  | cons segment segments ih =>
      cases segment with
      | literal text =>
          cases pieces with
          | nil => rfl
          | cons piece rest =>
              simp only [search, matchFrom]
              split
              · exact ih rest held
              · rfl
      | glob text =>
          cases pieces with
          | nil => rfl
          | cons piece rest =>
              simp only [search, matchFrom]
              split
              · exact ih rest held
              · rfl
      | capture name =>
          cases pieces with
          | nil => rfl
          | cons piece rest =>
              simp only [search, matchFrom, ih]
              split
              · rfl
              · cases matchFrom kind segments rest <;> simp [Captures.answer]
      | anyPieces =>
          simp only [search, matchFrom]
          split
          · simp [Captures.answer]
          · exact tryEach_eq ih _ held
      | captureRest name =>
          simp only [search, matchFrom]
          split
          · rfl
          · exact tryEach_eq ih _ held

/-- A pattern matches a text if the search that starts with nothing in hand finds a match. The
variables are those in hand then, of which the later of one name counts, and what the last segment
took is the remainder. -/
theorem match?_eq_search (p : SegmentPattern) (text : String) :
    p.match? text =
      match search p.kind p.segments (p.piecesOf text) ([], none) with
      | (true, found, tail) => some ⟨Dictionary.ofList found, tail⟩
      | (false, _) => none := by
  rw [search_eq, match?]
  cases matchFrom p.kind p.segments (p.piecesOf text) <;> simp [Captures.answer]

end HttpGateway.SegmentPattern
