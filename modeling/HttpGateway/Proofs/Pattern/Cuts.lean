import HttpGateway.Proofs.Answer
import HttpGateway.Proofs.Pattern.Pieces
import Mathlib

/-!
# What a pattern matches

A pattern matches a text if the pieces of the text can be cut into groups, one for each segment,
such that every segment may stand for its group. Of several cuts the match is the one whose groups
are the shortest, the first group that differs deciding; captures and remainder are those of this
cut.
-/

namespace HttpGateway

namespace Segment

/-- What a segment may stand for. -/
def Takes : Segment → List String → Prop
  | .literal text, group => group = [text]
  | .glob text, group => ∃ piece, Glob.isMatch text piece = true ∧ group = [piece]
  | .capture _, group => ∃ piece, piece ≠ "" ∧ group = [piece]
  | .anyPieces, _ => True
  | .captureRest _, _ => True

/-- Whether a segment stands for any number of pieces. -/
def isOpen : Segment → Bool
  | .anyPieces => true
  | .captureRest _ => true
  | _ => false

/-- What is captured if a segment takes this group. -/
def captures (kind : PieceKind) : Segment → List String → List (String × String)
  | .capture name, group => group.map fun piece => (name, piece)
  | .captureRest name, group => [(name, kind.join group)]
  | _, _ => []

theorem length_of_takes {s : Segment} {group : List String} (h : s.Takes group)
    (hs : s.isOpen = false) : group.length = 1 := by
  cases s with
  | literal text =>
      obtain rfl : group = [text] := h
      rfl
  | glob text | capture name =>
      obtain ⟨piece, -, rfl⟩ := h
      rfl
  | anyPieces | captureRest name => cases hs

/-- A cut of pieces into groups, one for each segment. -/
structure IsCut (segments : List Segment) (pieces : List String) (groups : List (List String)) :
    Prop where
  takes : List.Forall₂ Takes segments groups
  flatten : groups.flatten = pieces

/-- The first group that differs is the shorter one. -/
def Shorter : List (List String) → List (List String) → Prop :=
  List.Lex fun group other => group.length < other.length

/-- The cut before all others. -/
structure IsFirstCut (segments : List Segment) (pieces : List String)
    (groups : List (List String)) : Prop where
  isCut : IsCut segments pieces groups
  first : ∀ other, IsCut segments pieces other → other = groups ∨ Shorter groups other

variable {kind : PieceKind} {s : Segment} {segments : List Segment}
  {pieces group rest : List String} {groups : List (List String)}

theorem isCut_nil_iff : IsCut [] pieces groups ↔ groups = [] ∧ pieces = [] := by
  constructor
  · rintro ⟨takes, flatten⟩
    cases takes
    exact ⟨rfl, flatten.symm⟩
  · rintro ⟨rfl, rfl⟩
    exact ⟨.nil, rfl⟩

theorem isCut_cons_iff : IsCut (s :: segments) pieces groups ↔
    ∃ group rest others, groups = group :: others ∧ pieces = group ++ rest ∧ s.Takes group ∧
      IsCut segments rest others := by
  constructor
  · rintro ⟨takes, rfl⟩
    cases takes with
    | cons hgroup hothers => exact ⟨_, _, _, rfl, rfl, hgroup, hothers, rfl⟩
  · rintro ⟨group, rest, others, rfl, rfl, hgroup, takes, rfl⟩
    exact ⟨.cons hgroup takes, rfl⟩

theorem isFirstCut_nil : IsFirstCut [] [] [] :=
  ⟨isCut_nil_iff.mpr ⟨rfl, rfl⟩, fun _ h => .inl (isCut_nil_iff.mp h).1⟩

/-- The first cut begins with the shortest group after which there is any cut. -/
theorem IsFirstCut.cons (h : IsFirstCut segments rest groups) (hgroup : s.Takes group)
    (hshort : ∀ group' rest' others, group' ++ rest' = group ++ rest → s.Takes group' →
      group'.length < group.length → ¬IsCut segments rest' others) :
    IsFirstCut (s :: segments) (group ++ rest) (group :: groups) := by
  refine ⟨isCut_cons_iff.mpr ⟨group, rest, groups, rfl, rfl, hgroup, h.isCut⟩, ?_⟩
  intro other hother
  obtain ⟨group', rest', others, rfl, hpieces, hgroup', hothers⟩ := isCut_cons_iff.mp hother
  rcases Nat.lt_trichotomy group.length group'.length with hlt | heq | hgt
  · exact .inr (.rel hlt)
  · -- Both begin with the same group, and the cuts of the same rest decide.
    obtain ⟨rfl, rfl⟩ := List.append_inj hpieces heq
    rcases h.first others hothers with rfl | hlater
    · exact .inl rfl
    · exact .inr (.cons hlater)
  · exact absurd hothers (hshort group' rest' others hpieces.symm hgroup' hgt)

/-- A segment for one piece leaves no choice. -/
theorem IsFirstCut.cons_of_not_isOpen (h : IsFirstCut segments rest groups) (hgroup : s.Takes group)
    (hs : s.isOpen = false) : IsFirstCut (s :: segments) (group ++ rest) (group :: groups) := by
  refine h.cons hgroup fun group' rest' others _ hgroup' hlt => ?_
  have hone := length_of_takes hgroup hs
  have hone' := length_of_takes hgroup' hs
  omega

/-- The segment that captures the rest stands at most at the end. -/
def RestLast : List Segment → Prop
  | [] => True
  | s :: segments => ((∃ name, s = .captureRest name) → segments = []) ∧ RestLast segments

end Segment

open Segment

/-- What is captured along a cut, in order. -/
def capturesAlong (kind : PieceKind) (segments : List Segment) (groups : List (List String)) :
    List (String × String) :=
  (List.zipWith (Segment.captures kind) segments groups).flatten

/-- What is left to the last segment, if it stands for any number of pieces. -/
def remainderAlong (kind : PieceKind) (segments : List Segment) (groups : List (List String)) :
    Option String :=
  (segments.zip groups).getLast?.bind fun (s, group) =>
    if s.isOpen then some (kind.join group) else none

theorem remainderAlong_cons (kind : PieceKind) (s : Segment) (group : List String)
    {segments : List Segment} {groups : List (List String)} (hne : segments ≠ [])
    (htakes : List.Forall₂ Takes segments groups) :
    remainderAlong kind (s :: segments) (group :: groups) =
      remainderAlong kind segments groups := by
  cases htakes with
  | nil => exact absurd rfl hne
  | cons h hrest => rw [remainderAlong, remainderAlong, List.zip_cons_cons, List.zip_cons_cons,
      List.getLast?_cons_cons]

namespace SegmentPattern

/-! ### Trying all ends -/

section Suffixes

variable {α β : Type} {f : List α → Option β} {l front rest : List α} {b : β}

/-- Of all ends of a list the longest one is found that gives anything. -/
theorem exists_of_findSome?_suffixes (h : (suffixes l).findSome? f = some b) :
    ∃ front rest, front ++ rest = l ∧ f rest = some b ∧
      ∀ front' rest', front' ++ rest' = l → front'.length < front.length → f rest' = none := by
  induction l with
  | nil =>
      have hnil : f [] = some b := by simpa [suffixes] using h
      exact ⟨[], [], rfl, hnil, fun _ _ _ hlt => absurd hlt (Nat.not_lt_zero _)⟩
  | cons a l ih =>
      rw [suffixes, List.findSome?_cons] at h
      cases hwhole : f (a :: l) with
      | some c =>
          rw [hwhole] at h
          obtain rfl : c = b := Option.some.inj h
          exact ⟨[], a :: l, rfl, hwhole, fun _ _ _ hlt => absurd hlt (Nat.not_lt_zero _)⟩
      | none =>
          rw [hwhole] at h
          obtain ⟨front, rest, rfl, hrest, hshort⟩ := ih h
          refine ⟨a :: front, rest, rfl, hrest, fun front' rest' heq hlt => ?_⟩
          cases front' with
          | nil =>
              obtain rfl : rest' = a :: (front ++ rest) := heq
              exact hwhole
          | cons a' front' =>
              obtain ⟨-, htail⟩ := List.cons.inj heq
              exact hshort front' rest' htail (Nat.lt_of_succ_lt_succ hlt)

theorem eq_none_of_findSome?_suffixes (h : (suffixes l).findSome? f = none) (front rest : List α)
    (heq : front ++ rest = l) : f rest = none := by
  induction l generalizing front with
  | nil =>
      obtain ⟨-, rfl⟩ := List.append_eq_nil_iff.mp heq
      simpa [suffixes] using h
  | cons a l ih =>
      rw [suffixes, List.findSome?_cons] at h
      cases hwhole : f (a :: l) with
      | some c =>
          rw [hwhole] at h
          cases h
      | none =>
          rw [hwhole] at h
          cases front with
          | nil =>
              obtain rfl : rest = a :: l := heq
              exact hwhole
          | cons a' front => exact ih h front (List.cons.inj heq).2

end Suffixes

/-! ### Matching pieces -/

variable {kind : PieceKind} {s : Segment} {segments : List Segment} {pieces : List String}
  {found : Captures}

/-- What there is to know of the outcome of matching segments against pieces. -/
def Finds (kind : PieceKind) (segments : List Segment) (pieces : List String) :
    Option Captures → Prop
  | some found => ∃ groups, IsFirstCut segments pieces groups ∧
      found = (capturesAlong kind segments groups, remainderAlong kind segments groups)
  | none => ∀ groups, ¬IsCut segments pieces groups

theorem finds_nil (kind : PieceKind) (pieces : List String) :
    Finds kind [] pieces (matchFrom kind [] pieces) := by
  cases pieces with
  | nil => exact ⟨[], isFirstCut_nil, rfl⟩
  | cons piece pieces => exact fun groups h => nomatch (isCut_nil_iff.mp h).2

/-- A last segment for any number of pieces takes all that is left. -/
theorem finds_last (hopen : s.isOpen = true) (htakes : ∀ group, s.Takes group) :
    Finds kind [s] pieces (some (s.captures kind pieces, some (kind.join pieces))) := by
  refine ⟨[pieces], ?_, ?_⟩
  · have hcut : IsFirstCut [s] (pieces ++ []) [pieces] := by
      refine isFirstCut_nil.cons (htakes pieces) fun group' rest' others heq _ hlt hothers => ?_
      obtain rfl := (isCut_nil_iff.mp hothers).2
      obtain rfl : group' = pieces := by simpa using heq
      exact absurd hlt (Nat.lt_irrefl _)
    rwa [List.append_nil] at hcut
  · simp [capturesAlong, remainderAlong, hopen]

/-- A segment for any number of pieces that captures nothing takes as few as it can. -/
theorem finds_anyPieces (hne : segments ≠ [])
    (ih : ∀ pieces, Finds kind segments pieces (matchFrom kind segments pieces)) :
    Finds kind (.anyPieces :: segments) pieces
      ((suffixes pieces).findSome? fun rest => matchFrom kind segments rest) := by
  cases hfind : (suffixes pieces).findSome? fun rest => matchFrom kind segments rest with
  | none =>
      intro groups hcut
      obtain ⟨group, rest, others, -, hpieces, -, hothers⟩ := isCut_cons_iff.mp hcut
      have hnone := ih rest
      rw [eq_none_of_findSome?_suffixes hfind group rest hpieces.symm] at hnone
      exact hnone others hothers
  | some found =>
      obtain ⟨group, rest, rfl, hrest, hshort⟩ := exists_of_findSome?_suffixes hfind
      have hsome := ih rest
      rw [hrest] at hsome
      obtain ⟨groups, hfirst, rfl⟩ := hsome
      -- A shorter group leaves a longer rest, and against that nothing was found.
      have hfewest : ∀ group' rest' others, group' ++ rest' = group ++ rest →
          Segment.anyPieces.Takes group' → group'.length < group.length →
            ¬IsCut segments rest' others := by
        intro group' rest' others heq _ hlt hothers
        have hnone := ih rest'
        rw [hshort group' rest' heq hlt] at hnone
        exact hnone others hothers
      refine ⟨group :: groups, hfirst.cons trivial hfewest, ?_⟩
      rw [remainderAlong_cons kind _ group hne hfirst.isCut.takes]
      rfl

theorem matchFrom_of_takes (hs : s.isOpen = false) {piece : String} (htakes : s.Takes [piece])
    (rest : List String) : matchFrom kind (s :: segments) (piece :: rest) =
      (matchFrom kind segments rest).map fun (found, tail) =>
        (s.captures kind [piece] ++ found, tail) := by
  cases s with
  | literal text =>
      obtain rfl : piece = text := (List.cons.inj htakes).1
      simp [matchFrom, Segment.captures]
  | glob text =>
      obtain ⟨taken, htaken, heq⟩ := htakes
      obtain rfl : piece = taken := (List.cons.inj heq).1
      simp [matchFrom, Segment.captures, htaken]
  | capture name =>
      obtain ⟨taken, htaken, heq⟩ := htakes
      obtain rfl : piece = taken := (List.cons.inj heq).1
      rw [matchFrom, if_neg htaken]
      rfl
  | anyPieces | captureRest name => cases hs

theorem matchFrom_of_not_takes (hs : s.isOpen = false)
    (hnot : ∀ piece rest, pieces = piece :: rest → ¬s.Takes [piece]) :
    matchFrom kind (s :: segments) pieces = none := by
  cases pieces with
  | nil =>
      cases s with
      | anyPieces | captureRest name => cases hs
      | _ => rfl
  | cons piece rest =>
      have hnot := hnot piece rest rfl
      cases s with
      | literal text => exact if_neg fun heq => hnot (congrArg (fun text => [text]) heq)
      | glob text => exact if_neg fun hglob => hnot ⟨piece, hglob, rfl⟩
      | capture name => exact if_pos (by_contra fun hne => hnot ⟨piece, hne, rfl⟩)
      | anyPieces | captureRest name => cases hs

/-- A segment for one piece takes the next one, if it may stand for it. -/
theorem finds_of_single (hs : s.isOpen = false)
    (ih : ∀ pieces, Finds kind segments pieces (matchFrom kind segments pieces)) :
    Finds kind (s :: segments) pieces (matchFrom kind (s :: segments) pieces) := by
  by_cases htaken : ∃ piece rest, pieces = piece :: rest ∧ s.Takes [piece]
  · obtain ⟨piece, rest, rfl, htakes⟩ := htaken
    have ih := ih rest
    rw [matchFrom_of_takes hs htakes]
    cases hrest : matchFrom kind segments rest with
    | none =>
        rw [hrest] at ih
        intro groups hcut
        obtain ⟨group, rest', others, -, hpieces, hgroup, hothers⟩ := isCut_cons_iff.mp hcut
        obtain ⟨piece', rfl⟩ := List.length_eq_one_iff.mp (length_of_takes hgroup hs)
        obtain ⟨-, rfl⟩ := List.cons.inj hpieces
        exact ih others hothers
    | some found =>
        rw [hrest] at ih
        obtain ⟨groups, hfirst, rfl⟩ := ih
        refine ⟨[piece] :: groups, hfirst.cons_of_not_isOpen htakes hs, ?_⟩
        have hremainder : remainderAlong kind (s :: segments) ([piece] :: groups) =
            remainderAlong kind segments groups := by
          by_cases hne : segments = []
          · subst hne
            simp [remainderAlong, hs]
          · exact remainderAlong_cons kind s [piece] hne hfirst.isCut.takes
        rw [hremainder]
        rfl
  · have hnot : ∀ piece rest, pieces = piece :: rest → ¬s.Takes [piece] :=
      fun piece rest hpieces htakes => htaken ⟨piece, rest, hpieces, htakes⟩
    rw [matchFrom_of_not_takes hs hnot]
    intro groups hcut
    obtain ⟨group, rest, others, -, hpieces, hgroup, -⟩ := isCut_cons_iff.mp hcut
    obtain ⟨piece, rfl⟩ := List.length_eq_one_iff.mp (length_of_takes hgroup hs)
    exact hnot piece rest hpieces hgroup

/-- Matching finds the first cut, and finds none only if there is none. -/
theorem finds_matchFrom (kind : PieceKind) (hlast : RestLast segments) (pieces : List String) :
    Finds kind segments pieces (matchFrom kind segments pieces) := by
  induction segments generalizing pieces with
  | nil => exact finds_nil kind pieces
  | cons s segments ih =>
      obtain ⟨hrest, hlast⟩ := hlast
      have ih := ih hlast
      cases s with
      | literal text | glob text | capture name => exact finds_of_single rfl ih
      | anyPieces =>
          rw [matchFrom]
          split
          next hnil =>
            obtain rfl := List.isEmpty_iff.mp hnil
            exact finds_last rfl fun _ => trivial
          next hne => exact finds_anyPieces (fun hnil => hne (List.isEmpty_iff.mpr hnil)) ih
      | captureRest name =>
          obtain rfl := hrest ⟨name, rfl⟩
          exact finds_last rfl fun _ => trivial

/-! ### Patterns -/

theorem eq_true_of_parse_eq_captureRest {pattern name piece : String} {last : Bool}
    (h : Segment.parse pattern last piece = .ok (.captureRest name)) : last = true := by
  unfold Segment.parse at h
  dsimp only at h
  split at h
  · cases h
  · split at h
    · split at h
      · assumption
      · cases h
    · split at h
      · obtain ⟨_, -, hname⟩ := map_eq_ok_iff.mp h
        cases hname
      · split at h
        · cases h
        · split at h <;> cases h

theorem restLast_of_parseAll {pattern : String} {texts : List String}
    (h : Segment.parseAll pattern texts = .ok segments) : RestLast segments := by
  induction texts generalizing segments with
  | nil =>
      obtain rfl : [] = segments := Except.ok.inj h
      trivial
  | cons text texts ih =>
      obtain ⟨s, hs, h⟩ := bind_eq_ok_iff.mp h
      obtain ⟨others, hothers, h⟩ := bind_eq_ok_iff.mp h
      obtain rfl : s :: others = segments := Except.ok.inj h
      refine ⟨?_, ih hothers⟩
      rintro ⟨name, rfl⟩
      have hlast := eq_true_of_parse_eq_captureRest hs
      obtain rfl := List.isEmpty_iff.mp hlast
      exact (Except.ok.inj hothers).symm

theorem restLast_of_parse {pattern : String} {p : SegmentPattern} (h : parse kind pattern = .ok p) :
    RestLast p.segments := by
  cases kind with
  | path =>
      rw [parse, path] at h
      split at h
      · obtain ⟨segments, hsegments, rfl⟩ := map_eq_ok_iff.mp h
        exact restLast_of_parseAll hsegments
      · cases h
  | host =>
      rw [parse, host] at h
      split at h
      · cases h
      · obtain ⟨segments, hsegments, rfl⟩ := map_eq_ok_iff.mp h
        exact restLast_of_parseAll hsegments

/-- A cut of a text for a pattern: the groups make up the pieces that the pattern sees. -/
structure CutsText (p : SegmentPattern) (text : String) (groups : List (List String)) : Prop where
  sees : p.Sees text groups.flatten
  takes : List.Forall₂ Takes p.segments groups

theorem cutsText_iff {p : SegmentPattern} {text : String} {groups : List (List String)} :
    p.CutsText text groups ↔ IsCut p.segments (p.piecesOf text) groups := by
  constructor
  · rintro ⟨sees, takes⟩
    exact ⟨takes, sees_iff.mp sees⟩
  · rintro ⟨takes, flatten⟩
    exact ⟨sees_iff.mpr flatten, takes⟩

theorem isSome_remainderAlong_iff {groups : List (List String)}
    (htakes : List.Forall₂ Takes segments groups) :
    (remainderAlong kind segments groups).isSome = true ↔
      ∃ s, segments.getLast? = some s ∧ s.isOpen = true := by
  induction htakes with
  | nil => simp [remainderAlong]
  | @cons s group segments groups hgroup htakes ih =>
      cases segments with
      | nil =>
          cases htakes
          cases hs : s.isOpen <;> simp [remainderAlong, hs]
      | cons t segments =>
          rw [remainderAlong_cons kind s group (List.cons_ne_nil t segments) htakes, ih,
            List.getLast?_cons_cons]

/-- A pattern that has been accepted matches a text if and only if the pieces of the text can be cut
for it. The match is that of the cut whose groups are the shortest, the first one that differs
deciding. Of two captures with one name the later counts, and there is a remainder if and only if
the last segment stands for any number of pieces. -/
theorem match?_eq_first_cut {pattern : String} {p : SegmentPattern}
    (hp : SegmentPattern.parse kind pattern = .ok p) (text : String) :
    ((∃ m, p.match? text = some m) ↔ ∃ groups, p.CutsText text groups) ∧
    ∀ m, p.match? text = some m → ∃ groups, p.CutsText text groups ∧
      (∀ other, p.CutsText text other → other = groups ∨ Shorter groups other) ∧
      m.captured.Ordered ∧
      (∀ name, m.captured.get? name =
        (capturesAlong p.kind p.segments groups).reverse.lookup name) ∧
      m.remainder = remainderAlong p.kind p.segments groups ∧
      (m.remainder.isSome = true ↔ ∃ s, p.segments.getLast? = some s ∧ s.isOpen = true) := by
  have hfinds := finds_matchFrom p.kind (restLast_of_parse hp) (p.piecesOf text)
  simp only [match?, cutsText_iff]
  cases hfound : matchFrom p.kind p.segments (p.piecesOf text) with
  | none =>
      rw [hfound] at hfinds
      refine ⟨⟨nofun, ?_⟩, nofun⟩
      rintro ⟨groups, hcut⟩
      exact absurd hcut (hfinds groups)
  | some found =>
      rw [hfound] at hfinds
      obtain ⟨groups, hfirst, rfl⟩ := hfinds
      refine ⟨⟨fun _ => ⟨groups, hfirst.isCut⟩, fun _ => ⟨_, rfl⟩⟩, fun m hm => ?_⟩
      obtain rfl := Option.some.inj hm
      refine ⟨groups, hfirst.isCut, hfirst.first, Dictionary.ordered_ofList _,
        Dictionary.get?_ofList _, rfl, ?_⟩
      exact isSome_remainderAlong_iff hfirst.isCut.takes

/-- Any pieces, one that is captured, the piece `b`, and the rest. -/
def beforeB : SegmentPattern where
  kind := .path
  text := "/**/\x7bx\x7d/b/\x7b*rest\x7d"
  segments := [.anyPieces, .capture "x", .literal "b", .captureRest "rest"]

/-- With no piece for the first segment `a` would be captured and then no `b` found. -/
theorem match?_beforeB :
    SegmentPattern.parse .path beforeB.text = .ok beforeB ∧
      beforeB.match? "/a/c/b/d/" = some ⟨[("rest", "/d"), ("x", "c")], some "/d"⟩ ∧
      ∃ groups, beforeB.CutsText "/a/c/b/d/" groups ∧
        (capturesAlong .path beforeB.segments groups).reverse.lookup "x" = some "c" ∧
        remainderAlong .path beforeB.segments groups = some "/d" := by
  have hparse : SegmentPattern.parse .path beforeB.text = .ok beforeB := by cbv
  have hmatch : beforeB.match? "/a/c/b/d/" =
      some ⟨[("rest", "/d"), ("x", "c")], some "/d"⟩ := by cbv
  obtain ⟨-, hfirst⟩ := match?_eq_first_cut hparse "/a/c/b/d/"
  obtain ⟨groups, hcut, -, -, hcaptured, hremainder, -⟩ := hfirst _ hmatch
  exact ⟨hparse, hmatch, groups, hcut, (hcaptured "x").symm, hremainder.symm⟩

end SegmentPattern

end HttpGateway
