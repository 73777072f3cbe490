import HttpGateway.Proofs.Dictionary
import HttpGateway.Proofs.Pattern.Cuts

/-!
# Filling in captures

A path pattern of literals and captures is a form whose captures are its blanks. Filling in what a
match has captured gives back the path, up to one slash at its end. The other way round a form that
has been filled in with texts that may be captured is matched, and the match captures these texts.
There is one exception: an empty rest after an empty piece leaves a slash at the end of the path,
and this slash is taken for the optional one.
-/

namespace HttpGateway

namespace Segment

variable {value : String → String} {s : Segment} {segments : List Segment}

/-- A piece of a pattern, filled in. The slash before it is part of it, and the rest brings its
own. -/
def fillPiece (value : String → String) (piece : List Char) : List Char :=
  match inside "\x7b*" piece with
  | some name => (value (String.ofList name)).toList
  | none => '/' :: match inside "\x7b" piece with
    | some name => (value (String.ofList name)).toList
    | none => piece

/-- The same for a segment that has been read. -/
def fill (value : String → String) : Segment → List Char
  | .literal text => '/' :: text.toList
  | .glob text => '/' :: text.toList
  | .capture name => '/' :: (value name).toList
  | .anyPieces => "/**".toList
  | .captureRest name => (value name).toList

/-- How a piece of a pattern is read: by its braces if it is a capture, and else as it stands. -/
inductive IsReadAs (piece : String) : Segment → Prop
  | anyPieces (h : piece = "**") : IsReadAs piece .anyPieces
  | captureRest {name : List Char} (h : inside "\x7b*" piece.toList = some name) :
      IsReadAs piece (.captureRest (String.ofList name))
  | capture {name : List Char} (hrest : inside "\x7b*" piece.toList = none)
      (h : inside "\x7b" piece.toList = some name) : IsReadAs piece (.capture (String.ofList name))
  | glob (hrest : inside "\x7b*" piece.toList = none) (h : inside "\x7b" piece.toList = none) :
      IsReadAs piece (.glob piece)
  | literal (hrest : inside "\x7b*" piece.toList = none) (h : inside "\x7b" piece.toList = none) :
      IsReadAs piece (.literal piece)

theorem eq_ofList_of_checkName {pattern name : String} {written : List Char}
    (h : checkName pattern written = .ok name) : name = String.ofList written := by
  unfold checkName at h
  split at h <;> cases h
  rfl

theorem isReadAs_of_parse {pattern piece : String} {last : Bool}
    (h : parse pattern last piece = .ok s) : IsReadAs piece s := by
  unfold parse at h
  dsimp only at h
  split at h
  · rename_i hpiece
    cases h
    exact .anyPieces hpiece
  · split at h
    · rename_i hrest
      split at h
      · obtain ⟨name, hname, rfl⟩ := map_eq_ok_iff.mp h
        rw [eq_ofList_of_checkName hname]
        exact .captureRest hrest
      · cases h
    · rename_i hrest
      split at h
      · rename_i hcapture
        obtain ⟨name, hname, rfl⟩ := map_eq_ok_iff.mp h
        rw [eq_ofList_of_checkName hname]
        exact .capture hrest hcapture
      · rename_i hcapture
        split at h
        · cases h
        · split at h <;> cases h
          · exact .glob hrest hcapture
          · exact .literal hrest hcapture

theorem isReadAs_of_parseAll {pattern : String} {texts : List String}
    (h : parseAll pattern texts = .ok segments) : List.Forall₂ IsReadAs texts segments := by
  induction texts generalizing segments with
  | nil =>
      obtain rfl : [] = segments := Except.ok.inj h
      exact .nil
  | cons text texts ih =>
      obtain ⟨s, hs, h⟩ := bind_eq_ok_iff.mp h
      obtain ⟨others, hothers, h⟩ := bind_eq_ok_iff.mp h
      obtain rfl : s :: others = segments := Except.ok.inj h
      exact .cons (isReadAs_of_parse hs) (ih hothers)

theorem IsReadAs.fillPiece_eq {piece : String} (h : IsReadAs piece s) :
    fillPiece value piece.toList = s.fill value := by
  cases h with
  | anyPieces h =>
      subst h
      rfl
  | captureRest h => simp only [fillPiece, h, fill]
  | capture hrest h | glob hrest h | literal hrest h => simp only [fillPiece, hrest, h, fill]

theorem flatMap_fillPiece {texts : List String} (h : List.Forall₂ IsReadAs texts segments) :
    texts.flatMap (fun text => fillPiece value text.toList) = segments.flatMap (fill value) := by
  induction h with
  | nil => rfl
  | cons hs _ ih => rw [List.flatMap_cons, List.flatMap_cons, hs.fillPiece_eq, ih]

/-- A literal is one of the pieces. -/
theorem mem_of_literal_mem {text : String} {texts : List String}
    (h : List.Forall₂ IsReadAs texts segments) (hmem : .literal text ∈ segments) :
    text ∈ texts := by
  induction h with
  | nil => exact absurd hmem List.not_mem_nil
  | cons hs _ ih =>
      rcases List.mem_cons.mp hmem with rfl | hmem
      · cases hs
        exact List.mem_cons_self
      · exact List.mem_cons_of_mem _ (ih hmem)

/-! ### Segments that tell what they stand for -/

/-- Whether a segment is a literal or captures all that it stands for. -/
def isTold : Segment → Bool
  | .literal _ => true
  | .capture _ => true
  | .captureRest _ => true
  | _ => false

/-- The name of a capture. -/
def name? : Segment → Option String
  | .capture name => some name
  | .captureRest name => some name
  | _ => none

variable {group pieces : List String} {groups groups' : List (List String)}

theorem keys_captures (h : s.Takes group) :
    (s.captures .path group).map Prod.fst = s.name?.toList := by
  cases s with
  | capture name =>
      obtain ⟨piece, -, rfl⟩ := h
      rfl
  | _ => rfl

theorem keys_capturesAlong (h : List.Forall₂ Takes segments groups) :
    (capturesAlong .path segments groups).map Prod.fst = segments.filterMap name? := by
  induction h with
  | nil => rfl
  | @cons s group segments groups hgroup _ ih =>
      rw [capturesAlong, List.zipWith_cons_cons, List.flatten_cons, List.map_append,
        keys_captures hgroup, List.filterMap_cons]
      change _ ++ (capturesAlong .path segments groups).map Prod.fst = _
      rw [ih]
      cases s.name? <;> rfl

/-- All that is captured along a cut is what the values say. -/
def Agrees (value : String → String) (segments : List Segment) (groups : List (List String)) :
    Prop :=
  ∀ e ∈ capturesAlong .path segments groups, e.2 = value e.1

theorem agrees_cons_iff : Agrees value (s :: segments) (group :: groups) ↔
    (∀ e ∈ s.captures .path group, e.2 = value e.1) ∧ Agrees value segments groups := by
  simp only [Agrees, capturesAlong, List.zipWith_cons_cons, List.flatten_cons,
    List.forall_mem_append]

/-- A segment that is filled in is the text of the pieces that it takes. -/
theorem fill_of_takes (htold : s.isTold = true) (h : s.Takes group)
    (hvalue : ∀ e ∈ s.captures .path group, e.2 = value e.1) :
    s.fill value = (PieceKind.path.join group).toList := by
  cases s with
  | literal text =>
      obtain rfl : group = [text] := h
      simp [fill, PieceKind.toList_join_path]
  | capture name =>
      obtain ⟨piece, -, rfl⟩ := h
      obtain rfl : piece = value name := hvalue (name, piece) (by simp [captures])
      simp [fill, PieceKind.toList_join_path]
  | captureRest name =>
      have hrest := hvalue (name, PieceKind.path.join group) (by simp [captures])
      rw [fill, ← hrest]
  | glob text | anyPieces => cases htold

theorem flatMap_fill_of_cut (htold : ∀ s ∈ segments, s.isTold = true)
    (h : List.Forall₂ Takes segments groups) (hvalue : Agrees value segments groups) :
    segments.flatMap (fill value) = (PieceKind.path.join groups.flatten).toList := by
  induction h with
  | nil => rfl
  | cons hgroup _ ih =>
      obtain ⟨hfirst, hrest⟩ := agrees_cons_iff.mp hvalue
      obtain ⟨hs, htold⟩ := List.forall_mem_cons.mp htold
      rw [List.flatMap_cons, fill_of_takes hs hgroup hfirst, ih htold hrest]
      simp [PieceKind.toList_join_path]

/-- Segments of which only the last one stands for any number of pieces leave no choice. -/
theorem IsCut.unique (htold : ∀ s ∈ segments, s.isTold = true) (hlast : RestLast segments)
    (h : IsCut segments pieces groups) (h' : IsCut segments pieces groups') :
    groups = groups' := by
  induction segments generalizing pieces groups groups' with
  | nil => rw [(isCut_nil_iff.mp h).1, (isCut_nil_iff.mp h').1]
  | cons s segments ih =>
      obtain ⟨hs, htold⟩ := List.forall_mem_cons.mp htold
      obtain ⟨hrest, hlast⟩ := hlast
      obtain ⟨group, rest, others, rfl, rfl, hgroup, hothers⟩ := isCut_cons_iff.mp h
      obtain ⟨group', rest', others', rfl, heq, hgroup', hothers'⟩ := isCut_cons_iff.mp h'
      cases hopen : s.isOpen with
      | false =>
          have hlength := (length_of_takes hgroup hopen).trans (length_of_takes hgroup' hopen).symm
          obtain ⟨rfl, rfl⟩ := List.append_inj heq hlength
          rw [ih htold hlast hothers hothers']
      | true =>
          cases s with
          | captureRest name =>
              obtain rfl := hrest ⟨name, rfl⟩
              obtain ⟨rfl, rfl⟩ := isCut_nil_iff.mp hothers
              obtain ⟨rfl, rfl⟩ := isCut_nil_iff.mp hothers'
              rw [List.append_nil, List.append_nil] at heq
              rw [heq]
          | anyPieces => cases hs
          | _ => cases hopen

/-! ### Texts that may be filled in -/

/-- The pieces that a segment stands for if these values are filled in. -/
def put (value : String → String) : Segment → List String
  | .literal text => [text]
  | .glob text => [text]
  | .capture name => [value name]
  | .anyPieces => []
  | .captureRest name => PieceKind.path.split (value name)

/-- The rest of a path as it may be captured: nothing, or a path without a slash at its end. -/
def IsRest (v : String) : Prop :=
  v = "" ∨ v.toList.head? = some '/' ∧ v.toList.getLast? ≠ some '/'

theorem join_split_of_isRest {v : String} (h : IsRest v) :
    PieceKind.path.join (PieceKind.path.split v) = v := by
  rcases h with rfl | ⟨hslash, hlast⟩
  · rfl
  · refine (PieceKind.splits_split .path v).join_eq hslash fun hnil => hlast ?_
    rw [PieceKind.toList_eq_body hslash, (PieceKind.splits_split .path v).none_iff.mp hnil]
    rfl

theorem getLast?_split_of_isRest {v : String} (h : IsRest v) :
    (PieceKind.path.split v).getLast? ≠ some "" := by
  intro hempty
  obtain ⟨front, hfront⟩ := List.getLast?_eq_some_iff.mp hempty
  have hv := join_split_of_isRest h
  rw [hfront, PieceKind.join_concat_empty] at hv
  have hlast : v.toList.getLast? = some '/' := by
    rw [← hv, String.toList_append]
    exact List.getLast?_concat ..
  rcases h with rfl | ⟨-, hnot⟩
  · cases hlast
  · exact hnot hlast

/-- The values suit a segment: a capture takes one piece that is not empty. -/
def Suited (value : String → String) : Segment → Prop
  | .capture name => value name ≠ "" ∧ '/' ∉ (value name).toList
  | .captureRest name => IsRest (value name)
  | _ => True

theorem takes_put (htold : s.isTold = true) (h : s.Suited value) : s.Takes (s.put value) := by
  cases s with
  | literal text => rfl
  | capture name => exact ⟨value name, h.1, rfl⟩
  | captureRest name => trivial
  | glob text | anyPieces => cases htold

theorem captures_put (h : s.Suited value) :
    ∀ e ∈ s.captures .path (s.put value), e.2 = value e.1 := by
  cases s with
  | capture name => simp [captures, put]
  | captureRest name => simpa [captures, put] using join_split_of_isRest h
  | _ => simp [captures]

theorem not_mem_put (htold : s.isTold = true) (h : s.Suited value)
    (hliteral : ∀ text, s = .literal text → '/' ∉ text.toList) :
    ∀ piece ∈ s.put value, '/' ∉ piece.toList := by
  cases s with
  | literal text => simpa [put] using hliteral text rfl
  | capture name => simpa [put] using h.2
  | captureRest name => exact (PieceKind.splits_split .path (value name)).free
  | glob text | anyPieces => cases htold

theorem isCut_put (htold : ∀ s ∈ segments, s.isTold = true) (h : ∀ s ∈ segments, s.Suited value) :
    IsCut segments (segments.flatMap (put value)) (segments.map (put value)) ∧
      Agrees value segments (segments.map (put value)) := by
  induction segments with
  | nil => exact ⟨isCut_nil_iff.mpr ⟨rfl, rfl⟩, nofun⟩
  | cons s segments ih =>
      obtain ⟨hs, htold⟩ := List.forall_mem_cons.mp htold
      obtain ⟨hsuited, h⟩ := List.forall_mem_cons.mp h
      obtain ⟨hcut, hagrees⟩ := ih htold h
      rw [List.map_cons, List.flatMap_cons]
      exact ⟨isCut_cons_iff.mpr ⟨_, _, _, rfl, rfl, takes_put hs hsuited, hcut⟩,
        agrees_cons_iff.mpr ⟨captures_put hsuited, hagrees⟩⟩

/-- What stands before the last segment stands for one piece each. -/
theorem not_isOpen_of_restLast {front tail : List Segment}
    (htold : ∀ s ∈ front, s.isTold = true) (hlast : RestLast (front ++ tail)) (hne : tail ≠ []) :
    ∀ s ∈ front, s.isOpen = false := by
  induction front with
  | nil => exact nofun
  | cons s front ih =>
      obtain ⟨hs, htold⟩ := List.forall_mem_cons.mp htold
      obtain ⟨hrest, hlast⟩ := hlast
      refine List.forall_mem_cons.mpr ⟨?_, ih htold hlast⟩
      cases s with
      | captureRest name =>
          exact absurd (List.append_eq_nil_iff.mp (hrest ⟨name, rfl⟩)).2 hne
      | anyPieces => cases hs
      | _ => rfl

theorem length_le_of_takes {front tail : List Segment}
    (h : List.Forall₂ Takes (front ++ tail) groups) (hfront : ∀ s ∈ front, s.isOpen = false) :
    front.length ≤ groups.flatten.length := by
  induction front generalizing groups with
  | nil => exact Nat.zero_le _
  | cons s front ih =>
      cases h with
      | @cons _ group _ groups hgroup h =>
          obtain ⟨hs, hfront⟩ := List.forall_mem_cons.mp hfront
          have hone := length_of_takes hgroup hs
          have hrest := ih h hfront
          simp only [List.flatten_cons, List.length_append, List.length_cons]
          omega

theorem exists_put (value : String → String) (hs : s.isOpen = false) :
    ∃ piece, s.put value = [piece] := by
  cases s with
  | literal text | glob text | capture name => exact ⟨_, rfl⟩
  | anyPieces | captureRest name => cases hs

theorem length_flatMap_put (value : String → String) (h : ∀ s ∈ segments, s.isOpen = false) :
    (segments.flatMap (put value)).length = segments.length := by
  induction segments with
  | nil => rfl
  | cons s segments ih =>
      obtain ⟨hs, h⟩ := List.forall_mem_cons.mp h
      obtain ⟨piece, hpiece⟩ := exists_put value hs
      rw [List.flatMap_cons, hpiece, List.length_append, ih h, List.length_singleton,
        List.length_cons, Nat.add_comm]

/-- Among the segments for one piece only an empty literal stands for the empty piece. -/
theorem eq_literal_of_getLast? {front : List Segment} (htold : s.isTold = true)
    (hopen : s.isOpen = false) (hsuited : s.Suited value)
    (h : ((front ++ [s]).flatMap (put value)).getLast? = some "") : s = .literal "" := by
  obtain ⟨piece, hpiece⟩ := exists_put value hopen
  rw [List.flatMap_append, List.flatMap_singleton, hpiece, List.getLast?_concat] at h
  obtain rfl := Option.some.inj h
  cases s with
  | literal text => exact congrArg Segment.literal (List.cons.inj hpiece).1
  | capture name => exact absurd (List.cons.inj hpiece).1 hsuited.1
  | glob text => cases htold
  | anyPieces | captureRest name => cases hopen

/-- If the last piece is empty though the rest of the path is captured, this rest is empty and comes
after an empty literal. -/
theorem exists_of_getLast?_captureRest {front : List Segment} {name : String}
    (htold : ∀ s ∈ front, s.isTold = true) (hopen : ∀ s ∈ front, s.isOpen = false)
    (hsuited : ∀ s ∈ front, s.Suited value) (hrest : IsRest (value name))
    (h : ((front ++ [captureRest name]).flatMap (put value)).getLast? = some "") :
    value name = "" ∧ ∃ before, front = before ++ [.literal ""] := by
  rw [List.flatMap_append, List.flatMap_singleton] at h
  change (_ ++ PieceKind.path.split (value name)).getLast? = _ at h
  by_cases hnil : PieceKind.path.split (value name) = []
  · rw [hnil, List.append_nil] at h
    refine ⟨(join_split_of_isRest hrest).symm.trans (congrArg _ hnil), ?_⟩
    rcases List.eq_nil_or_concat front with rfl | ⟨before, s, rfl⟩
    · cases h
    · rw [List.concat_eq_append] at *
      have hs : s ∈ before ++ [s] := List.mem_append_right _ List.mem_cons_self
      obtain rfl := eq_literal_of_getLast? (htold s hs) (hopen s hs) (hsuited s hs) h
      exact ⟨before, rfl⟩
  · rw [List.getLast?_append_of_ne_nil _ hnil] at h
    exact absurd h (getLast?_split_of_isRest hrest)

/-- The values leave the last of these segments nothing, and an empty literal comes before it. -/
def EndsBare (value : String → String) (segments : List Segment) : Prop :=
  ∃ front name, segments = front ++ [.literal "", .captureRest name] ∧ value name = ""

/-- If the last piece is empty, the last segment asks for that or is left nothing. -/
theorem last_of_getLast?_put (htold : ∀ s ∈ segments, s.isTold = true)
    (hlast : RestLast segments) (h : ∀ s ∈ segments, s.Suited value)
    (hempty : (segments.flatMap (put value)).getLast? = some "") :
    segments.getLast? = some (.literal "") ∨ EndsBare value segments := by
  rcases List.eq_nil_or_concat segments with rfl | ⟨front, s, rfl⟩
  · cases hempty
  · rw [List.concat_eq_append] at *
    have hs : s ∈ front ++ [s] := List.mem_append_right _ List.mem_cons_self
    have hfront : ∀ t ∈ front, t ∈ front ++ [s] := fun t ht => List.mem_append_left _ ht
    have hclosed := not_isOpen_of_restLast (fun t ht => htold t (hfront t ht)) hlast
      (List.cons_ne_nil s [])
    cases s with
    | literal text | capture name =>
        rw [eq_literal_of_getLast? (htold _ hs) rfl (h _ hs) hempty]
        exact .inl (List.getLast?_concat ..)
    | captureRest name =>
        obtain ⟨hvalue, before, rfl⟩ := exists_of_getLast?_captureRest
          (fun t ht => htold t (hfront t ht)) hclosed (fun t ht => h t (hfront t ht)) (h _ hs)
          hempty
        exact .inr ⟨before, name, by simp, hvalue⟩
    | glob text | anyPieces => cases htold _ hs

end Segment

open Segment

namespace SegmentPattern

variable {pattern text : String} {p : SegmentPattern} {m : PathMatch} {value : String → String}
  {pieces : List String}

/-! ### What a path pattern is read as -/

theorem path_eq_ok_iff : path pattern = .ok p ↔ pattern.toList.head? = some '/' ∧
    ∃ segments, parseAll pattern (PieceKind.path.split pattern) = .ok segments ∧
      p = ⟨.path, pattern, segments⟩ := by
  unfold path
  split
  · rename_i hslash
    simp only [hslash, true_and, ofText, map_eq_ok_iff, @eq_comm _ p]
  · rename_i hslash
    simp [hslash]

theorem kind_of_path (hp : path pattern = .ok p) : p.kind = .path := by
  obtain ⟨-, segments, -, rfl⟩ := path_eq_ok_iff.mp hp
  rfl

theorem restLast_of_path (hp : path pattern = .ok p) : RestLast p.segments :=
  restLast_of_parse (show parse .path pattern = .ok p from hp)

/-- The pattern with the values in place of its captures. -/
def fill (value : String → String) (pattern : String) : String :=
  String.ofList ((Text.pieces '/' (PieceKind.path.body pattern)).flatMap (fillPiece value))

theorem fill_eq (hp : path pattern = .ok p) (value : String → String) :
    fill value pattern =
      if p.segments = [] then "/" else String.ofList (p.segments.flatMap (Segment.fill value)) := by
  obtain ⟨-, segments, hsegments, rfl⟩ := path_eq_ok_iff.mp hp
  have hread := isReadAs_of_parseAll hsegments
  rw [PieceKind.split_eq] at hread
  split at hread
  · rename_i hbody
    cases hread
    rw [fill, hbody]
    rfl
  · have hne : segments ≠ [] := by
      rintro rfl
      exact Text.pieces_ne_nil _ _ (List.map_eq_nil_iff.mp (List.forall₂_nil_right_iff.mp hread))
    rw [if_neg hne, ← flatMap_fillPiece hread, List.flatMap_map, fill]
    simp only [String.toList_ofList]
    rfl

/-- The literals of a path pattern hold no slash, and they are not just one that is empty. -/
theorem literals_of_path (hp : path pattern = .ok p) :
    (∀ text, .literal text ∈ p.segments → '/' ∉ text.toList) ∧ p.segments ≠ [.literal ""] := by
  obtain ⟨-, segments, hsegments, rfl⟩ := path_eq_ok_iff.mp hp
  have hread := isReadAs_of_parseAll hsegments
  have hsplits := PieceKind.splits_split .path pattern
  refine ⟨fun text htext => hsplits.free text (mem_of_literal_mem hread htext), ?_⟩
  rintro rfl
  obtain ⟨piece, rest, hpiece, hrest, hsplit⟩ := List.forall₂_cons_right_iff.mp hread
  obtain rfl := List.forall₂_nil_right_iff.mp hrest
  cases hpiece
  -- A path of one empty piece has no pieces.
  rw [hsplit] at hsplits
  exact absurd (hsplits.none_iff.mpr hsplits.joined.symm) (List.cons_ne_nil _ _)

/-! ### Forms -/

/-- The names of the captures, in order. -/
def names (p : SegmentPattern) : List String := p.segments.filterMap Segment.name?

/-- The pattern is made of literals and captures, each of which has a name of its own. -/
structure IsForm (p : SegmentPattern) : Prop where
  told : ∀ s ∈ p.segments, s.isTold = true
  nodup : p.names.Nodup

/-- A match captures these values under these names, and nothing else. -/
def Holds (value : String → String) (names : List String) (m : PathMatch) : Prop :=
  ∀ name, m.captured.get? name = if name ∈ names then some (value name) else none

/-- A form matches a text in the one way in which its pieces can be cut. -/
theorem match?_eq_some_iff (hlast : RestLast p.segments)
    (htold : ∀ s ∈ p.segments, s.isTold = true) :
    p.match? text = some m ↔ ∃ groups, IsCut p.segments (p.piecesOf text) groups ∧
      m = ⟨Dictionary.ofList (capturesAlong p.kind p.segments groups),
        remainderAlong p.kind p.segments groups⟩ := by
  have hfinds := finds_matchFrom p.kind hlast (p.piecesOf text)
  rw [match?]
  cases hfound : matchFrom p.kind p.segments (p.piecesOf text) with
  | none =>
      rw [hfound] at hfinds
      simpa using fun groups hcut _ => hfinds groups hcut
  | some found =>
      rw [hfound] at hfinds
      obtain ⟨groups, hfirst, rfl⟩ := hfinds
      constructor
      · rintro hm
        exact ⟨groups, hfirst.isCut, (Option.some.inj hm).symm⟩
      · rintro ⟨groups', hcut, rfl⟩
        rw [hcut.unique htold hlast hfirst.isCut]
        rfl

/-- What a match of a form captures are values that the pieces of the text have been cut by. -/
theorem exists_agrees_of_match (hkind : p.kind = .path) (hlast : RestLast p.segments)
    (hform : p.IsForm) (hm : p.match? text = some m) :
    ∃ value groups, IsCut p.segments (p.piecesOf text) groups ∧
      Agrees value p.segments groups ∧ Holds value p.names m := by
  obtain ⟨groups, hcut, rfl⟩ := (match?_eq_some_iff hlast hform.told).mp hm
  rw [hkind]
  let found := capturesAlong .path p.segments groups
  have hkeys : found.map Prod.fst = p.names := keys_capturesAlong hcut.takes
  let value : String → String := fun name => ((Dictionary.ofList found).get? name).getD ""
  have hvalue : Agrees value p.segments groups := by
    intro e he
    have hnodup : (found.map Prod.fst).Nodup := hkeys ▸ hform.nodup
    have hget := Dictionary.get?_ofList_of_mem hnodup he
    simp [value, hget]
  refine ⟨value, groups, hcut, hvalue, fun name => ?_⟩
  rw [← hkeys]
  exact Dictionary.get?_ofList_of_forall hvalue name

/-- The text is matched, and the match captures these values. -/
def Recovers (p : SegmentPattern) (value : String → String) (text : String) : Prop :=
  ∃ m, p.match? text = some m ∧ Holds value p.names m

theorem recovers_of_sees (hkind : p.kind = .path) (hlast : RestLast p.segments) (hform : p.IsForm)
    (hsuited : ∀ s ∈ p.segments, s.Suited value)
    (h : p.Sees text (p.segments.flatMap (put value))) : p.Recovers value text := by
  obtain ⟨hcut, hagrees⟩ := isCut_put hform.told hsuited
  rw [sees_iff.mp h] at hcut
  refine ⟨_, (match?_eq_some_iff hlast hform.told).mpr ⟨_, hcut, rfl⟩, fun name => ?_⟩
  rw [hkind, names, ← keys_capturesAlong hcut.takes]
  exact Dictionary.get?_ofList_of_forall hagrees name

/-! ### Paths made of pieces -/

theorem sees_join (hkind : p.kind = .path) (hfree : ∀ piece ∈ pieces, '/' ∉ piece.toList)
    (hne : pieces ≠ [""])
    (hlast : p.segments.getLast? ≠ some (.literal "") → pieces.getLast? ≠ some "") :
    p.Sees (PieceKind.path.join pieces) pieces :=
  .all (hkind ▸ PieceKind.splits_join hfree hne) fun _ => hlast

theorem sees_join_slash (hkind : p.kind = .path) (hend : p.segments.getLast? ≠ some (.literal ""))
    (hfree : ∀ piece ∈ pieces, '/' ∉ piece.toList) :
    p.Sees (PieceKind.path.join pieces ++ "/") pieces := by
  by_cases hnil : pieces = []
  · subst hnil
    refine .all ?_ fun _ _ => nofun
    rw [hkind]
    exact ⟨nofun, rfl, iff_of_true rfl rfl⟩
  · rw [← PieceKind.join_concat_empty]
    have hfree' : ∀ piece ∈ pieces ++ [""], '/' ∉ piece.toList :=
      List.forall_mem_append.mpr ⟨hfree, by simp⟩
    exact .dropped hkind hend (hkind ▸ PieceKind.splits_join hfree' (by simpa using hnil))

theorem fill_eq_join (hp : path pattern = .ok p) (hform : p.IsForm)
    (hsuited : ∀ s ∈ p.segments, s.Suited value) (hne : p.segments ≠ []) :
    fill value pattern = PieceKind.path.join (p.segments.flatMap (put value)) := by
  obtain ⟨hcut, hagrees⟩ := isCut_put hform.told hsuited
  rw [fill_eq hp, if_neg hne, flatMap_fill_of_cut hform.told hcut.takes hagrees, hcut.flatten,
    String.ofList_toList]

theorem not_mem_of_mem_put (hp : path pattern = .ok p) (hform : p.IsForm)
    (hsuited : ∀ s ∈ p.segments, s.Suited value) :
    ∀ piece ∈ p.segments.flatMap (put value), '/' ∉ piece.toList := by
  intro piece hmem
  obtain ⟨s, hs, hpiece⟩ := List.mem_flatMap.mp hmem
  refine not_mem_put (hform.told s hs) (hsuited s hs) (fun text htext => ?_) piece hpiece
  exact (literals_of_path hp).1 text (htext ▸ hs)

/-- The pieces that are filled in are not just one that is empty. -/
theorem flatMap_put_ne (hp : path pattern = .ok p) (hform : p.IsForm)
    (hsuited : ∀ s ∈ p.segments, s.Suited value) (hbare : ¬EndsBare value p.segments) :
    p.segments.flatMap (put value) ≠ [""] := by
  intro hone
  have hlast := restLast_of_path hp
  rcases last_of_getLast?_put hform.told hlast hsuited (by rw [hone]; rfl) with hend | hend
  · obtain ⟨front, hfront⟩ := List.getLast?_eq_some_iff.mp hend
    rw [hfront] at hlast
    have htold : ∀ s ∈ front, s.isTold = true := fun s hs =>
      hform.told s (hfront ▸ List.mem_append_left _ hs)
    have hlength := length_flatMap_put value
      (not_isOpen_of_restLast htold hlast (List.cons_ne_nil _ _))
    rw [hfront, List.flatMap_append, List.flatMap_singleton] at hone
    have hempty : front.flatMap (put value) = [] := by simpa [put] using hone
    rw [hempty] at hlength
    obtain rfl := List.length_eq_zero_iff.mp hlength.symm
    exact (literals_of_path hp).2 hfront
  · exact hbare hend

/-- Values that suit a form and leave its end something are recovered from the path that they
fill in. -/
theorem recovers_fill (hp : path pattern = .ok p) (hform : p.IsForm)
    (hsuited : ∀ s ∈ p.segments, s.Suited value) (hbare : ¬EndsBare value p.segments) :
    p.Recovers value (fill value pattern) := by
  have hkind := kind_of_path hp
  have hlast := restLast_of_path hp
  refine recovers_of_sees hkind hlast hform hsuited ?_
  by_cases hnil : p.segments = []
  · rw [fill_eq hp, if_pos hnil, hnil]
    have hsees : p.Sees (PieceKind.path.join [] ++ "/") [] :=
      sees_join_slash hkind (by simp [hnil]) nofun
    exact hsees
  · rw [fill_eq_join hp hform hsuited hnil]
    refine sees_join hkind (not_mem_of_mem_put hp hform hsuited)
      (flatMap_put_ne hp hform hsuited hbare) fun hend hempty => ?_
    rcases last_of_getLast?_put hform.told hlast hsuited hempty with hliteral | hrest
    · exact hend hliteral
    · exact hbare hrest

/-- An empty rest after an empty literal is recovered if the path ends in one more slash, and the
path without it is not matched. -/
theorem recovers_fill_of_endsBare (hp : path pattern = .ok p) (hform : p.IsForm)
    (hsuited : ∀ s ∈ p.segments, s.Suited value) (hbare : EndsBare value p.segments) :
    p.match? (fill value pattern) = none ∧ p.Recovers value (fill value pattern ++ "/") := by
  have hkind := kind_of_path hp
  have hlast := restLast_of_path hp
  have hfree := not_mem_of_mem_put hp hform hsuited
  obtain ⟨front, name, hsegments, hvalue⟩ := hbare
  have hfront : p.segments = (front ++ [.literal ""]) ++ [.captureRest name] := by simp [hsegments]
  have hend : p.segments.getLast? ≠ some (.literal "") := by simp [hsegments]
  have hne : p.segments ≠ [] := by simp [hsegments]
  have hpieces : p.segments.flatMap (put value) = front.flatMap (put value) ++ [""] := by
    simp [hsegments, put, hvalue, PieceKind.split]
  have hclosed : ∀ s ∈ front ++ [.literal ""], s.isOpen = false :=
    not_isOpen_of_restLast (fun s hs => hform.told s (hfront ▸ List.mem_append_left _ hs))
      (hfront ▸ hlast) (List.cons_ne_nil _ _)
  -- The slash after the empty literal is dropped, and then a piece is missing.
  have hshort : p.Sees (fill value pattern) (front.flatMap (put value)) := by
    rw [fill_eq_join hp hform hsuited hne, hpieces, PieceKind.join_concat_empty]
    refine sees_join_slash hkind hend fun piece hpiece => hfree piece ?_
    rw [hpieces]
    exact List.mem_append_left _ hpiece
  have hlong : p.Sees (fill value pattern ++ "/") (p.segments.flatMap (put value)) := by
    rw [fill_eq_join hp hform hsuited hne]
    exact sees_join_slash hkind hend hfree
  refine ⟨Option.eq_none_iff_forall_ne_some.mpr fun m hm => ?_,
    recovers_of_sees hkind hlast hform hsuited hlong⟩
  obtain ⟨groups, hcut, -⟩ := (match?_eq_some_iff hlast hform.told).mp hm
  rw [← sees_iff.mp hshort] at hcut
  have hle := length_le_of_takes (hfront ▸ hcut.takes) hclosed
  have hlength := length_flatMap_put value fun s hs =>
    hclosed s (List.mem_append_left _ hs)
  rw [hcut.flatten, hlength, List.length_append, List.length_singleton] at hle
  omega

/-- A form and its captures determine each other. If a path is matched, the form filled in with what
the match captures is this path, up to one slash at its end. If the form is filled in with values
that may be captured, this path is matched and the match captures these values; only if an empty
rest comes after an empty literal does it take one more slash at the end. -/
theorem match?_fill (hp : path pattern = .ok p) (hform : p.IsForm) :
    (∀ text m, text.toList.head? = some '/' → p.match? text = some m →
      ∃ value, Holds value p.names m ∧
        (text = fill value pattern ∨ text = fill value pattern ++ "/")) ∧
    ∀ value, (∀ s ∈ p.segments, s.Suited value) →
      (¬EndsBare value p.segments → p.Recovers value (fill value pattern)) ∧
      (EndsBare value p.segments →
        p.match? (fill value pattern) = none ∧ p.Recovers value (fill value pattern ++ "/")) := by
  refine ⟨fun text m hslash hm => ?_, fun value hsuited =>
    ⟨recovers_fill hp hform hsuited, recovers_fill_of_endsBare hp hform hsuited⟩⟩
  have hkind := kind_of_path hp
  have hlast := restLast_of_path hp
  obtain ⟨value, groups, hcut, hvalue, hholds⟩ := exists_agrees_of_match hkind hlast hform hm
  refine ⟨value, hholds, ?_⟩
  have htext := (sees_iff.mpr hcut.flatten).text_eq hkind hslash
  by_cases hnil : p.segments = []
  · -- Without segments there are no pieces either.
    rw [hnil] at hcut
    obtain ⟨rfl, hpieces⟩ := isCut_nil_iff.mp hcut
    rw [fill_eq hp, if_pos hnil]
    rcases htext with rfl | rfl
    · cases hslash
    · exact .inl rfl
  · rw [fill_eq hp, if_neg hnil, flatMap_fill_of_cut hform.told hcut.takes hvalue,
      String.ofList_toList]
    exact htext

/-- A literal between two captures. -/
def shelf : SegmentPattern where
  kind := .path
  text := "/\x7bshelf\x7d/of/\x7b*rest\x7d"
  segments := [.capture "shelf", .literal "of", .captureRest "rest"]

/-- A path with a slash at its end is filled in without it, and an empty rest is recovered. -/
theorem match?_fill_shelf :
    (∃ value, value "shelf" = "3" ∧ value "rest" = "/a" ∧
      ("/3/of/a/" = fill value shelf.text ∨ "/3/of/a/" = fill value shelf.text ++ "/")) ∧
    shelf.Recovers (fun name => if name = "shelf" then "7" else "") "/7/of" := by
  have hp : path shelf.text = .ok shelf := by cbv
  have hform : shelf.IsForm := ⟨by decide, by decide⟩
  obtain ⟨hforth, hback⟩ := match?_fill hp hform
  constructor
  · have hm : shelf.match? "/3/of/a/" = some ⟨[("rest", "/a"), ("shelf", "3")], some "/a"⟩ := by cbv
    obtain ⟨value, hholds, htext⟩ := hforth _ _ (by rfl) hm
    have hshelf : "3" = value "shelf" := Option.some.inj (hholds "shelf")
    have hrest : "/a" = value "rest" := Option.some.inj (hholds "rest")
    exact ⟨value, hshelf.symm, hrest.symm, htext⟩
  · let value : String → String := fun name => if name = "shelf" then "7" else ""
    have hsuited : ∀ s ∈ shelf.segments, s.Suited value := by
      simp [shelf, Suited, IsRest, value]
    have hbare : ¬EndsBare value shelf.segments := by
      rintro ⟨front, name, hsegments, -⟩
      have hliteral : (.literal "" : Segment) ∈ shelf.segments := by simp [hsegments]
      exact absurd hliteral (by decide)
    have hfill : fill value shelf.text = "/7/of" := by cbv
    exact hfill ▸ (hback value hsuited).1 hbare

/-- Filled in with nothing, the path ends in the slash of the empty piece, and that is dropped. -/
theorem match?_fill_fails :
    let p : SegmentPattern :=
      ⟨.path, "/a//\x7b*r\x7d", [.literal "a", .literal "", .captureRest "r"]⟩
    path p.text = .ok p ∧ p.IsForm ∧ (∀ s ∈ p.segments, s.Suited fun _ => "") ∧
      fill (fun _ => "") p.text = "/a/" ∧ p.match? "/a/" = none := by
  refine ⟨by cbv, ⟨by decide, by decide⟩, ?_, by cbv, by cbv⟩
  simp [Suited, IsRest]

end SegmentPattern

end HttpGateway
