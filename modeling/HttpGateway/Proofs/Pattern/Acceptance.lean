import HttpGateway.Proofs.Pattern.Cuts

/-!
# Which texts are patterns

A text is accepted as a pattern just if each of its pieces is the written form of a segment, and of
the segments only the last one may capture the rest. The reader tells a capture by the braces at the
ends of a piece and does not look for others between them. So a piece with braces is refused as
unbalanced if they do not stand at both of its ends, and else all that stands between them is taken
for a name, further braces included.
-/

namespace HttpGateway

theorem Text.afterPrefix?_eq_some_iff {start s tail : List Char} :
    afterPrefix? start s = some tail ↔ s = start ++ tail := by
  induction start generalizing s with
  | nil => simp [afterPrefix?]
  | cons c start ih =>
      cases s with
      | nil => simp [afterPrefix?]
      | cons d s =>
          rw [afterPrefix?]
          split
          · rename_i hc
            rw [ih, hc, List.cons_append, List.cons.injEq, eq_self, true_and]
          · rename_i hc
            simp [Ne.symm hc]

namespace Segment

def HasBrace (s : List Char) : Prop := '\x7b' ∈ s ∨ '\x7d' ∈ s

instance (s : List Char) : Decidable (HasBrace s) := inferInstanceAs (Decidable (_ ∨ _))

/-- Braces stand at both ends. -/
def IsEnclosed (s : List Char) : Prop := ∃ inner, s = '\x7b' :: (inner ++ ['\x7d'])

/-- Braces stand at both ends, and there are others between them. -/
def IsCrowded (s : List Char) : Prop :=
  ∃ inner, s = '\x7b' :: (inner ++ ['\x7d']) ∧ HasBrace inner

/-- The piece that a segment is written as. -/
def written : Segment → String
  | .literal text => text
  | .glob text => text
  | .capture name => "\x7b" ++ name ++ "\x7d"
  | .anyPieces => "**"
  | .captureRest name => "\x7b*" ++ name ++ "\x7d"

/-- A name that the reader lets pass. -/
def IsName (name : String) : Prop := name ≠ "" ∧ ':' ∉ name.toList

instance (name : String) : Decidable (IsName name) := inferInstanceAs (Decidable (_ ∧ _))

/-- A segment that a piece may be read as. -/
def IsRead : Segment → Prop
  | .literal text => ¬HasBrace text.toList ∧ '*' ∉ text.toList ∧ '?' ∉ text.toList
  | .glob text => ¬HasBrace text.toList ∧ ('*' ∈ text.toList ∨ '?' ∈ text.toList) ∧ text ≠ "**"
  | .capture name => IsName name ∧ name.toList.head? ≠ some '*'
  | .anyPieces => True
  | .captureRest name => IsName name

/-- The name of a capture is free of braces. -/
def IsPlain : Segment → Prop
  | .capture name => ¬HasBrace name.toList
  | .captureRest name => ¬HasBrace name.toList
  | _ => True

variable {pattern piece : String} {last : Bool} {s : Segment} {segments : List Segment}
  {pieces : List String} {e : SegmentError}

/-! ### One piece -/

theorem inside_eq_some_iff {opening : String} {text name : List Char} :
    inside opening text = some name ↔ text = opening.toList ++ (name ++ ['\x7d']) := by
  unfold inside
  cases hafter : Text.afterPrefix? opening.toList text with
  | none =>
      refine iff_of_false nofun fun htext => ?_
      rw [Text.afterPrefix?_eq_some_iff.mpr htext] at hafter
      cases hafter
  | some tail =>
      rw [Text.afterPrefix?_eq_some_iff] at hafter
      subst hafter
      rw [List.append_cancel_left_eq]
      rcases List.eq_nil_or_concat' tail with rfl | ⟨front, c, rfl⟩
      · simp
      · by_cases hc : c = '\x7d'
        · simp [hc]
        · refine iff_of_false (by simp [hc]) fun heq => hc ?_
          obtain ⟨-, hlast⟩ := List.append_inj' heq rfl
          exact List.singleton_inj.mp hlast

theorem isEnclosed_iff {text : List Char} :
    IsEnclosed text ↔ ∃ name, inside "\x7b" text = some name := by
  simp only [inside_eq_some_iff]
  rfl

theorem inside_rest_eq_some_iff {text name : List Char} :
    inside "\x7b*" text = some name ↔ inside "\x7b" text = some ('*' :: name) := by
  simp only [inside_eq_some_iff]
  rfl

theorem checkName_eq (name : String) : checkName pattern name.toList =
    if IsName name then .ok name else .error (.badName name pattern) := by
  unfold checkName IsName
  by_cases hnil : name = ""
  · simp [hnil]
  · by_cases hcolon : ':' ∈ name.toList <;> simp [hnil, hcolon]

theorem written_ne_stars (h : (∃ name, s = .capture name) ∨ ∃ name, s = .captureRest name) :
    s.written ≠ "**" := by
  intro hstars
  have hlist := congrArg String.toList hstars
  obtain ⟨name, rfl⟩ | ⟨name, rfl⟩ := h <;> simp [written] at hlist

section Reading

variable {name : String}

theorem parse_captureRest : parse pattern last (captureRest name).written =
    if last then (checkName pattern name.toList).map .captureRest
    else .error (.restNotLast (captureRest name).written pattern) := by
  have hinside : inside "\x7b*" (captureRest name).written.toList = some name.toList := by
    simp [inside_eq_some_iff, written]
  rw [parse, if_neg (written_ne_stars (.inr ⟨name, rfl⟩)), hinside]

theorem parse_capture (h : name.toList.head? ≠ some '*') :
    parse pattern last (capture name).written = (checkName pattern name.toList).map .capture := by
  have hinside : inside "\x7b" (capture name).written.toList = some name.toList := by
    simp [inside_eq_some_iff, written]
  have hrest : inside "\x7b*" (capture name).written.toList = none := by
    refine Option.eq_none_iff_forall_ne_some.mpr fun rest hrest => h ?_
    rw [inside_rest_eq_some_iff, hinside] at hrest
    rw [Option.some.inj hrest, List.head?_cons]
  rw [parse, if_neg (written_ne_stars (.inl ⟨name, rfl⟩)), hrest, hinside]

theorem parse_of_not_enclosed (h : ¬IsEnclosed piece.toList) :
    parse pattern last piece =
      if piece = "**" then .ok .anyPieces
      else if HasBrace piece.toList then .error (.unbalanced pattern)
      else if '*' ∈ piece.toList ∨ '?' ∈ piece.toList then .ok (.glob piece)
      else .ok (.literal piece) := by
  have hnone : inside "\x7b" piece.toList = none :=
    Option.eq_none_iff_forall_ne_some.mpr fun name hname => h (isEnclosed_iff.mpr ⟨name, hname⟩)
  have hrest : inside "\x7b*" piece.toList = none := by
    refine Option.eq_none_iff_forall_ne_some.mpr fun name hname => ?_
    rw [inside_rest_eq_some_iff, hnone] at hname
    cases hname
  simp only [parse, hnone, hrest, HasBrace, Bool.or_eq_true, List.contains_iff_mem]
  rfl

end Reading

/-- A piece in braces is written for a capture, of the rest if its name begins with an asterisk. -/
theorem exists_written_of_isEnclosed (h : IsEnclosed piece.toList) :
    (∃ name, piece = (captureRest name).written) ∨
      ∃ name, piece = (capture name).written ∧ name.toList.head? ≠ some '*' := by
  obtain ⟨inner, hinner⟩ := h
  by_cases hstar : inner.head? = some '*'
  · obtain ⟨name, rfl⟩ := List.head?_eq_some_iff.mp hstar
    exact .inl ⟨String.ofList name, by simp [← String.toList_inj, hinner, written]⟩
  · exact .inr ⟨String.ofList inner, by simp [← String.toList_inj, hinner, written],
      by simpa using hstar⟩

theorem IsEnclosed.hasBrace {text : List Char} (h : IsEnclosed text) : HasBrace text := by
  obtain ⟨inner, rfl⟩ := h
  exact .inl List.mem_cons_self

/-- A piece is read as a segment just if it is written so, and only the last one as the rest. -/
theorem parse_eq_ok_iff : parse pattern last piece = .ok s ↔
    s.written = piece ∧ s.IsRead ∧ ((∃ name, s = .captureRest name) → last = true) := by
  constructor
  · intro h
    by_cases henclosed : IsEnclosed piece.toList
    · obtain ⟨name, rfl⟩ | ⟨name, rfl, hstar⟩ := exists_written_of_isEnclosed henclosed
      · rw [parse_captureRest, checkName_eq] at h
        split at h
        · rename_i hlast
          split at h <;> cases h
          exact ⟨rfl, by assumption, fun _ => hlast⟩
        · cases h
      · rw [parse_capture hstar, checkName_eq] at h
        split at h <;> cases h
        exact ⟨rfl, ⟨by assumption, hstar⟩, nofun⟩
    · rw [parse_of_not_enclosed henclosed] at h
      split at h
      · rename_i hstars
        cases h
        exact ⟨hstars.symm, trivial, nofun⟩
      · rename_i hstars
        split at h
        · cases h
        · rename_i hplain
          split at h <;> cases h
          · exact ⟨rfl, ⟨hplain, by assumption, hstars⟩, nofun⟩
          · rename_i hmark
            exact ⟨rfl, ⟨hplain, not_or.mp hmark⟩, nofun⟩
  · rintro ⟨rfl, hread, hlast⟩
    cases s with
    | anyPieces => rfl
    | captureRest name =>
        rw [parse_captureRest, if_pos (hlast ⟨name, rfl⟩), checkName_eq,
          if_pos (show IsName name from hread)]
        rfl
    | capture name =>
        rw [parse_capture hread.2, checkName_eq, if_pos hread.1]
        rfl
    | glob text =>
        obtain ⟨hplain, hmark, hstars⟩ := hread
        rw [written, parse_of_not_enclosed fun h => hplain h.hasBrace, if_neg hstars,
          if_neg hplain, if_pos hmark]
    | literal text =>
        obtain ⟨hplain, hmark⟩ := hread
        have hstars : text ≠ "**" := by
          rintro rfl
          exact hmark.1 (by decide)
        rw [written, parse_of_not_enclosed fun h => hplain h.hasBrace, if_neg hstars,
          if_neg hplain, if_neg (not_or.mpr hmark)]

/-- A piece is refused as unbalanced just if it holds a brace and does not stand in braces. -/
theorem parse_eq_unbalanced_iff : parse pattern last piece = .error (.unbalanced pattern) ↔
    HasBrace piece.toList ∧ ¬IsEnclosed piece.toList := by
  by_cases henclosed : IsEnclosed piece.toList
  · refine iff_of_false (fun h => ?_) fun h => h.2 henclosed
    obtain ⟨name, rfl⟩ | ⟨name, rfl, hstar⟩ := exists_written_of_isEnclosed henclosed
    · rw [parse_captureRest, checkName_eq] at h
      split at h
      · split at h <;> cases h
      · cases h
    · rw [parse_capture hstar, checkName_eq] at h
      split at h <;> cases h
  · rw [parse_of_not_enclosed henclosed, and_iff_left henclosed]
    by_cases hbrace : HasBrace piece.toList
    · have hstars : piece ≠ "**" := by
        rintro rfl
        exact absurd hbrace (by decide)
      rw [if_neg hstars, if_pos hbrace]
      exact iff_of_true rfl hbrace
    · rw [if_neg hbrace]
      refine iff_of_false (fun h => ?_) hbrace
      split at h
      · cases h
      · split at h <;> cases h

theorem isCrowded_enclosed_iff {inner : List Char} :
    IsCrowded ('\x7b' :: (inner ++ ['\x7d'])) ↔ HasBrace inner := by
  simp [IsCrowded]

/-- Of the segments that are read, just the captures whose names hold braces have been written with
further braces between those at the ends. -/
theorem isCrowded_written_iff (h : s.IsRead) : IsCrowded s.written.toList ↔ ¬s.IsPlain := by
  have hclosed {text : List Char} (hplain : ¬HasBrace text) : ¬IsCrowded text := by
    rintro ⟨inner, rfl, -⟩
    exact hplain (.inl List.mem_cons_self)
  cases s with
  | literal text | glob text => exact iff_of_false (hclosed h.1) (not_not_intro trivial)
  | anyPieces => exact iff_of_false (hclosed (by decide)) (not_not_intro trivial)
  | capture name =>
      have hlist : (capture name).written.toList = '\x7b' :: (name.toList ++ ['\x7d']) := by
        simp [written]
      rw [hlist, isCrowded_enclosed_iff]
      exact not_not.symm
  | captureRest name =>
      have hlist : (captureRest name).written.toList =
          '\x7b' :: (('*' :: name.toList) ++ ['\x7d']) := by
        simp [written]
      rw [hlist, isCrowded_enclosed_iff, IsPlain, not_not]
      simp [HasBrace]

/-! ### All pieces -/

/-- The piece can be read where others follow it. -/
def IsLegible (piece : String) : Prop :=
  ∃ s : Segment, s.written = piece ∧ s.IsRead ∧ ∀ name, s ≠ .captureRest name

theorem isLegible_iff : IsLegible piece ↔ ∃ s, parse pattern false piece = .ok s := by
  simp [IsLegible, parse_eq_ok_iff]

theorem parseAll_eq_ok_iff : parseAll pattern pieces = .ok segments ↔
    segments.map written = pieces ∧ (∀ s ∈ segments, s.IsRead) ∧ RestLast segments := by
  induction pieces generalizing segments with
  | nil =>
      rw [parseAll, List.map_eq_nil_iff]
      constructor
      · intro h
        obtain rfl : [] = segments := Except.ok.inj h
        exact ⟨rfl, List.forall_mem_nil _, trivial⟩
      · rintro ⟨rfl, -⟩
        rfl
  | cons piece pieces ih =>
      rw [parseAll, bind_eq_ok_iff]
      constructor
      · rintro ⟨s, hs, h⟩
        obtain ⟨others, hothers, h⟩ := bind_eq_ok_iff.mp h
        obtain rfl : s :: others = segments := Except.ok.inj h
        obtain ⟨rfl, hread, hlast⟩ := parse_eq_ok_iff.mp hs
        obtain ⟨rfl, hreads, hrest⟩ := ih.mp hothers
        refine ⟨rfl, List.forall_mem_cons.mpr ⟨hread, hreads⟩, fun hs => ?_, hrest⟩
        simpa using hlast hs
      · rintro ⟨hwritten, hreads, hrest⟩
        obtain ⟨s, others, rfl, rfl, rfl⟩ := List.map_eq_cons_iff.mp hwritten
        obtain ⟨hread, hreads⟩ := List.forall_mem_cons.mp hreads
        obtain ⟨hlast, hrest⟩ := hrest
        refine ⟨s, parse_eq_ok_iff.mpr ⟨rfl, hread, fun hs => by simp [hlast hs]⟩, ?_⟩
        exact bind_eq_ok_iff.mpr ⟨others, ih.mpr ⟨rfl, hreads, hrest⟩, rfl⟩

/-- The pieces are refused for the first one that cannot be read. -/
theorem parseAll_eq_error_iff : parseAll pattern pieces = .error e ↔
    ∃ before piece after, pieces = before ++ piece :: after ∧ (∀ q ∈ before, IsLegible q) ∧
      parse pattern after.isEmpty piece = .error e := by
  induction pieces with
  | nil => simp [parseAll]
  | cons piece pieces ih =>
      have hstep : parseAll pattern (piece :: pieces) = .error e ↔
          parse pattern pieces.isEmpty piece = .error e ∨
            ∃ s, parse pattern pieces.isEmpty piece = .ok s ∧
              parseAll pattern pieces = .error e := by
        simp [parseAll, bind_eq_error_iff]
      rw [hstep]
      constructor
      · rintro (h | ⟨s, hs, h⟩)
        · exact ⟨[], piece, pieces, rfl, List.forall_mem_nil _, h⟩
        · obtain ⟨before, q, after, rfl, hbefore, hq⟩ := ih.mp h
          have hmore : (before ++ q :: after).isEmpty = false := by cases before <;> rfl
          have hpiece : IsLegible piece := isLegible_iff.mpr ⟨s, hmore ▸ hs⟩
          exact ⟨piece :: before, q, after, rfl, List.forall_mem_cons.mpr ⟨hpiece, hbefore⟩, hq⟩
      · rintro ⟨before, q, after, heq, hbefore, hq⟩
        cases before with
        | nil =>
            obtain ⟨rfl, rfl⟩ := List.cons.inj heq
            exact .inl hq
        | cons r before =>
            obtain ⟨rfl, rfl⟩ := List.cons.inj heq
            obtain ⟨hpiece, hbefore⟩ := List.forall_mem_cons.mp hbefore
            obtain ⟨s, hs⟩ := isLegible_iff.mp hpiece
            have hmore : (before ++ q :: after).isEmpty = false := by cases before <;> rfl
            exact .inr ⟨s, hmore ▸ hs, ih.mpr ⟨before, q, after, rfl, hbefore, hq⟩⟩

end Segment

open Segment

namespace SegmentPattern

variable {kind : PieceKind} {text : String} {p : SegmentPattern} {e : SegmentError}

/-- The text begins as patterns of this kind do. -/
def Opens : PieceKind → String → Prop
  | .path, text => text.toList.head? = some '/'
  | .host, text => text ≠ ""

/-- The text that is cut into pieces: a pattern for hosts is in lower case. -/
def folded : PieceKind → String → String
  | .path, text => text
  | .host, text => lowerText text

/-- The pattern is what the text is written for: each piece is written for a segment, and only the
last one for the rest. -/
structure IsReadFrom (p : SegmentPattern) (kind : PieceKind) (text : String) : Prop where
  opens : Opens kind text
  kind_eq : p.kind = kind
  text_eq : p.text = folded kind text
  written : p.segments.map Segment.written = kind.split (folded kind text)
  read : ∀ s ∈ p.segments, s.IsRead
  restLast : RestLast p.segments

theorem parse_of_opens (h : Opens kind text) :
    parse kind text = ofText kind (folded kind text) := by
  cases kind with
  | path => exact if_pos h
  | host => exact if_neg h

theorem opens_of_parse_eq_ok (h : parse kind text = .ok p) : Opens kind text := by
  cases kind with
  | path =>
      by_contra hopens
      cases (if_neg hopens).symm.trans h
  | host =>
      rintro rfl
      cases h

theorem parse_eq_ok_iff : parse kind text = .ok p ↔ p.IsReadFrom kind text := by
  constructor
  · intro h
    have hopens := opens_of_parse_eq_ok h
    rw [parse_of_opens hopens, ofText, map_eq_ok_iff] at h
    obtain ⟨segments, hsegments, rfl⟩ := h
    obtain ⟨hwritten, hread, hlast⟩ := parseAll_eq_ok_iff.mp hsegments
    exact ⟨hopens, rfl, rfl, hwritten, hread, hlast⟩
  · rintro ⟨hopens, rfl, htext, hwritten, hread, hlast⟩
    rw [parse_of_opens hopens, ofText, map_eq_ok_iff]
    exact ⟨p.segments, parseAll_eq_ok_iff.mpr ⟨hwritten, hread, hlast⟩, by rw [← htext]⟩

/-- A text is refused as unbalanced for the first piece that cannot be read, if this holds a brace
and does not stand in braces. -/
theorem parse_eq_unbalanced_iff : parse kind text = .error (.unbalanced (folded kind text)) ↔
    Opens kind text ∧ ∃ before piece after,
      kind.split (folded kind text) = before ++ piece :: after ∧
      (∀ q ∈ before, IsLegible q) ∧ HasBrace piece.toList ∧ ¬IsEnclosed piece.toList := by
  by_cases hopens : Opens kind text
  · have hmap : parse kind text = .error (.unbalanced (folded kind text)) ↔
        parseAll (folded kind text) (kind.split (folded kind text)) =
          .error (.unbalanced (folded kind text)) := by
      rw [parse_of_opens hopens, ofText]
      cases parseAll (folded kind text) (kind.split (folded kind text)) <;> simp [Except.map]
    simp only [hmap, parseAll_eq_error_iff, Segment.parse_eq_unbalanced_iff, hopens, true_and]
  · refine iff_of_false (fun h => ?_) fun h => hopens h.1
    cases kind with
    | path => cases (if_neg hopens).symm.trans h
    | host => cases (if_pos (not_not.mp hopens)).symm.trans h

/-- The reader of patterns accepts a text just if its pieces are written for segments: for any
number of pieces, for a capture, which has a name without a colon, for the rest at the end, or for a
text free of braces. All names are free of braces too just if no piece has further braces between
those at its ends. The text is refused as unbalanced just if the first piece that cannot be read has
a brace and does not stand in braces. -/
theorem parse_exact (kind : PieceKind) (text : String) :
    (∀ p, parse kind text = .ok p ↔ p.IsReadFrom kind text) ∧
    (∀ p : SegmentPattern, p.IsReadFrom kind text → ((∀ s ∈ p.segments, s.IsPlain) ↔
      ∀ piece ∈ kind.split (folded kind text), ¬IsCrowded piece.toList)) ∧
    (parse kind text = .error (.unbalanced (folded kind text)) ↔
      Opens kind text ∧
      ∃ before piece after, kind.split (folded kind text) = before ++ piece :: after ∧
        (∀ q ∈ before, IsLegible q) ∧ HasBrace piece.toList ∧ ¬IsEnclosed piece.toList) := by
  refine ⟨fun p => parse_eq_ok_iff, fun p hp => ?_, parse_eq_unbalanced_iff⟩
  rw [← hp.written, List.forall_mem_map]
  refine forall₂_congr fun s hs => ?_
  rw [isCrowded_written_iff (hp.read s hs), not_not]

/-- Two captures in one piece are taken for one, with the inner braces as part of its name. -/
theorem parse_exact_fails :
    ¬∀ kind text p, parse kind text = .ok p → ∀ s ∈ p.segments, s.IsPlain := by
  intro h
  have hread : parse .path "/\x7ba\x7d\x7bb\x7d" =
      .ok ⟨.path, "/\x7ba\x7d\x7bb\x7d", [.capture "a\x7d\x7bb"]⟩ := by cbv
  have hplain : ¬HasBrace "a\x7d\x7bb".toList := h _ _ _ hread _ List.mem_cons_self
  exact hplain (by decide)

end SegmentPattern

end HttpGateway
