import HttpGateway.Pattern.Segment

/-!
# Cutting texts into pieces

Cutting a text at a separator gives pieces that are free of it, and the text comes back when it is
put between them again. No other pieces have both properties. A pattern looks at the pieces of a
text, in a path without the empty one that a slash at the end leaves.
-/

namespace HttpGateway

namespace Text

variable {sep : Char}

theorem not_mem_of_mem_pieces {s piece : List Char} (h : piece ∈ pieces sep s) : sep ∉ piece := by
  induction s generalizing piece with
  | nil =>
      obtain rfl : piece = [] := by simpa [pieces] using h
      exact List.not_mem_nil
  | cons c rest ih =>
      rw [pieces] at h
      split at h
      · rcases List.mem_cons.mp h with rfl | h
        · exact List.not_mem_nil
        · exact ih h
      · rename_i hc
        cases hrest : pieces sep rest with
        | nil => exact absurd hrest (pieces_ne_nil sep rest)
        | cons p ps =>
            simp only [hrest] at h ih
            rcases List.mem_cons.mp h with rfl | h
            · intro hsep
              rcases List.mem_cons.mp hsep with hsep | hsep
              · exact hc hsep.symm
              · exact ih List.mem_cons_self hsep
            · exact ih (List.mem_cons_of_mem p h)

theorem pieces_of_not_mem {p : List Char} (h : sep ∉ p) : pieces sep p = [p] := by
  induction p with
  | nil => rfl
  | cons c p ih =>
      obtain ⟨hc, hp⟩ := not_or.mp (mt List.mem_cons.mpr h)
      rw [pieces, if_neg (Ne.symm hc), ih hp]

theorem pieces_append_cons {p : List Char} (h : sep ∉ p) (s : List Char) :
    pieces sep (p ++ sep :: s) = p :: pieces sep s := by
  induction p with
  | nil => simp [pieces]
  | cons c p ih =>
      obtain ⟨hc, hp⟩ := not_or.mp (mt List.mem_cons.mpr h)
      rw [List.cons_append, pieces, if_neg (Ne.symm hc), ih hp]

/-- A separator between two texts keeps their pieces apart. -/
theorem pieces_append_sep (s t : List Char) :
    pieces sep (s ++ sep :: t) = pieces sep s ++ pieces sep t := by
  induction s with
  | nil => simp [pieces]
  | cons c s ih =>
      rw [List.cons_append, pieces, pieces, ih]
      split
      · rfl
      · cases hs : pieces sep s with
        | nil => exact absurd hs (pieces_ne_nil sep s)
        | cons p ps => rfl

/-- Pieces that are free of the separator are what the text made of them is cut into. -/
theorem pieces_join {ps : List (List Char)} (hne : ps ≠ []) (h : ∀ p ∈ ps, sep ∉ p) :
    pieces sep (join [sep] ps) = ps := by
  induction ps with
  | nil => exact absurd rfl hne
  | cons p ps ih =>
      have hp := h p List.mem_cons_self
      cases ps with
      | nil => exact pieces_of_not_mem hp
      | cons q qs =>
          have hrest := ih (List.cons_ne_nil q qs) fun r hr => h r (List.mem_cons_of_mem p hr)
          rw [join, List.append_assoc, List.singleton_append, pieces_append_cons hp, hrest]
          simp

/-- With a separator before them all, the pieces are put together one by one. -/
theorem cons_join {ps : List (List Char)} (hne : ps ≠ []) :
    sep :: join [sep] ps = ps.flatMap fun p => sep :: p := by
  induction ps with
  | nil => exact absurd rfl hne
  | cons p ps ih =>
      cases ps with
      | nil => simp [join]
      | cons q qs =>
          show sep :: (p ++ [sep] ++ join [sep] (q :: qs)) = _
          rw [List.flatMap_cons, ← ih (List.cons_ne_nil q qs)]
          simp

theorem cut_append_cons {p : List Char} (h : sep ∉ p) (s : List Char) :
    cut sep (p ++ sep :: s) = some (p, s) := by
  induction p with
  | nil => simp [cut]
  | cons c p ih =>
      obtain ⟨hc, hp⟩ := not_or.mp (mt List.mem_cons.mpr h)
      simp [cut, Ne.symm hc, ih hp]

theorem cut_eq_none_iff {s : List Char} : cut sep s = none ↔ sep ∉ s := by
  induction s with
  | nil => simp [cut]
  | cons c s ih =>
      by_cases hc : c = sep
      · simp [cut, hc]
      · simp [cut, hc, Ne.symm hc, ih]

end Text

namespace PieceKind

/-- The text that is cut: in a path without one slash at its start. -/
def body (kind : PieceKind) (text : String) : List Char :=
  match kind, text.toList with
  | .path, '/' :: rest => rest
  | _, s => s

/-- These are the pieces of a text: they are free of the separator, and with it between them they
make up the text. A text of which nothing is left to cut has no pieces. -/
structure Splits (kind : PieceKind) (text : String) (pieces : List String) : Prop where
  free : ∀ piece ∈ pieces, kind.separator ∉ piece.toList
  joined : Text.join [kind.separator] (pieces.map String.toList) = kind.body text
  none_iff : pieces = [] ↔ kind.body text = []

variable {kind : PieceKind} {text : String} {pieces : List String}

theorem split_eq (kind : PieceKind) (text : String) :
    kind.split text = if kind.body text = [] then [] else
      (Text.pieces kind.separator (kind.body text)).map String.ofList := by
  simp only [split, List.isEmpty_iff]
  rfl

theorem splits_split (kind : PieceKind) (text : String) : kind.Splits text (kind.split text) := by
  rw [split_eq]
  split
  · rename_i hbody
    exact ⟨nofun, hbody.symm, by simp [hbody]⟩
  · rename_i hbody
    have hlists : ((Text.pieces kind.separator (kind.body text)).map String.ofList).map
        String.toList = Text.pieces kind.separator (kind.body text) := by
      simp [Function.comp_def]
    refine ⟨fun piece hpiece => ?_, ?_, ?_⟩
    · obtain ⟨p, hp, rfl⟩ := List.mem_map.mp hpiece
      rw [String.toList_ofList]
      exact Text.not_mem_of_mem_pieces hp
    · rw [hlists, Text.join_pieces]
    · simp [hbody, Text.pieces_ne_nil]

/-- A text has its pieces and no others. -/
theorem splits_iff : kind.Splits text pieces ↔ pieces = kind.split text := by
  constructor
  · intro h
    rw [split_eq]
    split
    · rename_i hbody
      exact h.none_iff.mpr hbody
    · rename_i hbody
      have hne : pieces.map String.toList ≠ [] := fun hmap =>
        hbody (h.none_iff.mp (List.map_eq_nil_iff.mp hmap))
      have hfree : ∀ p ∈ pieces.map String.toList, kind.separator ∉ p := by
        intro p hp
        obtain ⟨piece, hpiece, rfl⟩ := List.mem_map.mp hp
        exact h.free piece hpiece
      rw [← h.joined, Text.pieces_join hne hfree]
      simp [Function.comp_def]
  · rintro rfl
    exact splits_split kind text

/-! ### Paths -/

theorem toList_join_path (pieces : List String) :
    (PieceKind.path.join pieces).toList = pieces.flatMap fun piece => '/' :: piece.toList := by
  simp [join, String.toList_join, List.flatMap_map]

theorem toList_eq_body (h : text.toList.head? = some '/') :
    text.toList = '/' :: PieceKind.path.body text := by
  obtain ⟨rest, hrest⟩ := List.head?_eq_some_iff.mp h
  simp [body, hrest]

/-- A path is put together from its pieces again, if it has any. -/
theorem Splits.join_eq (h : PieceKind.path.Splits text pieces)
    (hslash : text.toList.head? = some '/') (hne : pieces ≠ []) :
    PieceKind.path.join pieces = text := by
  have hmap : pieces.map String.toList ≠ [] := by simpa using hne
  rw [← String.toList_inj, toList_join_path, toList_eq_body hslash, ← h.joined]
  show _ = '/' :: Text.join ['/'] (pieces.map String.toList)
  rw [Text.cons_join hmap, List.flatMap_map]

/-- Pieces without slashes are those of the path they make up, unless this is a single slash. -/
theorem splits_join (hfree : ∀ piece ∈ pieces, '/' ∉ piece.toList) (h : pieces ≠ [""]) :
    PieceKind.path.Splits (PieceKind.path.join pieces) pieces := by
  by_cases hne : pieces = []
  · subst hne
    exact ⟨nofun, rfl, iff_of_true rfl rfl⟩
  · have hmap : pieces.map String.toList ≠ [] := by simpa using hne
    have hbody : PieceKind.path.body (PieceKind.path.join pieces) =
        Text.join ['/'] (pieces.map String.toList) := by
      have hlist : (PieceKind.path.join pieces).toList =
          '/' :: Text.join ['/'] (pieces.map String.toList) := by
        rw [toList_join_path, Text.cons_join hmap, List.flatMap_map]
      simp [body, hlist]
    refine ⟨hfree, hbody.symm, iff_of_false hne fun hempty => h ?_⟩
    -- A text without characters has one piece, and that is empty.
    have hpieces : Text.pieces '/' (Text.join ['/'] (pieces.map String.toList)) =
        pieces.map String.toList :=
      Text.pieces_join hmap (by simpa using hfree)
    rw [← hbody, hempty] at hpieces
    obtain ⟨piece, rfl, hpiece⟩ := List.map_eq_singleton_iff.mp hpieces.symm
    rw [String.toList_eq_nil_iff.mp hpiece]

theorem join_concat_empty (pieces : List String) :
    PieceKind.path.join (pieces ++ [""]) = PieceKind.path.join pieces ++ "/" := by
  rw [← String.toList_inj, String.toList_append]
  simp [toList_join_path]

end PieceKind

namespace SegmentPattern

variable {p : SegmentPattern} {text : String} {pieces : List String}

/-- The pieces that a pattern looks at: all of them, or in a path those before the empty one at the
end, unless the pattern itself ends in the empty piece. -/
inductive Sees (p : SegmentPattern) (text : String) : List String → Prop
  | all {pieces : List String} (h : p.kind.Splits text pieces)
      (hlast : p.kind = .path → p.segments.getLast? ≠ some (.literal "") →
        pieces.getLast? ≠ some "") : Sees p text pieces
  | dropped {pieces : List String} (hkind : p.kind = .path)
      (hend : p.segments.getLast? ≠ some (.literal ""))
      (h : p.kind.Splits text (pieces ++ [""])) : Sees p text pieces

theorem piecesOf_eq (p : SegmentPattern) (text : String) :
    p.piecesOf text =
      if p.kind = .path ∧ (p.kind.split text).getLast? = some "" ∧
          p.segments.getLast? ≠ some (.literal "")
      then (p.kind.split text).dropLast else p.kind.split text := by
  simp [piecesOf, endsEmpty, and_assoc]

theorem sees_iff : p.Sees text pieces ↔ pieces = p.piecesOf text := by
  rw [piecesOf_eq]
  constructor
  · rintro (⟨h, hlast⟩ | ⟨hkind, hend, h⟩)
    · rw [PieceKind.splits_iff] at h
      subst h
      rw [if_neg fun hdrop => hlast hdrop.1 hdrop.2.2 hdrop.2.1]
    · rw [PieceKind.splits_iff] at h
      rw [← h, if_pos ⟨hkind, List.getLast?_concat .., hend⟩, List.dropLast_concat]
  · rintro rfl
    split
    · rename_i hdrop
      obtain ⟨hkind, hlast, hend⟩ := hdrop
      obtain ⟨front, hfront⟩ := List.getLast?_eq_some_iff.mp hlast
      refine .dropped hkind hend (PieceKind.splits_iff.mpr ?_)
      rw [hfront, List.dropLast_concat]
    · rename_i hkeep
      exact .all (PieceKind.splits_split p.kind text) fun hkind hend hlast =>
        hkeep ⟨hkind, hlast, hend⟩

/-- The pieces that are seen make up the path, but for a slash at its end. -/
theorem Sees.text_eq (h : p.Sees text pieces) (hkind : p.kind = .path)
    (hslash : text.toList.head? = some '/') :
    text = PieceKind.path.join pieces ∨ text = PieceKind.path.join pieces ++ "/" := by
  cases h with
  | all h _ =>
      rw [hkind] at h
      by_cases hne : pieces = []
      · have htext := PieceKind.toList_eq_body hslash
        rw [h.none_iff.mp hne] at htext
        subst hne
        exact .inr (String.toList_inj.mp htext)
      · exact .inl (h.join_eq hslash hne).symm
  | dropped _ _ h =>
      rw [hkind] at h
      exact .inr ((h.join_eq hslash (by simp)).symm.trans (PieceKind.join_concat_empty pieces))

end SegmentPattern

end HttpGateway
