import HttpGateway.Proofs.Answer
import HttpGateway.Proofs.Pattern.Pieces
import HttpGateway.Uri.Parser
import Mathlib.Data.List.TakeWhile

/-!
# What the reader of targets lets through

A question mark or a hash ends the path of a target, and a hash ends its query. The reader gives a
target whose path and query hold only what may stand there, and that, when it is written again, is
the text up to its first hash. There is no other such target.
-/

namespace HttpGateway

namespace Target

/-- Whether a path ends before the character. -/
def isMark (c : Char) : Bool := c = '?' || c = '#'

/-- Path and query hold only characters that may stand in them. -/
structure Legal (t : Target) : Prop where
  path : ∀ c ∈ t.path.toList, isPathChar c = true
  query : ∀ q, t.query = some q → ∀ c ∈ q.toList, isQueryChar c = true

/-- The question mark and the query after it. -/
def queryText : Option String → List Char
  | none => []
  | some q => '?' :: q.toList

/-- A target as it is written. -/
def text (t : Target) : List Char := t.path.toList ++ queryText t.query

theorem isMark_iff {c : Char} : isMark c = true ↔ c = '?' ∨ c = '#' := by
  simp [isMark]

theorem isMark_of_isPathChar {c : Char} (h : isPathChar c = true) : isMark c = false := by
  refine Bool.eq_false_iff.mpr fun hmark => ?_
  rcases isMark_iff.mp hmark with rfl | rfl <;> exact absurd h (by decide)

theorem ne_hash_of_isQueryChar {c : Char} (h : isQueryChar c = true) : c ≠ '#' := by
  rintro rfl
  exact absurd h (by decide)

variable {t u : Target} {s : List Char}

theorem Legal.not_isMark (h : t.Legal) {c : Char} (hc : c ∈ t.path.toList) : isMark c = false :=
  isMark_of_isPathChar (h.path c hc)

theorem Legal.not_mem_path (h : t.Legal) : '?' ∉ t.path.toList :=
  fun hmark => absurd (h.not_isMark hmark) (by decide)

theorem Legal.ne_hash (h : t.Legal) {c : Char} (hc : c ∈ queryText t.query) : c ≠ '#' := by
  cases hquery : t.query with
  | none => simp [hquery, queryText] at hc
  | some q =>
      rw [hquery] at hc
      rcases List.mem_cons.mp hc with rfl | hc
      · decide
      · exact ne_hash_of_isQueryChar (h.query q hquery c hc)

theorem ofPieces_eq_ok_iff {path : List Char} {query : Option (List Char)} :
    ofPieces path query = .ok t ↔
      t.Legal ∧ t = ⟨String.ofList path, query.map String.ofList⟩ := by
  have hlegal : Legal ⟨String.ofList path, query.map String.ofList⟩ ↔
      path.all isPathChar = true ∧ (query.getD []).all isQueryChar = true := by
    simp only [List.all_eq_true]
    refine ⟨fun h => ⟨by simpa using h.path, ?_⟩, fun h => ⟨by simpa using h.1, ?_⟩⟩
    · cases query with
      | none => simp
      | some q => simpa using h.query _ rfl
    · cases query with
      | none => simp
      | some q => simpa using h.2
  unfold ofPieces
  split
  · rename_i hbad
    refine iff_of_false nofun ?_
    rintro ⟨h, rfl⟩
    simp [hlegal.mp h] at hbad
  · rename_i hgood
    have h : path.all isPathChar = true ∧ (query.getD []).all isQueryChar = true := by
      simpa using hgood
    rw [Except.ok.injEq, eq_comm]
    exact ⟨fun ht => ⟨ht ▸ hlegal.mpr h, ht⟩, fun ht => ht.2⟩

theorem cut_text (h : '?' ∉ t.path.toList) :
    Text.cut '?' t.text = t.query.map fun q => (t.path.toList, q.toList) := by
  cases hquery : t.query with
  | none => simpa [text, hquery, queryText] using Text.cut_eq_none_iff.mpr h
  | some q => simpa [text, hquery, queryText] using Text.cut_append_cons h q.toList

/-- The reader gives just the target that is written before the first hash. -/
theorem scan_eq_ok_iff : scan s = .ok t ↔ t.Legal ∧ t.text = s.takeWhile (· ≠ '#') := by
  simp only [scan]
  generalize s.takeWhile (· ≠ '#') = written
  constructor
  · intro h
    split at h
    · rename_i path query hcut
      obtain ⟨hlegal, rfl⟩ := ofPieces_eq_ok_iff.mp h
      refine ⟨hlegal, ?_⟩
      simpa [text, queryText] using (Text.eq_of_cut hcut).symm
    · obtain ⟨hlegal, rfl⟩ := ofPieces_eq_ok_iff.mp h
      exact ⟨hlegal, by simp [text, queryText]⟩
  · rintro ⟨hlegal, rfl⟩
    rw [cut_text hlegal.not_mem_path]
    obtain ⟨path, _ | query⟩ := t
    · exact ofPieces_eq_ok_iff.mpr ⟨hlegal, by simp [text, queryText]⟩
    · exact ofPieces_eq_ok_iff.mpr ⟨hlegal, by simp⟩

/-- A target without a question mark in its path is told by what is written. -/
theorem eq_of_text_eq (ht : '?' ∉ t.path.toList) (hu : '?' ∉ u.path.toList)
    (h : t.text = u.text) : t = u := by
  have hcut := congrArg (Text.cut '?') h
  rw [cut_text ht, cut_text hu] at hcut
  obtain ⟨path, _ | query⟩ := t <;> obtain ⟨path', _ | query'⟩ := u
  · simpa [text, queryText, String.toList_inj] using h
  · simp at hcut
  · simp at hcut
  · simpa [String.toList_inj] using hcut

theorem takeWhile_text (t : Target) :
    t.text.takeWhile (fun c => !isMark c) = t.path.toList.takeWhile fun c => !isMark c := by
  have hquery : (queryText t.query).takeWhile (fun c => !isMark c) = [] := by
    cases t.query <;> simp [queryText, isMark]
  rw [text, List.takeWhile_append, hquery, List.append_nil]
  split
  · rename_i hlength
    exact ((List.takeWhile_prefix _).eq_of_length hlength).symm
  · rfl

/-- Nothing of a target is a fragment. -/
theorem takeWhile_hash_text (hpath : ∀ c ∈ t.path.toList, isMark c = false)
    (hquery : ∀ c ∈ queryText t.query, c ≠ '#') : t.text.takeWhile (· ≠ '#') = t.text := by
  rw [List.takeWhile_eq_self_iff]
  intro c hc
  rcases List.mem_append.mp hc with hc | hc
  · have hhash : c ≠ '#' := fun heq => absurd (isMark_iff.mpr (.inr heq)) (by simp [hpath c hc])
    simpa using hhash
  · simpa using hquery c hc

/-- The path that is read is what stands before the first mark. -/
theorem Legal.path_eq (h : t.Legal) (htext : t.text = s.takeWhile (· ≠ '#')) :
    t.path.toList = s.takeWhile fun c => !isMark c := by
  have hself : t.path.toList.takeWhile (fun c => !isMark c) = t.path.toList :=
    List.takeWhile_eq_self_iff.mpr fun c hc => by simp [h.not_isMark hc]
  rw [← hself, ← takeWhile_text, htext, List.takeWhile_takeWhile]
  congr 1
  funext c
  simp [isMark]

theorem parse_of_head {written : String} {first : Char} (h : written.toList.head? = some first)
    (hfirst : first = '/' ∨ first = '?' ∨ first = '#') :
    parse written = scan written.toList := by
  obtain ⟨rest, hrest⟩ := List.head?_eq_some_iff.mp h
  rcases hfirst with rfl | rfl | rfl <;> simp [parse, hrest]

theorem head_of_parse {written : String} (h : parse written = .ok t) :
    written.toList = ['*'] ∨ ∃ first rest, written.toList = first :: rest ∧
      (first = '/' ∨ first = '?' ∨ first = '#') := by
  simp only [parse] at h
  split at h
  · cases h
  · exact .inl (by assumption)
  · split at h
    · exact .inr ⟨_, _, by assumption, by assumption⟩
    · cases h

/-- A target that is read where nothing stands around it is a legal one, and is what is written
before the first hash. -/
theorem legal_of_parse {written : String} (h : parse written = .ok t) :
    t.Legal ∧ t.text = written.toList.takeWhile (· ≠ '#') := by
  simp only [parse] at h
  split at h
  · cases h
  · rename_i hstar
    cases h
    rw [hstar]
    exact ⟨⟨by simp [isPathChar], nofun⟩, by decide⟩
  · split at h
    · exact scan_eq_ok_iff.mp h
    · cases h

end Target

namespace Uri

variable {s : List Char} {u : Uri}

theorem legal_bare : Target.Legal ⟨"", none⟩ := ⟨by simp, nofun⟩

theorem legal_of_parseAuthorityForm (h : parseAuthorityForm s = .ok u) : u.target.Legal := by
  obtain ⟨⟨name, rest⟩, -, h⟩ := bind_eq_ok_iff.mp h
  dsimp only at h
  split at h <;> cases h
  exact legal_bare

theorem legal_of_parseFull (h : parseFull s = .ok u) : u.target.Legal := by
  obtain ⟨⟨scheme, after⟩, -, h⟩ := bind_eq_ok_iff.mp h
  dsimp only at h
  split at h
  · cases h
  · obtain ⟨⟨name, rest⟩, -, h⟩ := bind_eq_ok_iff.mp h
    cases scheme with
    | none =>
        dsimp only at h
        split at h <;> cases h
        exact legal_bare
    | some scheme =>
        dsimp only at h
        split at h
        · cases h
        · obtain ⟨t, ht, h⟩ := bind_eq_ok_iff.mp h
          cases h
          exact (Target.scan_eq_ok_iff.mp ht).1

/-- Whatever is read as a URI has a legal target. -/
theorem legal_of_parse {written : String} (h : parse written = .ok u) : u.target.Legal := by
  simp only [parse] at h
  split at h
  · cases h
  · split at h
    · cases h
    · cases h
      exact ⟨by simp [Target.root, isPathChar], nofun⟩
    · cases h
      exact ⟨by simp [isPathChar], nofun⟩
    · exact legal_of_parseAuthorityForm h
    · obtain ⟨t, ht, h⟩ := bind_eq_ok_iff.mp h
      cases h
      exact (Target.scan_eq_ok_iff.mp ht).1
    · exact legal_of_parseFull h

end Uri

end HttpGateway
