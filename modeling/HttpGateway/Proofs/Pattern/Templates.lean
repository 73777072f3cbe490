import HttpGateway.Pattern.Template
import HttpGateway.Proofs.Answer
import HttpGateway.Proofs.Pattern.Pieces
import Mathlib.Data.List.Chain

/-!
# Which texts are templates

A template is read from the left, one variable after the other, and what has been read is the text
again when its parts are written down. Every text made of brace-free parts and variables with
brace-free names is accepted. So are some others: the reader looks for a closing brace only in what
follows the last variable, and for an opening one only where no variable has been opened. Of these
others it is told by their parts that they are no such texts.
-/

namespace HttpGateway

namespace TemplatePart

/-- The part as it is written. -/
def written : TemplatePart → List Char
  | .literal text => text.toList
  | .variable name => '\x7b' :: (name.toList ++ ['\x7d'])

/-- The part holds no braces besides those around a variable, and a variable has a name. -/
def IsPlain : TemplatePart → Prop
  | .literal text => '\x7b' ∉ text.toList ∧ '\x7d' ∉ text.toList
  | .variable name => name ≠ "" ∧ '\x7b' ∉ name.toList ∧ '\x7d' ∉ name.toList

def isLiteral : TemplatePart → Bool
  | .literal _ => true
  | .variable _ => false

end TemplatePart

open TemplatePart

namespace PathTemplate

/-- The text is made of brace-free texts and of variables in braces with brace-free names. -/
def IsWellBraced (text : List Char) : Prop :=
  ∃ parts : List TemplatePart, (∀ p ∈ parts, p.IsPlain) ∧ parts.flatMap written = text

/-- The parts that a text may be read as. A literal before a variable may hold closing braces, and
the name of a variable opening ones. -/
inductive IsRead : List TemplatePart → Prop
  | nil : IsRead []
  | last {text : String} (hne : text ≠ "") (hplain : (TemplatePart.literal text).IsPlain) :
      IsRead [.literal text]
  | variable {name : String} {rest : List TemplatePart} (hne : name ≠ "")
      (hclose : '\x7d' ∉ name.toList) (hrest : IsRead rest) : IsRead (.variable name :: rest)
  | literal {text name : String} {rest : List TemplatePart} (hne : text ≠ "")
      (hopen : '\x7b' ∉ text.toList) (hrest : IsRead (.variable name :: rest)) :
      IsRead (.literal text :: .variable name :: rest)

variable {parts rest : List TemplatePart} {template name : String} {s before after : List Char}

/-! ### Parts that have been read -/

theorem IsRead.not_mem_empty (h : IsRead parts) : .literal "" ∉ parts := by
  induction h with
  | nil => exact List.not_mem_nil
  | last hne => simpa using hne.symm
  | «variable» _ _ _ ih => simpa using ih
  | literal hne _ _ ih =>
      rw [List.mem_cons, not_or]
      exact ⟨fun heq => hne (TemplatePart.literal.inj heq).symm, ih⟩

theorem IsRead.isChain (h : IsRead parts) :
    parts.IsChain fun p q => ¬(p.isLiteral = true ∧ q.isLiteral = true) := by
  induction h with
  | nil => exact .nil
  | last => exact .singleton _
  | @«variable» name rest _ _ _ ih =>
      cases rest with
      | nil => exact .singleton _
      | cons p rest => exact .cons_cons (by simp [isLiteral]) ih
  | literal _ _ _ ih => exact .cons_cons (by simp [isLiteral]) ih

theorem isRead_variable_iff : IsRead (.variable name :: rest) ↔
    name ≠ "" ∧ '\x7d' ∉ name.toList ∧ IsRead rest := by
  constructor
  · rintro (_ | _ | ⟨hne, hclose, hrest⟩)
    exact ⟨hne, hclose, hrest⟩
  · rintro ⟨hne, hclose, hrest⟩
    exact .variable hne hclose hrest

/-- What stands before a variable is a literal, unless nothing does. -/
theorem isRead_literalPart_variable_iff :
    IsRead (literalPart before ++ .variable name :: rest) ↔
      (before ≠ [] → '\x7b' ∉ before) ∧ IsRead (.variable name :: rest) := by
  cases before with
  | nil => simp [literalPart]
  | cons c before =>
      simp only [literalPart, List.isEmpty_cons, Bool.false_eq_true, if_false,
        List.singleton_append, ne_eq, reduceCtorEq, not_false_eq_true, true_imp_iff]
      constructor
      · rintro (_ | _ | _ | ⟨_, hopen, hrest⟩)
        exact ⟨by simpa using hopen, hrest⟩
      · rintro ⟨hopen, hrest⟩
        exact .literal (by simp [← String.toList_inj]) (by simpa using hopen) hrest

theorem isRead_literalPart (hopen : '\x7b' ∉ before) (hclose : '\x7d' ∉ before) :
    IsRead (literalPart before) := by
  unfold literalPart
  split
  · exact .nil
  · rename_i hne
    exact .last (by simpa using hne) (by simpa [IsPlain] using ⟨hopen, hclose⟩)

theorem isPlain_literalPart (hopen : '\x7b' ∉ before) (hclose : '\x7d' ∉ before) :
    ∀ p ∈ literalPart before, p.IsPlain := by
  unfold literalPart
  split
  · exact nofun
  · simpa [IsPlain] using ⟨hopen, hclose⟩

theorem written_literalPart (before : List Char) :
    (literalPart before).flatMap written = before := by
  unfold literalPart
  split
  · rename_i hnil
    simp [List.isEmpty_iff.mp hnil]
  · simp [written]

theorem written_variable (name : String) (rest : List TemplatePart) :
    (TemplatePart.variable name :: rest).flatMap written =
      '\x7b' :: (name.toList ++ '\x7d' :: rest.flatMap written) := by
  simp [written]

/-- Parts that have been read begin with a variable and what stands before it, or they are what is
left behind the last one. -/
theorem IsRead.cases_first (h : IsRead parts) :
    (∃ text, parts = literalPart text ∧ '\x7b' ∉ text ∧ '\x7d' ∉ text) ∨
      ∃ before name rest, parts = literalPart before ++ .variable name :: rest ∧
        '\x7b' ∉ before ∧ name ≠ "" ∧ '\x7d' ∉ name.toList ∧ IsRead rest := by
  cases h with
  | nil => exact .inl ⟨[], rfl, List.not_mem_nil, List.not_mem_nil⟩
  | @last text hne hplain =>
      refine .inl ⟨text.toList, ?_, hplain⟩
      simp [literalPart, hne]
  | @«variable» name rest hne hclose hrest =>
      exact .inr ⟨[], name, rest, rfl, List.not_mem_nil, hne, hclose, hrest⟩
  | @literal text name rest hne hopen hrest =>
      obtain ⟨hname, hclose, hrest⟩ := isRead_variable_iff.mp hrest
      refine .inr ⟨text.toList, name, rest, ?_, hopen, hname, hclose, hrest⟩
      simp [literalPart, hne]

/-! ### Reading -/

section Scan

variable {fuel : Nat} {written : List Char}

theorem scan_of_not_mem (h : '\x7b' ∉ s) : scan template (fuel + 1) s =
    if '\x7d' ∈ s then .error (.unbalanced template) else .ok (literalPart s) := by
  rw [scan, Text.cut_eq_none_iff.mpr h]
  simp

theorem scan_unclosed (hbefore : '\x7b' ∉ before) (h : '\x7d' ∉ after) :
    scan template (fuel + 1) (before ++ '\x7b' :: after) = .error (.unclosed template) := by
  rw [scan, Text.cut_append_cons hbefore]
  simp only [Text.cut_eq_none_iff.mpr h]

theorem scan_variable (hbefore : '\x7b' ∉ before) (h : '\x7d' ∉ written) :
    scan template (fuel + 1) (before ++ '\x7b' :: (written ++ '\x7d' :: after)) =
      if written = [] then .error (.emptyName template)
      else (scan template fuel after).map fun parts =>
        literalPart before ++ .variable (String.ofList written) :: parts := by
  rw [scan, Text.cut_append_cons hbefore]
  simp only [Text.cut_append_cons h, List.isEmpty_iff]

end Scan

/-- With a bound above the length of the text the reader comes to its end. It reads these parts just
if they may be read and make up the text. -/
theorem scan_eq_ok_iff {fuel : Nat} (hfuel : s.length < fuel) :
    scan template fuel s = .ok parts ↔ IsRead parts ∧ parts.flatMap written = s := by
  induction fuel generalizing s parts with
  | zero => exact absurd hfuel (Nat.not_lt_zero _)
  | succ fuel ih =>
      constructor
      · intro h
        by_cases hmem : '\x7b' ∈ s
        · obtain ⟨before, after, rfl, hbefore⟩ := List.eq_append_cons_of_mem hmem
          by_cases hend : '\x7d' ∈ after
          · obtain ⟨name, rest, rfl, hname⟩ := List.eq_append_cons_of_mem hend
            rw [scan_variable hbefore hname] at h
            split at h
            · cases h
            · rename_i hne
              obtain ⟨others, hothers, rfl⟩ := map_eq_ok_iff.mp h
              simp only [List.length_append, List.length_cons] at hfuel
              obtain ⟨hread, rfl⟩ := (ih (by omega)).mp hothers
              refine ⟨isRead_literalPart_variable_iff.mpr ⟨fun _ => hbefore,
                .variable (by simpa using hne) (by simpa using hname) hread⟩, ?_⟩
              rw [List.flatMap_append, written_literalPart, written_variable, String.toList_ofList]
          · rw [scan_unclosed hbefore hend] at h
            cases h
        · rw [scan_of_not_mem hmem] at h
          split at h
          · cases h
          · rename_i hclose
            obtain rfl := Except.ok.inj h
            exact ⟨isRead_literalPart hmem hclose, written_literalPart s⟩
      · rintro ⟨hread, rfl⟩
        obtain ⟨text, rfl, hopen, hclose⟩ | ⟨before, name, rest, rfl, hopen, hne, hclose, hrest⟩ :=
          hread.cases_first
        · rw [written_literalPart, scan_of_not_mem hopen, if_neg hclose]
        · rw [List.flatMap_append, written_literalPart, written_variable] at hfuel ⊢
          simp only [List.length_append, List.length_cons] at hfuel
          have hothers : scan template fuel (rest.flatMap written) = .ok rest :=
            (ih (by omega)).mpr ⟨hrest, rfl⟩
          rw [scan_variable hopen hclose, if_neg (mt String.toList_eq_nil_iff.mp hne), hothers,
            String.ofList_toList]
          rfl

theorem ofText_eq_ok_iff {text : String} {t : PathTemplate} :
    ofText text = .ok t ↔ IsRead t.parts ∧ t.parts.flatMap written = text.toList := by
  rw [ofText, map_eq_ok_iff, ← scan_eq_ok_iff (Nat.lt_succ_self _)]
  constructor
  · rintro ⟨parts, hparts, rfl⟩
    exact hparts
  · exact fun h => ⟨t.parts, h, rfl⟩

/-! ### Well-braced texts -/

/-- Parts in which no two literals follow each other and none is empty, with a literal before
them. -/
def tidy (before : List Char) : List TemplatePart → List TemplatePart
  | [] => literalPart before
  | .literal text :: parts => tidy (before ++ text.toList) parts
  | .variable name :: parts => literalPart before ++ .variable name :: tidy [] parts

theorem tidy_spec (hparts : ∀ p ∈ parts, p.IsPlain) (hbefore : '\x7b' ∉ before)
    (hbefore' : '\x7d' ∉ before) :
    IsRead (tidy before parts) ∧ (∀ p ∈ tidy before parts, p.IsPlain) ∧
      (tidy before parts).flatMap written = before ++ parts.flatMap written := by
  induction parts generalizing before with
  | nil =>
      refine ⟨isRead_literalPart hbefore hbefore', isPlain_literalPart hbefore hbefore', ?_⟩
      rw [tidy, written_literalPart]
      simp
  | cons p parts ih =>
      obtain ⟨hp, hrest⟩ := List.forall_mem_cons.mp hparts
      cases p with
      | literal text =>
          have hopen : '\x7b' ∉ before ++ text.toList := by simp [hbefore, hp.1]
          have hclose : '\x7d' ∉ before ++ text.toList := by simp [hbefore', hp.2]
          obtain ⟨hread, hplain, hwritten⟩ := ih hrest hopen hclose
          refine ⟨hread, hplain, hwritten.trans ?_⟩
          simp [written]
      | «variable» name =>
          obtain ⟨hread, hplain, hwritten⟩ :=
            ih hrest (List.not_mem_nil (a := '\x7b')) List.not_mem_nil
          refine ⟨isRead_literalPart_variable_iff.mpr
            ⟨fun _ => hbefore, .variable hp.1 hp.2.2 hread⟩, ?_, ?_⟩
          · exact List.forall_mem_append.mpr
              ⟨isPlain_literalPart hbefore hbefore', List.forall_mem_cons.mpr ⟨hp, hplain⟩⟩
          · rw [tidy, List.flatMap_append, written_literalPart, written_variable, hwritten,
              written_variable]
            rfl

/-- A text is well braced just if it is read as parts without further braces. -/
theorem isWellBraced_iff {text : String} : IsWellBraced text.toList ↔
    ∃ t, ofText text = .ok t ∧ ∀ p ∈ t.parts, p.IsPlain := by
  constructor
  · rintro ⟨parts, hparts, hwritten⟩
    obtain ⟨hread, hplain, htidy⟩ := tidy_spec hparts List.not_mem_nil List.not_mem_nil
    exact ⟨⟨tidy [] parts⟩, ofText_eq_ok_iff.mpr ⟨hread, htidy.trans hwritten⟩, hplain⟩
  · rintro ⟨t, ht, hplain⟩
    exact ⟨t.parts, hplain, (ofText_eq_ok_iff.mp ht).2⟩

/-- The reader of templates comes to an end on every text. It gives the parts that may be read and
make up the text, and refuses the text if there are none. None of these parts is an empty literal,
and no two literals follow each other. A well-braced text is accepted, and of all accepted texts
just those are well braced whose literals and names are free of braces. -/
theorem ofText_exact (text : String) :
    (∀ t, ofText text = .ok t ↔ IsRead t.parts ∧ t.parts.flatMap written = text.toList) ∧
    (∀ parts, IsRead parts → .literal "" ∉ parts ∧
      parts.IsChain fun p q => ¬(p.isLiteral = true ∧ q.isLiteral = true)) ∧
    (IsWellBraced text.toList ↔ ∃ t, ofText text = .ok t ∧ ∀ p ∈ t.parts, p.IsPlain) :=
  ⟨fun _ => ofText_eq_ok_iff, fun _ h => ⟨h.not_mem_empty, h.isChain⟩, isWellBraced_iff⟩

/-- A closing brace before a variable is accepted, though it closes none. -/
theorem ofText_exact_fails :
    ¬∀ text : String, (∃ t, ofText text = .ok t) ↔ IsWellBraced text.toList := by
  intro h
  have hread : ofText "/a\x7db/\x7bc\x7d" = .ok ⟨[.literal "/a\x7db/", .variable "c"]⟩ := by cbv
  obtain ⟨t, ht, hplain⟩ := isWellBraced_iff.mp ((h _).mp ⟨_, hread⟩)
  obtain rfl := Except.ok.inj (hread.symm.trans ht)
  have hliteral : (TemplatePart.literal "/a\x7db/").IsPlain := hplain _ List.mem_cons_self
  exact hliteral.2 (by decide)

end PathTemplate

end HttpGateway
