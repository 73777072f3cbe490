import HttpGateway.Proofs.Dictionary
import HttpGateway.Proofs.Pattern.Pieces
import HttpGateway.Proofs.Text.Number
import HttpGateway.Definition.Basic
import Mathlib.Data.List.Nodup

/-!
# What a shortcut is read as

The values of a shortcut are kept under numbered keys, in the order of those keys, in which the
tenth value stands before the second. Giving the values their names brings them back into the order
in which they were written: their places are read off the keys again, no two of them have the same,
and there is only one way to sort them.
-/

namespace HttpGateway

namespace Text

theorem afterPrefix?_append (p s : List Char) : afterPrefix? p (p ++ s) = some s := by
  induction p with
  | nil => rfl
  | cons c p ih => simpa [afterPrefix?] using ih

end Text

namespace Shortcut

/-- The shortcut of a name and values. -/
def write (name : String) (values : List String) : String :=
  name ++ "=" ++ joinTexts "," values

variable {name : String} {values : List String}

theorem split_write (h : '=' ∉ name.toList) (values : List String) :
    split (write name values) = (trimText name, some (joinTexts "," values)) := by
  have hcut : Text.cut '=' (write name values).toList =
      some (name.toList, (joinTexts "," values).toList) := by
    rw [write, String.toList_append, String.toList_append, List.append_assoc]
    exact Text.cut_append_cons h _
  simp only [split, cutText, hcut, Option.map_some, String.ofList_toList]

theorem piecesOf_joinTexts (hne : values ≠ []) (h : ∀ v ∈ values, ',' ∉ v.toList) :
    piecesOf ',' (joinTexts "," values) = values := by
  have hpieces : Text.pieces ',' (Text.join [','] (values.map String.toList)) =
      values.map String.toList := by
    refine Text.pieces_join (by simpa using hne) fun p hp => ?_
    obtain ⟨v, hv, rfl⟩ := List.mem_map.mp hp
    exact h v hv
  simp only [piecesOf, joinTexts, String.toList_ofList]
  rw [show ",".toList = [','] from rfl, hpieces]
  simp

/-- What has been written as a shortcut is read as the name and the numbered values. -/
theorem parse_write (hname : '=' ∉ name.toList) (htrim : trimText name = name) (hblank : name ≠ "")
    (hne : values ≠ []) (hcommas : ∀ v ∈ values, ',' ∉ v.toList) :
    parse (write name values) = .ok (name, Dictionary.ofList (numbered 0 values)) := by
  simp only [parse, split_write hname, htrim, if_neg hblank, piecesOf_joinTexts hne hcommas]

end Shortcut

namespace ArgumentLayout

/-- The number in a generated key. -/
def place (key : String) : Nat :=
  match position? key with
  | some (.ok n) => n
  | _ => 0

theorem position?_generatedKey {i : Nat} (h : i ≤ Decoder.max64) :
    position? (generatedKey ++ Text.decimal i) = some (.ok i) := by
  simp only [position?, String.toList_append, Text.afterPrefix?_append, Option.map_some,
    Text.natural_decimal h]

theorem place_generatedKey {i : Nat} (h : i ≤ Decoder.max64) :
    place (generatedKey ++ Text.decimal i) = i := by
  simp only [place, position?_generatedKey h]

theorem separate_of_numbered {d : Fields} (h : ∀ e ∈ d, position? e.1 = some (.ok (place e.1))) :
    separate d = .ok (d.map fun e => (place e.1, e.2), []) := by
  induction d with
  | nil => rfl
  | cons e d ih =>
      obtain ⟨he, hd⟩ := List.forall_mem_cons.mp h
      simp only [separate, he, ih hd]
      rfl

theorem separate_of_named {d : Fields} (h : ∀ e ∈ d, position? e.1 = none) :
    separate d = .ok ([], d) := by
  induction d with
  | nil => rfl
  | cons e d ih =>
      obtain ⟨he, hd⟩ := List.forall_mem_cons.mp h
      simp only [separate, he, ih hd]
      rfl

/-- Arguments that all have names keep them. -/
theorem nameArguments_of_named (layout : ArgumentLayout) {d : Fields}
    (h : ∀ e ∈ d, position? e.1 = none) : layout.nameArguments d = .ok d := by
  simp [nameArguments, separate_of_named h, bind, Except.bind]

variable {index : Nat} {values : List String}

/-- The values as arguments: texts without blanks around them. -/
def texts (values : List String) : List Json := values.map fun v => .str (trimText v)

/-- The values with their places. -/
def placed (index : Nat) (values : List String) : List (Nat × Json) :=
  (List.range' index values.length).zip (texts values)

theorem position?_of_mem_numbered (hcount : index + values.length ≤ Decoder.max64 + 1)
    {e : String × Json} (h : e ∈ Shortcut.numbered index values) :
    position? e.1 = some (.ok (place e.1)) := by
  induction values generalizing index with
  | nil => cases h
  | cons v values ih =>
      rw [List.length_cons] at hcount
      rcases List.mem_cons.mp h with rfl | h
      · have hi : index ≤ Decoder.max64 := by omega
        simp only [position?_generatedKey hi, place_generatedKey hi]
      · exact ih (by omega) h

theorem map_place_numbered (hcount : index + values.length ≤ Decoder.max64 + 1) :
    (Shortcut.numbered index values).map (fun e => (place e.1, e.2)) = placed index values := by
  induction values generalizing index with
  | nil => rfl
  | cons v values ih =>
      rw [List.length_cons] at hcount
      have hi : index ≤ Decoder.max64 := by omega
      rw [Shortcut.numbered, List.map_cons, place_generatedKey hi, ih (by omega)]
      rfl

theorem map_fst_placed (index : Nat) (values : List String) :
    (placed index values).map Prod.fst = List.range' index values.length :=
  List.map_fst_zip (by simp [texts])

theorem map_snd_placed (index : Nat) (values : List String) :
    (placed index values).map Prod.snd = texts values :=
  List.map_snd_zip (by simp [texts])

theorem nodup_keys_numbered (hcount : index + values.length ≤ Decoder.max64 + 1) :
    ((Shortcut.numbered index values).map Prod.fst).Nodup := by
  refine List.Nodup.of_map place ?_
  have hplaces : ((Shortcut.numbered index values).map Prod.fst).map place =
      List.range' index values.length := by
    rw [← map_fst_placed, ← map_place_numbered hcount]
    simp [Function.comp_def]
  rw [hplaces]
  exact List.nodup_range'

/-- Sorting places brings values back into their order, whatever the order they are found in. -/
theorem mergeSort_of_perm_placed {found : List (Nat × Json)} (h : found.Perm (placed index values)) :
    (found.mergeSort fun a b => a.1 ≤ b.1) = placed index values := by
  have hplaces : ((placed index values).map Prod.fst).Pairwise (· < ·) := by
    rw [map_fst_placed]
    exact List.pairwise_lt_range'
  have hnodup : ((placed index values).map Prod.fst).Nodup :=
    hplaces.imp fun hlt => Nat.ne_of_lt hlt
  have hsorted : (found.mergeSort fun a b => a.1 ≤ b.1).Pairwise fun a b => a.1 ≤ b.1 := by
    refine (List.pairwise_mergeSort (fun a b c hab hbc => ?_) (fun a b => ?_) found).imp
      of_decide_eq_true
    · exact decide_eq_true (Nat.le_trans (of_decide_eq_true hab) (of_decide_eq_true hbc))
    · simpa using Nat.le_total a.1 b.1
  refine List.Perm.eq_of_pairwise ?_ hsorted ((List.pairwise_map.mp hplaces).imp Nat.le_of_lt)
    ((List.mergeSort_perm _ _).trans h)
  intro a b ha hb hab hba
  have ha : a ∈ placed index values := h.mem_iff.mp (List.mem_mergeSort.mp ha)
  exact List.inj_on_of_nodup_map hnodup ha hb (Nat.le_antisymm hab hba)

section

variable (hne : values ≠ []) (hcount : values.length ≤ Decoder.max64)

include hne hcount

/-- The numbered values of a shortcut come in the order in which they were written. -/
theorem nameArguments_numbered (layout : ArgumentLayout) :
    layout.nameArguments (Dictionary.ofList (Shortcut.numbered 0 values)) =
      match layout with
      | .fields names =>
        if names.length < values.length then .error (.tooMany names.length values.length)
        else .ok (Dictionary.ofList (names.zip (texts values)))
      | .list name => .ok [(name, .arr (texts values))] := by
  have hplaces : 0 + values.length ≤ Decoder.max64 + 1 := by omega
  have hseparate := separate_of_numbered fun e he =>
    position?_of_mem_numbered hplaces (Dictionary.mem_of_mem_ofList he)
  have hperm : ((Dictionary.ofList (Shortcut.numbered 0 values)).map fun e => (place e.1, e.2)).Perm
      (placed 0 values) := by
    rw [← map_place_numbered hplaces]
    exact (Dictionary.perm_ofList (nodup_keys_numbered hplaces)).map _
  have hempty : (texts values).isEmpty = false := by
    rw [texts, List.isEmpty_map]
    exact List.isEmpty_eq_false_iff.mpr hne
  have hlength : (texts values).length = values.length := List.length_map ..
  simp only [nameArguments, hseparate, bind, Except.bind, mergeSort_of_perm_placed hperm,
    map_snd_placed, hempty, hlength]
  cases layout <;> rfl

end

end ArgumentLayout

end HttpGateway
