import HttpGateway.Dictionary
import Mathlib.Data.List.Forall2

/-!
# Dictionaries made of entries

Which entries a dictionary has that is made of a list of entries. If no key occurs twice these are
all entries of the list, in another order, and each of them is found; and two lists that go together
entry by entry, key for key, make dictionaries that go together in the same way.
-/

namespace HttpGateway.Dictionary

variable {α β : Type}

theorem mem_of_mem_ofList {entries : List (String × α)} {e : String × α}
    (h : e ∈ ofList entries) : e ∈ entries := by
  suffices hfold : ∀ (rest : List (String × α)) (d : Dictionary α),
      e ∈ rest.foldl (fun d e => insert d e.1 e.2) d → e ∈ rest ∨ e ∈ d from
    (hfold entries [] h).resolve_right List.not_mem_nil
  intro rest
  induction rest with
  | nil => exact fun d hd => .inr hd
  | cons f rest ih =>
      intro d hd
      rcases ih _ hd with hrest | hinsert
      · exact .inl (List.mem_cons_of_mem f hrest)
      · rcases mem_insert hinsert with rfl | hd
        · exact .inl List.mem_cons_self
        · exact .inr hd

theorem exists_mem_ofList {entries : List (String × α)} {key : String}
    (h : key ∈ entries.map Prod.fst) : ∃ value, (ofList entries).lookup key = some value := by
  have hkey : key ∈ entries.reverse.map Prod.fst := by simpa using h
  obtain ⟨e, he, rfl⟩ := List.mem_map.mp hkey
  refine Option.isSome_iff_exists.mp ?_
  rw [show (ofList entries).lookup e.1 = _ from get?_ofList entries e.1]
  exact List.lookup_isSome_iff.mpr ⟨e, he, by simp⟩

theorem mem_keys_insert {d : Dictionary α} {key other : String} {value : α} :
    other ∈ (insert d key value).map Prod.fst ↔ other = key ∨ other ∈ d.map Prod.fst := by
  induction d with
  | nil => simp [insert]
  | cons e rest ih =>
      obtain ⟨k, v⟩ := e
      simp only [insert]
      split
      next hk => simp [hk]
      next =>
        split
        · simp
        · rw [List.map_cons, List.mem_cons, ih, List.map_cons, List.mem_cons, or_left_comm]

/-- In a dictionary no key occurs twice. -/
theorem Ordered.nodup_keys {d : Dictionary α} (h : d.Ordered) : (d.map Prod.fst).Nodup := by
  refine List.pairwise_map.mpr (List.Pairwise.imp (fun hlt heq => ?_) h)
  rw [heq] at hlt
  exact String.lt_irrefl _ hlt

theorem perm_insert {d : Dictionary α} {key : String} (hkey : key ∉ d.map Prod.fst) (value : α) :
    (insert d key value).Perm ((key, value) :: d) := by
  induction d with
  | nil => exact .rfl
  | cons e rest ih =>
      obtain ⟨k, v⟩ := e
      obtain ⟨hk, hrest⟩ := not_or.mp (mt List.mem_cons.mpr hkey)
      simp only [insert, if_neg hk]
      split
      · exact .rfl
      · exact ((ih hrest).cons (k, v)).trans (.swap (key, value) (k, v) rest)

/-- Entries without two of the same key are the entries of the dictionary. -/
theorem perm_ofList {entries : List (String × α)} (h : (entries.map Prod.fst).Nodup) :
    (ofList entries).Perm entries := by
  suffices hfold : ∀ (rest : List (String × α)) (d : Dictionary α),
      ((d ++ rest).map Prod.fst).Nodup →
      (rest.foldl (fun d e => insert d e.1 e.2) d).Perm (d ++ rest) from hfold entries [] h
  intro rest
  induction rest with
  | nil => exact fun d _ => by simp
  | cons e rest ih =>
      intro d hnodup
      obtain ⟨k, v⟩ := e
      have hmoved : (d ++ (k, v) :: rest).Perm ((k, v) :: d ++ rest) := List.perm_middle
      have hnodup' : (((k, v) :: d ++ rest).map Prod.fst).Nodup :=
        (hmoved.map Prod.fst).nodup_iff.mp hnodup
      have hfresh : k ∉ d.map Prod.fst := by
        intro hk
        obtain ⟨e, he, rfl⟩ := List.mem_map.mp hk
        exact (List.nodup_cons.mp hnodup').1
          (List.mem_map.mpr ⟨e, List.mem_append_left rest he, rfl⟩)
      have hinserted : (insert d k v ++ rest).Perm ((k, v) :: d ++ rest) :=
        (perm_insert hfresh v).append_right rest
      rw [List.foldl_cons]
      refine (ih _ ?_).trans (hinserted.trans hmoved.symm)
      exact (hinserted.map Prod.fst).nodup_iff.mpr hnodup'

/-- Entries that stand in the order of their keys are a dictionary as they are. -/
theorem ofList_eq_self {d : Dictionary α} (h : d.Ordered) : ofList d = d := by
  refine List.Perm.eq_of_pairwise (fun a b _ _ hab hba => ?_) (ordered_ofList d) h
    (perm_ofList h.nodup_keys)
  exact absurd (String.lt_trans hab hba) (String.lt_irrefl _)

/-- If no key occurs twice every entry of the list is found. -/
theorem get?_ofList_of_mem {entries : List (String × α)} (h : (entries.map Prod.fst).Nodup)
    {e : String × α} (he : e ∈ entries) : (ofList entries).get? e.1 = some e.2 := by
  suffices hlookup : ∀ l : List (String × α), (l.map Prod.fst).Nodup → e ∈ l →
      l.lookup e.1 = some e.2 by
    rw [get?_ofList]
    have hreverse : (entries.reverse.map Prod.fst).Nodup :=
      ((List.reverse_perm entries).map Prod.fst).nodup_iff.mpr h
    exact hlookup entries.reverse hreverse (List.mem_reverse.mpr he)
  intro l hl hmem
  induction l with
  | nil => exact absurd hmem List.not_mem_nil
  | cons f rest ih =>
      obtain ⟨k, v⟩ := f
      obtain ⟨hk, hrest⟩ := List.nodup_cons.mp hl
      rcases List.mem_cons.mp hmem with rfl | hmem
      · simp
      · have hne : e.1 ≠ k := fun heq => hk (List.mem_map.mpr ⟨e, hmem, heq⟩)
        rw [List.lookup_cons, beq_false_of_ne hne]
        exact ih hrest hmem

/-- What is found if the value of every entry is told by its key. -/
theorem get?_ofList_of_forall {entries : List (String × α)} {value : String → α}
    (h : ∀ e ∈ entries, e.2 = value e.1) (key : String) :
    (ofList entries).get? key =
      if key ∈ entries.map Prod.fst then some (value key) else none := by
  suffices hlookup : ∀ l : List (String × α), (∀ e ∈ l, e.2 = value e.1) →
      l.lookup key = if key ∈ l.map Prod.fst then some (value key) else none by
    rw [get?_ofList, hlookup entries.reverse fun e he => h e (List.mem_reverse.mp he),
      List.map_reverse]
    simp only [List.mem_reverse]
  intro l hl
  induction l with
  | nil => simp
  | cons f rest ih =>
      obtain ⟨k, v⟩ := f
      obtain ⟨hv, hrest⟩ := List.forall_mem_cons.mp hl
      obtain rfl : v = value k := hv
      rw [List.lookup_cons]
      by_cases heq : key = k
      · simp [heq]
      · rw [beq_false_of_ne heq, ih hrest]
        simp only [List.map_cons, List.mem_cons, heq, false_or]

section Together

variable {R : String → α → β → Prop}

/-- Entries of the same key whose values go together. -/
def Together (R : String → α → β → Prop) (e : String × α) (f : String × β) : Prop :=
  e.1 = f.1 ∧ R e.1 e.2 f.2

theorem forall₂_insert {d : Dictionary α} {d' : Dictionary β} (h : List.Forall₂ (Together R) d d')
    {key : String} {value : α} {value' : β} (hvalue : R key value value') :
    List.Forall₂ (Together R) (insert d key value) (insert d' key value') := by
  induction h with
  | nil => exact .cons ⟨rfl, hvalue⟩ .nil
  | @cons e f rest rest' hef hrest ih =>
      obtain ⟨k, v⟩ := e
      obtain ⟨k', v'⟩ := f
      obtain ⟨rfl, hv⟩ := hef
      simp only [insert]
      split
      · exact .cons ⟨rfl, hvalue⟩ hrest
      · split
        · exact .cons ⟨rfl, hvalue⟩ (.cons ⟨rfl, hv⟩ hrest)
        · exact .cons ⟨rfl, hv⟩ ih

theorem forall₂_ofList {entries : List (String × α)} {entries' : List (String × β)}
    (h : List.Forall₂ (Together R) entries entries') :
    List.Forall₂ (Together R) (ofList entries) (ofList entries') := by
  suffices hfold : ∀ (d : Dictionary α) (d' : Dictionary β), List.Forall₂ (Together R) d d' →
      List.Forall₂ (Together R) (entries.foldl (fun d e => insert d e.1 e.2) d)
        (entries'.foldl (fun d e => insert d e.1 e.2) d') from hfold [] [] .nil
  induction h with
  | nil => exact fun d d' hd => hd
  | @cons e f rest rest' hef _ ih =>
      intro d d' hd
      obtain ⟨k, v⟩ := e
      obtain ⟨k', v'⟩ := f
      obtain ⟨rfl, hv⟩ := hef
      exact ih _ _ (forall₂_insert hd hv)

end Together

end HttpGateway.Dictionary
