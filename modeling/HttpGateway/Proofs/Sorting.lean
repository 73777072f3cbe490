import Mathlib.Data.List.Forall2

/-!
# Sorting by a number

What stands first in a list that has been sorted by a number of its members, and how a list that
goes with another one, member by member, goes with it after both have been sorted. Sorting leaves
the members with one number in their order, and nothing else of the order of a list makes a
difference to what it is sorted into.
-/

namespace HttpGateway

variable {α β : Type} {R : α → β → Prop}

theorem le_key_trans (key : α → Int32) (a b c : α) (hab : decide (key a ≤ key b) = true)
    (hbc : decide (key b ≤ key c) = true) : decide (key a ≤ key c) = true :=
  decide_eq_true (Int32.le_trans (of_decide_eq_true hab) (of_decide_eq_true hbc))

theorem le_key_total (key : α → Int32) (a b : α) :
    (decide (key a ≤ key b) || decide (key b ≤ key a)) = true := by
  simpa using Int32.le_total (key a) (key b)

/-- The first member with a property in the sorted list has the least number of all members with
that property, and stands first among those of them that have its number. -/
theorem exists_of_find?_mergeSort (key : α → Int32) {p : α → Bool} {l : List α} {a : α}
    (h : (l.mergeSort fun x y => key x ≤ key y).find? p = some a) :
    ∃ before after, l = before ++ a :: after ∧ (∀ b ∈ before, p b = true → key a < key b) ∧
      ∀ b ∈ after, p b = true → key a ≤ key b := by
  induction l with
  | nil => simp at h
  | cons c l ih =>
      have hsorted := List.pairwise_mergeSort (le_key_trans key) (le_key_total key) (c :: l)
      -- Sorting puts `c` among the others, after none whose number is not below its own.
      obtain ⟨low, high, hcons, hrest, hlow⟩ :=
        List.mergeSort_cons (le_key_trans key) (le_key_total key) c l
      have hbelow : ∀ b ∈ low, key b < key c := by
        intro b hb
        exact Int32.not_le.mp (by simpa using hlow b hb)
      rw [hcons] at h hsorted
      rw [hrest] at ih
      rw [List.find?_append, List.find?_cons] at h
      rw [List.find?_append] at ih
      cases hfirst : low.find? p with
      | some b =>
          obtain rfl : b = a := by simpa [hfirst] using h
          obtain ⟨before, after, rfl, hbefore, hafter⟩ := ih (by simp [hfirst])
          refine ⟨c :: before, after, rfl, List.forall_mem_cons.mpr ⟨fun _ => ?_, hbefore⟩, hafter⟩
          exact hbelow b (List.mem_of_find?_eq_some hfirst)
      | none =>
          cases hc : p c with
          | true =>
              obtain rfl : c = a := by simpa [hfirst, hc] using h
              refine ⟨[], l, rfl, by simp, fun b hb hpb => ?_⟩
              have hb : b ∈ l.mergeSort fun x y => key x ≤ key y := List.mem_mergeSort.mpr hb
              rw [hrest, List.mem_append] at hb
              rcases hb with hb | hb
              · exact absurd hpb (List.find?_eq_none.mp hfirst b hb)
              · have hpair := (List.pairwise_append.mp hsorted).2.1
                exact of_decide_eq_true ((List.pairwise_cons.mp hpair).1 b hb)
          | false =>
              obtain ⟨before, after, rfl, hbefore, hafter⟩ := ih (by simpa [hfirst, hc] using h)
              refine ⟨c :: before, after, rfl, List.forall_mem_cons.mpr ⟨?_, hbefore⟩, hafter⟩
              exact fun hpc => absurd (hc.symm.trans hpc) Bool.false_ne_true

theorem forall₂_mergeSort (key : α → Int32) (key' : β → Int32) {l : List α} {l' : List β}
    (h : List.Forall₂ R l l') (hkey : ∀ {a b}, R a b → key a = key' b) :
    List.Forall₂ R (l.mergeSort fun x y => key x ≤ key y)
      (l'.mergeSort fun x y => key' x ≤ key' y) := by
  obtain ⟨hlength, hzip⟩ := List.forall₂_iff_zip.mp h
  -- Both sorted lists are parts of the sorted list of pairs.
  have hleft : (l.zip l').map Prod.fst = l := List.map_fst_zip (Nat.le_of_eq hlength)
  have hright : (l.zip l').map Prod.snd = l' := List.map_snd_zip (Nat.le_of_eq hlength.symm)
  have hfst := List.map_mergeSort (r := fun x y : α × β => decide (key x.1 ≤ key y.1))
    (s := fun x y => decide (key x ≤ key y)) (f := Prod.fst) (l := l.zip l') fun _ _ _ _ => rfl
  have hsnd := List.map_mergeSort (r := fun x y : α × β => decide (key x.1 ≤ key y.1))
    (s := fun x y => decide (key' x ≤ key' y)) (f := Prod.snd) (l := l.zip l')
    fun x hx y hy => by rw [hkey (hzip hx), hkey (hzip hy)]
  rw [hleft] at hfst
  rw [hright] at hsnd
  rw [← hfst, ← hsnd, List.forall₂_map_left_iff, List.forall₂_map_right_iff,
    List.forall₂_same]
  exact fun x hx => hzip (List.mem_mergeSort.mp hx)

/-! ### Members with one number -/

theorem filter_key_mergeSort (key : α → Int32) (l : List α) (n : Int32) :
    (l.mergeSort fun x y => key x ≤ key y).filter (fun x => key x = n) =
      l.filter fun x => key x = n := by
  have hsorted : (l.filter fun x => key x = n).Pairwise fun x y =>
      decide (key x ≤ key y) = true := by
    refine List.pairwise_of_forall_mem_list fun x hx y hy => ?_
    have hx : key x = n := by simpa using (List.mem_filter.mp hx).2
    have hy : key y = n := by simpa using (List.mem_filter.mp hy).2
    exact decide_eq_true (hx.trans hy.symm ▸ Int32.le_refl _)
  have hsublist := (List.sublist_mergeSort (le_key_trans key) (le_key_total key) hsorted
    List.filter_sublist).filter fun x => key x = n
  rw [List.filter_filter] at hsublist
  simp only [Bool.and_self] at hsublist
  refine (hsublist.eq_of_length ?_).symm
  exact ((List.mergeSort_perm l _).filter _).length_eq.symm

/-- Sorting leaves two members with one number in their order, so that what is known of members in
their order is still known of them. -/
theorem pairwise_mergeSort_key (key : α → Int32) {P : α → α → Prop} {l : List α}
    (h : l.Pairwise P) : (l.mergeSort fun x y => key x ≤ key y).Pairwise
      fun x y => key x < key y ∨ key x = key y ∧ P x y := by
  have hsorted := List.pairwise_mergeSort (le_key_trans key) (le_key_total key) l
  refine List.pairwise_iff_forall_sublist.mpr fun {x y} hxy => ?_
  have hle : key x ≤ key y :=
    of_decide_eq_true (List.pairwise_iff_forall_sublist.mp hsorted hxy)
  rcases Int32.lt_or_eq_of_le hle with hlt | heq
  · exact .inl hlt
  · -- Both are among the members with this number, and these stand as before.
    have hfilter := hxy.filter fun z => key z = key x
    rw [filter_key_mergeSort, List.filter_cons_of_pos (by simp),
      List.filter_cons_of_pos (by simp [heq]), List.filter_nil] at hfilter
    exact .inr ⟨heq, List.pairwise_iff_forall_sublist.mp h (hfilter.trans List.filter_sublist)⟩

/-- Two sorted lists that have the same members of each number, in the same order, are equal. -/
theorem eq_of_filter_key_eq {key : α → Int32} {l m : List α}
    (hl : l.Pairwise fun x y => key x ≤ key y) (hm : m.Pairwise fun x y => key x ≤ key y)
    (h : ∀ n, (l.filter fun x => key x = n) = m.filter fun x => key x = n) : l = m := by
  induction l generalizing m with
  | nil =>
      refine (List.eq_nil_iff_forall_not_mem.mpr fun y hy => ?_).symm
      have hfilter : y ∈ m.filter fun x => key x = key y := List.mem_filter.mpr ⟨hy, by simp⟩
      rw [← h, List.filter_nil] at hfilter
      exact List.not_mem_nil hfilter
  | cons a l ih =>
      have hmem : ∀ {x}, x ∈ a :: l ↔ x ∈ m := by
        intro x
        have hx := congrArg (x ∈ ·) (h (key x))
        simpa using hx
      cases m with
      | nil => exact absurd (hmem.mp List.mem_cons_self) List.not_mem_nil
      | cons b m =>
          obtain ⟨hla, hrest⟩ := List.pairwise_cons.mp hl
          obtain ⟨hmb, hrest'⟩ := List.pairwise_cons.mp hm
          -- Both begin with the least number, and so with the first member of this number.
          have hab : key a ≤ key b := by
            rcases List.mem_cons.mp (hmem.mpr (List.mem_cons_self (a := b))) with rfl | hb
            · exact Int32.le_refl _
            · exact hla b hb
          have hba : key b ≤ key a := by
            rcases List.mem_cons.mp (hmem.mp (List.mem_cons_self (a := a))) with rfl | ha
            · exact Int32.le_refl _
            · exact hmb a ha
          have hkey : key a = key b := Int32.le_antisymm hab hba
          obtain rfl : a = b := by
            have hfirst := h (key a)
            rw [List.filter_cons_of_pos (by simp),
              List.filter_cons_of_pos (by simp [hkey])] at hfirst
            exact (List.cons.inj hfirst).1
          refine congrArg (a :: ·) (ih hrest hrest' fun n => ?_)
          have hn := h n
          by_cases ha : key a = n
          · rw [List.filter_cons_of_pos (by simpa), List.filter_cons_of_pos (by simpa)] at hn
            exact (List.cons.inj hn).2
          · rwa [List.filter_cons_of_neg (by simpa), List.filter_cons_of_neg (by simpa)] at hn

/-- Lists that have the same members of each number, in the same order, are sorted into the same
list. -/
theorem mergeSort_eq_of_filter_key_eq (key : α → Int32) {l m : List α}
    (h : ∀ n, (l.filter fun x => key x = n) = m.filter fun x => key x = n) :
    (l.mergeSort fun x y => key x ≤ key y) = m.mergeSort fun x y => key x ≤ key y := by
  have hsorted (k : List α) : (k.mergeSort fun x y => key x ≤ key y).Pairwise
      fun x y => key x ≤ key y :=
    (List.pairwise_mergeSort (le_key_trans key) (le_key_total key) k).imp of_decide_eq_true
  refine eq_of_filter_key_eq (hsorted l) (hsorted m) fun n => ?_
  rw [filter_key_mergeSort, filter_key_mergeSort, h]

/-- Lists may be sorted before they are put together and sorted. -/
theorem mergeSort_flatten_map_mergeSort (key : α → Int32) (ls : List (List α)) :
    ((ls.map fun l => l.mergeSort fun x y => key x ≤ key y).flatten.mergeSort
        fun x y => key x ≤ key y) =
      ls.flatten.mergeSort fun x y => key x ≤ key y := by
  refine mergeSort_eq_of_filter_key_eq key fun n => ?_
  rw [List.filter_flatten, List.filter_flatten, List.map_map]
  refine congrArg List.flatten (List.map_congr_left fun l _ => ?_)
  exact filter_key_mergeSort key l n

end HttpGateway
