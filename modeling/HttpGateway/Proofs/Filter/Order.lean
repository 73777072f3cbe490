import HttpGateway.Gateway
import HttpGateway.Proofs.Sorting

/-!
# The order of a chain

What is known of a chain from the way in which it has been put together: it holds the filters of the
gateway and those of the route, by their order, and filters that were in order before stay so.
Plain filters in the usual places therefore stand between the filter that commits responses and the
one that finds the address of the backend.
-/

namespace HttpGateway

namespace OrderedFilter

/-- The filters stand by their order. -/
def Ascending (filters : List OrderedFilter) : Prop :=
  filters.Pairwise fun f g => f.order ≤ g.order

variable {globals route filters low high : List OrderedFilter}

theorem merge_perm (globals route : List OrderedFilter) :
    (merge globals route).Perm (globals ++ route) :=
  List.mergeSort_perm _ _

theorem mem_merge {f : OrderedFilter} : f ∈ merge globals route ↔ f ∈ globals ∨ f ∈ route := by
  rw [(merge_perm globals route).mem_iff, List.mem_append]

theorem ascending_merge (globals route : List OrderedFilter) : Ascending (merge globals route) :=
  (List.pairwise_mergeSort (le_key_trans order) (le_key_total order) (globals ++ route)).imp
    of_decide_eq_true

/-- Filters that stand by their order before stay as they are. -/
theorem sublist_merge (hfilters : Ascending filters) (h : filters.Sublist (globals ++ route)) :
    filters.Sublist (merge globals route) :=
  List.sublist_mergeSort (le_key_trans order) (le_key_total order) (hfilters.imp decide_eq_true) h

/-- The filters below a bound come before the others. -/
theorem Ascending.eq_append (h : Ascending filters) (bound : Int32) :
    filters = filters.filter (fun f => f.order < bound) ++
      filters.filter fun f => !decide (f.order < bound) := by
  induction filters with
  | nil => rfl
  | cons f rest ih =>
      obtain ⟨hfirst, hrest⟩ := List.pairwise_cons.mp h
      by_cases hf : f.order < bound
      · rw [List.filter_cons_of_pos (by simpa using hf), List.filter_cons_of_neg (by simpa using hf),
          List.cons_append, ← ih hrest]
      · -- None of the filters is below the bound.
        have hlater : ∀ g ∈ f :: rest, ¬g.order < bound := by
          intro g hg
          rcases List.mem_cons.mp hg with rfl | hg
          · exact hf
          · exact fun hlt => hf (Int32.lt_of_le_of_lt (hfirst g hg) hlt)
        rw [List.filter_eq_nil_iff.mpr (by simpa using hlater),
          List.filter_eq_self.mpr (by simpa using hlater), List.nil_append]

/-- All filters below a bound and all others, each by their order, are the chain. -/
theorem merge_eq_append (bound : Int32) (hlow : Ascending low) (hhigh : Ascending high)
    (hsub : low.Sublist (globals ++ route)) (hsub' : high.Sublist (globals ++ route))
    (hlength : low.length + high.length = (globals ++ route).length)
    (hbelow : ∀ f ∈ low, f.order < bound) (hnot : ∀ f ∈ high, ¬f.order < bound) :
    merge globals route = low ++ high := by
  have hcut := (ascending_merge globals route).eq_append bound
  have hfirst := (sublist_merge hlow hsub).filter fun f => decide (f.order < bound)
  have hsecond := (sublist_merge hhigh hsub').filter fun f => !decide (f.order < bound)
  rw [List.filter_eq_self.mpr (by simpa using hbelow)] at hfirst
  rw [List.filter_eq_self.mpr (by simpa using hnot)] at hsecond
  have hsum := ((merge_perm globals route).length_eq.symm.trans (congrArg List.length hcut)).trans
    List.length_append
  have hle := hfirst.length_le
  have hle' := hsecond.length_le
  rw [hcut, ← hfirst.eq_of_length (by omega), ← hsecond.eq_of_length (by omega)]

end OrderedFilter

end HttpGateway
