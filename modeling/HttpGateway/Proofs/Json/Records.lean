import HttpGateway.Json.Decode
import HttpGateway.Proofs.Answer
import HttpGateway.Proofs.Dictionary

/-!
# Reading records

When a record is read from an object, and what it is read as. An object is read if its fields are
known and can be read and no required one is missing; then each field of the record has the value
that the object gives it, or its usual one. Nothing else about the values of an object matters: two
objects whose values are read alike by every field are read as the same record, or refused for the
same reason.
-/

namespace HttpGateway

variable {α : Type}

open Dictionary (Together)

/-- Entries that go together have the same keys, and under each key values that go together. -/
theorem lookup_of_together {R : String → Json → Json → Prop} {a b : List (String × Json)}
    (h : List.Forall₂ (Together R) a b) (key : String) :
    (a.lookup key = none ∧ b.lookup key = none) ∨
      ∃ j j', a.lookup key = some j ∧ b.lookup key = some j' ∧ R key j j' := by
  induction h with
  | nil => exact .inl ⟨rfl, rfl⟩
  | @cons e f a b hef _ ih =>
      obtain ⟨k, j⟩ := e
      obtain ⟨k', j'⟩ := f
      obtain ⟨rfl, hj⟩ := hef
      by_cases hk : key = k
      · subst hk
        exact .inr ⟨j, j', List.lookup_cons_self, List.lookup_cons_self, hj⟩
      · have hbeq : (key == k) = false := by simpa using hk
        simpa [List.lookup_cons, hbeq] using ih

namespace Field

variable {f : Field α} {entries : List (String × Json)} {j : Json} {a : α}

theorem check_rule (h : f.read j = .ok a) : f.rule.check j = .ok () := by
  show (f.read j).map (fun _ => ()) = .ok ()
  rw [h]
  rfl

/-- The value of a field that an object has. -/
theorem take_ofList (hj : entries.reverse.lookup f.name = some j) (h : f.read j = .ok a) :
    f.take (Dictionary.ofList entries) = .ok a := by
  rw [take, show (Dictionary.ofList entries).lookup f.name = _ from
    Dictionary.get?_ofList entries f.name, hj]
  exact h

/-- The value of a field that an object leaves out. -/
theorem take_ofList_of_absent (hj : entries.reverse.lookup f.name = none)
    (h : f.fallback = some a) : f.take (Dictionary.ofList entries) = .ok a := by
  rw [take, show (Dictionary.ofList entries).lookup f.name = _ from
    Dictionary.get?_ofList entries f.name, hj, h]

/-- What holds of all values that the field may be read as from an entry, and of its usual one, holds
of its value. -/
theorem of_take_mem {P : α → Prop} (h : f.take entries = .ok a)
    (hread : ∀ e ∈ entries, f.read e.2 = .ok a → P a) (husual : ∀ a, f.fallback = some a → P a) :
    P a := by
  unfold take at h
  split at h
  next j hj =>
    obtain ⟨before, after, hsplit, -⟩ := List.lookup_eq_some_iff.mp hj
    exact hread (f.name, j) (hsplit ▸ List.mem_append_right before List.mem_cons_self) h
  next =>
    split at h
    next husually =>
      cases h
      exact husual _ husually
    next => cases h

/-- What holds of all values that a field may be read as, and of its usual one, holds of its value. -/
theorem of_take {P : α → Prop} (h : f.take entries = .ok a)
    (hread : ∀ j a, f.read j = .ok a → P a) (husual : ∀ a, f.fallback = some a → P a) : P a :=
  of_take_mem h (fun e _ => hread e.2 a) husual

/-- The field does not tell apart values that go together. -/
def Respects (f : Field α) (R : String → Json → Json → Prop) : Prop :=
  ∀ j j', R f.name j j' → f.read j = f.read j'

theorem take_congr {R : String → Json → Json → Prop} {a b : List (String × Json)}
    (hf : f.Respects R) (h : List.Forall₂ (Together R) a b) : f.take a = f.take b := by
  rcases lookup_of_together h f.name with ⟨ha, hb⟩ | ⟨j, j', ha, hb, hj⟩
  · simp only [take, ha, hb]
  · simpa only [take, ha, hb] using hf j j' hj

theorem check_congr {R : String → Json → Json → Prop} (hf : f.Respects R) {j j' : Json}
    (h : R f.name j j') : f.rule.check j = f.rule.check j' :=
  congrArg (fun answer => answer.map fun _ => ()) (hf j j' h)

end Field

namespace Decoder

/-- A list is read if each of its items is. -/
theorem list_map {item : Decoder α} {write : α → Json} {as : List α}
    (h : ∀ a ∈ as, item (write a) = .ok a) : list item (.arr (as.map write)) = .ok as := by
  rw [list, List.mapM_map]
  induction as with
  | nil => rfl
  | cons a as ih =>
      obtain ⟨ha, has⟩ := List.forall_mem_cons.mp h
      rw [List.mapM_cons]
      exact bind_eq_ok_iff.mpr ⟨a, ha, bind_eq_ok_iff.mpr ⟨as, ih has, rfl⟩⟩

theorem of_list_mem {item : Decoder α} {P : α → Prop} {items : List Json} {as : List α}
    (h : list item (.arr items) = .ok as) (hitem : ∀ i ∈ items, ∀ a, item i = .ok a → P a) :
    ∀ a ∈ as, P a := by
  intro a ha
  obtain ⟨i, hi, hread⟩ := exists_of_mapM_eq_ok h a ha
  exact hitem i hi a hread

theorem of_list {item : Decoder α} {P : α → Prop} {j : Json} {as : List α}
    (h : list item j = .ok as) (hitem : ∀ j a, item j = .ok a → P a) : ∀ a ∈ as, P a := by
  cases j with
  | arr items => exact of_list_mem h fun i _ => hitem i
  | _ => cases h

theorem natural_int {type : String} {high n : Nat} (h : n ≤ high) :
    natural type high (.int n) = .ok n := by
  have hrange : (0 : Int) ≤ n ∧ (n : Int) ≤ high := ⟨Int.natCast_nonneg n, Int.ofNat_le.mpr h⟩
  simp only [natural, integer, if_pos hrange, Except.map, Int.toNat_natCast]

theorem natural_le {type : String} {high n : Nat} {j : Json} (h : natural type high j = .ok n) :
    n ≤ high := by
  obtain ⟨i, hi, rfl⟩ := map_eq_ok_iff.mp h
  cases j with
  | int m =>
      simp only [integer] at hi
      split at hi
      next hrange =>
        cases hi
        omega
      next => cases hi
  | _ => cases hi

end Decoder

namespace RecordRule

variable {r : RecordRule} {entries : List (String × Json)}

theorem visit_eq_ok
    (h : ∀ e ∈ entries, ∃ f, r.fields.find? (fun f => f.name = e.1) = some f ∧
      f.check e.2 = .ok ()) : r.visit entries = .ok () := by
  induction entries with
  | nil => rfl
  | cons e rest ih =>
      obtain ⟨⟨f, hf, hcheck⟩, hrest⟩ := List.forall_mem_cons.mp h
      obtain ⟨key, value⟩ := e
      simp only [visit, hf, hcheck]
      exact ih hrest

/-- An object is read if its fields are known and can be read and no required one is missing. -/
theorem entries_object (origin : Origin)
    (hknown : ∀ e ∈ entries, ∃ f, r.fields.find? (fun f => f.name = e.1) = some f ∧
      f.check e.2 = .ok ())
    (hrequired : ∀ f ∈ r.fields, f.required = true → f.name ∈ entries.map Prod.fst) :
    r.entries origin (.object entries) = .ok (Dictionary.ofList entries) := by
  have hvisit : r.visit (Dictionary.ofList entries) = .ok () :=
    visit_eq_ok fun e he => hknown e (Dictionary.mem_of_mem_ofList he)
  have hmissing : r.missing? (Dictionary.ofList entries) = none := by
    rw [missing?, Option.map_eq_none_iff, List.find?_eq_none]
    intro f hf habsent
    obtain ⟨hneeded, hnone⟩ := Bool.and_eq_true_iff.mp habsent
    obtain ⟨value, hvalue⟩ := Dictionary.exists_mem_ofList (hrequired f hf hneeded)
    rw [hvalue] at hnone
    cases hnone
  simp only [RecordRule.entries, Json.object, hvisit, hmissing]
  rfl

/-- An object with a value for every field is read if each of them can be. -/
theorem entries_full_object (origin : Origin) (hnames : entries.map Prod.fst = r.names)
    (hknown : ∀ e ∈ entries, ∃ f, r.fields.find? (fun f => f.name = e.1) = some f ∧
      f.check e.2 = .ok ()) :
    r.entries origin (.object entries) = .ok (Dictionary.ofList entries) :=
  entries_object origin hknown fun _ hf _ => hnames ▸ List.mem_map_of_mem hf

/-- What a record has been read from has values that its fields can read. -/
theorem check_of_entries {origin : Origin} {found : List (String × Json)}
    (h : r.entries origin (.obj entries) = .ok found) {e : String × Json} (he : e ∈ entries)
    {f : FieldRule} (hf : r.fields.find? (fun f => f.name = e.1) = some f) :
    f.check e.2 = .ok () := by
  obtain ⟨⟨⟩, hvisit, -⟩ := bind_eq_ok_iff.mp h
  clear h
  induction entries with
  | nil => cases he
  | cons first rest ih =>
      obtain ⟨key, value⟩ := first
      simp only [visit] at hvisit
      split at hvisit
      next g hg =>
        split at hvisit
        next hcheck =>
          rcases List.mem_cons.mp he with rfl | he
          · obtain rfl : g = f := Option.some.inj (hg.symm.trans hf)
            exact hcheck
          · exact ih he hvisit
        next => cases hvisit
      next hg =>
        rcases List.mem_cons.mp he with rfl | he
        · rw [hg] at hf
          cases hf
        · split at hvisit
          · cases hvisit
          · exact ih he hvisit

theorem mem_of_distribute {index left : Nat} {fields : List FieldRule} {items : List Json}
    {found : List (String × Json)} (h : r.distribute index fields items = .ok (found, left)) :
    ∀ e ∈ found, e.2 ∈ items := by
  induction fields generalizing index items found left with
  | nil =>
      cases h
      exact fun _ he => nomatch he
  | cons f fields ih =>
      cases items with
      | nil =>
          simp only [distribute] at h
          split at h
          next => cases h
          next => exact ih h
      | cons item items =>
          simp only [distribute] at h
          split at h
          next => cases h
          next =>
            obtain ⟨⟨entries, rest⟩, hrest, hfound⟩ := map_eq_ok_iff.mp h
            cases hfound
            refine List.forall_mem_cons.mpr ⟨List.mem_cons_self, fun e he => ?_⟩
            exact List.mem_cons_of_mem item (ih hrest e he)

/-- What a record has been read from holds all its entries. -/
theorem mem_of_entries {origin : Origin} {j : Json} {found : List (String × Json)}
    (h : r.entries origin j = .ok found) :
    (∃ fields, j = .obj fields ∧ ∀ e ∈ found, e ∈ fields) ∨
      ∃ items, j = .arr items ∧ ∀ e ∈ found, e.2 ∈ items := by
  cases j with
  | obj fields =>
      obtain ⟨⟨⟩, -, h⟩ := bind_eq_ok_iff.mp h
      split at h
      next => cases h
      next =>
        cases h
        exact .inl ⟨_, rfl, fun _ he => he⟩
  | arr items =>
      obtain ⟨⟨entries, left⟩, hfound, h⟩ := bind_eq_ok_iff.mp h
      have hmem := mem_of_distribute hfound
      refine .inr ⟨_, rfl, ?_⟩
      simp only at h
      split at h
      next =>
        cases h
        exact hmem
      next =>
        cases origin with
        | document =>
            cases h
            exact hmem
        | direct => cases h
        | held => cases h
  | _ => cases h

variable {R : String → Json → Json → Prop} {a b : List (String × Json)}

theorem visit_congr (hr : ∀ f ∈ r.fields, ∀ j j', R f.name j j' → f.check j = f.check j')
    (h : List.Forall₂ (Together R) a b) : r.visit a = r.visit b := by
  induction h with
  | nil => rfl
  | @cons e f a b hef _ ih =>
      obtain ⟨k, j⟩ := e
      obtain ⟨k', j'⟩ := f
      obtain ⟨rfl, hj⟩ := hef
      cases hf : r.fields.find? fun f => f.name = k with
      | none => simp only [visit, hf, ih]
      | some f =>
          have hname : f.name = k := by simpa using List.find?_some hf
          have hcheck : f.check j = f.check j' :=
            hr f (List.mem_of_find?_eq_some hf) j j' (hname.symm ▸ hj)
          simp only [visit, hf, hcheck, ih]

theorem missing?_congr (r : RecordRule) (h : List.Forall₂ (Together R) a b) :
    r.missing? a = r.missing? b := by
  have hkeys : (fun f : FieldRule => f.required && (a.lookup f.name).isNone) =
      fun f => f.required && (b.lookup f.name).isNone := by
    funext f
    rcases lookup_of_together h f.name with ⟨ha, hb⟩ | ⟨j, j', ha, hb, -⟩
    · rw [ha, hb]
    · simp [ha, hb]
  simp only [missing?, hkeys]

/-- What is made of two objects is the same if their values are read alike. -/
theorem bind_entries_congr {origin : Origin} {make : List (String × Json) → Except DecodeError α}
    (hr : ∀ f ∈ r.fields, ∀ j j', R f.name j j' → f.check j = f.check j')
    (h : List.Forall₂ (Together R) a b) (hmake : make a = make b) :
    (r.entries origin (.obj a) >>= make) = (r.entries origin (.obj b) >>= make) := by
  simp only [RecordRule.entries, visit_congr hr h, missing?_congr r h]
  cases r.visit b with
  | error e => rfl
  | ok _ =>
      cases r.missing? b with
      | none => exact hmake
      | some name => rfl

end RecordRule

end HttpGateway
