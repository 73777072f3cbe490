/-!
# Dictionaries

Finite maps from texts, kept as a list of entries in strictly increasing order of their keys. The
order makes the representation unique: two dictionaries with the same entries are equal.
-/

namespace HttpGateway

/-- Entries in the order of their keys. -/
abbrev Dictionary (α : Type) := List (String × α)

namespace Dictionary

variable {α : Type}

/-- The entries stand in strictly increasing order of their keys. -/
def Ordered (d : Dictionary α) : Prop := d.Pairwise fun a b => a.1 < b.1

/-- Sets the value of a key, in place if the key is there and else in key order. -/
def insert (d : Dictionary α) (key : String) (value : α) : Dictionary α :=
  match d with
  | [] => [(key, value)]
  | (k, v) :: rest =>
    if key = k then (key, value) :: rest
    else if key < k then (key, value) :: (k, v) :: rest
    else (k, v) :: insert rest key value

/-- The value of a key. -/
def get? (d : Dictionary α) (key : String) : Option α := List.lookup key d

/-- Whether the key has a value. -/
def contains (d : Dictionary α) (key : String) : Bool := (d.get? key).isSome

/-- The dictionary of entries given in any order; of two values for a key the later stays. -/
def ofList (entries : List (String × α)) : Dictionary α :=
  entries.foldl (fun d (k, v) => insert d k v) []

theorem get?_insert_self (d : Dictionary α) (key : String) (value : α) :
    (d.insert key value).get? key = some value := by
  induction d with
  | nil => simp [insert, get?]
  | cons e rest ih =>
    obtain ⟨k, v⟩ := e
    simp only [insert]
    split
    · simp [get?]
    · next hk =>
      split
      · simp [get?]
      · have : (key == k) = false := by simpa using hk
        simpa [get?, List.lookup_cons, this] using ih

theorem get?_insert_of_ne (d : Dictionary α) {key other : String} (value : α)
    (hne : other ≠ key) : (d.insert key value).get? other = d.get? other := by
  have hbeq : (other == key) = false := by simpa using hne
  induction d with
  | nil => simp [insert, get?, List.lookup_cons, hbeq]
  | cons e rest ih =>
    obtain ⟨k, v⟩ := e
    simp only [insert]
    split
    · next hk => subst hk; simp [get?, List.lookup_cons, hbeq]
    · split
      · simp [get?, List.lookup_cons, hbeq]
      · cases hk : other == k with
        | true => simp [get?, List.lookup_cons, hk]
        | false => simpa [get?, List.lookup_cons, hk] using ih

theorem mem_insert {d : Dictionary α} {key : String} {value : α} {e : String × α}
    (h : e ∈ d.insert key value) : e = (key, value) ∨ e ∈ d := by
  induction d with
  | nil => exact .inl (List.mem_singleton.1 h)
  | cons f rest ih =>
    obtain ⟨k, v⟩ := f
    simp only [insert] at h
    split at h
    · exact (List.mem_cons.1 h).imp_right (List.mem_cons_of_mem _)
    · split at h
      · exact List.mem_cons.1 h
      · rcases List.mem_cons.1 h with rfl | h
        · exact .inr List.mem_cons_self
        · exact (ih h).imp_right (List.mem_cons_of_mem _)

theorem ordered_insert {d : Dictionary α} (h : d.Ordered) (key : String) (value : α) :
    (d.insert key value).Ordered := by
  induction d with
  | nil => exact List.pairwise_singleton _ _
  | cons e rest ih =>
    obtain ⟨k, v⟩ := e
    obtain ⟨hk, hrest⟩ := List.pairwise_cons.1 h
    simp only [insert]
    split
    · next heq =>
      subst heq
      exact List.pairwise_cons.2 ⟨hk, hrest⟩
    · next hne =>
      split
      · next hlt =>
        refine List.pairwise_cons.2 ⟨fun e he => ?_, h⟩
        rcases List.mem_cons.1 he with rfl | he
        · exact hlt
        · exact String.lt_trans hlt (hk e he)
      · next hlt =>
        refine List.pairwise_cons.2 ⟨fun e he => ?_, ih hrest⟩
        rcases mem_insert he with rfl | he
        · exact Classical.byContradiction fun hle => hne (String.le_antisymm hle hlt)
        · exact hk e he

theorem ordered_ofList (entries : List (String × α)) : (ofList entries).Ordered := by
  suffices h : ∀ d : Dictionary α, d.Ordered →
      (entries.foldl (fun d (k, v) => insert d k v) d).Ordered from h [] List.Pairwise.nil
  induction entries with
  | nil => exact fun d hd => hd
  | cons e rest ih => exact fun d hd => ih _ (ordered_insert hd e.1 e.2)

theorem get?_ofList (entries : List (String × α)) (key : String) :
    (ofList entries).get? key = entries.reverse.lookup key := by
  suffices h : ∀ d : Dictionary α, get? (entries.foldl (fun d (k, v) => insert d k v) d) key =
      (entries.reverse.lookup key).or (d.get? key) by
    rw [ofList, h [], get?, List.lookup_nil, Option.or_none]
  induction entries with
  | nil => simp
  | cons e rest ih =>
    intro d
    obtain ⟨k, v⟩ := e
    rw [List.foldl_cons, ih, List.reverse_cons, List.lookup_append]
    cases rest.reverse.lookup key with
    | some _ => rfl
    | none =>
      by_cases hk : key = k
      · subst hk
        simp [get?_insert_self]
      · have hbeq : (key == k) = false := by simpa using hk
        simp [get?_insert_of_ne d v hk, List.lookup_cons, hbeq]

end Dictionary

end HttpGateway
