import HttpGateway.Net.Address

/-!
# The texts of addresses

An address is written with hexadecimal digits, points and colons, and never as an empty text. So it
can stand in a list between commas and blanks without being taken for more or less than one element.
-/

namespace HttpGateway

namespace Text

/-- The digits of a number are those of its base. -/
theorem exists_digitChar_of_mem_toDigits {b n : Nat} {c : Char} (hb : 1 < b)
    (h : c ∈ Nat.toDigits b n) : ∃ d < b, c = Nat.digitChar d := by
  induction n using Nat.strongRecOn with
  | ind n ih =>
      by_cases hn : n < b
      · rw [Nat.toDigits_of_lt_base hn, List.mem_singleton] at h
        exact ⟨n, hn, h⟩
      · have hle : b ≤ n := Nat.le_of_not_lt hn
        rw [Nat.toDigits_of_base_le hb hle, List.mem_append, List.mem_singleton] at h
        rcases h with h | rfl
        · exact ih (n / b) (Nat.div_lt_self (by omega) hb) h
        · exact ⟨n % b, Nat.mod_lt n (by omega), rfl⟩

theorem mem_join {sep : List Char} {parts : List (List Char)} {c : Char} (h : c ∈ join sep parts) :
    c ∈ sep ∨ ∃ part ∈ parts, c ∈ part := by
  fun_induction join sep parts with
  | case1 => simp at h
  | case2 p => exact .inr ⟨p, by simp, h⟩
  | case3 p ps _ ih =>
      rw [List.mem_append, List.mem_append] at h
      rcases h with (h | h) | h
      · exact .inr ⟨p, by simp, h⟩
      · exact .inl h
      · exact (ih h).imp_right fun ⟨q, hq, hc⟩ => ⟨q, List.mem_cons_of_mem p hq, hc⟩

end Text

namespace Net

/-- The characters with which addresses are written. -/
def alphabet : List Char := "0123456789abcdef.:".toList

theorem digitChar_mem_alphabet {d : Nat} (h : d < 16) : Nat.digitChar d ∈ alphabet := by
  revert d
  decide

variable {n : Nat} {c : Char}

theorem mem_alphabet_of_mem_toDigits {b : Nat} (hb : 1 < b) (hle : b ≤ 16)
    (h : c ∈ Nat.toDigits b n) : c ∈ alphabet := by
  obtain ⟨d, hd, rfl⟩ := Text.exists_digitChar_of_mem_toDigits hb h
  exact digitChar_mem_alphabet (by omega)

theorem mem_alphabet_of_mem_joinTexts {sep : String} {parts : List String}
    (hsep : sep.toList ⊆ alphabet) (hparts : ∀ p ∈ parts, ∀ c ∈ p.toList, c ∈ alphabet)
    (h : c ∈ (joinTexts sep parts).toList) : c ∈ alphabet := by
  rw [joinTexts, String.toList_ofList] at h
  rcases Text.mem_join h with h | ⟨part, hpart, h⟩
  · exact hsep h
  · obtain ⟨p, hp, rfl⟩ := List.mem_map.mp hpart
    exact hparts p hp c h

theorem mem_alphabet_of_mem_dotted (h : c ∈ (dotted n).toList) : c ∈ alphabet := by
  refine mem_alphabet_of_mem_joinTexts (by decide) (fun p hp c hc => ?_) h
  obtain ⟨octet, -, rfl⟩ := List.mem_map.mp hp
  rw [Text.decimal, String.toList_ofList] at hc
  exact mem_alphabet_of_mem_toDigits (by decide) (by decide) hc

theorem mem_alphabet_of_mem_colons (h : c ∈ (colons n).toList) : c ∈ alphabet := by
  have groups {part : List Nat} (h : c ∈ (joinTexts ":" (part.map hex)).toList) : c ∈ alphabet := by
    refine mem_alphabet_of_mem_joinTexts (by decide) (fun p hp c hc => ?_) h
    obtain ⟨group, -, rfl⟩ := List.mem_map.mp hp
    rw [hex, String.toList_ofList] at hc
    exact mem_alphabet_of_mem_toDigits (by decide) (by decide) hc
  have gap : "::ffff:".toList ⊆ alphabet := by decide
  unfold colons at h
  dsimp only at h
  split at h
  · rw [String.toList_append, List.mem_append] at h
    exact h.elim (fun h => gap h) mem_alphabet_of_mem_dotted
  · split at h
    · rw [String.toList_append, String.toList_append, List.mem_append, List.mem_append] at h
      rcases h with (h | h) | h
      · exact groups h
      · have hcolons : "::".toList ⊆ alphabet := by decide
        exact hcolons h
      · exact groups h
    · exact groups h

theorem dotted_ne_empty (n : Nat) : dotted n ≠ "" := by
  simp [dotted, joinTexts, Text.join]

theorem colons_ne_empty (n : Nat) : colons n ≠ "" := by
  unfold colons
  dsimp only
  split
  · simp
  · split
    · simp
    · simp [groupsOf, joinTexts, Text.join, List.range_succ]

end Net

namespace Address

theorem mem_alphabet_of_mem_render {a : Address} {c : Char} (h : c ∈ a.render.toList) :
    c ∈ Net.alphabet := by
  cases a with
  | v4 n => exact Net.mem_alphabet_of_mem_dotted h
  | v6 n => exact Net.mem_alphabet_of_mem_colons h

theorem render_ne_empty (a : Address) : a.render ≠ "" := by
  cases a with
  | v4 n => exact Net.dotted_ne_empty n
  | v6 n => exact Net.colons_ne_empty n

end Address

end HttpGateway
