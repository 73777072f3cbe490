import HttpGateway.Text.Utf8

/-!
# Reading back UTF-8

The bytes of a text are read back as that text, even by the reader that never fails. The first byte
of a character announces those that follow, and they lie in the range that it leaves open, because no
character is written longer than need be and none is a surrogate.
-/

namespace HttpGateway.Utf8

variable {n : Nat}

theorem toNat_toUInt8 (h : n < 256) : n.toUInt8.toNat = n := by
  simp only [Nat.toUInt8, UInt8.toNat_ofNat']
  omega

/-- A byte that follows a first byte adds its six bits. -/
theorem continuation_cons {k bits low high used : Nat} (rest : Bytes) (hlow : low ≤ 0x80 + n)
    (hhigh : 0x80 + n ≤ high) (hn : n < 64) :
    continuation (k + 1) bits low high used ((0x80 + n).toUInt8 :: rest) =
      continuation k (bits * 64 + n) 0x80 0xBF (used + 1) rest := by
  rw [continuation, toNat_toUInt8 (by omega), if_pos ⟨hlow, hhigh⟩, Nat.add_sub_cancel_left]

/-- A first byte and those that follow it make a character. -/
theorem step_of_lead {b used : Nat} {l : Lead} {rest : Bytes} (hb : 0x80 ≤ b) (hbyte : b < 256)
    (hlead : lead? b = some l)
    (hread : continuation l.follow l.bits l.low l.high 1 rest = (some n, used)) :
    step b.toUInt8 rest = (some (Char.ofNat n), used) := by
  rw [step, toNat_toUInt8 hbyte, if_neg (Nat.not_lt.mpr hb), hlead]
  simp only [hread, Option.map_some]

/-- Of the characters of three bytes, the first byte keeps out those that two bytes could hold, and
the surrogates. -/
theorem lead?_three (hlow : 0x800 ≤ n) (hhigh : n < 0x10000) (hvalid : n < 0xD800 ∨ 0xDFFF < n) :
    ∃ low high, lead? (0xE0 + n / 4096) = some ⟨2, n / 4096, low, high⟩ ∧
      low ≤ 0x80 + n / 64 % 64 ∧ 0x80 + n / 64 % 64 ≤ high := by
  unfold lead?
  rw [if_neg (by omega)]
  split
  · have hbits : n / 4096 = 0 := by omega
    exact ⟨0xA0, 0xBF, by rw [hbits], by omega, by omega⟩
  · split
    · have hbits : n / 4096 = 13 := by omega
      exact ⟨0x80, 0x9F, by rw [hbits], by omega, by omega⟩
    · rw [if_pos (by omega), Nat.add_sub_cancel_left]
      exact ⟨0x80, 0xBF, rfl, by omega, by omega⟩

/-- Of the characters of four bytes, the first byte keeps out those that three bytes could hold, and
what is no character any more. -/
theorem lead?_four (hlow : 0x10000 ≤ n) (hhigh : n < 0x110000) :
    ∃ low high, lead? (0xF0 + n / 262144) = some ⟨3, n / 262144, low, high⟩ ∧
      low ≤ 0x80 + n / 4096 % 64 ∧ 0x80 + n / 4096 % 64 ≤ high := by
  unfold lead?
  rw [if_neg (by omega), if_neg (by omega), if_neg (by omega), if_neg (by omega)]
  split
  · have hbits : n / 262144 = 0 := by omega
    exact ⟨0x90, 0xBF, by rw [hbits], by omega, by omega⟩
  · split
    · have hbits : n / 262144 = 4 := by omega
      exact ⟨0x80, 0x8F, by rw [hbits], by omega, by omega⟩
    · rw [if_pos (by omega), Nat.add_sub_cancel_left]
      exact ⟨0x80, 0xBF, rfl, by omega, by omega⟩

/-- Where the bytes of a character stand, it is read, and all of them are used. -/
theorem step_encodeChar (c : Char) (rest : Bytes) :
    ∃ b others, encodeChar c = b :: others ∧
      step b (others ++ rest) = (some c, others.length + 1) := by
  have hvalid : c.toNat < 0xD800 ∨ 0xDFFF < c.toNat ∧ c.toNat < 0x110000 := c.valid
  have hchar : Char.ofNat c.toNat = c := Char.ofNat_toNat c
  simp only [encodeChar]
  generalize c.toNat = n at hvalid hchar
  subst hchar
  by_cases hone : n < 0x80
  · rw [if_pos hone]
    refine ⟨_, [], rfl, ?_⟩
    rw [step, toNat_toUInt8 (by omega), if_pos hone]
    rfl
  rw [if_neg hone]
  by_cases htwo : n < 0x800
  · rw [if_pos htwo]
    have hlead : lead? (0xC0 + n / 64) = some ⟨1, n / 64, 0x80, 0xBF⟩ := by
      rw [lead?, if_pos (by omega), Nat.add_sub_cancel_left]
    refine ⟨_, _, rfl, step_of_lead (by omega) (by omega) hlead ?_⟩
    have hlow : 0x80 ≤ 0x80 + n % 64 := Nat.le_add_right ..
    have hhigh : 0x80 + n % 64 ≤ 0xBF := by omega
    rw [List.singleton_append, continuation_cons rest hlow hhigh (by omega), continuation,
      Nat.div_add_mod']
    rfl
  rw [if_neg htwo]
  by_cases hthree : n < 0x10000
  · rw [if_pos hthree]
    obtain ⟨low, high, hlead, hlow, hhigh⟩ := lead?_three (by omega) hthree (by omega)
    refine ⟨_, _, rfl, step_of_lead (by omega) (by omega) hlead ?_⟩
    have hbits : (n / 4096 * 64 + n / 64 % 64) * 64 + n % 64 = n := by omega
    rw [List.cons_append, List.singleton_append, continuation_cons _ hlow hhigh (by omega),
      continuation_cons rest (by omega) (by omega) (by omega), continuation, hbits]
    rfl
  · rw [if_neg hthree]
    obtain ⟨low, high, hlead, hlow, hhigh⟩ := lead?_four (n := n) (by omega) (by omega)
    refine ⟨_, _, rfl, step_of_lead (by omega) (by omega) hlead ?_⟩
    have hbits : ((n / 262144 * 64 + n / 4096 % 64) * 64 + n / 64 % 64) * 64 + n % 64 = n := by omega
    rw [List.cons_append, List.cons_append, List.singleton_append,
      continuation_cons _ hlow hhigh (by omega),
      continuation_cons _ (by omega) (by omega) (by omega),
      continuation_cons rest (by omega) (by omega) (by omega), continuation, hbits]
    rfl

/-- A text is read back from its bytes. -/
theorem decodeLossy_encode (s : List Char) : decodeLossy (encode s) = s := by
  induction s with
  | nil => rw [encode, List.flatMap_nil, decodeLossy]
  | cons c s ih =>
      obtain ⟨b, others, hencode, hstep⟩ := step_encodeChar c (encode s)
      rw [encode, List.flatMap_cons, hencode, List.cons_append, decodeLossy, ← encode, hstep]
      simp only [Option.getD_some, Nat.add_sub_cancel, List.drop_left, ih]

/-- Bytes each of which is all there is to a character are written for these characters. -/
theorem encode_map_ofNat {bs : Bytes} (h : ∀ b ∈ bs, encodeChar (Char.ofNat b.toNat) = [b]) :
    encode (bs.map fun b => Char.ofNat b.toNat) = bs := by
  induction bs with
  | nil => rfl
  | cons b bs ih =>
      obtain ⟨hb, hbs⟩ := List.forall_mem_cons.mp h
      have hrest := ih hbs
      rw [encode] at hrest ⊢
      rw [List.map_cons, List.flatMap_cons, hb, hrest, List.singleton_append]

end HttpGateway.Utf8
