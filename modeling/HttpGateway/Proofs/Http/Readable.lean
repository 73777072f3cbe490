import HttpGateway.Http.Header

/-!
# Readable header values

A header value is readable if all its bytes are printable ASCII characters, blanks or tabs. The
values that are readable are those made of a text of such characters, and this text is what is read.
-/

namespace HttpGateway

/-- A character that is a byte of a readable header value. -/
def IsReadable (c : Char) : Prop := (32 ≤ c.toNat ∧ c.toNat < 127) ∨ c.toNat = 9

instance : DecidablePred IsReadable := fun c => by unfold IsReadable; infer_instance

namespace IsReadable

variable {c : Char} {s : List Char}

theorem encodeChar_eq (h : IsReadable c) : Utf8.encodeChar c = [c.toNat.toUInt8] := by
  rw [Utf8.encodeChar, if_pos (by unfold IsReadable at h; omega)]

theorem toNat_toUInt8 (h : IsReadable c) : c.toNat.toUInt8.toNat = c.toNat := by
  have : c.toNat < 256 := by unfold IsReadable at h; omega
  simpa using this

/-- A readable text has one byte for each character. -/
theorem encode_eq (h : ∀ c ∈ s, IsReadable c) :
    Utf8.encode s = s.map fun c => c.toNat.toUInt8 := by
  induction s with
  | nil => rfl
  | cons c s ih =>
      obtain ⟨hc, hs⟩ := List.forall_mem_cons.mp h
      simp only [Utf8.encode, List.flatMap_cons, hc.encodeChar_eq, List.map_cons,
        List.singleton_append]
      exact congrArg (c.toNat.toUInt8 :: ·) (ih hs)

end IsReadable

namespace HeaderValue

variable {s : String} {v : HeaderValue}

theorem isReadable_iff (b : UInt8) :
    isReadable b = true ↔ (32 ≤ b.toNat ∧ b.toNat < 127) ∨ b.toNat = 9 := by
  simp [isReadable]

theorem text?_literal (h : ∀ c ∈ s.toList, IsReadable c) : (literal s).text? = some s := by
  have hbytes : (literal s).bytes = s.toList.map fun c => c.toNat.toUInt8 := IsReadable.encode_eq h
  have hreadable : (literal s).bytes.all isReadable = true := by
    rw [hbytes, List.all_map, List.all_eq_true]
    intro c hc
    rw [Function.comp_apply, isReadable_iff, (h c hc).toNat_toUInt8]
    exact h c hc
  rw [text?, if_pos hreadable, asciiText, hbytes, List.map_map]
  refine congrArg some (String.toList_inj.mp ?_)
  rw [String.toList_ofList]
  refine (List.map_congr_left fun c hc => ?_).trans s.toList.map_id
  rw [Function.comp_apply, (h c hc).toNat_toUInt8, Char.ofNat_toNat, id]

theorem isReadable_of_text? (h : v.text? = some s) : ∀ c ∈ s.toList, IsReadable c := by
  unfold text? at h
  split at h
  next hall =>
    obtain rfl := Option.some.inj h
    intro c hc
    rw [asciiText, String.toList_ofList] at hc
    obtain ⟨b, hb, rfl⟩ := List.mem_map.mp hc
    have hb := (isReadable_iff b).mp (List.all_eq_true.mp hall b hb)
    have htoNat : (Char.ofNat b.toNat).toNat = b.toNat := by
      rw [Char.ofNat, dif_pos (.inl (by omega))]
      rfl
    rwa [IsReadable, htoNat]
  next => cases h

end HeaderValue

end HttpGateway
