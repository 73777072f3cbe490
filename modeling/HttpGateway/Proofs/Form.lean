import HttpGateway.Form
import HttpGateway.Proofs.Text.Utf8

/-!
# Reading back forms

A form that has been written is read back as the fields it was written from, whatever letters their
names and values hold. What has been read from any bytes and written again is read as before, and
stays as it is when it is read and written once more. A field that is appended to a query, however
badly that is written, is read after those of the query.
-/

namespace HttpGateway.Form

/-- A byte that may stand in an encoded name or value. -/
def isCoded (b : UInt8) : Bool := isPlain b || b == 0x2B || b == 0x25

/-- What holds of all numbers below 256 holds of all bytes. -/
theorem forall_byte {p : UInt8 → Prop} (h : ∀ n < 256, p (UInt8.ofNat n)) (b : UInt8) : p b := by
  have hb := h b.toNat b.toNat_lt
  rwa [UInt8.ofNat_toNat] at hb

theorem ne_of_isCoded {b : UInt8} (h : isCoded b = true) : b ≠ 0x26 ∧ b ≠ 0x3D := by
  constructor <;> rintro rfl <;> exact absurd h (by decide)

theorem ne_of_isPlain {b : UInt8} (h : isPlain b = true) : b ≠ 0x25 ∧ b ≠ 0x2B := by
  constructor <;> rintro rfl <;> exact absurd h (by decide)

theorem isCoded_hexDigit : ∀ n < 16, isCoded (hexDigit n) = true := by decide

theorem hexValue?_hexDigit : ∀ n < 16, hexValue? (hexDigit n) = some n := by decide

theorem isCoded_of_mem_encodeByte {b x : UInt8} (h : x ∈ encodeByte b) : isCoded x = true := by
  have hb := b.toNat_lt
  unfold encodeByte at h
  split at h
  next hplain =>
    obtain rfl := List.mem_singleton.mp h
    simp [isCoded, hplain]
  · split at h
    · obtain rfl := List.mem_singleton.mp h
      rfl
    · simp only [List.mem_cons, List.not_mem_nil, or_false] at h
      rcases h with rfl | rfl | rfl
      · rfl
      · exact isCoded_hexDigit _ (by omega)
      · exact isCoded_hexDigit _ (by omega)

theorem isCoded_of_mem_encodePart {s : String} {x : UInt8} (h : x ∈ encodePart s) :
    isCoded x = true := by
  obtain ⟨b, -, hx⟩ := List.mem_flatMap.mp h
  exact isCoded_of_mem_encodeByte hx

theorem isCoded_of_mem_encodeField {f : Field} {b : UInt8} (h : b ∈ encodeField f) :
    isCoded b = true ∨ b = 0x3D := by
  rcases List.mem_append.mp h with hname | hvalue
  · exact .inl (isCoded_of_mem_encodePart hname)
  · rcases List.mem_cons.mp hvalue with heq | hvalue
    · exact .inr heq
    · exact .inl (isCoded_of_mem_encodePart hvalue)

/-- A form that is written consists of encoded names and values and what stands between them. -/
theorem isCoded_of_mem_encode {fields : List Field} {b : UInt8} (h : b ∈ encode fields) :
    isCoded b = true ∨ b = 0x3D ∨ b = 0x26 := by
  fun_induction encode fields with
  | case1 => cases h
  | case2 f => exact (isCoded_of_mem_encodeField h).imp_right .inl
  | case3 f rest hne ih =>
      rcases List.mem_append.mp h with hfield | hrest
      · exact (isCoded_of_mem_encodeField hfield).imp_right .inl
      · rcases List.mem_cons.mp hrest with heq | hrest
        · exact .inr (.inr heq)
        · exact ih hrest

/-! ### Names and values -/

theorem decodeBytes_cons_of_ne {b : UInt8} (h : b ≠ 0x25) (rest : Bytes) :
    decodeBytes (b :: rest) = (if b = 0x2B then 0x20 else b) :: decodeBytes rest := by
  rcases rest with _ | ⟨_, _ | ⟨_, _⟩⟩ <;> simp [decodeBytes, h]

/-- A byte is read back from its encoding, whatever comes after it. -/
theorem decodeBytes_encodeByte (b : UInt8) (rest : Bytes) :
    decodeBytes (encodeByte b ++ rest) = b :: decodeBytes rest := by
  have hb := b.toNat_lt
  unfold encodeByte
  split
  next hplain =>
    obtain ⟨hpercent, hplus⟩ := ne_of_isPlain hplain
    rw [List.singleton_append, decodeBytes_cons_of_ne hpercent, if_neg hplus]
  · split
    next hblank =>
      rw [List.singleton_append, decodeBytes_cons_of_ne (by decide), if_pos rfl, hblank]
    · have hbyte : b.toNat / 16 * 16 + b.toNat % 16 = b.toNat := by omega
      rw [List.cons_append, List.cons_append, List.singleton_append, decodeBytes, if_pos rfl]
      simp only [hexValue?_hexDigit (b.toNat / 16) (by omega),
        hexValue?_hexDigit (b.toNat % 16) (by omega), hbyte]
      rw [Nat.toUInt8, UInt8.ofNat_toNat]

theorem decodeBytes_flatMap (bs : Bytes) : decodeBytes (bs.flatMap encodeByte) = bs := by
  induction bs with
  | nil => rfl
  | cons b bs ih => rw [List.flatMap_cons, decodeBytes_encodeByte, ih]

/-- A name or value is read back from its encoding. -/
theorem decodePart_encodePart (s : String) : decodePart (encodePart s) = s := by
  rw [decodePart, encodePart, decodeBytes_flatMap, bytesOf, Utf8.decodeLossy_encode,
    String.ofList_toList]

/-! ### Fields -/

theorem pieces_ne_nil (sep : UInt8) (bs : Bytes) : pieces sep bs ≠ [] := by
  cases bs with
  | nil => simp [pieces]
  | cons b rest =>
      rw [pieces]
      split
      · simp
      · split <;> simp

/-- The pieces on both sides of a separator do not depend on each other. -/
theorem pieces_append_cons (sep : UInt8) (before after : Bytes) :
    pieces sep (before ++ sep :: after) = pieces sep before ++ pieces sep after := by
  induction before with
  | nil => simp [pieces]
  | cons b before ih =>
      rw [List.cons_append, pieces, pieces, ih]
      split
      · rfl
      · obtain ⟨p, ps, hp⟩ := List.exists_cons_of_ne_nil (pieces_ne_nil sep before)
        simp only [hp, List.cons_append]

theorem pieces_of_not_mem {sep : UInt8} {bs : Bytes} (h : sep ∉ bs) : pieces sep bs = [bs] := by
  induction bs with
  | nil => rfl
  | cons b bs ih =>
      rw [List.mem_cons, not_or] at h
      rw [pieces, if_neg (Ne.symm h.1), ih h.2]

/-- The fields on both sides of an ampersand do not depend on each other, however badly either side
is written. -/
theorem decode_append_cons (before after : Bytes) :
    decode (before ++ 0x26 :: after) = decode before ++ decode after := by
  rw [decode, pieces_append_cons, List.filter_append, List.map_append, decode, decode]

theorem decodeField_encodeField (f : Field) : decodeField (encodeField f) = f := by
  have hname : ∀ b ∈ encodePart f.1, (decide (b ≠ 0x3D)) = true := fun b hb =>
    decide_eq_true (ne_of_isCoded (isCoded_of_mem_encodePart hb)).2
  rw [decodeField, encodeField, List.takeWhile_append_of_pos hname,
    List.dropWhile_append_of_pos hname]
  simp [decodePart_encodePart]

/-- A field is read back from its encoding, which is never empty. -/
theorem decode_encodeField (f : Field) : decode (encodeField f) = [f] := by
  have hwhole : (0x26 : UInt8) ∉ encodeField f := by
    intro h
    rcases isCoded_of_mem_encodeField h with hcoded | heq
    · exact (ne_of_isCoded hcoded).1 rfl
    · exact absurd heq (by decide)
  have hsome : (encodeField f).isEmpty = false := by simp [encodeField]
  rw [decode, pieces_of_not_mem hwhole]
  simp [hsome, decodeField_encodeField]

/-- A form is read back from its encoding. -/
theorem decode_encode (fields : List Field) : decode (encode fields) = fields := by
  fun_induction encode fields with
  | case1 => rfl
  | case2 f => exact decode_encodeField f
  | case3 f rest hne ih => rw [decode_append_cons, decode_encodeField, ih, List.singleton_append]

/-- A form that has been written anew holds the same fields in the same order. -/
theorem decode_reencode (raw : Bytes) : decode (reencode raw) = decode raw :=
  decode_encode (decode raw)

/-- To write a form anew a second time changes nothing. -/
theorem reencode_reencode (raw : Bytes) : reencode (reencode raw) = reencode raw :=
  congrArg encode (decode_reencode raw)

/-! ### Fields of a query -/

theorem bytesOf_append (s t : String) : bytesOf (s ++ t) = bytesOf s ++ bytesOf t := by
  rw [bytesOf, String.toList_append, Utf8.encode, List.flatMap_append]
  rfl

/-- An encoded field as a text. -/
def fieldText (f : Field) : String :=
  String.ofList ((encodeField f).map fun b => Char.ofNat b.toNat)

/-- The bytes of an encoded field are ASCII, so that each is a character of the text. -/
theorem bytesOf_fieldText (f : Field) : bytesOf (fieldText f) = encodeField f := by
  have hascii : ∀ b, isCoded b = true ∨ b = 0x3D →
      Utf8.encodeChar (Char.ofNat b.toNat) = [b] := forall_byte (by decide +kernel)
  rw [bytesOf, fieldText, String.toList_ofList]
  exact Utf8.encode_map_ofNat fun b hb => hascii b (isCoded_of_mem_encodeField hb)

theorem fieldText_ne_empty (f : Field) : fieldText f ≠ "" := by
  intro hempty
  have hbytes := bytesOf_fieldText f
  rw [hempty] at hbytes
  simp [bytesOf, Utf8.encode, encodeField] at hbytes

theorem appendField_eq (query : Option String) (f : Field) :
    appendField query f = match query with
      | some q => if q = "" then fieldText f else q ++ "&" ++ fieldText f
      | none => fieldText f := by
  cases query with
  | none => rfl
  | some q => simp [appendField, fieldText, String.isEmpty_iff]

theorem appendField_ne_empty (query : Option String) (f : Field) : appendField query f ≠ "" := by
  rw [appendField_eq]
  cases query with
  | none => exact fieldText_ne_empty f
  | some q =>
      dsimp only
      split
      · exact fieldText_ne_empty f
      · simp [fieldText_ne_empty f]

/-- A field that is appended to a query is read after all those that are in it. -/
theorem decode_appendField (query : Option String) (f : Field) :
    decode (bytesOf (appendField query f)) = decode (bytesOf (query.getD "")) ++ [f] := by
  have hfield : decode (bytesOf (fieldText f)) = [f] := by
    rw [bytesOf_fieldText, decode_encodeField]
  rw [appendField_eq]
  cases query with
  | none => exact hfield
  | some q =>
      dsimp only [Option.getD_some]
      split
      next hempty =>
        rw [hempty]
        exact hfield
      · have hbytes : bytesOf (q ++ "&" ++ fieldText f) = bytesOf q ++ 0x26 :: encodeField f := by
          rw [bytesOf_append, bytesOf_append, bytesOf_fieldText, List.append_assoc]
          rfl
        rw [hbytes, decode_append_cons, decode_encodeField]

end HttpGateway.Form
