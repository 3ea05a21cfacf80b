import BoothFloor.Text.Utf8

/-!
# Text that comes back from its bytes

A text is read back from its UTF-8 form as it was. The byte machine is followed one character at a
time: the first byte tells how many more there are and within which bounds the second one lies, and
every later byte adds six bits. The form has one byte for each unit of `Utf8.size`, and a zero byte
only where the text has a NUL. It is the form that a string has in memory.
-/

namespace BoothFloor.Utf8

/-- A number below 256 survives as a byte. -/
theorem toNat_byte {n : Nat} (h : n < 256) : (UInt8.ofNat n).toNat = n :=
  UInt8.toNat_ofNat_of_lt' h

/-- A character's number is no surrogate and at most U+10FFFF. -/
theorem toNat_valid (c : Char) : c.toNat < 0xD800 ∨ 0xDFFF < c.toNat ∧ c.toNat < 0x110000 := c.valid

/-- A byte below 128 is a character. -/
theorem lead_one {n : Nat} (h : n < 0x80) : lead (UInt8.ofNat n) = ([Char.ofNat n], none) := by
  have hlt : UInt8.ofNat n < 0x80 := by
    rw [UInt8.lt_iff_toNat_lt, toNat_byte (by omega)]
    exact h
  rw [lead, if_pos hlt, toNat_byte (by omega)]

/-- The first of two bytes. -/
theorem lead_two : ∀ k < 32, 2 ≤ k → lead (UInt8.ofNat (0xC0 + k)) = ([], some ⟨1, 0x80, 0xBF, k⟩) := by
  decide

/-- The first of three bytes. Overlong forms and surrogates are kept out by the bounds on the second. -/
theorem lead_three : ∀ k < 16, lead (UInt8.ofNat (0xE0 + k)) =
    ([], some ⟨2, if k = 0 then 0xA0 else 0x80, if k = 13 then 0x9F else 0xBF, k⟩) := by
  decide

/-- The first of four bytes. Overlong forms and numbers too great are kept out by the bounds on the
second. -/
theorem lead_four : ∀ k < 5, lead (UInt8.ofNat (0xF0 + k)) =
    ([], some ⟨3, if k = 0 then 0x90 else 0x80, if k = 4 then 0x8F else 0xBF, k⟩) := by
  decide

/-- Where a character begins, reading goes on as the first byte tells. -/
theorem decodeFrom_lead (b : UInt8) (bs : List UInt8) :
    decodeFrom none (b :: bs) = (lead b).1 ++ decodeFrom (lead b).2 bs := rfl

/-- A later byte within its bounds adds six bits. -/
theorem step_tail {need bits n : Nat} {low high : UInt8} (hn : n < 64) (hlow : low.toNat ≤ 0x80 + n)
    (hhigh : 0x80 + n ≤ high.toNat) :
    step (some ⟨need, low, high, bits⟩) (UInt8.ofNat (0x80 + n)) =
      if need ≤ 1 then ([Char.ofNat (bits * 64 + n)], none)
      else ([], some ⟨need - 1, 0x80, 0xBF, bits * 64 + n⟩) := by
  have hbyte : (UInt8.ofNat (0x80 + n)).toNat = 0x80 + n := toNat_byte (by omega)
  have hbounds : low ≤ UInt8.ofNat (0x80 + n) ∧ UInt8.ofNat (0x80 + n) ≤ high := by
    rw [UInt8.le_iff_toNat_le, UInt8.le_iff_toNat_le, hbyte]
    exact ⟨hlow, hhigh⟩
  simp only [step, if_pos hbounds, Pending.feed, hbyte, Nat.add_sub_cancel_left]

/-- A byte that is not the last of its character. -/
theorem decodeFrom_more {need bits n : Nat} {low high : UInt8} (bs : List UInt8) (hn : n < 64)
    (hlow : low.toNat ≤ 0x80 + n) (hhigh : 0x80 + n ≤ high.toNat) :
    decodeFrom (some ⟨need + 2, low, high, bits⟩) (UInt8.ofNat (0x80 + n) :: bs) =
      decodeFrom (some ⟨need + 1, 0x80, 0xBF, bits * 64 + n⟩) bs := by
  rw [decodeFrom, step_tail hn hlow hhigh, if_neg (by omega)]
  rfl

/-- The last byte of a character. -/
theorem decodeFrom_last {bits n : Nat} (bs : List UInt8) (hn : n < 64) :
    decodeFrom (some ⟨1, 0x80, 0xBF, bits⟩) (UInt8.ofNat (0x80 + n) :: bs) =
      Char.ofNat (bits * 64 + n) :: decodeFrom none bs := by
  rw [decodeFrom, step_tail hn (Nat.le_add_right _ _) (by change _ ≤ 0xBF; omega), if_pos (Nat.le_refl 1)]
  rfl

/-- A character is read back from its bytes, whatever follows them. -/
theorem decodeFrom_encodeChar (c : Char) (bs : List UInt8) :
    decodeFrom none (encodeChar c ++ bs) = c :: decodeFrom none bs := by
  have hvalid := toNat_valid c
  have hchar : Char.ofNat c.toNat = c := Char.ofNat_toNat c
  unfold encodeChar
  generalize c.toNat = v at hvalid hchar
  dsimp only
  split
  · next hone =>
    rw [List.singleton_append, decodeFrom_lead, lead_one hone, hchar]
    rfl
  split
  · next htwo =>
    have hbits : v / 64 * 64 + v % 64 = v := by omega
    simp only [List.cons_append, List.nil_append, decodeFrom_lead, lead_two (v / 64) (by omega) (by omega)]
    rw [decodeFrom_last bs (by omega), hbits, hchar]
  split
  · next hthree =>
    have hbits : (v / 4096 * 64 + v / 64 % 64) * 64 + v % 64 = v := by omega
    simp only [List.cons_append, List.nil_append, decodeFrom_lead, lead_three (v / 4096) (by omega)]
    rw [decodeFrom_more _ (by omega), decodeFrom_last bs (by omega), hbits, hchar]
    · split
      · change 0xA0 ≤ _
        omega
      · exact Nat.le_add_right _ _
    · split
      · change _ ≤ 0x9F
        omega
      · change _ ≤ 0xBF
        omega
  · next hfour =>
    have hbits : ((v / 262144 * 64 + v / 4096 % 64) * 64 + v / 64 % 64) * 64 + v % 64 = v := by omega
    simp only [List.cons_append, List.nil_append, decodeFrom_lead, lead_four (v / 262144) (by omega)]
    rw [decodeFrom_more _ (by omega), decodeFrom_more _ (by omega), decodeFrom_last bs (by omega), hbits,
      hchar]
    · exact Nat.le_add_right _ _
    · change _ ≤ 0xBF
      omega
    · split
      · change 0x90 ≤ _
        omega
      · exact Nat.le_add_right _ _
    · split
      · change _ ≤ 0x8F
        omega
      · change _ ≤ 0xBF
        omega

/-- A text is read back from its bytes. -/
theorem decode_encode (cs : List Char) : decode (encode cs) = cs := by
  induction cs with
  | nil => rfl
  | cons c cs ih =>
    change decodeFrom none (encodeChar c ++ encode cs) = _
    rw [decodeFrom_encodeChar]
    exact congrArg (c :: ·) ih

/-- A character has as many bytes as its width. -/
theorem length_encodeChar (c : Char) : (encodeChar c).length = width c := by
  simp only [encodeChar, width]
  split
  · rfl
  split
  · rfl
  split <;> rfl

/-- A text has as many bytes as its size. -/
theorem length_encode (cs : List Char) : (encode cs).length = size cs := by
  induction cs with
  | nil => rfl
  | cons c cs ih =>
    change (encodeChar c ++ encode cs).length = width c + size cs
    rw [List.length_append, length_encodeChar, ih]

/-- The size of two texts put together. -/
theorem size_append (first second : List Char) : size (first ++ second) = size first + size second := by
  rw [← length_encode, ← length_encode, ← length_encode, encode, List.flatMap_append, List.length_append]
  rfl

/-- A zero byte is the NUL. -/
theorem eq_nul_of_zero_mem_encodeChar {c : Char} (h : 0 ∈ encodeChar c) : c = '\x00' := by
  have hvalid := toNat_valid c
  have hzero {n : Nat} (hn : n < 256) (h : 0 = UInt8.ofNat n) : n = 0 := by
    rw [← toNat_byte hn, ← h]
    rfl
  rw [← Char.ofNat_toNat c]
  unfold encodeChar at h
  generalize c.toNat = v at h hvalid
  dsimp only at h
  split at h
  · rw [hzero (by omega) (List.mem_singleton.mp h)]
  -- the bytes of the longer forms are all above 127
  exfalso
  split at h
  · simp only [List.mem_cons, List.not_mem_nil, or_false] at h
    rcases h with h | h <;> have := hzero (by omega) h <;> omega
  split at h
  · simp only [List.mem_cons, List.not_mem_nil, or_false] at h
    rcases h with h | h | h <;> have := hzero (by omega) h <;> omega
  · simp only [List.mem_cons, List.not_mem_nil, or_false] at h
    rcases h with h | h | h | h <;> have := hzero (by omega) h <;> omega

/-- A text without NUL has no zero byte. -/
theorem zero_not_mem_encode {cs : List Char} (h : '\x00' ∉ cs) : 0 ∉ encode cs := by
  intro hzero
  obtain ⟨c, hc, hmem⟩ := List.mem_flatMap.mp hzero
  exact h (eq_nul_of_zero_mem_encodeChar hmem ▸ hc)

/-- The bytes of a character are those that it has in a string. -/
theorem encodeChar_eq (c : Char) : encodeChar c = String.utf8EncodeChar c := by
  have hvalid := toNat_valid c
  unfold encodeChar String.utf8EncodeChar
  rw [← Char.toNat_val]
  rw [← Char.toNat_val] at hvalid
  generalize c.val.toNat = v at hvalid
  dsimp only
  split
  · rw [if_pos (by omega)]
  split
  · have h : v / 64 % 32 = v / 64 := by omega
    rw [if_neg (by omega), if_pos (by omega), h, Nat.add_comm 0xC0, Nat.add_comm 0x80]
  split
  · have h : v / 4096 % 16 = v / 4096 := by omega
    rw [if_neg (by omega), if_neg (by omega), if_pos (by omega), h, Nat.add_comm 0xE0, Nat.add_comm 0x80,
      Nat.add_comm 0x80]
  · have h : v / 262144 % 8 = v / 262144 := by omega
    rw [if_neg (by omega), if_neg (by omega), if_neg (by omega), h, Nat.add_comm 0xF0, Nat.add_comm 0x80,
      Nat.add_comm 0x80, Nat.add_comm 0x80]

/-- Bytes that are the UTF-8 form of a text. -/
def WellFormed (bytes : List UInt8) : Prop := bytes.toByteArray.IsValidUTF8

/-- Well-formed bytes are those of a text. -/
theorem wellFormed_iff {bytes : List UInt8} : WellFormed bytes ↔ ∃ cs, encode cs = bytes := by
  have hencode (cs : List Char) : cs.utf8Encode = (encode cs).toByteArray := by
    rw [List.utf8Encode, encode, funext encodeChar_eq]
  constructor
  · rintro ⟨cs, h⟩
    rw [hencode] at h
    have hdata := congrArg ByteArray.data h
    rw [List.data_toByteArray, List.data_toByteArray] at hdata
    exact ⟨cs, (List.toArray_inj hdata).symm⟩
  · rintro ⟨cs, rfl⟩
    exact ⟨cs, (hencode cs).symm⟩

end BoothFloor.Utf8
