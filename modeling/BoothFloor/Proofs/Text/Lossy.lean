import BoothFloor.Proofs.Text.Utf8
import Mathlib.Algebra.GroupWithZero.Nat

/-!
# What a lossy reading makes of any bytes

Bytes that encode nothing are read as U+FFFD, which has three bytes of its own. So a text can take more room
than the bytes from which it was read, but never more than three times as much. A NUL comes from a zero byte
only: whatever bytes may still follow, a character that has been begun ends as one above U+007F.
-/

namespace BoothFloor.Utf8

variable {p : Pending} {open? : Option Pending} {b : UInt8} {bytes : List UInt8}

/-- A character takes four bytes at most. -/
theorem width_le (c : Char) : width c ≤ 4 := by
  unfold width
  split
  · decide
  split
  · decide
  split <;> decide

/-- How much a character that has been begun adds to the size beyond what its last byte pays for. -/
def owed (open? : Option Pending) : Nat := if open?.isSome then 3 else 0

/-- What holds for the bytes of all numbers below 256 holds for every byte. -/
theorem forall_byte {P : UInt8 → Prop} (h : ∀ n < 256, P (UInt8.ofNat n)) (b : UInt8) : P b := by
  have hb := h b.toNat b.toNat_lt
  rwa [UInt8.ofNat_toNat] at hb

/-- Three bytes pay for what is read where a character may begin. -/
theorem size_lead_le (b : UInt8) : size (lead b).1 + owed (lead b).2 ≤ 3 :=
  forall_byte (P := fun b => size (lead b).1 + owed (lead b).2 ≤ 3) (by decide +kernel) b

/-- Three bytes and what a begun character owes pay for what a byte gives. -/
theorem size_step_le (open? : Option Pending) (b : UInt8) :
    size (step open? b).1 + owed (step open? b).2 ≤ 3 + owed open? := by
  have hlead := size_lead_le b
  cases open? with
  | none => exact Nat.le_add_right_of_le hlead
  | some p =>
    change _ ≤ 3 + 3
    rw [step]
    split
    · rw [Pending.feed]
      split
      · have hwidth := width_le (Char.ofNat (p.bits * 64 + (b.toNat - 0x80)))
        change width _ + 0 + 0 ≤ _
        omega
      · change 0 + 3 ≤ _
        omega
    · have hreplacement : width replacement = 3 := by decide
      change width replacement + size (lead b).1 + owed (lead b).2 ≤ _
      omega

/-- What is read from the remaining bytes takes three times as much room at most, but for what a begun character
owes. -/
theorem size_decodeFrom_le (open? : Option Pending) (bytes : List UInt8) :
    size (decodeFrom open? bytes) ≤ 3 * bytes.length + owed open? := by
  induction bytes generalizing open? with
  | nil =>
    cases open? with
    | none => exact Nat.le_refl 0
    | some p => exact Nat.le_refl 3
  | cons b bs ih =>
    have hstep := size_step_le open? b
    have hrest := ih (step open? b).2
    rw [decodeFrom, size_append, List.length_cons]
    omega

/-- A text takes at most three times as much room as the bytes from which it is read. -/
theorem size_decode_le (bytes : List UInt8) : size (decode bytes) ≤ 3 * bytes.length :=
  size_decodeFrom_le none bytes

namespace Pending

/-- The least number that can still come of a character. -/
def least (p : Pending) : Nat := p.bits * 64 ^ p.need + (p.low.toNat - 0x80) * 64 ^ (p.need - 1)

/-- The number behind the greatest one that can still come of a character. -/
def bound (p : Pending) : Nat := p.bits * 64 ^ p.need + (p.high.toNat - 0x80 + 1) * 64 ^ (p.need - 1)

/-- Whatever comes of a character is the number of one above U+007F. -/
structure Promising (p : Pending) : Prop where
  need_pos : 0 < p.need
  least : 0x80 ≤ p.least
  valid : p.bound ≤ 0xD800 ∨ 0xE000 ≤ p.least ∧ p.bound ≤ 0x110000

instance (p : Pending) : Decidable p.Promising :=
  decidable_of_iff (0 < p.need ∧ 0x80 ≤ p.least ∧ (p.bound ≤ 0xD800 ∨ 0xE000 ≤ p.least ∧ p.bound ≤ 0x110000))
    ⟨fun ⟨need, least, valid⟩ => ⟨need, least, valid⟩, fun ⟨need, least, valid⟩ => ⟨need, least, valid⟩⟩

end Pending

/-- The number of a character above U+007F is not that of the NUL. -/
theorem ofNat_ne_nul {n : Nat} (hlow : 0x80 ≤ n) (hvalid : n < 0xD800 ∨ 0xE000 ≤ n ∧ n < 0x110000) :
    Char.ofNat n ≠ '\x00' := by
  intro h
  have hn : n.isValidChar := by
    unfold Nat.isValidChar
    omega
  have hnumber : (Char.ofNat n).toNat = n := by
    rw [Char.ofNat, dif_pos hn]
    rfl
  rw [h] at hnumber
  change 0 = n at hnumber
  omega

/-- Where a character may begin, a byte but zero gives no NUL, and begins nothing but characters above U+007F. -/
theorem lead_keeps (hb : b ≠ 0) : '\x00' ∉ (lead b).1 ∧ ∀ p ∈ (lead b).2, p.Promising :=
  forall_byte (P := fun b => b ≠ 0 → '\x00' ∉ (lead b).1 ∧ ∀ p ∈ (lead b).2, p.Promising)
    (by decide +kernel) b hb

/-- Each further byte narrows what can still come of a character. -/
theorem Pending.narrows {k bits d : Nat} {low high : UInt8} (hlow : low.toNat - 0x80 ≤ d)
    (hhigh : d ≤ high.toNat - 0x80) :
    least ⟨k + 2, low, high, bits⟩ ≤ least ⟨k + 1, 0x80, 0xBF, bits * 64 + d⟩ ∧
      bound ⟨k + 1, 0x80, 0xBF, bits * 64 + d⟩ ≤ bound ⟨k + 2, low, high, bits⟩ := by
  have hscale : (bits * 64 + d) * 64 ^ (k + 1) = bits * 64 ^ (k + 2) + d * 64 ^ (k + 1) := by
    rw [Nat.add_mul, Nat.mul_assoc, ← Nat.pow_succ']
  have hfirst : (0x80 : UInt8).toNat - 0x80 = 0 := by decide
  have hlast : (0xBF : UInt8).toNat - 0x80 + 1 = 64 := by decide
  simp only [least, bound, Nat.add_sub_cancel, hfirst, hlast, Nat.zero_mul, Nat.add_zero]
  constructor
  · rw [hscale]
    exact Nat.add_le_add_left (Nat.mul_le_mul_right _ hlow) _
  · rw [hscale, ← Nat.pow_succ', Nat.add_assoc, ← Nat.succ_mul]
    exact Nat.add_le_add_left (Nat.mul_le_mul_right _ (Nat.succ_le_succ hhigh)) _

/-- A byte within the bounds ends a promising character as one above U+007F, or leaves it promising. -/
theorem Pending.Promising.feed (h : p.Promising) (hlow : p.low ≤ b) (hhigh : b ≤ p.high) :
    '\x00' ∉ (p.feed b).1 ∧ ∀ q ∈ (p.feed b).2, q.Promising := by
  obtain ⟨need, low, high, bits⟩ := p
  obtain ⟨hneed, hleast, hvalid⟩ := h
  rw [UInt8.le_iff_toNat_le] at hlow hhigh
  have hge : low.toNat - 0x80 ≤ b.toNat - 0x80 := Nat.sub_le_sub_right hlow 0x80
  have hle : b.toNat - 0x80 ≤ high.toNat - 0x80 := Nat.sub_le_sub_right hhigh 0x80
  rw [Pending.feed]
  generalize b.toNat - 0x80 = d at hge hle
  dsimp only at *
  split
  · next hlast =>
    obtain rfl : need = 1 := by omega
    simp only [Pending.least, Pending.bound, Nat.sub_self, Nat.pow_zero, Nat.pow_one, Nat.mul_one] at hleast hvalid
    refine ⟨fun hmem => ofNat_ne_nul ?_ ?_ (List.mem_singleton.mp hmem).symm, fun q hq => by cases hq⟩ <;> omega
  · next hmore =>
    obtain ⟨k, rfl⟩ : ∃ k, need = k + 2 := ⟨need - 2, by omega⟩
    refine ⟨List.not_mem_nil, fun q hq => ?_⟩
    obtain rfl := Option.some.inj hq
    obtain ⟨hleast', hbound'⟩ := @Pending.narrows k bits d low high hge hle
    refine ⟨Nat.succ_pos k, Nat.le_trans hleast hleast', ?_⟩
    rcases hvalid with hbelow | ⟨habove, hbound⟩
    · exact .inl (Nat.le_trans hbound' hbelow)
    · exact .inr ⟨Nat.le_trans habove hleast', Nat.le_trans hbound' hbound⟩

/-- A byte but zero gives no NUL, and what it leaves open is promising if what was open before is so. -/
theorem step_keeps (hopen : ∀ p ∈ open?, p.Promising) (hb : b ≠ 0) :
    '\x00' ∉ (step open? b).1 ∧ ∀ p ∈ (step open? b).2, p.Promising := by
  obtain ⟨hnul, hleads⟩ := lead_keeps hb
  cases open? with
  | none => exact ⟨hnul, hleads⟩
  | some p =>
    rw [step]
    split
    · next hbounds => exact (hopen p rfl).feed hbounds.1 hbounds.2
    · have hreplacement : '\x00' ≠ replacement := by decide
      exact ⟨List.not_mem_cons_of_ne_of_not_mem hreplacement hnul, hleads⟩

/-- No NUL is read from the remaining bytes if none of them is zero. -/
theorem nul_not_mem_decodeFrom (hopen : ∀ p ∈ open?, p.Promising) (hbytes : 0 ∉ bytes) :
    '\x00' ∉ decodeFrom open? bytes := by
  induction bytes generalizing open? with
  | nil => cases open? <;> simp [decodeFrom, replacement]
  | cons b bs ih =>
    rw [List.mem_cons, not_or] at hbytes
    obtain ⟨hb, hbs⟩ := hbytes
    obtain ⟨hnul, hstep⟩ := step_keeps hopen (Ne.symm hb)
    rw [decodeFrom, List.mem_append, not_or]
    exact ⟨hnul, ih hstep hbs⟩

/-- No NUL is read from bytes without a zero. -/
theorem nul_not_mem_decode (hbytes : 0 ∉ bytes) : '\x00' ∉ decode bytes :=
  nul_not_mem_decodeFrom (fun _ h => nomatch h) hbytes

end BoothFloor.Utf8
