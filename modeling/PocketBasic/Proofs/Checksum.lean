/-
**What the checksum notices.** The register is a vector of sixteen bits, and a shift is a linear map
of it that can be undone: the top bit of the polynomial tells what fell out. So two registers that
differ go on differing whatever bytes follow, and two neighbouring bytes fill one register between
them, which leaves no second pair with the same effect.

* `Checksum.shift_xor`, `Checksum.shifts_injective`: shifts are linear and injective;
* `Checksum.shifts_multiple`: as many shifts undo a multiplication by a power of two;
* `Checksum.eq_of_updates`: two bytes are told from what they make of a register;
* **`Checksum.ofBytes_ne`**: a change of one byte, or of two neighbouring ones, changes the
  checksum.
-/

import Mathlib.Algebra.Group.Nat.Defs
import Mathlib.Tactic.Common
import PocketBasic.Checksum

namespace PocketBasic.Checksum

/-! ### Shifts -/

theorem toNat_ofNat_of_lt {value : Nat} (small : value < 2 ^ 16) :
    (UInt16.ofNat value).toNat = value :=
  Nat.mod_eq_of_lt small

theorem toNat_and_one (register : UInt16) : (register &&& 1).toNat = register.toNat % 2 := by
  rw [UInt16.toNat_and]
  exact Nat.and_one_is_mod _

theorem and_one_cases (register : UInt16) : register &&& 1 = 0 ∨ register &&& 1 = 1 := by
  have bit := toNat_and_one register
  rcases Nat.mod_two_eq_zero_or_one register.toNat with even | odd
  · exact .inl (UInt16.toNat_inj.mp (bit.trans even))
  · exact .inr (UInt16.toNat_inj.mp (bit.trans odd))

theorem xor_and_one (left right : UInt16) :
    (left ^^^ right) &&& 1 = (left &&& 1) ^^^ (right &&& 1) := by
  apply UInt16.toNat_inj.mp
  rw [UInt16.toNat_and, UInt16.toNat_xor, UInt16.toNat_xor, UInt16.toNat_and, UInt16.toNat_and]
  exact Nat.and_xor_distrib_right

/-- **A shift is linear.** -/
theorem shift_xor (left right : UInt16) : shift (left ^^^ right) = shift left ^^^ shift right := by
  rw [shift, shift, shift, xor_and_one, UInt16.shiftRight_xor]
  -- Two ones that fall out at once fall out of the sum as a zero: the polynomial cancels itself.
  have cancels (upper lower : UInt16) :
      upper ^^^ lower = upper ^^^ 0x8408 ^^^ (lower ^^^ 0x8408) := by
    rw [UInt16.xor_comm lower, UInt16.xor_assoc, ← UInt16.xor_assoc 0x8408, UInt16.xor_self,
      UInt16.zero_xor]
  rcases and_one_cases left with leftBit | leftBit <;>
    rcases and_one_cases right with rightBit | rightBit <;>
    rw [leftBit, rightBit] <;> simp
  · ac_rfl
  · ac_rfl
  · exact cancels _ _

/-- A shift of an even register halves it. -/
theorem shift_double {half : Nat} (small : 2 * half < 2 ^ 16) :
    shift (UInt16.ofNat (2 * half)) = UInt16.ofNat half := by
  have value : (UInt16.ofNat (2 * half)).toNat = 2 * half := toNat_ofNat_of_lt small
  have even : UInt16.ofNat (2 * half) &&& 1 ≠ 1 := by
    intro odd
    have bit := toNat_and_one (UInt16.ofNat (2 * half))
    rw [odd, value, Nat.mul_mod_right] at bit
    cases bit
  rw [shift, if_neg even]
  apply UInt16.toNat_inj.mp
  rw [UInt16.toNat_shiftRight, value, toNat_ofNat_of_lt (by omega)]
  simp [Nat.shiftRight_eq_div_pow]

/-- Only from zero a shift leads to zero: the polynomial has its top bit set, and nothing else can
reach that bit. -/
theorem eq_zero_of_shift {register : UInt16} (gone : shift register = 0) : register = 0 := by
  rw [shift] at gone
  split at gone
  · rw [UInt16.xor_eq_zero_iff] at gone
    have value := congrArg UInt16.toNat gone
    rw [UInt16.toNat_shiftRight] at value
    simp [Nat.shiftRight_eq_div_pow] at value
    have := register.toNat_lt
    omega
  · rename_i even
    have bit := toNat_and_one register
    rw [(and_one_cases register).resolve_right even] at bit
    have value := congrArg UInt16.toNat gone
    rw [UInt16.toNat_shiftRight] at value
    apply UInt16.toNat_inj.mp
    simp [Nat.shiftRight_eq_div_pow] at value bit ⊢
    omega

theorem shifts_xor (count : Nat) :
    ∀ left right, shifts count (left ^^^ right) = shifts count left ^^^ shifts count right := by
  induction count with
  | zero => exact fun _ _ => rfl
  | succ count ih =>
    intro left right
    rw [shifts, shift_xor, ih, shifts, shifts]

theorem eq_zero_of_shifts (count : Nat) :
    ∀ {register}, shifts count register = 0 → register = 0 := by
  induction count with
  | zero => exact fun gone => gone
  | succ count ih => exact fun gone => eq_zero_of_shift (ih gone)

/-- **Shifts can be undone.** -/
theorem shifts_injective (count : Nat) : Function.Injective (shifts count) := by
  intro left right same
  rw [← UInt16.xor_eq_zero_iff, ← shifts_xor] at same
  exact UInt16.xor_eq_zero_iff.mp (eq_zero_of_shifts count same)

/-- As many shifts undo a multiplication by a power of two. -/
theorem shifts_multiple (count : Nat) {value : Nat} (small : 2 ^ count * value < 2 ^ 16) :
    shifts count (UInt16.ofNat (2 ^ count * value)) = UInt16.ofNat value := by
  induction count with
  | zero => rw [shifts, Nat.pow_zero, Nat.one_mul]
  | succ count ih =>
    rw [Nat.pow_succ', Nat.mul_assoc] at small ⊢
    rw [shifts, shift_double small]
    exact ih (by omega)

/-! ### Bytes -/

theorem update_injective (byte : UInt8) : Function.Injective (update · byte) := by
  intro left right same
  exact UInt16.xor_left_inj _ |>.mp (shifts_injective 8 same)

theorem foldl_update_injective (bytes : Bytes) : Function.Injective (bytes.foldl update) := by
  induction bytes with
  | nil => exact Function.injective_id
  | cons byte rest ih => exact ih.comp (update_injective byte)

/-- No byte has the effect of another byte that is one place further on. -/
theorem eq_zero_of_shifts_byte {first second : UInt8}
    (same : shifts 8 first.toUInt16 = second.toUInt16) : first = 0 ∧ second = 0 := by
  have firstLt := first.toNat_lt
  have secondLt := second.toNat_lt
  have undone := @shifts_multiple 8 second.toNat (by omega)
  have value : UInt16.ofNat second.toNat = second.toUInt16 := by
    apply UInt16.toNat_inj.mp
    rw [toNat_ofNat_of_lt (by omega), UInt8.toNat_toUInt16]
  rw [value, ← same] at undone
  have places := congrArg UInt16.toNat (shifts_injective 8 undone)
  rw [toNat_ofNat_of_lt (by omega), UInt8.toNat_toUInt16] at places
  exact ⟨UInt8.toNat_inj.mp (show first.toNat = 0 by omega),
    UInt8.toNat_inj.mp (show second.toNat = 0 by omega)⟩

/-- **Two bytes are told from what they make of a register.** -/
theorem eq_of_updates {register : UInt16} {first first' second second' : UInt8}
    (same : update (update register first) second = update (update register first') second') :
    first = first' ∧ second = second' := by
  have inner : shifts 8 (register ^^^ first.toUInt16) ^^^ second.toUInt16 =
      shifts 8 (register ^^^ first'.toUInt16) ^^^ second'.toUInt16 := shifts_injective 8 same
  rw [shifts_xor, shifts_xor, UInt16.xor_assoc, UInt16.xor_assoc, UInt16.xor_right_inj,
    ← UInt16.xor_eq_zero_iff] at inner
  have apart : shifts 8 (first ^^^ first').toUInt16 = (second ^^^ second').toUInt16 := by
    rw [UInt8.toUInt16_xor, UInt8.toUInt16_xor, shifts_xor, ← UInt16.xor_eq_zero_iff, ← inner]
    ac_rfl
  exact (eq_zero_of_shifts_byte apart).imp UInt8.xor_eq_zero_iff.mp UInt8.xor_eq_zero_iff.mp

/-- Up to two bytes are told from what they make of a register. -/
theorem eq_of_foldl_update {register : UInt16} {data data' : Bytes}
    (same : data.length = data'.length) (short : data.length ≤ 2)
    (met : data.foldl update register = data'.foldl update register) : data = data' := by
  match data, data', same, short with
  | [], [], _, _ => rfl
  | [first], [first'], _, _ =>
    -- A single byte is one that a second byte follows, the same on both sides.
    have both : update (update register first) 0 = update (update register first') 0 :=
      congrArg (update · 0) met
    rw [(eq_of_updates both).1]
  | [_, _], [_, _], _, _ =>
    obtain ⟨rfl, rfl⟩ := eq_of_updates met
    rfl
  | _ :: _ :: _ :: _, _, _, short => simp at short

/-- **A change of one byte, or of two neighbouring ones, changes the checksum**, whatever stands in
front of them and behind. -/
theorem ofBytes_ne {front data data' back : Bytes} (same : data.length = data'.length)
    (short : data.length ≤ 2) (changed : data ≠ data') :
    ofBytes (front ++ data ++ back) ≠ ofBytes (front ++ data' ++ back) := by
  intro met
  rw [ofBytes, ofBytes, UInt16.xor_left_inj] at met
  simp only [List.foldl_append] at met
  exact changed (eq_of_foldl_update same short (foldl_update_injective back met))

end PocketBasic.Checksum
