import Mathlib.Data.Nat.Bitwise
import Mathlib.Tactic.Common

/-!
# Byte strings as bit strings

The bits of a byte string are counted from the highest bit of its first byte on. A byte string is
cut off behind some bits by clearing all others; what this comes to is said of the bits alone.
-/

namespace BitString

/-- Bit `i` of a byte string, where all bits behind its end are clear. -/
def bitAt (bytes : List UInt8) (i : Nat) : Bool := (bytes.getD (i / 8) 0).toNat.testBit (7 - i % 8)

/-- The first `n` bits are the same. -/
def Shares (n : Nat) (bytes more : List UInt8) : Prop := ∀ i < n, bitAt bytes i = bitAt more i

/-- The first `n` bits are kept and all others are clear. -/
structure Keeps (n : Nat) (bytes result : List UInt8) : Prop where
  length : result.length = bytes.length
  bit : ∀ i, bitAt result i = (bitAt bytes i && decide (i < n))

variable {n : Nat} {x y : UInt8} {bytes bytes' result result' : List UInt8}

theorem byte_ext (h : ∀ k < 8, x.toNat.testBit (7 - k) = y.toNat.testBit (7 - k)) : x = y := by
  apply UInt8.toNat_inj.mp
  apply Nat.eq_of_testBit_eq
  intro j
  by_cases hj : j < 8
  · have hbit := h (7 - j) (by omega)
    rwa [Nat.sub_sub_self (by omega)] at hbit
  · have hbound : 2 ^ 8 ≤ 2 ^ j := Nat.pow_le_pow_right (by decide) (by omega)
    rw [Nat.testBit_lt_two_pow (x.toNat_lt.trans_le hbound),
      Nat.testBit_lt_two_pow (y.toNat_lt.trans_le hbound)]

theorem bitAt_mul_add {j k : Nat} (hk : k < 8) :
    bitAt bytes (8 * j + k) = (bytes.getD j 0).toNat.testBit (7 - k) := by
  have hj : (8 * j + k) / 8 = j := by omega
  have hmod : (8 * j + k) % 8 = k := by omega
  rw [bitAt, hj, hmod]

/-- Byte strings of one length are told apart by their bits. -/
theorem ext (hlength : bytes.length = bytes'.length) (h : ∀ i, bitAt bytes i = bitAt bytes' i) :
    bytes = bytes' := by
  apply List.ext_getElem hlength
  intro j hj hj'
  have hbyte : bytes.getD j 0 = bytes'.getD j 0 := by
    apply byte_ext
    intro k hk
    rw [← bitAt_mul_add hk, ← bitAt_mul_add hk]
    exact h _
  simpa [hj, hj'] using hbyte

/-- What is kept may be looked at byte by byte. -/
theorem Keeps.of_bytes (hlength : result.length = bytes.length)
    (h : ∀ j, ∀ k < 8, (result.getD j 0).toNat.testBit (7 - k) =
      ((bytes.getD j 0).toNat.testBit (7 - k) && decide (8 * j + k < n))) :
    Keeps n bytes result := by
  refine ⟨hlength, fun i => ?_⟩
  have hi : 8 * (i / 8) + i % 8 = i := Nat.div_add_mod i 8
  have hmod : i % 8 < 8 := Nat.mod_lt i (by decide)
  rw [← hi, bitAt_mul_add hmod, bitAt_mul_add hmod]
  exact h _ _ hmod

/-- To cut off again changes nothing. -/
theorem Keeps.again (h : Keeps n bytes result) : Keeps n result result := by
  refine ⟨rfl, fun i => ?_⟩
  rw [h.bit, Bool.and_assoc, Bool.and_self]

theorem Keeps.unique (h : Keeps n bytes result) (h' : Keeps n bytes result') :
    result = result' := by
  apply ext (h.length.trans h'.length.symm)
  intro i
  rw [h.bit, h'.bit]

/-- What is left of two byte strings is the same if and only if they share the bits kept. -/
theorem Keeps.eq_iff (h : Keeps n bytes result) (h' : Keeps n bytes' result')
    (hlength : bytes.length = bytes'.length) : result = result' ↔ Shares n bytes bytes' := by
  constructor
  · rintro rfl i hi
    have hbit := (h.bit i).symm.trans (h'.bit i)
    simpa [hi] using hbit
  · intro hshares
    apply ext ((h.length.trans hlength).trans h'.length.symm)
    intro i
    rw [h.bit, h'.bit]
    by_cases hi : i < n
    · rw [hshares i hi]
    · simp [hi]

end BitString
