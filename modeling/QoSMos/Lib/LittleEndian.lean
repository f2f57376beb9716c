import Mathlib.Algebra.Order.Ring.Nat
import Mathlib.Tactic.Common

/-!
# Numbers as bytes, the lowest first

`encode w n` are the `w` low bytes of a number and `decode` is the number that some bytes stand
for. Each undoes the other, as far as a number has no more than `w` bytes.
-/

namespace LittleEndian

def encode : Nat → Nat → List UInt8
  | 0, _ => []
  | w + 1, n => UInt8.ofNat n :: encode w (n / 256)

def decode : List UInt8 → Nat
  | [] => 0
  | byte :: bytes => byte.toNat + 256 * decode bytes

variable {w m n : Nat} {bytes more : List UInt8}

@[simp] theorem length_encode : (encode w n).length = w := by
  induction w generalizing n with
  | zero => rfl
  | succ w ih => rw [encode, List.length_cons, ih]

theorem decode_encode : decode (encode w n) = n % 256 ^ w := by
  induction w generalizing n with
  | zero => rw [encode, decode, Nat.pow_zero, Nat.mod_one]
  | succ w ih =>
    have hbyte : (UInt8.ofNat n).toNat = n % 256 := UInt8.toNat_ofNat'
    have hsplit : n % 256 ^ (w + 1) = n % 256 + 256 * (n / 256 % 256 ^ w) := by
      rw [Nat.pow_succ', Nat.mod_mul]
    rw [encode, decode, ih, hbyte, hsplit]

theorem encode_decode (bytes : List UInt8) : encode bytes.length (decode bytes) = bytes := by
  induction bytes with
  | nil => rfl
  | cons byte bytes ih =>
    have hlt := byte.toNat_lt
    have hbyte : UInt8.ofNat (decode (byte :: bytes)) = byte := by
      apply UInt8.toNat_inj.mp
      rw [UInt8.toNat_ofNat', decode]
      omega
    have hrest : decode (byte :: bytes) / 256 = decode bytes := by
      rw [decode]
      omega
    rw [List.length_cons, encode, hbyte, hrest, ih]

theorem decode_lt (bytes : List UInt8) : decode bytes < 256 ^ bytes.length := by
  induction bytes with
  | nil => exact Nat.one_pos
  | cons byte bytes ih =>
    have := byte.toNat_lt
    rw [decode, List.length_cons, Nat.pow_succ']
    omega

/-- Byte strings of one length are told apart by their numbers. -/
theorem decode_injective (hlength : bytes.length = more.length) (h : decode bytes = decode more) :
    bytes = more := by
  rw [← encode_decode bytes, h, hlength, encode_decode]

/-- The front of an encoding is that of the number without its high bytes. -/
theorem take_encode (h : m ≤ w) : (encode w n).take m = encode m n := by
  induction m generalizing w n with
  | zero => rfl
  | succ m ih =>
    cases w with
    | zero => omega
    | succ w => rw [encode, List.take_succ_cons, ih (by omega), encode]

/-- High bytes are not seen. -/
theorem encode_mod : encode w (n % 256 ^ w) = encode w n := by
  induction w generalizing n with
  | zero => rfl
  | succ w ih =>
    have hbyte : UInt8.ofNat (n % 256 ^ (w + 1)) = UInt8.ofNat n := by
      apply UInt8.toNat_inj.mp
      rw [UInt8.toNat_ofNat', UInt8.toNat_ofNat', Nat.pow_succ']
      exact Nat.mod_mul_right_mod n 256 (256 ^ w)
    have hrest : n % 256 ^ (w + 1) / 256 = n / 256 % 256 ^ w := by
      rw [Nat.pow_succ', Nat.mod_mul_right_div_self]
    rw [encode, encode, hbyte, hrest, ih]

end LittleEndian
