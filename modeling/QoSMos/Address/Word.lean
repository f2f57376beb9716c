import QoSMos.Address.Prefix
import QoSMos.Packet.Write

/-!
# The words of an address

`struct in6_addr` holds an address in four words of network order, and `struct in_addr` is one such
word. The bits of a word, as a number, are those of its bytes.
-/

namespace QoSMos

open BitString

/-- `ntohl` of a word of an address. -/
def IpAddress.word (ip : IpAddress) (i : Nat) : UInt32 :=
  UInt32.ofNat (be32At (.ofList ip.bytes) (4 * i))

/-- `s6_addr32[i] |= htonl(rnd)` -/
def orWord (bytes : List UInt8) (i : Nat) (rnd : UInt32) : List UInt8 :=
  bytes.take (4 * i) ++ (bytes.drop (4 * i)).zipWith (· ||| ·) (be32 rnd.toNat) ++
    bytes.drop (4 * i + 4)

section Word

variable {bytes : List UInt8} {i j k p w : Nat} {rnd : UInt32}

theorem testBit_be32At (bytes : List UInt8) (p : Nat) (hi : i < 32) :
    (be32At (.ofList bytes) p).testBit (31 - i) = bitAt bytes (8 * p + i) := by
  have h0 := u8At_lt (.ofList bytes) p
  have h1 := u8At_lt (.ofList bytes) (p + 1)
  have h2 := u8At_lt (.ofList bytes) (p + 2)
  have h3 := u8At_lt (.ofList bytes) (p + 3)
  have hword : be32At (.ofList bytes) p = 2 ^ 24 * u8At (.ofList bytes) p +
      (2 ^ 16 * u8At (.ofList bytes) (p + 1) + (2 ^ 8 * u8At (.ofList bytes) (p + 2) +
        u8At (.ofList bytes) (p + 3))) := by
    rw [be32At, be16At, be16At, Nat.add_assoc p 2 1]
    omega
  have hbyte (j : Nat) : u8At (.ofList bytes) (p + j) = (bytes.getD (p + j) 0).toNat := rfl
  have hbit : bitAt bytes (8 * p + i) = (bytes.getD (p + i / 8) 0).toNat.testBit (7 - i % 8) := by
    have hsplit : 8 * p + i = 8 * (p + i / 8) + i % 8 := by omega
    rw [hsplit, bitAt_mul_add (Nat.mod_lt i (by decide))]
  rw [hbit, ← hbyte, hword, Nat.testBit_two_pow_mul_add _ (by omega),
    Nat.testBit_two_pow_mul_add _ (by omega), Nat.testBit_two_pow_mul_add _ (by omega)]
  split_ifs with hlow hmiddle hhigh
  · have hdiv : i / 8 = 3 := by omega
    have hmod : 31 - i = 7 - i % 8 := by omega
    rw [hdiv, hmod]
  · have hdiv : i / 8 = 2 := by omega
    have hmod : 31 - i - 8 = 7 - i % 8 := by omega
    rw [hdiv, hmod]
  · have hdiv : i / 8 = 1 := by omega
    have hmod : 31 - i - 16 = 7 - i % 8 := by omega
    rw [hdiv, hmod]
  · have hdiv : i / 8 = 0 := by omega
    have hmod : 31 - i - 24 = 7 - i % 8 := by omega
    rw [hdiv, hmod, Nat.add_zero]

theorem getD_be32 {x : Nat} (hj : j < 4) :
    ((be32 x).getD j 0).toNat = x / 2 ^ (8 * (3 - j)) % 2 ^ 8 := by
  obtain rfl | rfl | rfl | rfl : j = 0 ∨ j = 1 ∨ j = 2 ∨ j = 3 := by omega
  all_goals simp [be32, be16, Nat.div_div_eq_div_mul]

/-- A byte of a number in network order. -/
theorem testBit_be32 {x : Nat} (hj : j < 4) (hk : k < 8) :
    ((be32 x).getD j 0).toNat.testBit (7 - k) = x.testBit (31 - (8 * j + k)) := by
  have hbyte : 7 - k < 8 := by omega
  have hindex : 7 - k + 8 * (3 - j) = 31 - (8 * j + k) := by omega
  rw [getD_be32 hj, Nat.testBit_mod_two_pow, Nat.testBit_div_two_pow, decide_eq_true hbyte, hindex,
    Bool.true_and]

theorem getD_orWord (hw : 4 * w + 4 ≤ bytes.length) : (orWord bytes w rnd).getD j 0 =
    if 4 * w ≤ j ∧ j < 4 * w + 4 then bytes.getD j 0 ||| (be32 rnd.toNat).getD (j - 4 * w) 0
    else bytes.getD j 0 := by
  have hlength : (be32 rnd.toNat).length = 4 := rfl
  rw [orWord]
  split_ifs with hj
  · grind
  · grind

theorem bitAt_orWord (hw : 4 * w + 4 ≤ bytes.length) : bitAt (orWord bytes w rnd) i =
    (bitAt bytes i ||
      decide (32 * w ≤ i ∧ i < 32 * w + 32) && rnd.toNat.testBit (31 - (i - 32 * w))) := by
  have hword : (4 * w ≤ i / 8 ∧ i / 8 < 4 * w + 4) ↔ 32 * w ≤ i ∧ i < 32 * w + 32 := by omega
  rw [bitAt, bitAt, getD_orWord hw]
  by_cases hi : 32 * w ≤ i ∧ i < 32 * w + 32
  · have hindex : 8 * (i / 8 - 4 * w) + i % 8 = i - 32 * w := by omega
    rw [if_pos (hword.mpr hi), UInt8.toNat_or, Nat.testBit_or,
      testBit_be32 (by omega) (Nat.mod_lt i (by decide)), hindex, decide_eq_true hi, Bool.true_and]
  · rw [if_neg (mt hword.mp hi), decide_eq_false hi, Bool.false_and, Bool.or_false]

/-- The number in the word. -/
theorem be32At_orWord (hw : 4 * w + 4 ≤ bytes.length) :
    be32At (.ofList (orWord bytes w rnd)) (4 * w) =
      be32At (.ofList bytes) (4 * w) ||| rnd.toNat := by
  apply Nat.eq_of_testBit_eq
  intro j
  rw [Nat.testBit_or]
  by_cases hj : j < 32
  · have hindex : 31 - (31 - j) = j := by omega
    have hinside : 32 * w ≤ 8 * (4 * w) + (31 - j) ∧
        8 * (4 * w) + (31 - j) < 32 * w + 32 := by omega
    have hoffset : 31 - (8 * (4 * w) + (31 - j) - 32 * w) = j := by omega
    have hlt : 31 - j < 32 := by omega
    have hleft := testBit_be32At (orWord bytes w rnd) (4 * w) hlt
    have hright := testBit_be32At bytes (4 * w) hlt
    rw [hindex] at hleft hright
    rw [hleft, hright, bitAt_orWord hw, decide_eq_true hinside, hoffset, Bool.true_and]
  · have hpow : 2 ^ 32 ≤ 2 ^ j := Nat.pow_le_pow_right (by decide) (by omega)
    rw [Nat.testBit_lt_two_pow ((be32At_lt _ _).trans_le hpow),
      Nat.testBit_lt_two_pow ((be32At_lt _ _).trans_le hpow),
      Nat.testBit_lt_two_pow (rnd.toNat_lt.trans_le hpow)]
    rfl

end Word

end QoSMos
