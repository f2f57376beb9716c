import Mathlib.Data.Nat.Bitwise

/-!
# Cyclic redundancy checks

The reflected CRC over words of any width: bit by bit as it is specified, and a byte at a time with
the help of a table. A step is linear in exclusive or, and eight steps from a word whose low byte
is clear only shift it, so the table needs the words of one byte.
-/

namespace ReflectedCrc

variable {w : Nat}

/-- Divide one bit out of the remainder. -/
def bitStep (poly c : BitVec w) : BitVec w :=
  if c.getLsbD 0 then (c >>> 1) ^^^ poly else c >>> 1

def bitSteps (poly : BitVec w) : Nat → BitVec w → BitVec w
  | 0, c => c
  | n + 1, c => bitSteps poly n (bitStep poly c)

/-- Take in a byte, its lowest bit first. -/
def byteStep (poly c : BitVec w) (d : UInt8) : BitVec w :=
  bitSteps poly 8 (c ^^^ d.toBitVec.setWidth w)

/-- The remainder of a byte string from a given start. -/
def remainder (poly start : BitVec w) (bytes : List UInt8) : BitVec w :=
  bytes.foldl (byteStep poly) start

/-- The check with all ones as initial value and final exclusive or. -/
def check (poly : BitVec w) (bytes : List UInt8) : BitVec w :=
  remainder poly (BitVec.allOnes w) bytes ^^^ BitVec.allOnes w

variable {poly c x y : BitVec w} {n : Nat}

theorem bitStep_xor : bitStep poly (x ^^^ y) = bitStep poly x ^^^ bitStep poly y := by
  have hcancel : (x >>> 1 ^^^ poly) ^^^ (y >>> 1 ^^^ poly) = x >>> 1 ^^^ y >>> 1 := by
    rw [BitVec.xor_comm (y >>> 1), BitVec.xor_assoc, ← BitVec.xor_assoc poly, BitVec.xor_self,
      BitVec.zero_xor]
  unfold bitStep
  rw [BitVec.getLsbD_xor, BitVec.ushiftRight_xor_distrib]
  cases x.getLsbD 0 <;> cases y.getLsbD 0
  · simp
  · simp [BitVec.xor_assoc]
  · simp [BitVec.xor_assoc, BitVec.xor_comm poly]
  · simp [hcancel]

theorem bitSteps_xor : bitSteps poly n (x ^^^ y) = bitSteps poly n x ^^^ bitSteps poly n y := by
  induction n generalizing x y with
  | zero => rfl
  | succ n ih => simp only [bitSteps, bitStep_xor, ih]

/-- Steps that meet no bit only shift. -/
theorem bitSteps_of_clear (hclear : ∀ i < n, x.getLsbD i = false) :
    bitSteps poly n x = x >>> n := by
  induction n generalizing x with
  | zero => simp [bitSteps]
  | succ n ih =>
    have hstep : bitStep poly x = x >>> 1 := by simp [bitStep, hclear 0 (Nat.succ_pos n)]
    have hrest : ∀ i < n, (x >>> 1).getLsbD i = false := by
      intro i hi
      simpa using hclear (1 + i) (by omega)
    rw [bitSteps, hstep, ih hrest, ← BitVec.shiftRight_add, Nat.add_comm]

theorem getLsbD_byte (i : Nat) : (255#w).getLsbD i = (decide (i < w) && decide (i < 8)) := by
  have hbyte : (255 : Nat) = 2 ^ 8 - 1 := rfl
  rw [BitVec.getLsbD_ofNat, hbyte, Nat.testBit_two_pow_sub_one]

/-- Eight steps: those of the low byte, and the rest moved down. -/
theorem bitSteps_eight : bitSteps poly 8 x = x >>> 8 ^^^ bitSteps poly 8 (x &&& 255#w) := by
  have hsplit : x = (x &&& ~~~255#w) ^^^ (x &&& 255#w) := by
    ext i hi
    simp only [BitVec.getElem_xor, BitVec.getElem_and, BitVec.getElem_not]
    cases x[i] <;> cases (255#w)[i] <;> rfl
  have hclear : ∀ i < 8, (x &&& ~~~255#w).getLsbD i = false := by
    intro i hi
    simp only [BitVec.getLsbD_and, BitVec.getLsbD_not, getLsbD_byte]
    cases decide (i < w) <;> simp [hi]
  have hhigh : (x &&& ~~~255#w) >>> 8 = x >>> 8 := by
    apply BitVec.eq_of_getLsbD_eq
    intro i hi
    simp only [BitVec.getLsbD_ushiftRight, BitVec.getLsbD_and, BitVec.getLsbD_not, getLsbD_byte]
    by_cases hin : 8 + i < w
    · simp [hin]
    · simp [BitVec.getLsbD_of_ge x (8 + i) (by omega)]
  calc bitSteps poly 8 x
      = bitSteps poly 8 ((x &&& ~~~255#w) ^^^ (x &&& 255#w)) := by rw [← hsplit]
    _ = x >>> 8 ^^^ bitSteps poly 8 (x &&& 255#w) := by
      rw [bitSteps_xor, bitSteps_of_clear hclear, hhigh]

theorem byte_shiftRight (d : UInt8) : d.toBitVec.setWidth w >>> 8 = 0#w := by
  apply BitVec.eq_of_getLsbD_eq
  intro i hi
  simp

/-- A byte at a time: the table is only asked for the low byte. -/
theorem byteStep_eq (d : UInt8) :
    byteStep poly c d = c >>> 8 ^^^ bitSteps poly 8 ((c ^^^ d.toBitVec.setWidth w) &&& 255#w) := by
  rw [byteStep, bitSteps_eight, BitVec.ushiftRight_xor_distrib, byte_shiftRight, BitVec.xor_zero]

end ReflectedCrc
