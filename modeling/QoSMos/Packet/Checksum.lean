import QoSMos.Lib.OnesComplement
import QoSMos.Packet.Bytes

/-!
# The Internet checksum

`checksum.c` adds a buffer up in little-endian words of 32 bits, then folds the 64-bit
accumulator to 16 bits and complements it. `beWords` lists the same bytes as the
big-endian 16-bit words of the Internet checksum's definition, the last byte of an odd
buffer padded with zero. The two sums differ by the factor 256, which is a unit
modulo 65535, so a zero checksum means that the words' one's complement sum is 65535.
-/

namespace QoSMos

open OnesComplement

/-- A 32-bit load on a little-endian machine. -/
def le32At (b : Memory) (p : Nat) : Nat :=
  u8At b p + 2 ^ 8 * u8At b (p + 1) + 2 ^ 16 * u8At b (p + 2) + 2 ^ 24 * u8At b (p + 3)

/-- A 16-bit load on a little-endian machine. -/
def le16At (b : Memory) (p : Nat) : Nat := u8At b p + 2 ^ 8 * u8At b (p + 1)

/-- `ip_checksum_partial`: add `len` bytes from `p` on to the 64-bit accumulator. -/
def ipChecksumPartial (b : Memory) : Nat → Nat → Nat → Nat
  | p, len + 4, sum => ipChecksumPartial b (p + 4) len ((sum + le32At b p) % 2 ^ 64)
  | p, 3, sum => ((sum + le16At b p) % 2 ^ 64 + u8At b (p + 2)) % 2 ^ 64
  | p, 2, sum => (sum + le16At b p) % 2 ^ 64
  -- `ntohs(*p8 << 8)` is the byte itself
  | p, 1, sum => (sum + u8At b p) % 2 ^ 64
  | _, 0, sum => sum

/-- `ip_checksum_fold`: two folding loops, then the complement as a 16-bit value. -/
def ipChecksumFold (sum : Nat) : Nat :=
  let sum32 := foldLoop 32 sum sum
  let sum16 := foldLoop 16 sum32 sum32
  0xffff - sum16 % 2 ^ 16

/-- `ipv4_checksum` of the header of `ipHeaderBytes` bytes at `p`. -/
def ipv4Checksum (b : Memory) (p ipHeaderBytes : Nat) : Nat :=
  ipChecksumFold (ipChecksumPartial b p ipHeaderBytes 0)

/-- The big-endian 16-bit words of `len` bytes from `p` on, the last one zero-padded. -/
def beWords (b : Memory) : Nat → Nat → List Nat
  | p, len + 2 => be16At b p :: beWords b (p + 2) len
  | p, 1 => [256 * u8At b p]
  | _, 0 => []

/-- A checksummed header verifies: its one's complement sum is all ones. -/
def ChecksumVerifies (b : Memory) (p len : Nat) : Prop :=
  onesSum 0xffff (beWords b p len) = 0xffff

instance (b : Memory) (p len : Nat) : Decidable (ChecksumVerifies b p len) :=
  inferInstanceAs (Decidable (_ = _))

theorem beWords_le (b : Memory) (p len : Nat) : ∀ w ∈ beWords b p len, w ≤ 0xffff := by
  induction p, len using beWords.induct with
  | case1 p len ih =>
    have := be16At_lt b p
    simp only [beWords, List.forall_mem_cons]
    exact ⟨by omega, ih⟩
  | case2 p =>
    have := u8At_lt b p
    simp only [beWords, List.mem_singleton, forall_eq]
    omega
  | case3 => simp [beWords]

/-- The numbers that `ip_checksum_partial` adds up. -/
def hostWords (b : Memory) : Nat → Nat → List Nat
  | p, len + 4 => le32At b p :: hostWords b (p + 4) len
  | p, 3 => [le16At b p, u8At b (p + 2)]
  | p, 2 => [le16At b p]
  | p, 1 => [u8At b p]
  | _, 0 => []

theorem le32At_lt (b : Memory) (p : Nat) : le32At b p < 2 ^ 32 := by
  have := u8At_lt b p
  have := u8At_lt b (p + 1)
  have := u8At_lt b (p + 2)
  have := u8At_lt b (p + 3)
  unfold le32At
  omega

theorem le16At_lt (b : Memory) (p : Nat) : le16At b p < 2 ^ 16 := by
  have := u8At_lt b p
  have := u8At_lt b (p + 1)
  unfold le16At
  omega

theorem sum_hostWords_le (b : Memory) (p len : Nat) :
    (hostWords b p len).sum ≤ 2 ^ 30 * len := by
  induction p, len using hostWords.induct with
  | case1 p len ih =>
    have := le32At_lt b p
    simp only [hostWords, List.sum_cons]
    omega
  | case2 p =>
    have := le16At_lt b p
    have := u8At_lt b (p + 2)
    simp only [hostWords, List.sum_cons, List.sum_nil]
    omega
  | case3 p =>
    have := le16At_lt b p
    simp only [hostWords, List.sum_cons, List.sum_nil]
    omega
  | case4 p =>
    have := u8At_lt b p
    simp only [hostWords, List.sum_cons, List.sum_nil]
    omega
  | case5 p => simp [hostWords]

/-- The accumulator is the sum of what is added to it if that fits 64 bits. -/
theorem ipChecksumPartial_eq (b : Memory) (p len sum : Nat)
    (hsum : sum + (hostWords b p len).sum < 2 ^ 64) :
    ipChecksumPartial b p len sum = sum + (hostWords b p len).sum := by
  induction p, len, sum using ipChecksumPartial.induct b with
  | case1 p len sum ih =>
    simp only [hostWords, List.sum_cons] at hsum ⊢
    have hmod : (sum + le32At b p) % 2 ^ 64 = sum + le32At b p := Nat.mod_eq_of_lt (by omega)
    rw [ipChecksumPartial, ih (by omega), hmod, Nat.add_assoc]
  | case2 p sum | case3 p sum | case4 p sum =>
    simp only [hostWords, List.sum_cons, List.sum_nil] at hsum ⊢
    unfold ipChecksumPartial
    omega
  | case5 p sum => rfl

/-- The two ways to cut the bytes into words differ by the factor 256. -/
theorem sum_hostWords_modEq (b : Memory) (p len : Nat) :
    256 * (hostWords b p len).sum ≡ (beWords b p len).sum [MOD 0xffff] ∧
      ((hostWords b p len).sum = 0 ↔ (beWords b p len).sum = 0) := by
  induction p, len using hostWords.induct with
  | case1 p len ih =>
    obtain ⟨hcong, hz⟩ := ih
    constructor
    · simp only [beWords, hostWords, List.sum_cons, Nat.ModEq, le32At, be16At, Nat.add_assoc,
        Nat.reduceAdd] at hcong ⊢
      omega
    · simp only [beWords, hostWords, List.sum_cons, le32At, be16At, Nat.add_assoc, Nat.reduceAdd]
      omega
  | case2 p | case3 p =>
    simp only [beWords, hostWords, List.sum_cons, List.sum_nil, Nat.ModEq]
    unfold le16At be16At
    omega
  | case4 p | case5 p => simp [beWords, hostWords, Nat.ModEq]

/-- The accumulator counts the words up to the factor 256 and overflows for no buffer
shorter than 4 GiB. -/
theorem ipChecksumPartial_spec (b : Memory) (p len sum : Nat)
    (hsum : sum + 2 ^ 32 * len < 2 ^ 64) :
    ∃ k, ipChecksumPartial b p len sum = sum + k ∧
      256 * k ≡ (beWords b p len).sum [MOD 0xffff] ∧ (k = 0 ↔ (beWords b p len).sum = 0) := by
  have hle := sum_hostWords_le b p len
  exact ⟨_, ipChecksumPartial_eq b p len sum (by omega), sum_hostWords_modEq b p len⟩

/-- Folding complements the one's complement representative of the accumulator. -/
theorem ipChecksumFold_eq (sum : Nat) : ipChecksumFold sum = 0xffff - rep 0xffff sum := by
  have h32 : foldLoop 32 sum sum = rep 0xffffffff sum := foldLoop_eq_rep (by omega) le_rfl
  have h16 : ∀ s, foldLoop 16 s s = rep 0xffff s :=
    fun s => foldLoop_eq_rep (by omega) le_rfl
  have hdvd : 0xffff ∣ 0xffffffff := by decide
  have hrep : rep 0xffff (rep 0xffffffff sum) = rep 0xffff sum :=
    rep_congr (by omega) (rep_modEq.of_dvd hdvd) rep_eq_zero_iff
  have hle : rep 0xffff sum ≤ 0xffff := rep_le (by omega)
  simp only [ipChecksumFold, h32, h16, hrep]
  rw [Nat.mod_eq_of_lt (by omega)]

/-- The computed checksum of a header is zero exactly when the header verifies. -/
theorem ipv4Checksum_eq_zero_iff (b : Memory) (p len : Nat) (hlen : len < 2 ^ 32) :
    ipv4Checksum b p len = 0 ↔ ChecksumVerifies b p len := by
  obtain ⟨k, hk, hcong, hz⟩ := ipChecksumPartial_spec b p len 0 (by omega)
  have hle : rep 0xffff k ≤ 0xffff := rep_le (by omega)
  have hunit : k ≡ 0 [MOD 0xffff] ↔ (beWords b p len).sum ≡ 0 [MOD 0xffff] := by
    simp only [Nat.ModEq] at hcong ⊢
    omega
  rw [ipv4Checksum, hk, Nat.zero_add, ipChecksumFold_eq, ChecksumVerifies,
    onesSum_eq_rep (by omega) _ (beWords_le b p len), rep_eq_self_iff (by omega), ← hunit,
    ne_eq, ← hz, ← ne_eq, ← rep_eq_self_iff (by omega)]
  omega

end QoSMos
