import Mathlib.Data.List.GetD
import QoSMos.Packet.Checksum

/-!
# Writing packet bytes

The programs that build packets fill whole headers with `writeBytes`, and single fields
with the byte lists `be16`, `be32` (network byte order) and `le16` (the byte order of the
host, in which a computed checksum is stored).
-/

namespace QoSMos

open OnesComplement

/-- `memcpy` of `bytes` to `p`. -/
def writeBytes (b : Memory) (p : Nat) (bytes : List UInt8) : Memory := fun i =>
  if p ≤ i ∧ i < p + bytes.length then bytes.getD (i - p) 0 else b i

/-- A 16-bit field that holds `htons(x)`. -/
def be16 (x : Nat) : List UInt8 := [UInt8.ofNat (x / 256), UInt8.ofNat x]

/-- A 32-bit field that holds `htonl(x)`. -/
def be32 (x : Nat) : List UInt8 := be16 (x / 65536) ++ be16 x

/-- A 16-bit field that holds `x`. -/
def le16 (x : Nat) : List UInt8 := [UInt8.ofNat x, UInt8.ofNat (x / 256)]

/-- The bytes of `b` from `p` on. -/
def readBytes (b : Memory) (p n : Nat) : List UInt8 := (List.range n).map fun i => b (p + i)

section Write

variable {b b' : Memory} {p i k n x : Nat} {bytes : List UInt8}

@[simp] theorem length_be16 : (be16 x).length = 2 := rfl
@[simp] theorem length_be32 : (be32 x).length = 4 := rfl
@[simp] theorem length_le16 : (le16 x).length = 2 := rfl
@[simp] theorem length_readBytes : (readBytes b p n).length = n := by simp [readBytes]

theorem writeBytes_inside (hk : k < bytes.length) :
    writeBytes b p bytes (p + k) = bytes.getD k 0 := by
  have : p ≤ p + k ∧ p + k < p + bytes.length := by omega
  simp [writeBytes, this]

theorem writeBytes_outside (h : i < p ∨ p + bytes.length ≤ i) : writeBytes b p bytes i = b i := by
  have : ¬ (p ≤ i ∧ i < p + bytes.length) := by omega
  simp [writeBytes, this]

/-- A store behind a place leaves what is in front of it. -/
theorem writeBytes_below {k : Nat} (h : i < p) : writeBytes b (p + k) bytes i = b i :=
  writeBytes_outside (.inl (by omega))

@[simp] theorem writeBytes_nil : writeBytes b p [] = b := by
  funext i
  apply writeBytes_outside
  simp only [List.length_nil]
  omega

/-- Two writes behind each other are one. -/
theorem writeBytes_append {more : List UInt8} :
    writeBytes (writeBytes b p bytes) (p + bytes.length) more =
      writeBytes b p (bytes ++ more) := by
  funext i
  by_cases hfirst : p ≤ i ∧ i < p + bytes.length
  · obtain ⟨k, rfl⟩ := Nat.exists_eq_add_of_le hfirst.1
    have hk : k < bytes.length := by omega
    rw [writeBytes_outside (by omega), writeBytes_inside hk,
      writeBytes_inside (by simp only [List.length_append]; omega), List.getD_append _ _ _ _ hk]
  by_cases hsecond : p + bytes.length ≤ i ∧ i < p + bytes.length + more.length
  · obtain ⟨k, rfl⟩ := Nat.exists_eq_add_of_le hsecond.1
    have hk : k < more.length := by omega
    rw [writeBytes_inside hk, Nat.add_assoc,
      writeBytes_inside (by simp only [List.length_append]; omega),
      List.getD_append_right _ _ _ _ (by omega), Nat.add_sub_cancel_left]
  · rw [writeBytes_outside (by omega), writeBytes_outside (by omega),
      writeBytes_outside (by simp only [List.length_append]; omega)]

/-- What a field reads of the bytes just written, at their own offset. -/
theorem u8At_writeBytes (b : Memory) (p : Nat) (bytes : List UInt8) (hk : k < bytes.length) :
    u8At (writeBytes b p bytes) (p + k) = (bytes.getD k 0).toNat := by
  rw [u8At, writeBytes_inside hk]

theorem u8At_writeBytes_outside (h : i < p ∨ p + bytes.length ≤ i) :
    u8At (writeBytes b p bytes) i = u8At b i := by
  rw [u8At, u8At, writeBytes_outside h]

theorem be16At_writeBytes_outside (h : i + 2 ≤ p ∨ p + bytes.length ≤ i) :
    be16At (writeBytes b p bytes) i = be16At b i := by
  have h0 : u8At (writeBytes b p bytes) i = u8At b i := u8At_writeBytes_outside (by omega)
  have h1 : u8At (writeBytes b p bytes) (i + 1) = u8At b (i + 1) :=
    u8At_writeBytes_outside (by omega)
  rw [be16At, be16At, h0, h1]

theorem be16At_writeBytes_be16 : be16At (writeBytes b p (be16 x)) p = x % 65536 := by
  have h0 : u8At (writeBytes b p (be16 x)) p = x / 256 % 256 := by
    simpa [be16] using u8At_writeBytes (k := 0) b p (be16 x) (by simp)
  have h1 : u8At (writeBytes b p (be16 x)) (p + 1) = x % 256 := by
    simpa [be16] using u8At_writeBytes (k := 1) b p (be16 x) (by simp)
  rw [be16At, h0, h1]
  omega

theorem be32At_writeBytes (x : Nat) :
    be32At (writeBytes b p (be32 x)) p = x % 4294967296 := by
  have happend : writeBytes b p (be32 x) =
      writeBytes (writeBytes b p (be16 (x / 65536))) (p + 2) (be16 x) :=
    writeBytes_append.symm
  rw [be32At, happend, be16At_writeBytes_be16, be16At_writeBytes_outside (by omega),
    be16At_writeBytes_be16]
  omega

theorem readBytes_congr (h : ∀ i < n, b (p + i) = b' (p + i)) :
    readBytes b p n = readBytes b' p n := by
  apply List.map_congr_left
  intro i hi
  exact h i (List.mem_range.mp hi)

theorem getD_readBytes (hi : i < n) : (readBytes b p n).getD i 0 = b (p + i) := by
  simp [readBytes, List.getD, hi]

/-- What a copy of `n` bytes from `q` to `p` holds. -/
theorem writeBytes_readBytes (b c : Memory) (p q : Nat) (hi : i < n) :
    writeBytes b p (readBytes c q n) (p + i) = c (q + i) := by
  rw [writeBytes_inside (by simpa using hi), getD_readBytes hi]

theorem readBytes_writeBytes : readBytes (writeBytes b p bytes) p bytes.length = bytes := by
  apply List.ext_getElem (by simp)
  intro i _ hi
  simp only [readBytes, List.getElem_map, List.getElem_range, writeBytes_inside hi]
  exact List.getD_eq_getElem _ _ hi

theorem readBytes_append {m : Nat} :
    readBytes b p (n + m) = readBytes b p n ++ readBytes b (p + n) m := by
  simp [readBytes, List.range_add, Nat.add_assoc]

theorem u8At_ofList_append (pre l : List UInt8) (k : Nat) :
    u8At (Memory.ofList (pre ++ l)) (pre.length + k) = u8At (Memory.ofList l) k := by
  simp only [u8At, Memory.ofList]
  rw [List.getD_append_right _ _ _ _ (by omega), Nat.add_sub_cancel_left]

/-- A number in network order is read back behind any prefix. -/
theorem be32At_ofList (pre post : List UInt8) (x : Nat) :
    be32At (Memory.ofList (pre ++ (be32 x ++ post))) pre.length = x % 4294967296 := by
  have hbyte := u8At_ofList_append pre (be32 x ++ post)
  have hfirst := hbyte 0
  simp only [be32At, be16At, Nat.add_assoc, hbyte]
  rw [← Nat.add_zero pre.length, hfirst]
  simp [u8At, Memory.ofList, be32, be16]
  omega

end Write

/-! ## Storing a checksum -/

section Checksum

variable {b b' : Memory} {p len j : Nat}

theorem beWords_congr {q : Nat} (h : ∀ i < len, b' (q + i) = b (p + i)) :
    beWords b' q len = beWords b p len := by
  induction p, len using beWords.induct generalizing q with
  | case1 p len ih =>
    have h0 : u8At b' q = u8At b p := congrArg UInt8.toNat (h 0 (by omega))
    have h1 : u8At b' (q + 1) = u8At b (p + 1) := congrArg UInt8.toNat (h 1 (by omega))
    have hrest : beWords b' (q + 2) len = beWords b (p + 2) len := by
      apply ih
      intro i hi
      simpa [Nat.add_assoc, Nat.add_comm 2] using h (i + 2) (by omega)
    simp only [beWords, be16At, h0, h1, hrest]
  | case2 p =>
    have h0 : u8At b' q = u8At b p := congrArg UInt8.toNat (h 0 (by omega))
    simp only [beWords, h0]
  | case3 => rfl

/-- Bytes verify wherever they stand. -/
theorem ChecksumVerifies.congr {q : Nat} (h : ∀ i < len, b' (q + i) = b (p + i)) :
    ChecksumVerifies b' q len ↔ ChecksumVerifies b p len := by
  rw [ChecksumVerifies, ChecksumVerifies, beWords_congr h]

/-- Changing one word changes the sum by the difference of the words. -/
theorem sum_beWords_change (hj : 2 * j + 2 ≤ len)
    (h : ∀ i, i ≠ p + 2 * j → i ≠ p + 2 * j + 1 → b' i = b i) :
    (beWords b' p len).sum + be16At b (p + 2 * j) =
      (beWords b p len).sum + be16At b' (p + 2 * j) := by
  induction j generalizing p len with
  | zero =>
    obtain ⟨len, rfl⟩ : ∃ n, len = n + 2 := ⟨len - 2, by omega⟩
    have hrest : beWords b' (p + 2) len = beWords b (p + 2) len :=
      beWords_congr fun i _ => h _ (by omega) (by omega)
    simp only [beWords, List.sum_cons, hrest, Nat.mul_zero, Nat.add_zero]
    omega
  | succ j ih =>
    obtain ⟨len, rfl⟩ : ∃ n, len = n + 2 := ⟨len - 2, by omega⟩
    have hshift : p + 2 * (j + 1) = p + 2 + 2 * j := by omega
    rw [hshift] at h ⊢
    have hrest : (beWords b' (p + 2) len).sum + be16At b (p + 2 + 2 * j) =
        (beWords b (p + 2) len).sum + be16At b' (p + 2 + 2 * j) := ih (by omega) h
    have h0 : u8At b' p = u8At b p := congrArg UInt8.toNat (h p (by omega) (by omega))
    have h1 : u8At b' (p + 1) = u8At b (p + 1) :=
      congrArg UInt8.toNat (h (p + 1) (by omega) (by omega))
    have hfirst : be16At b' p = be16At b p := by rw [be16At, be16At, h0, h1]
    simp only [beWords, List.sum_cons, hfirst]
    omega

/-- A header whose checksum field was zero verifies once its checksum is stored there. -/
theorem checksumVerifies_store (hj : 2 * j + 2 ≤ len) (hlen : len < 2 ^ 32)
    (hzero : be16At b (p + 2 * j) = 0) :
    ChecksumVerifies (writeBytes b (p + 2 * j) (le16 (ipv4Checksum b p len))) p len := by
  obtain ⟨k, hk, hcong, hz⟩ := ipChecksumPartial_spec b p len 0 (by omega)
  have hle : rep 0xffff k ≤ 0xffff := rep_le (by omega)
  have hrep : rep 0xffff k ≡ k [MOD 0xffff] := rep_modEq
  have hcheck : ipv4Checksum b p len = 0xffff - rep 0xffff k := by
    rw [ipv4Checksum, hk, Nat.zero_add, ipChecksumFold_eq]
  rw [hcheck]
  generalize hr : rep 0xffff k = r at hle hrep
  generalize hb' : writeBytes b (p + 2 * j) (le16 (0xffff - r)) = b'
  have hframe : ∀ i, i ≠ p + 2 * j → i ≠ p + 2 * j + 1 → b' i = b i := by
    intro i h0 h1
    rw [← hb']
    apply writeBytes_outside
    simp only [length_le16]
    omega
  have hsum := sum_beWords_change hj hframe
  have hword : be16At b' (p + 2 * j) = 256 * ((0xffff - r) % 256) + (0xffff - r) / 256 := by
    have h0 := u8At_writeBytes (k := 0) b (p + 2 * j) (le16 (0xffff - r)) (by simp)
    have h1 := u8At_writeBytes (k := 1) b (p + 2 * j) (le16 (0xffff - r)) (by simp)
    rw [hb'] at h0 h1
    simp only [le16, List.getD_cons_zero, List.getD_cons_succ, UInt8.toNat_ofNat', Nat.reducePow,
      Nat.add_zero] at h0 h1
    rw [be16At, h0, h1]
    omega
  rw [ChecksumVerifies, onesSum_eq_rep (by omega) _ (beWords_le b' p len),
    rep_eq_self_iff (by omega)]
  have hrz : r = 0 ↔ k = 0 := by rw [← hr]; exact rep_eq_zero_iff
  simp only [Nat.ModEq] at hcong hrep ⊢
  omega

end Checksum

end QoSMos
