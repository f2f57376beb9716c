import QoSMos.Packet.Write

/-!
# The checksum of RFC 1071

The RFC sums the data as big-endian words of 16 bits with end-around carry. `checksum.c` sums
it in the byte order of the host, in one or more pieces, and stores what the fold gives in that
same order, so that the two bytes in memory are those of the RFC's checksum.
-/

namespace QoSMos

open OnesComplement

/-- The words of the RFC, with a zero after the last byte of an odd number. -/
def rfcWords : List UInt8 → List Nat
  | x :: y :: data => (256 * x.toNat + y.toNat) :: rfcWords data
  | [x] => [256 * x.toNat]
  | [] => []

/-- The one's complement of the one's complement sum. -/
def rfc1071 (data : List UInt8) : Nat := 0xffff - onesSum 0xffff (rfcWords data)

/-- The arguments of a call of `ip_checksum_partial`. -/
structure Piece where
  memory : Memory
  start : Nat
  len : Nat

def Piece.bytes (piece : Piece) : List UInt8 := readBytes piece.memory piece.start piece.len

def Piece.hostWords (piece : Piece) : List Nat :=
  QoSMos.hostWords piece.memory piece.start piece.len

/-- Calls of `ip_checksum_partial`, each of which goes on from the sum of the one before. -/
def sumPieces (sum : Nat) (pieces : List Piece) : Nat :=
  pieces.foldl (fun sum piece => ipChecksumPartial piece.memory piece.start piece.len sum) sum

/-- `ntohs` -/
def ntohs (x : Nat) : Nat := x % 256 * 256 + x / 256

section Words

variable {b : Memory} {p len x : Nat} {data more : List UInt8}

theorem readBytes_succ : readBytes b p (len + 1) = b p :: readBytes b (p + 1) len := by
  rw [Nat.add_comm len, readBytes_append]
  rfl

theorem beWords_eq_rfcWords : beWords b p len = rfcWords (readBytes b p len) := by
  induction p, len using beWords.induct with
  | case1 p len ih =>
    rw [readBytes_succ, readBytes_succ, rfcWords, beWords, ih]
    rfl
  | case2 p => rfl
  | case3 p => rfl

/-- Even data does not move the words behind it. -/
theorem rfcWords_append (heven : data.length % 2 = 0) :
    rfcWords (data ++ more) = rfcWords data ++ rfcWords more := by
  induction data using rfcWords.induct with
  | case1 x y data ih =>
    have hrest : data.length % 2 = 0 := by
      simp only [List.length_cons] at heven
      omega
    simp [rfcWords, ih hrest]
  | case2 x => simp at heven
  | case3 => rfl

theorem rfcWords_le : ∀ w ∈ rfcWords data, w ≤ 0xffff := by
  induction data using rfcWords.induct with
  | case1 x y data ih =>
    have := x.toNat_lt
    have := y.toNat_lt
    rw [rfcWords, List.forall_mem_cons]
    exact ⟨by omega, ih⟩
  | case2 x =>
    have := x.toNat_lt
    simp only [rfcWords, List.mem_singleton, forall_eq]
    omega
  | case3 => simp [rfcWords]

/-- Swapping the bytes of a word multiplies it by 256. -/
theorem ntohs_rep : ntohs (rep 0xffff x) = rep 0xffff (256 * x) := by
  have hle : rep 0xffff x ≤ 0xffff := rep_le (by omega)
  have hz : rep 0xffff x = 0 ↔ x = 0 := rep_eq_zero_iff
  have hmod : 256 * rep 0xffff x ≡ 256 * x [MOD 0xffff] := rep_modEq.mul_left 256
  generalize rep 0xffff x = r at hle hz hmod ⊢
  unfold ntohs
  apply rep_unique
  · omega
  · refine Nat.ModEq.trans ?_ hmod
    unfold Nat.ModEq
    omega
  · omega

theorem ntohs_complement (hx : x ≤ 0xffff) : ntohs (0xffff - x) = 0xffff - ntohs x := by
  unfold ntohs
  omega

end Words

section Pieces

variable {pieces : List Piece} {piece : Piece} {sum : Nat}

theorem sumPieces_eq (hsum : sum + (pieces.flatMap Piece.hostWords).sum < 2 ^ 64) :
    sumPieces sum pieces = sum + (pieces.flatMap Piece.hostWords).sum := by
  induction pieces generalizing sum with
  | nil => rfl
  | cons piece pieces ih =>
    rw [List.flatMap_cons, List.sum_append] at hsum ⊢
    have hpiece := ipChecksumPartial_eq piece.memory piece.start piece.len sum
      (by rw [Piece.hostWords] at hsum; omega)
    rw [sumPieces, List.foldl_cons, hpiece]
    refine (ih ?_).trans ?_
    · rw [Piece.hostWords] at hsum
      omega
    · rw [Piece.hostWords]
      omega

theorem sum_flatMap_hostWords_le (pieces : List Piece) :
    (pieces.flatMap Piece.hostWords).sum ≤ 2 ^ 30 * (pieces.map Piece.len).sum := by
  induction pieces with
  | nil => simp
  | cons piece pieces ih =>
    have := sum_hostWords_le piece.memory piece.start piece.len
    rw [List.flatMap_cons, List.sum_append, List.map_cons, List.sum_cons, Piece.hostWords]
    omega

/-- Pieces of even length, but for the last one, have the words of all the data. -/
theorem sum_pieces_modEq (heven : ∀ piece ∈ pieces.dropLast, piece.len % 2 = 0) :
    256 * (pieces.flatMap Piece.hostWords).sum ≡
        (rfcWords (pieces.flatMap Piece.bytes)).sum [MOD 0xffff] ∧
      ((pieces.flatMap Piece.hostWords).sum = 0 ↔
        (rfcWords (pieces.flatMap Piece.bytes)).sum = 0) := by
  induction pieces with
  | nil => simp [rfcWords, Nat.ModEq]
  | cons piece pieces ih =>
    obtain ⟨hcong, hz⟩ := sum_hostWords_modEq piece.memory piece.start piece.len
    rw [beWords_eq_rfcWords] at hcong hz
    cases pieces with
    | nil =>
      simp only [List.flatMap_cons, List.flatMap_nil, List.append_nil]
      exact ⟨hcong, hz⟩
    | cons next pieces =>
      rw [List.dropLast_cons_cons, List.forall_mem_cons] at heven
      obtain ⟨hcong', hz'⟩ := ih heven.2
      have hsplit : rfcWords ((piece :: next :: pieces).flatMap Piece.bytes) =
          rfcWords piece.bytes ++ rfcWords ((next :: pieces).flatMap Piece.bytes) := by
        rw [List.flatMap_cons]
        exact rfcWords_append (by rw [Piece.bytes, length_readBytes]; exact heven.1)
      rw [hsplit, List.flatMap_cons, List.sum_append, List.sum_append, Nat.mul_add]
      refine ⟨hcong.add hcong', ?_⟩
      rw [Nat.add_eq_zero_iff, Nat.add_eq_zero_iff]
      exact and_congr hz hz'

end Pieces

theorem foldLoop_lt {w sum : Nat} (hw : 0 < w) : foldLoop w sum sum < 2 ^ w := by
  have hpow : 1 < 2 ^ w := Nat.one_lt_two_pow hw.ne'
  have hle : rep (2 ^ w - 1) sum ≤ 2 ^ w - 1 := rep_le (by omega)
  rw [foldLoop_eq_rep hw le_rfl]
  omega

/-- What the fold gives is, in the order of the network, the checksum of the RFC. -/
theorem ntohs_ipChecksumFold {pieces : List Piece}
    (heven : ∀ piece ∈ pieces.dropLast, piece.len % 2 = 0)
    (hsize : (pieces.map Piece.len).sum < 2 ^ 34) :
    ipChecksumFold (sumPieces 0 pieces) < 2 ^ 16 ∧
      ntohs (ipChecksumFold (sumPieces 0 pieces)) = rfc1071 (pieces.flatMap Piece.bytes) := by
  have hle := sum_flatMap_hostWords_le pieces
  have hsum : sumPieces 0 pieces = (pieces.flatMap Piece.hostWords).sum := by
    rw [sumPieces_eq (by omega), Nat.zero_add]
  obtain ⟨hcong, hz⟩ := sum_pieces_modEq heven
  have hfold := ipChecksumFold_eq (sumPieces 0 pieces)
  refine ⟨by omega, ?_⟩
  rw [hfold, ntohs_complement (rep_le (by omega)), ntohs_rep, rfc1071,
    onesSum_eq_rep (by omega) _ rfcWords_le, hsum]
  exact congrArg _ (rep_congr (by omega) hcong (by omega))

/-- Data that is summed in pieces, all even but the last one, is summed without overflow, both
folding loops come to their end, and the bytes that are stored are those of the RFC. -/
theorem ipChecksum_rfc1071 (pieces : List Piece)
    (heven : ∀ piece ∈ pieces.dropLast, piece.len % 2 = 0)
    (hsize : (pieces.map Piece.len).sum < 2 ^ 34) :
    sumPieces 0 pieces = (pieces.flatMap Piece.hostWords).sum ∧ sumPieces 0 pieces < 2 ^ 64 ∧
      foldLoop 32 (sumPieces 0 pieces) (sumPieces 0 pieces) < 2 ^ 32 ∧
      foldLoop 16 (foldLoop 32 (sumPieces 0 pieces) (sumPieces 0 pieces))
        (foldLoop 32 (sumPieces 0 pieces) (sumPieces 0 pieces)) < 2 ^ 16 ∧
      ipChecksumFold (sumPieces 0 pieces) < 2 ^ 16 ∧
      ntohs (ipChecksumFold (sumPieces 0 pieces)) = rfc1071 (pieces.flatMap Piece.bytes) := by
  have hle := sum_flatMap_hostWords_le pieces
  have hsum : sumPieces 0 pieces = (pieces.flatMap Piece.hostWords).sum := by
    rw [sumPieces_eq (by omega), Nat.zero_add]
  obtain ⟨hlt, hrfc⟩ := ntohs_ipChecksumFold heven hsize
  exact ⟨hsum, by omega, foldLoop_lt (by omega), foldLoop_lt (by omega), hlt, hrfc⟩

theorem ipChecksum_rfc1071_odd :
    sumPieces 0 [⟨.ofList [0x45, 0x01], 0, 2⟩, ⟨.ofList [9, 8, 7], 0, 3⟩] =
        ([⟨.ofList [0x45, 0x01], 0, 2⟩, ⟨.ofList [9, 8, 7], 0, 3⟩].flatMap Piece.hostWords).sum ∧
      ntohs (ipChecksumFold (sumPieces 0
        [⟨.ofList [0x45, 0x01], 0, 2⟩, ⟨.ofList [9, 8, 7], 0, 3⟩])) =
        rfc1071 [0x45, 0x01, 9, 8, 7] :=
  have h := ipChecksum_rfc1071
    [⟨.ofList [0x45, 0x01], 0, 2⟩, ⟨.ofList [9, 8, 7], 0, 3⟩] (by simp) (by simp)
  ⟨h.1, h.2.2.2.2.2⟩

/-! ## Storing the checksum -/

section Store

variable {b : Memory} {p len j x : Nat} {pre post : List UInt8}

/-- A number below 65536 that is stored in the order of the host. -/
theorem le16_eq_be16_ntohs (hx : x < 65536) : le16 x = be16 (ntohs x) := by
  have hdiv : x / 256 < 256 := by omega
  have hntohs : ntohs x = 256 * (x % 256) + x / 256 := by
    rw [ntohs, Nat.mul_comm]
  have hlow : UInt8.ofNat x = UInt8.ofNat (ntohs x / 256) := by
    rw [← UInt8.toNat_inj, UInt8.toNat_ofNat', UInt8.toNat_ofNat', hntohs,
      Nat.mul_add_div (by omega), Nat.div_eq_of_lt hdiv]
    omega
  have hhigh : UInt8.ofNat (x / 256) = UInt8.ofNat (ntohs x) := by
    rw [← UInt8.toNat_inj, UInt8.toNat_ofNat', UInt8.toNat_ofNat', hntohs]
    omega
  rw [le16, be16, hlow, hhigh]

theorem rfcWords_word (heven : pre.length % 2 = 0) (hx : x < 65536) :
    (rfcWords (pre ++ be16 x ++ post)).sum = (rfcWords pre).sum + x + (rfcWords post).sum := by
  have hword : 256 * (UInt8.ofNat (x / 256)).toNat + (UInt8.ofNat x).toNat = x := by
    rw [UInt8.toNat_ofNat', UInt8.toNat_ofNat']
    omega
  rw [List.append_assoc, rfcWords_append heven, List.sum_append]
  show _ + (256 * (UInt8.ofNat (x / 256)).toNat + (UInt8.ofNat x).toNat +
    (rfcWords post).sum) = _
  rw [hword, Nat.add_assoc]

/-- Data in which the checksum of the data is stored has the checksum zero. -/
theorem rfc1071_store (heven : pre.length % 2 = 0) :
    rfc1071 (pre ++ be16 (rfc1071 (pre ++ be16 0 ++ post)) ++ post) = 0 := by
  have hsum (x : Nat) (hx : x < 65536) : rfc1071 (pre ++ be16 x ++ post) =
      0xffff - rep 0xffff ((rfcWords pre).sum + x + (rfcWords post).sum) := by
    rw [rfc1071, onesSum_eq_rep (by omega) _ rfcWords_le, rfcWords_word heven hx]
  have hle : rep 0xffff ((rfcWords pre).sum + 0 + (rfcWords post).sum) ≤ 0xffff :=
    rep_le (by omega)
  have hmod : rep 0xffff ((rfcWords pre).sum + 0 + (rfcWords post).sum) ≡
      (rfcWords pre).sum + 0 + (rfcWords post).sum [MOD 0xffff] := rep_modEq
  have hz : rep 0xffff ((rfcWords pre).sum + 0 + (rfcWords post).sum) = 0 ↔
      (rfcWords pre).sum + 0 + (rfcWords post).sum = 0 := rep_eq_zero_iff
  rw [hsum 0 (by omega), hsum _ (by omega)]
  generalize rep 0xffff ((rfcWords pre).sum + 0 + (rfcWords post).sum) = r at hle hmod hz
  have hall : rep 0xffff ((rfcWords pre).sum + (0xffff - r) + (rfcWords post).sum) = 0xffff := by
    rw [rep_eq_self_iff (by omega)]
    unfold Nat.ModEq at hmod ⊢
    omega
  omega

end Store

end QoSMos
