import QoSMos.Build.ChecksumBuilt

/-!
# The checksum of a UDP datagram

RFC 768 and RFC 2460 reserve the checksum zero: a sum whose complement is zero is sent as all
ones. `checksum_packet` stores the complement as it is.
-/

namespace QoSMos

open OnesComplement Returns

/-- What RFC 768 has in the checksum field of a datagram, for the pseudo-header and the datagram
with this field cleared. -/
def udpChecksum (data : List UInt8) : Nat := if rfc1071 data = 0 then 0xffff else rfc1071 data

/-- A UDP header and `len - 8` bytes of payload behind the IPv4 header at `ipv4`. -/
structure UdpOverIpv4 (packet : Packet) (ipv4 udp len : Nat) : Prop where
  ip : packet.ipv4 = some ipv4
  ihl : 5 ≤ Ipv4.ihl packet.buffer ipv4
  behind : udp = ipv4 + Ipv4.ihl packet.buffer ipv4 * 4
  totLen : Ipv4.totLen packet.buffer ipv4 = Ipv4.ihl packet.buffer ipv4 * 4 + len
  room : Ipv4.totLen packet.buffer ipv4 ≤ packet.ipBytes
  size : UDP_BYTES ≤ len
  layer4 : packet.tcp = none ∧ packet.udp = some udp

/-- A UDP header and `len - 8` bytes of payload behind the IPv6 header at `ipv6`. -/
structure UdpOverIpv6 (packet : Packet) (ipv6 udp len : Nat) : Prop where
  ip : packet.ipv4 = none ∧ packet.ipv6 = some ipv6
  behind : udp = ipv6 + IPV6_BYTES
  payloadLen : Ipv6.payloadLen packet.buffer ipv6 = len
  room : IPV6_BYTES + len ≤ packet.ipBytes
  size : UDP_BYTES ≤ len
  layer4 : packet.tcp = none ∧ packet.udp = some udp

/-- The pseudo-header of RFC 768. -/
def udpPseudoIpv4 (b : Memory) (ipv4 len : Nat) : List UInt8 :=
  readBytes b (ipv4 + 12) 8 ++ [0, 17] ++ be16 len

/-- The pseudo-header of RFC 2460. -/
def udpPseudoIpv6 (b : Memory) (ipv6 len : Nat) : List UInt8 :=
  readBytes b (ipv6 + 8) 32 ++ be32 len ++ [0, 0, 0, 17]

/-- The datagram at `udp` with its checksum field cleared. -/
def clearedDatagram (b : Memory) (udp len : Nat) : List UInt8 :=
  readBytes b udp 6 ++ [0, 0] ++ readBytes b (udp + 8) (len - 8)

/-- A UDP packet, its header at `udp`, and the data that its checksum covers. -/
inductive UdpPacket (packet : Packet) (udp : Nat) : List UInt8 → Prop
  | ipv4 {ipv4 len : Nat} (h : UdpOverIpv4 packet ipv4 udp len) : UdpPacket packet udp
      (udpPseudoIpv4 packet.buffer ipv4 len ++ clearedDatagram packet.buffer udp len)
  | ipv6 {ipv6 len : Nat} (h : UdpOverIpv6 packet ipv6 udp len) : UdpPacket packet udp
      (udpPseudoIpv6 packet.buffer ipv6 len ++ clearedDatagram packet.buffer udp len)

/-- `checksum_packet` stores a checksum as RFC 768 has it, and this is never zero. -/
def StoresUdpChecksum (packet : Packet) (udp : Nat) (data : List UInt8) : Prop :=
  ∃ checksummed, checksumPacket packet = .ok checksummed ∧
    be16At checksummed.buffer (Udp.checkAt udp) = udpChecksum data ∧
    be16At checksummed.buffer (Udp.checkAt udp) ≠ 0

section Filled

variable {b c : Memory} {packet : Packet} {p q len : Nat} {pseudo data : List UInt8}
  {compute : Memory → Nat}

theorem tcpUdpV4Checksum_eq : tcpUdpV4Checksum b p IPPROTO_UDP q len =
    ipChecksumFold (sumPieces 0 [⟨.ofList (udpPseudoIpv4 b p len), 0, 12⟩, ⟨b, q, len⟩]) := by
  have haddresses : readBytes b (p + 12) 8 =
    readBytes b (p + 12) 4 ++ readBytes b (p + 16) 4 := @readBytes_append b (p + 12) 4 4
  rw [udpPseudoIpv4, haddresses]
  rfl

theorem tcpUdpV6Checksum_eq : tcpUdpV6Checksum b p IPPROTO_UDP q len =
    ipChecksumFold (sumPieces 0 [⟨.ofList (udpPseudoIpv6 b p len), 0, 40⟩, ⟨b, q, len⟩]) := by
  have haddresses : readBytes b (p + 8) 32 =
    readBytes b (p + 8) 16 ++ readBytes b (p + 24) 16 := @readBytes_append b (p + 8) 16 16
  rw [udpPseudoIpv6, haddresses]
  rfl

theorem udpPseudoIpv4_congr (h : ∀ k, 12 ≤ k → k < 20 → c (p + k) = b (p + k)) :
    udpPseudoIpv4 c p len = udpPseudoIpv4 b p len := by
  have hread : readBytes c (p + 12) 8 = readBytes b (p + 12) 8 := readBytes_congr fun i hi => by
    simpa [Nat.add_assoc] using h (12 + i) (by omega) (by omega)
  simp only [udpPseudoIpv4, hread]

theorem udpPseudoIpv6_congr (h : ∀ k, 8 ≤ k → k < 40 → c (p + k) = b (p + k)) :
    udpPseudoIpv6 c p len = udpPseudoIpv6 b p len := by
  have hread : readBytes c (p + 8) 32 = readBytes b (p + 8) 32 := readBytes_congr fun i hi => by
    simpa [Nat.add_assoc] using h (8 + i) (by omega) (by omega)
  simp only [udpPseudoIpv6, hread]

theorem clearedDatagram_congr (h : ∀ i, q ≤ i → c i = b i) :
    clearedDatagram c q len = clearedDatagram b q len := by
  have hports : readBytes c q 6 = readBytes b q 6 := readBytes_congr fun i _ => h _ (by omega)
  have hpayload : readBytes c (q + 8) (len - 8) = readBytes b (q + 8) (len - 8) :=
    readBytes_congr fun i _ => h _ (by omega)
  simp only [clearedDatagram, hports, hpayload]

theorem readBytes_cleared (hsize : UDP_BYTES ≤ len) :
    readBytes (writeBytes b (q + 6) (le16 0)) q len = clearedDatagram b q len := by
  have hpayload : readBytes (writeBytes b (q + 6) (le16 0)) (q + 8) (len - 8) =
      readBytes b (q + 8) (len - 8) :=
    readBytes_congr fun i _ => writeBytes_outside (.inr (by simp only [length_le16]; omega))
  have hports : readBytes (writeBytes b (q + 6) (le16 0)) q 6 = readBytes b q 6 :=
    readBytes_congr fun i _ => writeBytes_outside (.inl (by omega))
  have hlen : 2 * 3 + 2 ≤ len := hsize
  have hcleared := @readBytes_writeBytes_pair (writeBytes b (q + 6) (le16 0)) q len 3 0 0 hlen
  have hagain : writeBytes (writeBytes b (q + 6) (le16 0)) (q + 2 * 3) [0, 0] =
      writeBytes b (q + 6) (le16 0) := by
    funext i
    by_cases hi : q + 6 ≤ i ∧ i < q + 8
    · obtain ⟨k, rfl⟩ := Nat.exists_eq_add_of_le hi.1
      exact (writeBytes_inside (by simp; omega)).trans (writeBytes_inside (by simp; omega)).symm
    · exact writeBytes_outside (by simp; omega)
  rw [hagain] at hcleared
  rw [hcleared, clearedDatagram, hports, hpayload]

/-- What is stored is the checksum of RFC 1071 for the data with a cleared field. -/
theorem be16At_fillChecksum (heven : pseudo.length % 2 = 0) (hsize : UDP_BYTES ≤ len)
    (hshort : pseudo.length + len < 2 ^ 34)
    (hcompute : compute (writeBytes b (q + 6) (le16 0)) = ipChecksumFold (sumPieces 0
      [⟨.ofList pseudo, 0, pseudo.length⟩, ⟨writeBytes b (q + 6) (le16 0), q, len⟩])) :
    be16At (fillChecksum b (q + 6) compute) (q + 6) =
      rfc1071 (pseudo ++ clearedDatagram b q len) := by
  obtain ⟨hlt, hrfc⟩ := @ntohs_ipChecksumFold
    [⟨.ofList pseudo, 0, pseudo.length⟩, ⟨writeBytes b (q + 6) (le16 0), q, len⟩]
    (by simpa using heven) (by simpa using hshort)
  simp only [List.flatMap_cons, List.flatMap_nil, List.append_nil, Piece.bytes,
    readBytes_ofList, readBytes_cleared hsize] at hrfc
  have hle : rfc1071 (pseudo ++ clearedDatagram b q len) < 65536 := by
    unfold rfc1071
    omega
  rw [fillChecksum, hcompute, le16_eq_be16_ntohs hlt, be16At_writeBytes_be16, hrfc,
    Nat.mod_eq_of_lt hle]

/-- The checksum of data that is not all zero is zero where the words sum up to a multiple. -/
theorem rfc1071_eq_zero_iff (hpos : (rfcWords data).sum ≠ 0) :
    rfc1071 data = 0 ↔ (rfcWords data).sum % 0xffff = 0 := by
  have hle : rep 0xffff (rfcWords data).sum ≤ 0xffff := rep_le (by omega)
  have hall := @rep_eq_self_iff 0xffff (rfcWords data).sum (by omega)
  rw [rfc1071, onesSum_eq_rep (by omega) _ rfcWords_le]
  unfold Nat.ModEq at hall
  omega

end Filled

section Udp

variable {packet : Packet} {ipv4 ipv6 udp len : Nat} {data : List UInt8}

theorem UdpOverIpv4.run (h : UdpOverIpv4 packet ipv4 udp len) :
    checksumPacket packet = .ok { packet with
      buffer := fillChecksum (ipFilled packet.buffer AF_INET ipv4) (Udp.checkAt udp)
        fun b => tcpUdpV4Checksum b ipv4 IPPROTO_UDP udp len } := by
  have hframe : ∀ k < 10, ipFilled packet.buffer AF_INET ipv4 (ipv4 + k) =
      packet.buffer (ipv4 + k) := fun k hk => ipFilled_outside fun _ => by omega
  have h0 : u8At (ipFilled packet.buffer AF_INET ipv4) ipv4 = u8At packet.buffer ipv4 :=
    u8At_transfer (hframe 0 (by omega))
  have h2 : be16At (ipFilled packet.buffer AF_INET ipv4) (ipv4 + 2) =
      be16At packet.buffer (ipv4 + 2) :=
    be16At_transfer (hframe 2 (by omega)) (hframe 3 (by omega))
  have htot : Ipv4.totLen (ipFilled packet.buffer AF_INET ipv4) ipv4 =
      Ipv4.ihl packet.buffer ipv4 * 4 + len := h2.trans h.totLen
  have hihl : Ipv4.ihl (ipFilled packet.buffer AF_INET ipv4) ipv4 =
      Ipv4.ihl packet.buffer ipv4 := by rw [Ipv4.ihl, h0, Ipv4.ihl]
  have hsize := h.size
  rw [UDP_BYTES] at hsize
  have hcast : ((Ipv4.ihl packet.buffer ipv4 * 4 + len : Nat) : Int) -
      (Ipv4.ihl packet.buffer ipv4 : Nat) * 4 = len := by omega
  have hpos : (len : Int) > 0 := by omega
  have hfits : packet.ipBytes ≥ Ipv4.ihl packet.buffer ipv4 * 4 + len := h.totLen ▸ h.room
  have hfilled : fillChecksum packet.buffer (Ipv4.checkAt ipv4)
      (fun b => ipv4Checksum b ipv4 (Ipv4.ihl b ipv4 * 4)) =
      ipFilled packet.buffer AF_INET ipv4 := rfl
  have hfamily : checksumPacket packet = checksumIpv4Packet packet ipv4 := by
    rw [checksumPacket, h.ip]
  rw [hfamily]
  simp only [checksumIpv4Packet, hfilled, htot, hihl, hcast, require, if_pos hfits, if_pos hpos,
    h.layer4.1, h.layer4.2, Int.toNat_natCast]
  rfl

/-- What the call stores for a UDP packet. -/
theorem UdpOverIpv4.stored (h : UdpOverIpv4 packet ipv4 udp len) :
    ∃ checksummed, checksumPacket packet = .ok checksummed ∧
      be16At checksummed.buffer (Udp.checkAt udp) = rfc1071
        (udpPseudoIpv4 packet.buffer ipv4 len ++ clearedDatagram packet.buffer udp len) := by
  refine ⟨_, h.run, ?_⟩
  have hihl := h.ihl
  have hbehind := h.behind
  have hshort : Ipv4.totLen packet.buffer ipv4 < 65536 := be16At_lt _ _
  have htot := h.totLen
  have hpseudo : udpPseudoIpv4 (writeBytes (ipFilled packet.buffer AF_INET ipv4)
      (udp + 6) (le16 0)) ipv4 len = udpPseudoIpv4 packet.buffer ipv4 len :=
    udpPseudoIpv4_congr fun k hk hk' => by
      rw [writeBytes_outside (.inl (by omega)), ipFilled_outside fun _ => by omega]
  have hdatagram : clearedDatagram (ipFilled packet.buffer AF_INET ipv4) udp len =
      clearedDatagram packet.buffer udp len :=
    clearedDatagram_congr fun i hi => ipFilled_outside fun _ => by omega
  rw [← hdatagram]
  have hlength : (udpPseudoIpv4 packet.buffer ipv4 len).length = 12 := by simp [udpPseudoIpv4]
  refine be16At_fillChecksum (by rw [hlength]) h.size (by omega) ?_
  rw [tcpUdpV4Checksum_eq, hpseudo, hlength]

theorem UdpOverIpv6.stored (h : UdpOverIpv6 packet ipv6 udp len) :
    ∃ checksummed, checksumPacket packet = .ok checksummed ∧
      be16At checksummed.buffer (Udp.checkAt udp) = rfc1071
        (udpPseudoIpv6 packet.buffer ipv6 len ++ clearedDatagram packet.buffer udp len) := by
  have hsize := h.size
  have hbehind := h.behind
  rw [UDP_BYTES] at hsize
  rw [IPV6_BYTES] at hbehind
  have hshort : Ipv6.payloadLen packet.buffer ipv6 < 65536 := be16At_lt _ _
  rw [h.payloadLen] at hshort
  have hfits : packet.ipBytes ≥ IPV6_BYTES + len := h.room
  have hpos : len > 0 := by omega
  have hrun : checksumPacket packet = .ok { packet with
      buffer := fillChecksum packet.buffer (Udp.checkAt udp)
        fun b => tcpUdpV6Checksum b ipv6 IPPROTO_UDP udp len } := by
    have hfamily : checksumPacket packet = checksumIpv6Packet packet ipv6 := by
      rw [checksumPacket, h.ip.1, h.ip.2]
    rw [hfamily]
    simp only [checksumIpv6Packet, h.payloadLen, require, if_pos hfits, if_pos hpos,
      h.layer4.1, h.layer4.2]
    rfl
  refine ⟨_, hrun, ?_⟩
  have hpseudo : udpPseudoIpv6 (writeBytes packet.buffer (udp + 6) (le16 0)) ipv6 len =
      udpPseudoIpv6 packet.buffer ipv6 len :=
    udpPseudoIpv6_congr fun k hk hk' => writeBytes_outside (.inl (by omega))
  have hlength : (udpPseudoIpv6 packet.buffer ipv6 len).length = 40 := by simp [udpPseudoIpv6]
  refine be16At_fillChecksum (by rw [hlength]) h.size (by omega) ?_
  rw [tcpUdpV6Checksum_eq, hpseudo, hlength]

/-- The protocol number is in the pseudo-header. -/
theorem UdpPacket.sum_pos (h : UdpPacket packet udp data) : (rfcWords data).sum ≠ 0 := by
  have hprotocol (pre post : List UInt8) (heven : pre.length % 2 = 0) :
      (rfcWords (pre ++ [0, 17] ++ post)).sum ≠ 0 := by
    have hword := @rfcWords_word 17 pre post heven (by omega)
    have h17 : be16 17 = [0, 17] := rfl
    rw [h17] at hword
    omega
  cases h with
  | ipv4 h =>
    rw [udpPseudoIpv4, List.append_assoc]
    exact hprotocol _ _ (by simp)
  | @ipv6 ipv6 len h =>
    have hsplit : udpPseudoIpv6 packet.buffer ipv6 len =
        (readBytes packet.buffer (ipv6 + 8) 32 ++ be32 len ++ [0, 0]) ++ [0, 17] := by
      simp [udpPseudoIpv6]
    rw [hsplit]
    exact hprotocol _ _ (by simp)

theorem UdpPacket.stored (h : UdpPacket packet udp data) :
    ∃ checksummed, checksumPacket packet = .ok checksummed ∧
      be16At checksummed.buffer (Udp.checkAt udp) = rfc1071 data := by
  cases h with
  | ipv4 h => exact h.stored
  | ipv6 h => exact h.stored

/-- The checksum of RFC 768 is stored where the words of the pseudo-header and of the datagram,
its checksum cleared, do not sum up to a multiple of 65535. -/
theorem storesUdpChecksum_iff (h : UdpPacket packet udp data) :
    StoresUdpChecksum packet udp data ↔ ¬ 65535 ∣ (rfcWords data).sum := by
  obtain ⟨checksummed, hok, hstored⟩ := h.stored
  have hzero := rfc1071_eq_zero_iff h.sum_pos
  rw [Nat.dvd_iff_mod_eq_zero, ← hzero]
  constructor
  · rintro ⟨_, hok', -, hne⟩ h0
    rw [hok] at hok'
    cases hok'
    exact hne (hstored.trans h0)
  · intro hne
    refine ⟨checksummed, hok, ?_, ?_⟩
    · rw [hstored, udpChecksum, if_neg hne]
    · rwa [hstored]

end Udp

/-- Two bytes from port 8080 to port 10000. -/
def twoByteArgs : UdpArgs where
  addressFamily := AF_INET
  direction := .inbound
  ipInfo := ⟨⟨.none, 0⟩, 0, 64⟩
  udpPayloadBytes := 2
  srcPort := 8080
  dstPort := 10000

/-- A packet from 192.168.0.1 to 192.0.2.1 with this payload. -/
def addressed (packet : FullPacket) (payload : List UInt8) : Packet :=
  let buffer := writeBytes packet.buffer 12 [192, 168, 0, 1, 192, 0, 2, 1]
  { packet.toPacket with buffer := writeBytes buffer 28 payload }

theorem newUdpPacket_twoBytes : ∃ packet : FullPacket,
    newUdpPacket (fun _ => 0) twoByteArgs = .ok (.ok packet) ∧ ∀ x ∈ [0x8f, 0x90],
      UdpPacket (addressed packet [0x36, x]) 20 [192, 168, 0, 1, 192, 0, 2, 1, 0, 17, 0, 10,
        0x1f, 0x90, 0x27, 0x10, 0, 10, 0, 0, 0x36, x] := by
  refine ⟨_, rfl, fun x hx => ?_⟩
  simp only [List.mem_cons, List.not_mem_nil, or_false] at hx
  rcases hx with rfl | rfl
  · exact @UdpPacket.ipv4 _ _ 0 10
      ⟨rfl, by decide, rfl, rfl, by decide, by decide, rfl, rfl⟩
  · exact @UdpPacket.ipv4 _ _ 0 10
      ⟨rfl, by decide, rfl, rfl, by decide, by decide, rfl, rfl⟩

/-- The checksum zero of two bytes of payload is stored as it is. -/
theorem not_forall_storesUdpChecksum : ¬ ∀ packet udp data, UdpPacket packet udp data →
    StoresUdpChecksum packet udp data := by
  intro h
  obtain ⟨packet, -, hpacket⟩ := newUdpPacket_twoBytes
  have hzero := hpacket 0x8f (by decide)
  obtain ⟨checksummed, hok, -, hne⟩ := h _ _ _ hzero
  obtain ⟨_, hok', hstored⟩ := hzero.stored
  rw [hok] at hok'
  cases hok'
  exact hne (hstored.trans ((rfc1071_eq_zero_iff hzero.sum_pos).mpr (by decide)))

theorem storesUdpChecksum_twoBytes : ∃ (packet : Packet) (data : List UInt8),
    UdpPacket packet 20 data ∧ StoresUdpChecksum packet 20 data := by
  obtain ⟨packet, -, hpacket⟩ := newUdpPacket_twoBytes
  have hone := hpacket 0x90 (by decide)
  exact ⟨_, _, hone, (storesUdpChecksum_iff hone).mpr (by decide)⟩

end QoSMos
