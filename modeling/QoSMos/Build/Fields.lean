import QoSMos.Build.Layout
import QoSMos.Build.Shape
import QoSMos.Flow.Tuple

/-!
# Reading back the fields of a built header

What the field accessors find in memory that holds the bytes of a built header. The
checksum field is left out, since `checksum_packet` fills it in later; the last part says
what that changes.
-/

namespace QoSMos

open Returns

/-- `b` holds `bytes` from `p` on, except for the 16-bit field at offset `check`. -/
def HoldsExcept (b : Memory) (p : Nat) (bytes : List UInt8) (check : Nat) : Prop :=
  ∀ k < bytes.length, k ≠ check → k ≠ check + 1 → b (p + k) = bytes.getD k 0

section Fields

variable {b : Memory} {p check n : Nat} {bytes more : List UInt8} {ipBytes : UInt16}
  {tos ttl protocol : UInt8} {flowLabel : UInt32}

theorem HoldsExcept.u8At {k : Nat} (h : HoldsExcept b p bytes check) (hk : k < bytes.length)
    (hne : k ≠ check) (hne' : k ≠ check + 1) : u8At b (p + k) = (bytes.getD k 0).toNat := by
  rw [QoSMos.u8At, h k hk hne hne']

/-- What `set_ipv4_header` stored, apart from the checksum. -/
structure Ipv4Set (b : Memory) (p : Nat) (ipBytes : UInt16) (tos ttl protocol : UInt8) :
    Prop where
  version : Ipv4.version b p = 4
  ihl : Ipv4.ihl b p = 5
  tos : Ipv4.tos b p = tos.toNat
  totLen : Ipv4.totLen b p = ipBytes.toNat
  fragOff : Ipv4.fragOff b p = 0
  ttl : ttl ≠ 0 → Ipv4.ttl b p = ttl.toNat
  protocol : Ipv4.protocol b p = protocol.toNat

theorem ipv4Set_of_holds (h : HoldsExcept b p (ipv4Header ipBytes tos ttl protocol) 10) :
    Ipv4Set b p ipBytes tos ttl protocol := by
  have hlen : (ipv4Header ipBytes tos ttl protocol).length = 20 := length_ipv4Header
  have h0 := h.u8At (k := 0) (by omega) (by omega) (by omega)
  have h1 := h.u8At (k := 1) (by omega) (by omega) (by omega)
  have h2 := h.u8At (k := 2) (by omega) (by omega) (by omega)
  have h3 := h.u8At (k := 3) (by omega) (by omega) (by omega)
  have h6 := h.u8At (k := 6) (by omega) (by omega) (by omega)
  have h7 := h.u8At (k := 7) (by omega) (by omega) (by omega)
  have h8 := h.u8At (k := 8) (by omega) (by omega) (by omega)
  have h9 := h.u8At (k := 9) (by omega) (by omega) (by omega)
  simp only [ipv4Header, be16, List.cons_append, List.nil_append,
    List.getD_cons_zero, List.getD_cons_succ, UInt8.toNat_ofNat', Nat.reducePow, Nat.add_zero]
    at h0 h1 h2 h3 h6 h7 h8 h9
  have htot := ipBytes.toNat_lt
  refine ⟨?_, ?_, h1, ?_, ?_, ?_, h9⟩
  · simp [Ipv4.version, h0, IPV4_BYTES]
  · simp [Ipv4.ihl, h0, IPV4_BYTES]
  · simp only [Ipv4.totLen, be16At, Nat.add_assoc, Nat.reduceAdd, h2, h3]
    omega
  · simp [Ipv4.fragOff, be16At, Nat.add_assoc, h6, h7]
  · intro hne
    simpa [Ipv4.ttl, hne] using h8

/-- What `set_ipv6_header` stored. -/
structure Ipv6Set (b : Memory) (p : Nat) (ipBytes : UInt16) (tos : UInt8) (flowLabel : UInt32)
    (hopLimit protocol : UInt8) : Prop where
  version : Ipv6.version b p = 6
  tosByte : Ipv6.tosByte b p = tos.toNat
  flowLabel : Ipv6.flowLabel b p = flowLabel.toNat % 2 ^ 20
  payloadLen : Ipv6.payloadLen b p = ipBytes.toNat - IPV6_BYTES
  nextHeader : Ipv6.nextHeader b p = protocol.toNat
  hopLimit : hopLimit ≠ 0 → Ipv6.hopLimit b p = hopLimit.toNat

theorem ipv6Set_of_holds
    (h : HoldsExcept b p (ipv6Header ipBytes tos flowLabel ttl protocol) check)
    (hcheck : 8 ≤ check) : Ipv6Set b p ipBytes tos flowLabel ttl protocol := by
  have hsize : IPV6_BYTES = 40 := rfl
  have hlen : (ipv6Header ipBytes tos flowLabel ttl protocol).length = 40 := length_ipv6Header
  have h0 := h.u8At (k := 0) (by omega) (by omega) (by omega)
  have h1 := h.u8At (k := 1) (by omega) (by omega) (by omega)
  have h2 := h.u8At (k := 2) (by omega) (by omega) (by omega)
  have h3 := h.u8At (k := 3) (by omega) (by omega) (by omega)
  have h4 := h.u8At (k := 4) (by omega) (by omega) (by omega)
  have h5 := h.u8At (k := 5) (by omega) (by omega) (by omega)
  have h6 := h.u8At (k := 6) (by omega) (by omega) (by omega)
  have h7 := h.u8At (k := 7) (by omega) (by omega) (by omega)
  simp only [ipv6Header, be16, List.cons_append, List.nil_append,
    List.getD_cons_zero, List.getD_cons_succ, UInt8.toNat_ofNat', Nat.reducePow, Nat.add_zero]
    at h0 h1 h2 h3 h4 h5 h6 h7
  have htot := ipBytes.toNat_lt
  have htos := tos.toNat_lt
  have hflow := flowLabel.toNat_lt
  refine ⟨?_, ?_, ?_, ?_, h6, ?_⟩
  · simp only [Ipv6.version, h0]
    omega
  · simp only [Ipv6.tosByte, h0, h1]
    omega
  · simp only [Ipv6.flowLabel, be16At, Nat.add_assoc, Nat.reduceAdd, h1, h2, h3]
    omega
  · simp only [Ipv6.payloadLen, be16At, Nat.add_assoc, Nat.reduceAdd, h4, h5, hsize]
    omega
  · intro hne
    simpa [Ipv6.hopLimit, hne] using h7

/-- The flag bits stand in the order of `struct tcp`. -/
theorem testBit_tcpFlagBits (flags : List Char) :
    tcpFlagBits flags < 256 ∧
    [0, 1, 2, 3, 4, 5, 6, 7].map (tcpFlagBits flags).testBit =
      "FSRP.UEW".toList.map flags.contains := by
  simp only [tcpFlagBits, isTcpFlagSet]
  have hlist : "FSRP.UEW".toList = ['F', 'S', 'R', 'P', '.', 'U', 'E', 'W'] := rfl
  rw [hlist]
  simp only [List.map_cons, List.map_nil]
  generalize flags.contains 'F' = f
  generalize flags.contains 'S' = s
  generalize flags.contains 'R' = r
  generalize flags.contains 'P' = p
  generalize flags.contains '.' = a
  generalize flags.contains 'U' = u
  generalize flags.contains 'E' = e
  generalize flags.contains 'W' = w
  revert f s r p a u e w
  decide

/-- What `new_tcp_packet` stored in `struct tcp`, apart from the checksum. -/
structure TcpSet (b : Memory) (p : Nat) (args : TcpArgs) : Prop where
  srcPort : Ports.src b p = args.srcPort.toNat
  dstPort : Ports.dst b p = args.dstPort.toNat
  seq : Tcp.seq b p = args.startSequence.toNat
  ackSeq : Tcp.ackSeq b p = args.ackSequence.toNat
  doff : Tcp.doff b p * 4 = TCP_BYTES + args.optionLength
  /-- Exactly the bits named by the flag string are set. -/
  flags : [Tcp.fin b p, Tcp.syn b p, Tcp.rst b p, Tcp.psh b p, Tcp.ack b p, Tcp.urg b p,
    Tcp.ece b p, Tcp.cwr b p] = "FSRP.UEW".toList.map args.flags.contains
  window : 0 ≤ args.window → args.window < 65536 → (Tcp.window b p : Int) = args.window
  urgPtr : Tcp.urgPtr b p = args.urgPtr.toNat

theorem tcpSet_of_holds {args : TcpArgs} (halign : args.optionLength % 4 = 0)
    (hmax : TCP_BYTES + args.optionLength ≤ MAX_TCP_HEADER_BYTES)
    (h : HoldsExcept b p (tcpHeader args (TCP_BYTES + args.optionLength) ++ more) 16) :
    TcpSet b p args := by
  have hsize : TCP_BYTES = 20 := rfl
  have hcap : MAX_TCP_HEADER_BYTES = 60 := rfl
  have hlen : (tcpHeader args (TCP_BYTES + args.optionLength) ++ more).length =
      20 + more.length := by simp [hsize]
  have hbyte (k : Nat) (hk : k < 20) (hne : k ≠ 16) (hne' : k ≠ 17) : u8At b (p + k) =
      ((tcpHeader args (TCP_BYTES + args.optionLength)).getD k 0).toNat := by
    rw [h.u8At (by omega) hne hne', List.getD_append _ _ _ _ (by simpa [hsize] using hk)]
  have h0 := hbyte 0 (by omega) (by omega) (by omega)
  have h1 := hbyte 1 (by omega) (by omega) (by omega)
  have h2 := hbyte 2 (by omega) (by omega) (by omega)
  have h3 := hbyte 3 (by omega) (by omega) (by omega)
  have h4 := hbyte 4 (by omega) (by omega) (by omega)
  have h5 := hbyte 5 (by omega) (by omega) (by omega)
  have h6 := hbyte 6 (by omega) (by omega) (by omega)
  have h7 := hbyte 7 (by omega) (by omega) (by omega)
  have h8 := hbyte 8 (by omega) (by omega) (by omega)
  have h9 := hbyte 9 (by omega) (by omega) (by omega)
  have h10 := hbyte 10 (by omega) (by omega) (by omega)
  have h11 := hbyte 11 (by omega) (by omega) (by omega)
  have h12 := hbyte 12 (by omega) (by omega) (by omega)
  have h13 := hbyte 13 (by omega) (by omega) (by omega)
  have h14 := hbyte 14 (by omega) (by omega) (by omega)
  have h15 := hbyte 15 (by omega) (by omega) (by omega)
  have h18 := hbyte 18 (by omega) (by omega) (by omega)
  have h19 := hbyte 19 (by omega) (by omega) (by omega)
  simp only [tcpHeader, be16, be32, le16, List.cons_append, List.nil_append,
    List.getD_cons_zero, List.getD_cons_succ, UInt8.toNat_ofNat', Nat.reducePow, Nat.add_zero]
    at h0 h1 h2 h3 h4 h5 h6 h7 h8 h9
  simp only [tcpHeader, be16, be32, le16, List.cons_append, List.nil_append,
    List.getD_cons_zero, List.getD_cons_succ, UInt8.toNat_ofNat', Nat.reducePow]
    at h10 h11 h12 h13 h14 h15 h18 h19
  have hsrc := args.srcPort.toNat_lt
  have hdst := args.dstPort.toNat_lt
  have hseq := args.startSequence.toNat_lt
  have hack := args.ackSequence.toNat_lt
  have hurg := args.urgPtr.toNat_lt
  obtain ⟨hbits, hflags⟩ := testBit_tcpFlagBits args.flags
  refine ⟨?_, ?_, ?_, ?_, ?_, ?_, ?_, ?_⟩
  · simp only [Ports.src, be16At, h0, h1]
    omega
  · simp only [Ports.dst, be16At, Nat.add_assoc, Nat.reduceAdd, h2, h3]
    omega
  · simp only [Tcp.seq, be32At, be16At, Nat.add_assoc, Nat.reduceAdd, h4, h5, h6, h7]
    omega
  · simp only [Tcp.ackSeq, be32At, be16At, Nat.add_assoc, Nat.reduceAdd, h8, h9, h10, h11]
    omega
  · simp only [Tcp.doff, h12]
    omega
  · rw [← hflags]
    simp only [Tcp.fin, Tcp.syn, Tcp.rst, Tcp.psh, Tcp.ack, Tcp.urg, Tcp.ece, Tcp.cwr, h13,
      Nat.mod_eq_of_lt hbits, List.map_cons, List.map_nil]
  · intro hmin hmax
    have hne : args.window ≠ -1 := by omega
    simp only [hne, if_false] at h14 h15
    simp only [Tcp.window, be16At, Nat.add_assoc, Nat.reduceAdd, h14, h15]
    omega
  · simp only [Tcp.urgPtr, be16At, Nat.add_assoc, Nat.reduceAdd, h18, h19]
    omega

/-- What `new_udp_packet` stored, apart from the checksum. -/
structure UdpSet (b : Memory) (p : Nat) (args : UdpArgs) : Prop where
  srcPort : Ports.src b p = args.srcPort.toNat
  dstPort : Ports.dst b p = args.dstPort.toNat
  len : UDP_BYTES + args.udpPayloadBytes.toNat < 65536 →
    Udp.len b p = UDP_BYTES + args.udpPayloadBytes.toNat

theorem udpSet_of_holds {args : UdpArgs} (h : HoldsExcept b p (udpHeader args) 6) :
    UdpSet b p args := by
  have hsize : UDP_BYTES = 8 := rfl
  have hlen : (udpHeader args).length = 8 := length_udpHeader
  have h0 := h.u8At (k := 0) (by omega) (by omega) (by omega)
  have h1 := h.u8At (k := 1) (by omega) (by omega) (by omega)
  have h2 := h.u8At (k := 2) (by omega) (by omega) (by omega)
  have h3 := h.u8At (k := 3) (by omega) (by omega) (by omega)
  have h4 := h.u8At (k := 4) (by omega) (by omega) (by omega)
  have h5 := h.u8At (k := 5) (by omega) (by omega) (by omega)
  simp only [udpHeader, be16, List.cons_append, List.nil_append,
    List.getD_cons_zero, List.getD_cons_succ, UInt8.toNat_ofNat', Nat.reducePow, Nat.add_zero]
    at h0 h1 h2 h3 h4 h5
  have hsrc := args.srcPort.toNat_lt
  have hdst := args.dstPort.toNat_lt
  refine ⟨?_, ?_, fun hlt => ?_⟩
  · simp only [Ports.src, be16At, h0, h1]
    omega
  · simp only [Ports.dst, be16At, Nat.add_assoc, Nat.reduceAdd, h2, h3]
    omega
  · simp only [Udp.len, be16At, Nat.add_assoc, Nat.reduceAdd, h4, h5, hsize] at hlt ⊢
    omega

/-- A built IP header is well formed, whatever its checksum. -/
theorem shape_ip {addressFamily : Int}
    (hfamily : addressFamily = AF_INET ∨ addressFamily = AF_INET6)
    (h : HoldsExcept b p (ipHeader addressFamily ipBytes tos flowLabel ttl protocol) 10)
    (e total : Nat) (ptr : Option Nat) :
    Shape b e p ⟨ipType addressFamily, ipHeaderBytes addressFamily, total, ptr⟩ ∧
      VersionAt b p (ipType addressFamily) := by
  rcases hfamily with rfl | rfl
  · have hset := ipv4Set_of_holds h
    exact ⟨⟨by rw [hset.ihl]; rfl, le_rfl, by rw [hset.fragOff]; rfl, by rw [hset.fragOff]; rfl⟩,
      hset.version⟩
  · exact ⟨rfl, (ipv6Set_of_holds h (by omega)).version⟩

/-- So is a built TCP header with its options. -/
theorem shape_tcp {args : TcpArgs} (halign : args.optionLength % 4 = 0)
    (hmax : TCP_BYTES + args.optionLength ≤ MAX_TCP_HEADER_BYTES)
    (hlen : more.length = args.optionLength)
    (h : HoldsExcept b p (tcpHeader args (TCP_BYTES + args.optionLength) ++ more) 16)
    (e total : Nat) (ptr : Option Nat) :
    Shape b e p ⟨.tcp, (tcpHeader args (TCP_BYTES + args.optionLength) ++ more).length, total,
      ptr⟩ := by
  have hset := tcpSet_of_holds halign hmax h
  have hlength : (tcpHeader args (TCP_BYTES + args.optionLength) ++ more).length =
      TCP_BYTES + args.optionLength := by
    rw [List.length_append, length_tcpHeader, hlen]
  rw [hlength]
  exact ⟨Nat.le_add_right _ _, hset.doff⟩

end Fields

/-! ## Filling in the checksums -/

section Checksums

variable {b : Memory} {packet : Packet} {p check i len : Nat} {compute : Memory → Nat}

theorem fillChecksum_outside (h : i ≠ check) (h' : i ≠ check + 1) :
    fillChecksum b check compute i = b i := by
  have hout : i < check ∨ check + 2 ≤ i := by omega
  simp only [fillChecksum]
  rw [writeBytes_outside (by simpa using hout), writeBytes_outside (by simpa using hout)]

/-- A header verifies after its checksum was filled in, at an even offset. -/
theorem checksumVerifies_fill {j : Nat} (hj : 2 * j + 2 ≤ len) (hlen : len < 2 ^ 32)
    (hcompute : ∀ c : Memory, (∀ i, i ≠ p + 2 * j → i ≠ p + 2 * j + 1 → c i = b i) →
      compute c = ipv4Checksum c p len) :
    ChecksumVerifies (fillChecksum b (p + 2 * j) compute) p len := by
  simp only [fillChecksum]
  rw [hcompute]
  · apply checksumVerifies_store hj hlen
    have hzero := be16At_writeBytes_be16 (b := b) (p := p + 2 * j) (x := 0)
    exact hzero
  · intro i h h'
    apply writeBytes_outside
    simp only [length_le16]
    omega

/-- Where the checksum of the transport header is. -/
def l4CheckAt (packet : Packet) : Option Nat :=
  match packet.tcp, packet.udp with
  | some tcp, _ => some (Tcp.checkAt tcp)
  | none, some udp => some (Udp.checkAt udp)
  | none, none => none

/-- `checksum_packet` changes nothing but the two checksum fields of an IPv4 packet, and its
header verifies. -/
theorem checksumPacket_ipv4 (h4 : packet.ipv4 = some p) (hmin : 5 ≤ Ipv4.ihl packet.buffer p)
    (htot : Ipv4.totLen packet.buffer p ≤ packet.ipBytes)
    (hl4 : Ipv4.ihl packet.buffer p * 4 < Ipv4.totLen packet.buffer p)
    (hcheck : l4CheckAt packet = some check) (hbehind : p + Ipv4.ihl packet.buffer p * 4 ≤ check) :
    ∃ b, checksumPacket packet = .ok { packet with buffer := b } ∧
      (∀ i, i ≠ p + 10 → i ≠ p + 11 → i ≠ check → i ≠ check + 1 → b i = packet.buffer i) ∧
      ChecksumVerifies b p (Ipv4.ihl packet.buffer p * 4) := by
  have hihl16 : Ipv4.ihl packet.buffer p < 16 := Nat.mod_lt _ (by omega)
  generalize hn : Ipv4.ihl packet.buffer p = n at *
  generalize hc : fillChecksum packet.buffer (Ipv4.checkAt p)
    (fun b => ipv4Checksum b p (Ipv4.ihl b p * 4)) = c
  have hframe : ∀ i, i ≠ p + 10 → i ≠ p + 11 → c i = packet.buffer i := by
    intro i h h'
    rw [← hc]
    exact fillChecksum_outside h h'
  have hihl (d : Memory) (hd : d p = packet.buffer p) : Ipv4.ihl d p = n := by
    rw [← hn, Ipv4.ihl, Ipv4.ihl, u8At, u8At, hd]
  have hihlc : Ipv4.ihl c p = n := hihl c (hframe p (by omega) (by omega))
  have htotc : Ipv4.totLen c p = Ipv4.totLen packet.buffer p := by
    simp only [Ipv4.totLen, be16At, u8At]
    rw [hframe _ (by omega) (by omega), hframe _ (by omega) (by omega)]
  have hverifies : ChecksumVerifies c p (n * 4) := by
    rw [← hc]
    refine checksumVerifies_fill (j := 5) (by omega) (by omega) fun d hd => ?_
    rw [hihl d (hd p (by omega) (by omega))]
  have hl4Bytes : (Ipv4.totLen c p : Int) - Ipv4.ihl c p * 4 > 0 := by
    rw [htotc, hihlc]
    omega
  have hfits : packet.ipBytes ≥ Ipv4.totLen c p := by omega
  have hrun : ∃ l4, checksumPacket packet =
      .ok { packet with buffer := fillChecksum c check l4 } := by
    have hfamily : checksumPacket packet = checksumIpv4Packet packet p := by
      rw [checksumPacket, h4]
    rw [hfamily]
    simp only [checksumIpv4Packet, hc, require, if_pos hl4Bytes, if_pos hfits]
    unfold l4CheckAt at hcheck
    split at hcheck
    · next htcp =>
      obtain rfl := Option.some.inj hcheck
      rw [htcp]
      exact ⟨_, rfl⟩
    · next htcp hudp =>
      obtain rfl := Option.some.inj hcheck
      rw [htcp, hudp]
      exact ⟨_, rfl⟩
    · cases hcheck
  obtain ⟨l4, hrun⟩ := hrun
  refine ⟨_, hrun, ?_, ?_⟩
  · intro i h0 h1 h2 h3
    rw [fillChecksum_outside h2 h3, hframe i h0 h1]
  · -- the transport checksum lies behind the IPv4 header
    refine (ChecksumVerifies.congr fun i hi => ?_).mpr hverifies
    exact fillChecksum_outside (by omega) (by omega)

/-- `checksum_packet` changes nothing but the transport checksum of an IPv6 packet. -/
theorem checksumPacket_ipv6 (h4 : packet.ipv4 = none) (h6 : packet.ipv6 = some p)
    (htot : IPV6_BYTES + Ipv6.payloadLen packet.buffer p ≤ packet.ipBytes)
    (hl4 : 0 < Ipv6.payloadLen packet.buffer p) (hcheck : l4CheckAt packet = some check) :
    ∃ b, checksumPacket packet = .ok { packet with buffer := b } ∧
      ∀ i, i ≠ check → i ≠ check + 1 → b i = packet.buffer i := by
  have hfits : packet.ipBytes ≥ IPV6_BYTES + Ipv6.payloadLen packet.buffer p := htot
  have hpos : Ipv6.payloadLen packet.buffer p > 0 := hl4
  have hrun : ∃ l4, checksumPacket packet =
      .ok { packet with buffer := fillChecksum packet.buffer check l4 } := by
    have hfamily : checksumPacket packet = checksumIpv6Packet packet p := by
      rw [checksumPacket, h4, h6]
    rw [hfamily]
    simp only [checksumIpv6Packet, require, if_pos hfits, if_pos hpos]
    unfold l4CheckAt at hcheck
    split at hcheck
    · next htcp =>
      obtain rfl := Option.some.inj hcheck
      rw [htcp]
      exact ⟨_, rfl⟩
    · next htcp hudp =>
      obtain rfl := Option.some.inj hcheck
      rw [htcp, hudp]
      exact ⟨_, rfl⟩
    · cases hcheck
  obtain ⟨l4, hrun⟩ := hrun
  exact ⟨_, hrun, fun i h h' => fillChecksum_outside h h'⟩

end Checksums

end QoSMos
