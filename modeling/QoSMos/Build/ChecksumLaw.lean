import QoSMos.Build.EncapsulateLaw
import QoSMos.Build.Icmp
import QoSMos.Packet.InternetChecksum

/-!
# Checksummed packets verify

Whatever was written to the addresses of the innermost IP header and behind it since a packet
was built, alone or behind outer headers, `checksum_packet` makes its checksums those of the
RFCs and leaves all other bytes as they are.
-/

namespace QoSMos

open Returns

/-- The transport header of the packet. -/
def layer4At (packet : Packet) : Option Nat :=
  packet.tcp.or (packet.udp.or (packet.icmpv4.or packet.icmpv6))

/-- The bytes behind the innermost IP header, of which it declares the length. -/
def layer4Length (packet : Packet) : Nat :=
  let b := packet.buffer
  match packet.ipv4, packet.ipv6 with
  | some ipv4, _ => Ipv4.totLen b ipv4 - Ipv4.ihl b ipv4 * 4
  | none, some ipv6 => Ipv6.payloadLen b ipv6
  | none, none => 0

/-- What the checksum of the transport header covers in front of it: the pseudo-header of
RFC 793 or RFC 2460, and nothing for ICMPv4. -/
def pseudoHeader (packet : Packet) : List UInt8 :=
  let b := packet.buffer
  match packet.ipv4, packet.ipv6 with
  | some ipv4, _ =>
    if packet.icmpv4 = none then
      readBytes b (ipv4 + 12) 8 ++ [0, b (ipv4 + 9)] ++ be16 (layer4Length packet)
    else []
  | none, some ipv6 =>
    readBytes b (ipv6 + 8) 32 ++ be32 (layer4Length packet) ++ [0, 0, 0, b (ipv6 + 6)]
  | none, none => []

/-- Where the checksum field of the transport header is. -/
def layer4CheckAt (packet : Packet) : Option Nat :=
  (packet.tcp.map Tcp.checkAt).or ((packet.udp.map Udp.checkAt).or
    ((packet.icmpv4.map Icmp.checksumAt).or (packet.icmpv6.map Icmp.checksumAt)))

/-- A byte of the two checksum fields of the innermost headers. -/
def IsChecksumByte (packet : Packet) (i : Nat) : Prop :=
  ∃ check, (packet.ipv4.map Ipv4.checkAt = some check ∨ layer4CheckAt packet = some check) ∧
    (i = check ∨ i = check + 1)

/-- Every IPv4 header sums up, and so does what is behind the innermost IP header. -/
structure ChecksumsVerify (packet : Packet) : Prop where
  ipv4 : ∀ h ∈ usedHeaders packet, h.type = .ipv4 → ∃ p, h.ptr = some p ∧
    ipv4Checksum packet.buffer p (Ipv4.ihl packet.buffer p * 4) = 0
  layer4 : ∃ p, layer4At packet = some p ∧
    rfc1071 (pseudoHeader packet ++ readBytes packet.buffer p (layer4Length packet)) = 0

/-- A byte of the addresses of the innermost IP header, or behind that header. -/
def MayBeWritten (packet : Packet) (i : Nat) : Prop :=
  (∃ ipv4, packet.ipv4 = some ipv4 ∧ ipv4 + 12 ≤ i ∧ i < ipv4 + 20) ∨
  (∃ ipv6, packet.ipv6 = some ipv6 ∧ ipv6 + 8 ≤ i ∧ i < ipv6 + 40) ∨
  ∃ p, layer4At packet = some p ∧ p ≤ i

/-- `later` is `packet` after bytes were written where they may be. -/
structure WrittenTo (packet later : Packet) : Prop where
  rest : later = { packet with buffer := later.buffer }
  frame : ∀ i, later.buffer i ≠ packet.buffer i → MayBeWritten packet i

/-! ## One checksum -/

section Fill

variable {b : Memory} {p len j : Nat} {pseudo : List UInt8} {x y : UInt8}
  {compute : Memory → Nat}

theorem readBytes_ofList : readBytes (.ofList pseudo) 0 pseudo.length = pseudo := by
  apply List.ext_getElem (by simp)
  intro i hi hi'
  simp [readBytes, Memory.ofList, List.getD, hi']

/-- The bytes around two that were written. -/
theorem readBytes_writeBytes_pair (hj : 2 * j + 2 ≤ len) :
    readBytes (writeBytes b (p + 2 * j) [x, y]) p len = readBytes b p (2 * j) ++ [x, y] ++
      readBytes b (p + (2 * j + 2)) (len - (2 * j + 2)) := by
  obtain ⟨n, rfl⟩ := Nat.exists_eq_add_of_le hj
  have hpair : readBytes (writeBytes b (p + 2 * j) [x, y]) (p + 2 * j) 2 = [x, y] :=
    readBytes_writeBytes
  rw [readBytes_append, readBytes_append, hpair, Nat.add_sub_cancel_left]
  congr 1
  · congr 1
    exact readBytes_congr fun i hi => writeBytes_outside (.inl (by omega))
  · exact readBytes_congr fun i hi =>
      writeBytes_outside (.inr (by simp only [List.length_cons, List.length_nil]; omega))

/-- Bytes verify, behind those of a pseudo-header, after their checksum was filled in. -/
theorem rfc1071_fillChecksum (heven : pseudo.length % 2 = 0) (hj : 2 * j + 2 ≤ len)
    (hsize : pseudo.length + len < 2 ^ 34)
    (hcompute : ∀ c : Memory, (∀ i, i ≠ p + 2 * j → i ≠ p + 2 * j + 1 → c i = b i) →
      compute c = ipChecksumFold
        (sumPieces 0 [⟨.ofList pseudo, 0, pseudo.length⟩, ⟨c, p, len⟩])) :
    rfc1071 (pseudo ++ readBytes (fillChecksum b (p + 2 * j) compute) p len) = 0 := by
  obtain ⟨hlt, hrfc⟩ := @ntohs_ipChecksumFold
    [⟨.ofList pseudo, 0, pseudo.length⟩, ⟨writeBytes b (p + 2 * j) (le16 0), p, len⟩]
    (by simpa using heven) (by simpa using hsize)
  have hcleared : compute (writeBytes b (p + 2 * j) (le16 0)) = _ := hcompute _ fun i h h' =>
    writeBytes_outside (by simp only [length_le16]; omega)
  simp only [List.flatMap_cons, List.flatMap_nil, List.append_nil, Piece.bytes,
    readBytes_ofList] at hrfc
  have hzero : le16 0 = be16 0 := rfl
  have hwrite (c : Memory) (w : Nat) : readBytes (writeBytes c (p + 2 * j) (be16 w)) p len =
      readBytes c p (2 * j) ++ be16 w ++ readBytes c (p + (2 * j + 2)) (len - (2 * j + 2)) :=
    readBytes_writeBytes_pair hj
  have hpre : readBytes (writeBytes b (p + 2 * j) (le16 0)) p (2 * j) = readBytes b p (2 * j) :=
    readBytes_congr fun i hi => writeBytes_outside (.inl (by omega))
  have hpost : readBytes (writeBytes b (p + 2 * j) (le16 0)) (p + (2 * j + 2))
      (len - (2 * j + 2)) = readBytes b (p + (2 * j + 2)) (len - (2 * j + 2)) :=
    readBytes_congr fun i hi => writeBytes_outside (.inr (by simp only [length_le16]; omega))
  rw [hzero, hwrite, ← List.append_assoc, ← List.append_assoc] at hrfc
  rw [fillChecksum, hcleared, le16_eq_be16_ntohs hlt, hzero, hrfc, hwrite, ← hzero, hpre, hpost,
    ← List.append_assoc, ← List.append_assoc]
  exact rfc1071_store (by simp only [List.length_append, length_readBytes]; omega)

end Fill

/-! ## The innermost headers -/

/-- The offset of the checksum field in a transport header. -/
def HeaderType.checkOffset : HeaderType → Nat
  | .tcp => 16
  | .udp => 6
  | _ => 2

/-- The fields of the IP header at `p` that `checksum_packet` reads. -/
structure Declares (b : Memory) (addressFamily : Int) (p : Nat) (l4 : HeaderType) (len : Nat) :
    Prop where
  inet : addressFamily = AF_INET → Ipv4.ihl b p = 5 ∧ Ipv4.totLen b p = IPV4_BYTES + len ∧
    Ipv4.protocol b p = l4.ipProto
  inet6 : addressFamily ≠ AF_INET → Ipv6.payloadLen b p = len ∧ Ipv6.nextHeader b p = l4.ipProto

/-- The innermost IP header stands at `p`, with `len` bytes behind it of which the first are the
transport header. -/
structure Innermost (packet : Packet) (addressFamily : Int) (p : Nat) (l4 : HeaderType)
    (len : Nat) : Prop where
  ipv4 : packet.ipv4 = if addressFamily = AF_INET then some p else none
  ipv6 : packet.ipv6 = if addressFamily = AF_INET then none else some p
  tcp : packet.tcp = if l4 = .tcp then some (p + ipHeaderBytes addressFamily) else none
  udp : packet.udp = if l4 = .udp then some (p + ipHeaderBytes addressFamily) else none
  icmpv4 : packet.icmpv4 = if l4 = .icmpv4 then some (p + ipHeaderBytes addressFamily) else none
  icmpv6 : packet.icmpv6 = if l4 = .icmpv6 then some (p + ipHeaderBytes addressFamily) else none
  kind : l4 = .tcp ∨ l4 = .udp ∨ l4 = icmpType addressFamily
  declares : Declares packet.buffer addressFamily p l4 len
  size : l4.checkOffset + 2 ≤ len
  room : ipHeaderBytes addressFamily + len ≤ packet.ipBytes
  short : len < 65536

/-- What is computed for the transport header. -/
def layer4Checksum (addressFamily : Int) (p : Nat) (l4 : HeaderType) (len : Nat) (b : Memory) :
    Nat :=
  let q := p + ipHeaderBytes addressFamily
  if addressFamily = AF_INET then
    if l4 = .icmpv4 then ipv4Checksum b q len else tcpUdpV4Checksum b p l4.ipProto q len
  else tcpUdpV6Checksum b p l4.ipProto q len

section Innermost

variable {packet later : Packet} {addressFamily : Int} {p len i : Nat} {l4 : HeaderType}
  {b c : Memory}

theorem Declares.congr (hd : Declares b addressFamily p l4 len)
    (h : ∀ k < ipHeaderBytes addressFamily, k < 8 ∨ k = 9 ∧ addressFamily = AF_INET →
      c (p + k) = b (p + k)) :
    Declares c addressFamily p l4 len := by
  unfold ipHeaderBytes at h
  constructor
  · intro hinet
    rw [if_pos hinet] at h
    obtain ⟨hihl, htot, hproto⟩ := hd.inet hinet
    have h0 : u8At c p = u8At b p := u8At_transfer (h 0 (by decide) (.inl (by decide)))
    have h2 : be16At c (p + 2) = be16At b (p + 2) :=
      be16At_transfer (h 2 (by decide) (.inl (by decide))) (h 3 (by decide) (.inl (by decide)))
    have h9 : u8At c (p + 9) = u8At b (p + 9) := u8At_transfer (h 9 (by decide) (.inr ⟨rfl, hinet⟩))
    exact ⟨by rwa [Ipv4.ihl, h0], by rwa [Ipv4.totLen, h2], by rwa [Ipv4.protocol, h9]⟩
  · intro hinet
    rw [if_neg hinet] at h
    obtain ⟨hlen, hproto⟩ := hd.inet6 hinet
    have h4 : be16At c (p + 4) = be16At b (p + 4) :=
      be16At_transfer (h 4 (by decide) (.inl (by decide))) (h 5 (by decide) (.inl (by decide)))
    have h6 : u8At c (p + 6) = u8At b (p + 6) := u8At_transfer (h 6 (by decide) (.inl (by decide)))
    exact ⟨by rwa [Ipv6.payloadLen, h4], by rwa [Ipv6.nextHeader, h6]⟩

theorem Innermost.layer4At (hi : Innermost packet addressFamily p l4 len) :
    layer4At packet = some (p + ipHeaderBytes addressFamily) := by
  unfold QoSMos.layer4At
  rw [hi.tcp, hi.udp, hi.icmpv4, hi.icmpv6]
  rcases hi.kind with rfl | rfl | rfl
  · rfl
  · rfl
  · unfold icmpType
    by_cases hinet : addressFamily = AF_INET <;> simp [hinet]

theorem Innermost.layer4CheckAt (hi : Innermost packet addressFamily p l4 len) :
    layer4CheckAt packet = some (p + ipHeaderBytes addressFamily + l4.checkOffset) := by
  unfold QoSMos.layer4CheckAt
  rw [hi.tcp, hi.udp, hi.icmpv4, hi.icmpv6]
  rcases hi.kind with rfl | rfl | rfl
  · rfl
  · rfl
  · unfold icmpType
    by_cases hinet : addressFamily = AF_INET <;>
      simp [hinet, Icmp.checksumAt, HeaderType.checkOffset]

/-- The fields that are read stay what they are. -/
theorem Innermost.written (hi : Innermost packet addressFamily p l4 len)
    (hw : WrittenTo packet later) : Innermost later addressFamily p l4 len := by
  have hdeclares : Declares later.buffer addressFamily p l4 len := by
    refine hi.declares.congr fun k hk hfield => ?_
    by_contra hne
    have hwritten := hw.frame _ hne
    unfold MayBeWritten at hwritten
    rw [hi.layer4At, hi.ipv4, hi.ipv6] at hwritten
    unfold ipHeaderBytes IPV4_BYTES IPV6_BYTES at hk hwritten
    by_cases hinet : addressFamily = AF_INET
    · simp only [hinet, if_true] at hk hwritten
      simp at hwritten
      omega
    · simp only [hinet, if_false, and_false, or_false] at hk hfield hwritten
      simp at hwritten
      omega
  rw [hw.rest]
  exact ⟨hi.ipv4, hi.ipv6, hi.tcp, hi.udp, hi.icmpv4, hi.icmpv6, hi.kind, hdeclares, hi.size,
    hi.room, hi.short⟩

/-- The bytes after the checksum of the IP header, if it has one, was filled in. -/
def ipFilled (b : Memory) (addressFamily : Int) (p : Nat) : Memory :=
  if addressFamily = AF_INET then
    fillChecksum b (p + 10) fun b => ipv4Checksum b p (Ipv4.ihl b p * 4)
  else b

theorem ipFilled_outside (h : addressFamily = AF_INET → i ≠ p + 10 ∧ i ≠ p + 11) :
    ipFilled b addressFamily p i = b i := by
  unfold ipFilled
  split
  · next hinet => exact fillChecksum_outside (h hinet).1 (h hinet).2
  · rfl

theorem Declares.filled (hd : Declares b addressFamily p l4 len) :
    Declares (ipFilled b addressFamily p) addressFamily p l4 len :=
  hd.congr fun k hk hfield => ipFilled_outside fun hinet => by omega

/-- The bytes after both checksums were filled in. -/
def checksummedBytes (b : Memory) (addressFamily : Int) (p : Nat) (l4 : HeaderType) (len : Nat) :
    Memory :=
  fillChecksum (ipFilled b addressFamily p) (p + ipHeaderBytes addressFamily + l4.checkOffset)
    (layer4Checksum addressFamily p l4 len)

theorem Innermost.run (hi : Innermost packet addressFamily p l4 len) :
    checksumPacket packet = .ok { packet with
      buffer := checksummedBytes packet.buffer addressFamily p l4 len } := by
  unfold checksummedBytes
  have hroom := hi.room
  have hsize := hi.size
  by_cases hinet : addressFamily = AF_INET
  · subst hinet
    obtain ⟨hihl, htot, -⟩ := hi.declares.filled.inet rfl
    have hfits : packet.ipBytes ≥ IPV4_BYTES + len := hroom
    have hcast : ((IPV4_BYTES + len : Nat) : Int) - (5 : Nat) * 4 = len := by
      simp only [IPV4_BYTES]
      omega
    have hpos : (len : Int) > 0 := by omega
    have hfilled : fillChecksum packet.buffer (Ipv4.checkAt p)
        (fun b => ipv4Checksum b p (Ipv4.ihl b p * 4)) =
        ipFilled packet.buffer AF_INET p := rfl
    have hcompute : layer4Checksum AF_INET p l4 len = fun b =>
        if l4 = .icmpv4 then ipv4Checksum b (p + IPV4_BYTES) len
        else tcpUdpV4Checksum b p l4.ipProto (p + IPV4_BYTES) len := rfl
    have hfamily : checksumPacket packet = checksumIpv4Packet packet p := by
      rw [checksumPacket, hi.ipv4]
      rfl
    rw [hfamily, hcompute]
    simp only [checksumIpv4Packet, hfilled, hihl, htot, hcast, require, if_pos hfits,
      if_pos hpos, hi.tcp, hi.udp, hi.icmpv4, Int.toNat_natCast]
    rcases hi.kind with rfl | rfl | hl4
    · rfl
    · rfl
    · rw [hl4]
      rfl
  · obtain ⟨hlen, -⟩ := hi.declares.inet6 hinet
    have hbytes : ipHeaderBytes addressFamily = IPV6_BYTES := if_neg hinet
    have hicmp : icmpType addressFamily = .icmpv6 := if_neg hinet
    have hfits : packet.ipBytes ≥ IPV6_BYTES + len := hbytes ▸ hroom
    have hpos : len > 0 := by omega
    have hfilled : ipFilled packet.buffer addressFamily p = packet.buffer := if_neg hinet
    have hfamily : checksumPacket packet = checksumIpv6Packet packet p := by
      rw [checksumPacket, hi.ipv4, hi.ipv6, if_neg hinet, if_neg hinet]
    rw [hfamily, hfilled]
    simp only [checksumIpv6Packet, hlen, require, if_pos hfits, if_pos hpos,
      hi.tcp, hi.udp, hi.icmpv6]
    have hcompute : layer4Checksum addressFamily p l4 len = fun b =>
        tcpUdpV6Checksum b p l4.ipProto (p + ipHeaderBytes addressFamily) len := by
      funext b
      simp [layer4Checksum, hinet]
    rw [hcompute]
    rcases hi.kind with rfl | rfl | hl4
    · rfl
    · rfl
    · rw [hl4, hicmp]
      rfl

theorem Innermost.layer4Length (hi : Innermost packet addressFamily p l4 len) :
    layer4Length packet = len := by
  unfold QoSMos.layer4Length
  rw [hi.ipv4, hi.ipv6]
  by_cases hinet : addressFamily = AF_INET
  · obtain ⟨hihl, htot, -⟩ := hi.declares.inet hinet
    simp only [hinet, if_true, hihl, htot, IPV4_BYTES]
    omega
  · obtain ⟨hlen, -⟩ := hi.declares.inet6 hinet
    simp only [hinet, if_false, hlen]

/-- The pseudo-header from what the checksum functions are called with. -/
def pseudoBytes (b : Memory) (addressFamily : Int) (p : Nat) (l4 : HeaderType) (len : Nat) :
    List UInt8 :=
  if addressFamily = AF_INET then
    if l4 = .icmpv4 then []
    else readBytes b (p + 12) 8 ++ [0, UInt8.ofNat l4.ipProto] ++ be16 len
  else readBytes b (p + 8) 32 ++ be32 len ++ [0, 0, 0, UInt8.ofNat l4.ipProto]

theorem u8At_eq_iff {x : UInt8} : u8At b i = x.toNat ↔ b i = x := UInt8.toNat_inj

theorem Innermost.pseudoHeader (hi : Innermost packet addressFamily p l4 len) :
    pseudoHeader packet = pseudoBytes packet.buffer addressFamily p l4 len := by
  unfold QoSMos.pseudoHeader pseudoBytes
  rw [hi.layer4Length, hi.ipv4, hi.ipv6, hi.icmpv4]
  have hproto := toNat_ipProto l4
  by_cases hinet : addressFamily = AF_INET
  · obtain ⟨-, -, hp⟩ := hi.declares.inet hinet
    have hbyte : packet.buffer (p + 9) = UInt8.ofNat l4.ipProto := u8At_eq_iff.mp (hp.trans
      hproto.symm)
    by_cases hicmp : l4 = .icmpv4 <;> simp [hinet, hicmp, hbyte]
  · obtain ⟨-, hp⟩ := hi.declares.inet6 hinet
    have hbyte : packet.buffer (p + 6) = UInt8.ofNat l4.ipProto := u8At_eq_iff.mp (hp.trans
      hproto.symm)
    simp [hinet, hbyte]

theorem length_pseudoBytes : (pseudoBytes b addressFamily p l4 len).length % 2 = 0 ∧
    (pseudoBytes b addressFamily p l4 len).length ≤ 40 := by
  unfold pseudoBytes
  split_ifs <;> simp

theorem pseudoBytes_congr (h : ∀ k, 8 ≤ k → k < ipHeaderBytes addressFamily →
    (addressFamily = AF_INET → 12 ≤ k) → c (p + k) = b (p + k)) :
    pseudoBytes c addressFamily p l4 len = pseudoBytes b addressFamily p l4 len := by
  unfold ipHeaderBytes IPV4_BYTES IPV6_BYTES at h
  unfold pseudoBytes
  by_cases hinet : addressFamily = AF_INET
  · simp only [hinet, if_true] at h ⊢
    have hread : readBytes c (p + 12) 8 = readBytes b (p + 12) 8 := readBytes_congr fun i hi => by
      rw [Nat.add_assoc]
      exact h _ (by omega) (by omega) (fun _ => by omega)
    rw [hread]
  · simp only [hinet, if_false] at h ⊢
    have hread : readBytes c (p + 8) 32 = readBytes b (p + 8) 32 := readBytes_congr fun i hi => by
      rw [Nat.add_assoc]
      exact h _ (by omega) (by omega) (fun h => h.elim)
    rw [hread]

theorem layer4Checksum_eq : layer4Checksum addressFamily p l4 len b =
    ipChecksumFold (sumPieces 0 [⟨.ofList (pseudoBytes b addressFamily p l4 len), 0,
      (pseudoBytes b addressFamily p l4 len).length⟩, ⟨b, p + ipHeaderBytes addressFamily, len⟩]) :=
      by
  unfold layer4Checksum pseudoBytes
  by_cases hinet : addressFamily = AF_INET
  · by_cases hicmp : l4 = .icmpv4
    · simp only [hinet, hicmp, if_true]
      rfl
    · have haddresses : readBytes b (p + 12) 8 =
        readBytes b (p + 12) 4 ++ readBytes b (p + 16) 4 := @readBytes_append b (p + 12) 4 4
      simp only [hinet, hicmp, if_true, if_false, haddresses]
      rfl
  · have haddresses : readBytes b (p + 8) 32 =
      readBytes b (p + 8) 16 ++ readBytes b (p + 24) 16 := @readBytes_append b (p + 8) 16 16
    simp only [hinet, if_false, haddresses]
    rfl

theorem ipHeaderBytes_le : IPV4_BYTES ≤ ipHeaderBytes addressFamily := by
  unfold ipHeaderBytes
  split <;> decide

/-- The transport checksum is behind the IP header. -/
theorem checksummedBytes_ip (h : i < p + ipHeaderBytes addressFamily) :
    checksummedBytes b addressFamily p l4 len i = ipFilled b addressFamily p i :=
  fillChecksum_outside (by omega) (by omega)

theorem Declares.checksummed (hd : Declares b addressFamily p l4 len) :
    Declares (checksummedBytes b addressFamily p l4 len) addressFamily p l4 len :=
  hd.filled.congr fun _ hk _ => checksummedBytes_ip (Nat.add_lt_add_left hk p)

/-- The checksum of the IPv4 header. -/
theorem Declares.checksummed_ipv4 (hd : Declares b AF_INET p l4 len) :
    ChecksumVerifies (checksummedBytes b AF_INET p l4 len) p (5 * 4) := by
  have hihl : Ipv4.ihl b p = 5 := (hd.inet rfl).1
  have hfill : ipFilled b AF_INET p =
      fillChecksum b (p + 2 * 5) fun b => ipv4Checksum b p (Ipv4.ihl b p * 4) := if_pos rfl
  have hfilled : ChecksumVerifies (ipFilled b AF_INET p) p (5 * 4) := by
    rw [hfill]
    refine checksumVerifies_fill (by decide) (by decide) fun c hc => ?_
    have h0 : u8At c p = u8At b p := u8At_transfer (hc p (by omega) (by omega))
    have hihlc : Ipv4.ihl c p = 5 := by rwa [Ipv4.ihl, h0]
    rw [hihlc]
  refine (ChecksumVerifies.congr fun i hi => ?_).mpr hfilled
  have hlt : i < ipHeaderBytes AF_INET := hi
  exact checksummedBytes_ip (Nat.add_lt_add_left hlt p)

/-- The checksum of the transport header. -/
theorem rfc1071_checksummedBytes (hsize : l4.checkOffset + 2 ≤ len) (hshort : len < 65536) :
    rfc1071 (pseudoBytes (checksummedBytes b addressFamily p l4 len) addressFamily p l4 len ++
      readBytes (checksummedBytes b addressFamily p l4 len) (p + ipHeaderBytes addressFamily)
        len) = 0 := by
  obtain ⟨heven, hle⟩ :=
    @length_pseudoBytes addressFamily p len l4 (ipFilled b addressFamily p)
  have hoffset : l4.checkOffset = 2 * (l4.checkOffset / 2) := by cases l4 <;> rfl
  have hsame : pseudoBytes (checksummedBytes b addressFamily p l4 len) addressFamily p l4 len =
      pseudoBytes (ipFilled b addressFamily p) addressFamily p l4 len :=
    pseudoBytes_congr fun _ _ hk _ => checksummedBytes_ip (Nat.add_lt_add_left hk p)
  rw [hsame, checksummedBytes, hoffset]
  refine rfc1071_fillChecksum heven (by omega) (by omega) fun c hc => ?_
  have hpseudo : pseudoBytes c addressFamily p l4 len =
      pseudoBytes (ipFilled b addressFamily p) addressFamily p l4 len :=
    pseudoBytes_congr fun _ _ hk _ => hc _ (by omega) (by omega)
  rw [layer4Checksum_eq, hpseudo]

/-- What `checksum_packet` leaves where the innermost headers stand. -/
structure SumsFilled (packet checksummed : Packet) (addressFamily : Int) (p : Nat) : Prop where
  rest : checksummed = { packet with buffer := checksummed.buffer }
  frame : ∀ i, checksummed.buffer i ≠ packet.buffer i → IsChecksumByte packet i
  ipv4 : addressFamily = AF_INET →
    ipv4Checksum checksummed.buffer p (Ipv4.ihl checksummed.buffer p * 4) = 0
  layer4 : ∃ q, QoSMos.layer4At checksummed = some q ∧ rfc1071 (QoSMos.pseudoHeader checksummed ++
    readBytes checksummed.buffer q (QoSMos.layer4Length checksummed)) = 0

theorem Innermost.checksummed (hi : Innermost packet addressFamily p l4 len) :
    ∃ checksummed, checksumPacket packet = .ok checksummed ∧
      SumsFilled packet checksummed addressFamily p := by
  have hinner : Innermost { packet with
      buffer := checksummedBytes packet.buffer addressFamily p l4 len } addressFamily p l4 len :=
    ⟨hi.ipv4, hi.ipv6, hi.tcp, hi.udp, hi.icmpv4, hi.icmpv6, hi.kind, hi.declares.checksummed,
      hi.size, hi.room, hi.short⟩
  refine ⟨_, hi.run, rfl, fun i hne => ?_, fun hinet => ?_, _, hinner.layer4At, ?_⟩
  · by_cases hcheck : i = p + ipHeaderBytes addressFamily + l4.checkOffset ∨
        i = p + ipHeaderBytes addressFamily + l4.checkOffset + 1
    · exact ⟨_, .inr hi.layer4CheckAt, hcheck⟩
    · rw [not_or] at hcheck
      have hip : ¬ (addressFamily = AF_INET → i ≠ p + 10 ∧ i ≠ p + 11) := fun hout =>
        hne ((fillChecksum_outside hcheck.1 hcheck.2).trans (ipFilled_outside hout))
      rw [Classical.not_imp, not_and_or, not_not, not_not] at hip
      exact ⟨p + 10, .inl (by rw [hi.ipv4, if_pos hip.1]; rfl), hip.2⟩
  · subst hinet
    obtain ⟨hihl, -⟩ := hi.declares.checksummed.inet rfl
    rw [hihl]
    exact (ipv4Checksum_eq_zero_iff _ _ _ (by decide)).mpr hi.declares.checksummed_ipv4
  · rw [hinner.pseudoHeader, hinner.layer4Length]
    exact rfc1071_checksummedBytes hi.size hi.short

end Innermost

end QoSMos
