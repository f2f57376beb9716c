import QoSMos.Build.Fields
import QoSMos.Build.Icmp

/-!
# Declared lengths

The builders compute lengths as `int` and store them in 16 bits. The limit of a datagram is one
byte above what 16 bits hold, and a raw ICMP message has no limit.
-/

namespace QoSMos

open Returns

def FitsInt (x : Int) : Prop := -2147483648 ≤ x ∧ x ≤ 2147483647

/-- The length of the packet in its IP header. -/
def declaredLength (packet : Packet) : Nat :=
  match packet.ipv4, packet.ipv6 with
  | some ipv4, _ => Ipv4.totLen packet.buffer ipv4
  | none, some ipv6 => IPV6_BYTES + Ipv6.payloadLen packet.buffer ipv6
  | none, none => 0

/-- A call of one of the three builders. -/
inductive BuilderCall where
  | tcp (args : TcpArgs)
  | udp (args : UdpArgs)
  | icmp (args : IcmpArgs)

def BuilderCall.run (heap : Memory) : BuilderCall → Except Halt (Except String FullPacket)
  | .tcp args => newTcpPacket heap args
  | .udp args => newUdpPacket heap args
  | .icmp args => newIcmpPacket heap args

/-- The header of the protocol that an ICMP message is about. -/
def IcmpArgs.echoedLayer4Bytes (args : IcmpArgs) : Nat :=
  if args.protocol = IPPROTO_TCP then TCP_BYTES else UDP_BYTES

/-- What a builder computes as `int`, without overflow. -/
def BuilderCall.intValues : BuilderCall → List Int
  | .tcp args =>
    let ipHeaderBytes := ipHeaderBytes args.addressFamily
    let tcpHeaderBytes := TCP_BYTES + args.optionLength
    let payloadBytes := args.tcpPayloadBytes.toNat
    [ipHeaderBytes, tcpHeaderBytes, ipHeaderBytes + tcpHeaderBytes,
      ipHeaderBytes + tcpHeaderBytes + payloadBytes, tcpHeaderBytes + payloadBytes]
  | .udp args =>
    let ipHeaderBytes := ipHeaderBytes args.addressFamily
    let payloadBytes := args.udpPayloadBytes.toNat
    [ipHeaderBytes, ipHeaderBytes + UDP_BYTES, ipHeaderBytes + UDP_BYTES + payloadBytes,
      UDP_BYTES + payloadBytes]
  | .icmp args =>
    let ipHeaderBytes := ipHeaderBytes args.addressFamily
    let payloadBytes := args.payloadBytes.toNat
    if args.Echoes then
      let echoedBytes := ipHeaderBytes + ICMP_ECHO_BYTES
      [ipHeaderBytes, echoedBytes, ICMPV4_BYTES + echoedBytes,
        ipHeaderBytes + (ICMPV4_BYTES + echoedBytes), ipHeaderBytes + args.echoedLayer4Bytes,
        ipHeaderBytes + args.echoedLayer4Bytes + payloadBytes]
    else [ipHeaderBytes, payloadBytes, ipHeaderBytes + payloadBytes]

/-- The lengths in a built packet are those of the packet, and none was computed with overflow. -/
structure LengthsDeclared (call : BuilderCall) (packet : FullPacket) : Prop where
  ip : declaredLength packet.toPacket = packet.ipBytes
  udp : ∀ args, call = .udp args → ∃ udp, packet.udp = some udp ∧
    Udp.len packet.buffer udp = UDP_BYTES + args.udpPayloadBytes.toNat
  total : (packet.headers.toList.getD 0 Header.unused).totalBytes = packet.ipBytes
  ints : ∀ x ∈ call.intValues, FitsInt x

/-- The packet that is asked for fits the 16 bits of its length, and the one that an ICMP message
is about fits an `int`. -/
def BuilderCall.Fits : BuilderCall → Prop
  | .tcp args => ipHeaderBytes args.addressFamily + TCP_BYTES + args.optionLength +
      args.tcpPayloadBytes.toNat < 65536
  | .udp args => ipHeaderBytes args.addressFamily + UDP_BYTES + args.udpPayloadBytes.toNat < 65536
  | .icmp args =>
    if args.Echoes then ipHeaderBytes args.addressFamily + args.echoedLayer4Bytes +
      args.payloadBytes.toNat < 2147483648
    else ipHeaderBytes args.addressFamily + args.payloadBytes.toNat < 65536

section Declared

variable {heap : Memory} {packet : FullPacket} {call : BuilderCall} {addressFamily : Int}
  {tos ttl protocol : UInt8} {flowLabel : UInt32} {ip l4 : Header}

/-- What the IP header and the table say of a packet of `packet.ipBytes` bytes. -/
structure IpDeclares (packet : FullPacket) (addressFamily : Int) : Prop where
  family : addressFamily = AF_INET ∨ addressFamily = AF_INET6
  ipv4 : packet.ipv4 = if addressFamily = AF_INET then some 0 else none
  ipv6 : packet.ipv6 = if addressFamily = AF_INET then none else some 0
  totalBytes : (packet.headers.toList.getD 0 Header.unused).totalBytes = packet.ipBytes % 65536
  room : ipHeaderBytes addressFamily ≤ packet.ipBytes
  bytes : ∃ tos flowLabel ttl protocol, ∀ k < ipHeaderBytes addressFamily, packet.buffer k =
    (ipHeader addressFamily (UInt16.ofNat packet.ipBytes) tos flowLabel ttl protocol).getD k 0

/-- The two lengths are right where the packet fits 16 bits. -/
theorem IpDeclares.lengths_iff (h : IpDeclares packet addressFamily) :
    (declaredLength packet.toPacket = packet.ipBytes ∧
      (packet.headers.toList.getD 0 Header.unused).totalBytes = packet.ipBytes) ↔
      packet.ipBytes < 65536 := by
  obtain ⟨tos, flowLabel, ttl, protocol, hbytes⟩ := h.bytes
  have htotal := h.totalBytes
  have hroom := h.room
  have hu16 : (UInt16.ofNat packet.ipBytes).toNat = packet.ipBytes % 65536 := UInt16.toNat_ofNat'
  have hholds : HoldsExcept packet.buffer 0 (ipHeader addressFamily
      (UInt16.ofNat packet.ipBytes) tos flowLabel ttl protocol) 10 := by
    intro k hk _ _
    rw [length_ipHeader] at hk
    rw [Nat.zero_add]
    exact hbytes k hk
  constructor
  · rintro ⟨-, htot⟩
    omega
  · intro hlt
    refine ⟨?_, by omega⟩
    unfold declaredLength
    rw [h.ipv4, h.ipv6]
    rcases h.family with rfl | rfl
    · rw [if_pos rfl]
      have hset := (ipv4Set_of_holds hholds).totLen
      dsimp only
      omega
    · rw [if_neg (by decide), if_neg (by decide)]
      have hset := (ipv6Set_of_holds hholds (by omega)).payloadLen
      have hsize : ipHeaderBytes AF_INET6 = IPV6_BYTES := rfl
      dsimp only
      omega

theorem BuiltAs.ipDeclares {l4 : HeaderType} {l4Bytes : List UInt8} {payload : Nat}
    (hfamily : addressFamily = AF_INET ∨ addressFamily = AF_INET6)
    (hb : BuiltAs packet (ipType addressFamily) l4 (ipHeader addressFamily
      (UInt16.ofNat packet.ipBytes) tos flowLabel ttl protocol) l4Bytes payload) :
    IpDeclares packet addressFamily := by
  have hlength := hb.length
  have hentries := hb.table.entries
  rw [length_ipHeader] at hlength
  refine ⟨hfamily, ?_, ?_, ?_, by omega, tos, flowLabel, ttl, protocol, fun k hk => ?_⟩
  · rcases hfamily with rfl | rfl <;> exact hb.ipv4
  · rcases hfamily with rfl | rfl <;> exact hb.ipv6
  · rw [hentries]
    rfl
  · rw [hb.holds k (by rw [length_ipHeader]; omega),
      List.getD_append _ _ _ _ (by rwa [length_ipHeader])]

theorem IcmpBuilt.ipDeclares {args : IcmpArgs} (hb : IcmpBuilt args packet) :
    IpDeclares packet args.addressFamily := by
  refine ⟨hb.family, hb.ipv4, hb.ipv6, ?_, Nat.le_of_add_right_le hb.room, _, _, _, _, hb.ipHeader⟩
  rw [hb.table.entries]
  rfl

theorem ipHeaderBytes_bounds :
    20 ≤ ipHeaderBytes addressFamily ∧ ipHeaderBytes addressFamily ≤ 40 := by
  unfold ipHeaderBytes
  split <;> decide

/-- The lengths that `new_icmp_packet` has checked before it returns a packet. -/
theorem newIcmpPacket_lengths {args : IcmpArgs}
    (hok : newIcmpPacket heap args = .ok (.ok packet)) :
    ∃ echoedBytes icmpBytes ipBytes, args.lengths (ipHeaderBytes args.addressFamily)
        (ipHeaderBytes args.addressFamily + 0) ICMPV4_BYTES = (echoedBytes, icmpBytes, ipBytes) ∧
      ¬ icmpBytes < ICMPV4_BYTES ∧ ¬ ipBytes < 0 ∧ packet.ipBytes = ipBytes.toNat := by
  obtain ⟨echoedBytes, icmpBytes, ipBytes, hcall⟩ := icmpCall_of_newIcmpPacket hok
  obtain ⟨withIp, start, withIcmp, type, code, -, -, -, buffer, -, rfl⟩ := hcall.steps
  exact ⟨echoedBytes, icmpBytes, ipBytes, hcall.lengths, hcall.message, hcall.total, rfl⟩

/-- A raw message has the length asked for. -/
theorem newIcmpPacket_raw {args : IcmpArgs} (hok : newIcmpPacket heap args = .ok (.ok packet))
    (hraw : ¬ args.Echoes) :
    packet.ipBytes = ipHeaderBytes args.addressFamily + args.payloadBytes.toNat ∧
      packet.ipBytes < 2147483648 := by
  obtain ⟨echoedBytes, icmpBytes, ipBytes, hlengths, hshort, hneg, hpacket⟩ :=
    newIcmpPacket_lengths hok
  have hbounds := @ipHeaderBytes_bounds args.addressFamily
  have hpayload := args.payloadBytes.toNat_lt
  have hmin : ICMPV4_BYTES = 8 := rfl
  unfold IcmpArgs.lengths at hlengths
  rw [if_neg hraw] at hlengths
  split_ifs at hlengths
  · simp only [Prod.mk.injEq, intOfU32] at hlengths
    obtain ⟨-, hicmp, hip⟩ := hlengths
    split_ifs at hicmp hip <;> omega
  · simp only [Prod.mk.injEq] at hlengths
    omega

theorem IpDeclares.declared_iff (h : IpDeclares packet addressFamily)
    (hudp : packet.ipBytes < 65536 → ∀ args, call = .udp args → ∃ udp, packet.udp = some udp ∧
      Udp.len packet.buffer udp = UDP_BYTES + args.udpPayloadBytes.toNat) :
    LengthsDeclared call packet ↔
      packet.ipBytes < 65536 ∧ ∀ x ∈ call.intValues, FitsInt x := by
  constructor
  · intro hd
    exact ⟨h.lengths_iff.mp ⟨hd.ip, hd.total⟩, hd.ints⟩
  · rintro ⟨hlt, hints⟩
    obtain ⟨hip, htotal⟩ := h.lengths_iff.mpr hlt
    exact ⟨hip, hudp hlt, htotal, hints⟩

theorem UdpBuilt.len {args : UdpArgs} (hb : UdpBuilt args packet) (hlt : packet.ipBytes < 65536) :
    ∃ udp, packet.udp = some udp ∧
      Udp.len packet.buffer udp = UDP_BYTES + args.udpPayloadBytes.toNat := by
  have hlength := hb.built.length
  have hholds := hb.built.holds
  have hudp := hb.built.udp
  rw [length_ipHeader, length_udpHeader] at hlength
  rw [length_ipHeader] at hholds hudp
  refine ⟨_, hudp, (udpSet_of_holds fun k hk _ _ => ?_).len (by omega)⟩
  rw [hholds _ (by omega), List.getD_append_right _ _ _ _ (by rw [length_ipHeader]; omega),
    length_ipHeader, Nat.add_sub_cancel_left]

/-- The lengths are declared as they are, and computed without overflow, if and only if the packet
fits. -/
theorem lengthsDeclared_iff (hok : call.run heap = .ok (.ok packet)) :
    LengthsDeclared call packet ↔ call.Fits := by
  cases call with
  | tcp args =>
    have hb := newTcpPacket_built hok
    have hlength := hb.built.length
    have hheader := hb.header
    have hpayload := args.tcpPayloadBytes.toNat_lt
    have hbounds := @ipHeaderBytes_bounds args.addressFamily
    rw [length_ipHeader, List.length_append, length_tcpHeader, hb.options] at hlength
    rw [hb.built.ipDeclares hb.family |>.declared_iff (by simp), BuilderCall.Fits]
    simp only [BuilderCall.intValues, List.forall_mem_cons, List.not_mem_nil, false_implies,
      implies_true, and_true, FitsInt]
    simp only [TCP_BYTES, MAX_TCP_HEADER_BYTES] at hlength hheader ⊢
    omega
  | udp args =>
    have hb := newUdpPacket_built hok
    have hlength := hb.built.length
    have hpayload := args.udpPayloadBytes.toNat_lt
    have hbounds := @ipHeaderBytes_bounds args.addressFamily
    rw [length_ipHeader, length_udpHeader] at hlength
    rw [hb.built.ipDeclares hb.family |>.declared_iff ?_, BuilderCall.Fits]
    · simp only [BuilderCall.intValues, List.forall_mem_cons, List.not_mem_nil, false_implies,
        implies_true, and_true, FitsInt]
      simp only [UDP_BYTES] at hlength ⊢
      omega
    · rintro hlt _ ⟨⟩
      exact hb.len hlt
  | icmp args =>
    have hb := newIcmpPacket_built hok
    have hpayload := args.payloadBytes.toNat_lt
    have hbounds := @ipHeaderBytes_bounds args.addressFamily
    rw [hb.ipDeclares.declared_iff (by simp), BuilderCall.Fits]
    by_cases hechoes : args.Echoes
    · have hlength := (hb.echoed hechoes).1
      have hlayer4 : args.echoedLayer4Bytes ≤ 20 := by
        unfold IcmpArgs.echoedLayer4Bytes
        split <;> decide
      simp only [BuilderCall.intValues, if_pos hechoes, List.forall_mem_cons, List.not_mem_nil,
        false_implies, implies_true, and_true, FitsInt]
      simp only [ICMPV4_BYTES, ICMP_ECHO_BYTES] at hlength ⊢
      omega
    · obtain ⟨hlength, hlt⟩ := newIcmpPacket_raw hok hechoes
      simp only [BuilderCall.intValues, if_neg hechoes, List.forall_mem_cons, List.not_mem_nil,
        false_implies, implies_true, and_true, FitsInt]
      omega

end Declared

/-- A segment without options over IPv4. -/
def segmentArgs (tcpPayloadBytes : UInt16) : TcpArgs where
  addressFamily := AF_INET
  direction := .inbound
  ipInfo := ⟨⟨.none, 0⟩, 0, 64⟩
  srcPort := 8080
  dstPort := 443
  flags := ".".toList
  startSequence := 1
  tcpPayloadBytes := tcpPayloadBytes
  ackSequence := 1
  window := 65535
  urgPtr := 0
  tcpOptions := none

theorem lengthsDeclared_largest : ∃ packet,
    (BuilderCall.tcp (segmentArgs 65495)).run (fun _ => 0) = .ok (.ok packet) ∧
      LengthsDeclared (.tcp (segmentArgs 65495)) packet := by
  obtain ⟨packet, hok⟩ : ∃ packet,
    (BuilderCall.tcp (segmentArgs 65495)).run (fun _ => 0) = .ok (.ok packet) := ⟨_, rfl⟩
  refine ⟨packet, hok, (lengthsDeclared_iff hok).mpr ?_⟩
  show 20 + 20 + 0 + 65495 < 65536
  decide

/-- A segment of 65536 bytes passes the limit and declares the length zero. -/
theorem not_forall_lengthsDeclared : ¬ ∀ (heap : Memory) (call : BuilderCall) (packet : FullPacket),
    call.run heap = .ok (.ok packet) → LengthsDeclared call packet := by
  intro h
  obtain ⟨packet, hok, hbytes⟩ : ∃ packet,
    (BuilderCall.tcp (segmentArgs 65496)).run (fun _ => 0) = .ok (.ok packet) ∧
      packet.ipBytes = 65536 := ⟨_, rfl, rfl⟩
  have hd := h _ _ _ hok
  have hb : TcpBuilt (segmentArgs 65496) packet := newTcpPacket_built hok
  have hlt := (hb.built.ipDeclares hb.family).lengths_iff.mp ⟨hd.ip, hd.total⟩
  omega

end QoSMos
