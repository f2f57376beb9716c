import QoSMos.Build.Fields
import QoSMos.Parser.Invariants

/-!
# Building, checksumming and parsing

A packet of at most 65535 bytes from `new_tcp_packet` or `new_udp_packet` is accepted by
the parser once its checksums are filled in, and shows its caller's arguments. The builders
and the parser compute the layout of a packet independently; `LaidOut` is where they meet.
-/

namespace QoSMos

open Returns LabelledPath

/-- The IP header of a packet shows the address family and `ip_info` it was built for. -/
structure ShowsIp (packet : Packet) (addressFamily : Int) (ipInfo : IpInfo) : Prop where
  inet : addressFamily = AF_INET → ∃ ipv4, packet.ipv4 = some ipv4 ∧ packet.ipv6 = none ∧
    Ipv4.tos packet.buffer ipv4 = ipInfo.tos.value.toNat ∧
    (ipInfo.ttl ≠ 0 → Ipv4.ttl packet.buffer ipv4 = ipInfo.ttl.toNat)
  inet6 : addressFamily = AF_INET6 → ∃ ipv6, packet.ipv6 = some ipv6 ∧ packet.ipv4 = none ∧
    Ipv6.tosByte packet.buffer ipv6 = ipInfo.tos.value.toNat ∧
    (ipInfo.ttl ≠ 0 → Ipv6.hopLimit packet.buffer ipv6 = ipInfo.ttl.toNat) ∧
    (ipInfo.flowLabel.toNat < 2 ^ 20 →
      Ipv6.flowLabel packet.buffer ipv6 = ipInfo.flowLabel.toNat)

/-- The packet has `len` bytes of payload, all zero. -/
def ShowsZeros (packet : Packet) (len : Nat) : Prop :=
  packetPayloadLen packet = .ok len ∧
  ∃ payload, packetPayload packet = .ok payload ∧ ∀ i < len, packet.buffer (payload + i) = 0

/-- The TCP header, options and payload of a packet show the arguments of `new_tcp_packet`. -/
def ShowsTcp (packet : Packet) (args : TcpArgs) : Prop :=
  ∃ tcp, packet.tcp = some tcp ∧ packet.udp = none ∧ TcpSet packet.buffer tcp args ∧
    readBytes packet.buffer (tcp + TCP_BYTES) args.optionLength = args.optionBytes ∧
    ShowsZeros packet args.tcpPayloadBytes.toNat

/-- The UDP header and payload of a packet show the arguments of `new_udp_packet`. -/
def ShowsUdp (packet : Packet) (args : UdpArgs) : Prop :=
  ∃ udp, packet.udp = some udp ∧ packet.tcp = none ∧ UdpSet packet.buffer udp args ∧
    ShowsZeros packet args.udpPayloadBytes.toNat

/-- Once its checksums are filled in, the bytes of the packet parse as a datagram with an IP
header and a transport header, and the parsed packet satisfies `Shows`. -/
def RoundTrips (packet : FullPacket) (ip l4 : HeaderType) (l4HeaderBytes : Nat)
    (Shows : Packet → Prop) : Prop :=
  ∃ checksummed s g h, checksumPacket packet.toPacket = .ok checksummed ∧
    runParsePacket checksummed.buffer packet.ipBytes packet.ipBytes .layer3Ip = .ok (.ok, s) ∧
    Table s.packet [g, h] ∧ g.type = ip ∧ h.type = l4 ∧ h.headerBytes = l4HeaderBytes ∧
    Shows s.packet

section

variable {packet : FullPacket} {b : Memory} {ip l4 : HeaderType} {ipB l4B : List UInt8}
  {payload check : Nat} {ipBytes : UInt16} {tos ttl protocol : UInt8} {flowLabel : UInt32}

/-- What is left of a built packet after its checksums were filled in. -/
structure Checksummed (b : Memory) (ipB l4B : List UInt8) (payload check : Nat) : Prop where
  ip : HoldsExcept b 0 ipB 10
  l4 : HoldsExcept b ipB.length l4B check
  zeros : ∀ i < payload, b (ipB.length + l4B.length + i) = 0

theorem BuiltAs.checksummed (hb : BuiltAs packet ip l4 ipB l4B payload)
    (hframe : ∀ i, i ≠ 10 → i ≠ 11 → i ≠ ipB.length + check → i ≠ ipB.length + check + 1 →
      b i = packet.buffer i)
    (hip : 12 ≤ ipB.length) (hcheck : check + 2 ≤ l4B.length) :
    Checksummed b ipB l4B payload check := by
  refine ⟨fun k hk h h' => ?_, fun k hk h h' => ?_, fun i hi => ?_⟩
  · rw [Nat.zero_add, hframe k h h' (by omega) (by omega), hb.holds k (by omega),
      List.getD_append _ _ _ _ hk]
  · rw [hframe _ (by omega) (by omega) (by omega) (by omega), hb.holds _ (by omega),
      List.getD_append_right _ _ _ _ (by omega), Nat.add_sub_cancel_left]
  · rw [hframe _ (by omega) (by omega) (by omega) (by omega), hb.holds _ (by omega),
      List.getD_eq_default _ _ (by simp)]

/-- The IP header of a checksummed packet is in its place. -/
theorem Checksummed.placed_ip {addressFamily : Int} {l4 : HeaderType} {n : Nat}
    (hfamily : addressFamily = AF_INET ∨ addressFamily = AF_INET6)
    (hc : Checksummed b (ipHeader addressFamily (UInt16.ofNat n) tos flowLabel ttl protocol) l4B
      payload check)
    (hverifies : addressFamily = AF_INET → ChecksumVerifies b 0 IPV4_BYTES)
    (hproto : protocol.toNat = l4.ipProto) (hl4 : l4 = .tcp ∨ l4 = .udp)
    (hmin : ipHeaderBytes addressFamily ≤ n) (hmax : n < 65536) :
    Placed b n 0 ⟨ipType addressFamily, ipHeaderBytes addressFamily, n, some 0⟩ l4 := by
  have hu16 : (UInt16.ofNat n).toNat = n := by simp; omega
  have hcarries : HeaderType.carries (ipType addressFamily) l4 = true := by
    unfold ipType
    rcases hl4 with rfl | rfl <;> split <;> rfl
  have hnotTunnel : ¬ (ipType addressFamily = .gre ∨ ipType addressFamily = .mpls) := by
    unfold ipType
    split <;> simp
  refine ⟨⟨rfl, hcarries, fun h => absurd h hnotTunnel, ?_⟩, by simp, ?_⟩
  · exact (shape_ip hfamily hc.ip n n (some 0)).1
  · rcases hfamily with rfl | rfl
    · have hset := ipv4Set_of_holds hc.ip
      refine ⟨?_, ?_, ?_⟩
      · rw [hset.totLen, hu16, Nat.zero_add]
      · rw [hset.protocol, hproto]
      · have hlt : IPV4_BYTES < 2 ^ 32 := by decide
        exact (ipv4Checksum_eq_zero_iff _ _ _ hlt).mpr (hverifies rfl)
    · have hset := ipv6Set_of_holds hc.ip (by omega)
      refine ⟨?_, ?_⟩
      · have : IPV6_BYTES ≤ n := hmin
        rw [hset.payloadLen, hu16]
        show 0 + IPV6_BYTES + (n - IPV6_BYTES) = n
        omega
      · rw [hset.nextHeader, hproto]

/-- The parsed packet shows the `ip_info` it was built for. -/
theorem Checksummed.showsIp {addressFamily : Int} {ipInfo : IpInfo} {parsed : Packet}
    (hc : Checksummed parsed.buffer (ipHeader addressFamily ipBytes ipInfo.tos.value
      ipInfo.flowLabel ipInfo.ttl protocol) l4B payload check)
    (h4 : parsed.ipv4 = if ipType addressFamily = .ipv4 then some 0 else none)
    (h6 : parsed.ipv6 = if ipType addressFamily = .ipv6 then some 0 else none) :
    ShowsIp parsed addressFamily ipInfo := by
  constructor
  · rintro rfl
    have hset := ipv4Set_of_holds hc.ip
    exact ⟨0, h4, h6, hset.tos, hset.ttl⟩
  · rintro rfl
    have hset := ipv6Set_of_holds hc.ip (by omega)
    refine ⟨0, h6, h4, hset.tosByte, hset.hopLimit, fun hlt => ?_⟩
    rw [hset.flowLabel, Nat.mod_eq_of_lt hlt]

/-- A datagram of two headers that is laid out is parsed to those headers. -/
theorem LaidOut.parsed {n : Nat} {g h : Header} (hl : LaidOut b n 0 [g, h])
    (hg : g.type = .ipv4 ∨ g.type = .ipv6) (hversion : VersionAt b 0 g.type)
    (hh : h.type = .tcp ∨ h.type = .udp) :
    ∃ s, runParsePacket b n n .layer3Ip = .ok (.ok, s) ∧ s.packet.buffer = b ∧
      Table s.packet [g, h] ∧
      s.packet.ipv4 = (if g.type = .ipv4 then some 0 else none) ∧
      s.packet.ipv6 = (if g.type = .ipv6 then some 0 else none) ∧
      s.packet.tcp = (if h.type = .tcp then some g.headerBytes else none) ∧
      s.packet.udp = (if h.type = .udp then some g.headerBytes else none) ∧
      packetPayload s.packet = .ok (g.headerBytes + h.headerBytes) ∧
      packetPayloadLen s.packet = .ok ((n : Int) - (g.headerBytes + h.headerBytes)) := by
  have hstack : HeaderStack b n .layer3Ip [g, h] :=
    hl.headerStack (by simp [PACKET_MAX_HEADERS]) hg hversion
  obtain ⟨s, hrun, hpacket⟩ := hstack.accepted le_rfl
  have hgip : g.type.isIp = true := by rcases hg with hg | hg <;> simp [hg, HeaderType.isIp]
  have hinner : ∀ x ∈ [h], ¬ x.type.isIp = true := by
    rcases hh with hh | hh <;> simp [hh, HeaderType.isIp]
  have hinit : ∀ x ∈ [g], x.type.isTransport = false := by
    rcases hg with hg | hg <;> simp [hg, HeaderType.isTransport]
  have hgptr : g.ptr = some 0 := hl.1.ptr
  have hhptr : h.ptr = some g.headerBytes := hl.2.1.ptr.trans (by rw [Nat.zero_add])
  obtain ⟨h4, h6⟩ := primary_afterHeaders (startPacket b n .layer3Ip) [] ⟨rfl, rfl⟩ hgptr hgip
    hinner
  have htransports := startPacket_transports b n .layer3Ip hinit hhptr
  obtain ⟨htcp, hudp, -, -⟩ : _ ∧ _ ∧ _ ∧ _ := by simpa [Packet.transports] using htransports
  have htable := startPacket_table b n .layer3Ip (used_of_path hstack.1.choose_spec) hstack.2
  have hpayload := hstack.packetPayload_eq n
  have hlen := hstack.packetPayloadLen_eq n
  have htotal : g.totalBytes = n := by simpa using hl.1.total
  rw [hstack.ipBytes_eq n, if_pos hgip, htotal] at hlen
  have hsum : headerSum [g, h] = g.headerBytes + h.headerBytes := by simp [headerSum]
  rw [hsum] at hpayload hlen
  refine ⟨s, hrun, ?_, ?_⟩
  · rw [hpacket, buffer_afterHeaders]
    rfl
  · rw [hpacket]
    refine ⟨htable, h4, h6, htcp, hudp, ?_, ?_⟩
    · rw [hpayload]
      exact congrArg Except.ok (Nat.zero_add _)
    · rw [hlen]
      simp

/-- `checksum_packet` returns for a built packet, with both headers and the payload kept and
an IPv4 header that verifies. -/
theorem BuiltAs.checksum {addressFamily : Int} {l4 : HeaderType}
    (hfamily : addressFamily = AF_INET ∨ addressFamily = AF_INET6)
    (hl4 : l4 = .tcp ∧ check = 16 ∨ l4 = .udp ∧ check = 6)
    (hb : BuiltAs packet (ipType addressFamily) l4
      (ipHeader addressFamily (UInt16.ofNat packet.ipBytes) tos flowLabel ttl protocol) l4B payload)
    (hmax : packet.ipBytes < 65536) (hcheck : check + 2 ≤ l4B.length) :
    ∃ b, checksumPacket packet.toPacket = .ok { packet.toPacket with buffer := b } ∧
      Checksummed b (ipHeader addressFamily (UInt16.ofNat packet.ipBytes) tos flowLabel ttl
        protocol) l4B payload check ∧
      (addressFamily = AF_INET → ChecksumVerifies b 0 IPV4_BYTES) := by
  have h20 : IPV4_BYTES = 20 := rfl
  have h40 : IPV6_BYTES = 40 := rfl
  have hu16 : (UInt16.ofNat packet.ipBytes).toNat = packet.ipBytes := by simp; omega
  have hlength := hb.length
  have hiplen : (ipHeader addressFamily (UInt16.ofNat packet.ipBytes) tos flowLabel ttl
    protocol).length = ipHeaderBytes addressFamily := length_ipHeader
  have hcheckAt : l4CheckAt packet.toPacket = some (ipHeaderBytes addressFamily + check) := by
    unfold l4CheckAt
    rw [hb.tcp, hb.udp, hiplen]
    rcases hl4 with ⟨rfl, rfl⟩ | ⟨rfl, rfl⟩ <;> rfl
  have hholds : HoldsExcept packet.buffer 0 (ipHeader addressFamily
      (UInt16.ofNat packet.ipBytes) tos flowLabel ttl protocol) 10 := fun k hk _ _ => by
    rw [Nat.zero_add, hb.holds k (by omega), List.getD_append _ _ _ _ hk]
  rw [hiplen] at hlength
  rcases hfamily with rfl | rfl
  · have hset := ipv4Set_of_holds hholds
    have hbytes : ipHeaderBytes AF_INET = 20 := rfl
    obtain ⟨b, hrun, hframe, hverifies⟩ := checksumPacket_ipv4 hb.ipv4 (by rw [hset.ihl])
      (by rw [hset.totLen, hu16]) (by rw [hset.totLen, hset.ihl, hu16]; omega) hcheckAt
      (by rw [hset.ihl]; omega)
    rw [hset.ihl] at hverifies
    refine ⟨b, hrun, hb.checksummed ?_ (by omega) hcheck, fun _ => hverifies⟩
    intro i h0 h1 h2 h3
    exact hframe i (by omega) (by omega) (by omega) (by omega)
  · have hset := ipv6Set_of_holds hholds (by omega)
    have hbytes : ipHeaderBytes AF_INET6 = 40 := rfl
    have hnone : packet.ipv4 = none := hb.ipv4
    obtain ⟨b, hrun, hframe⟩ := checksumPacket_ipv6 hnone hb.ipv6
      (by rw [hset.payloadLen, hu16]; omega) (by rw [hset.payloadLen, hu16]; omega) hcheckAt
    refine ⟨b, hrun, hb.checksummed ?_ (by omega) hcheck, fun h => by cases h⟩
    intro i _ _ h2 h3
    exact hframe i (by omega) (by omega)

/-- A built packet is parsed with its headers if its transport header is in its place. -/
theorem BuiltAs.roundTrips {addressFamily : Int} {ipInfo : IpInfo} {l4 : HeaderType}
    {Shows : Packet → Prop} (hfamily : addressFamily = AF_INET ∨ addressFamily = AF_INET6)
    (hl4 : l4 = .tcp ∧ check = 16 ∨ l4 = .udp ∧ check = 6)
    (hb : BuiltAs packet (ipType addressFamily) l4
      (ipHeader addressFamily (UInt16.ofNat packet.ipBytes) ipInfo.tos.value ipInfo.flowLabel
        ipInfo.ttl (UInt8.ofNat l4.ipProto)) l4B payload)
    (hmax : packet.ipBytes < 65536) (hcheck : check + 2 ≤ l4B.length)
    (hplaced : ∀ b p, HoldsExcept b p l4B check → p + l4B.length + payload < 65536 →
      Placed b (p + l4B.length + payload) p
        ⟨l4, l4B.length, l4B.length + payload, some p⟩ .none)
    (hshows : ∀ parsed p, HoldsExcept parsed.buffer p l4B check →
      parsed.tcp = (if l4 = .tcp then some p else none) →
      parsed.udp = (if l4 = .udp then some p else none) →
      ShowsZeros parsed payload → Shows parsed) :
    RoundTrips packet (ipType addressFamily) l4 l4B.length fun parsed =>
      ShowsIp parsed addressFamily ipInfo ∧ Shows parsed := by
  obtain ⟨b, hrun, hc, hverifies⟩ := hb.checksum hfamily hl4 hmax hcheck
  have hlength := hb.length
  have hl4' : l4 = .tcp ∨ l4 = .udp := hl4.imp And.left And.left
  have hproto : (UInt8.ofNat l4.ipProto).toNat = l4.ipProto := by
    rcases hl4' with rfl | rfl <;> rfl
  have hip : ipType addressFamily = .ipv4 ∨ ipType addressFamily = .ipv6 := by
    unfold ipType
    split <;> simp
  have hiplen : (ipHeader addressFamily (UInt16.ofNat packet.ipBytes) ipInfo.tos.value
    ipInfo.flowLabel ipInfo.ttl (UInt8.ofNat l4.ipProto)).length = ipHeaderBytes addressFamily :=
    length_ipHeader
  have hl4At := hc.l4
  have hzeros := hc.zeros
  rw [hiplen] at hlength hl4At hzeros
  have hlaid : LaidOut b packet.ipBytes 0
      [⟨ipType addressFamily, ipHeaderBytes addressFamily, packet.ipBytes, some 0⟩,
        ⟨l4, l4B.length, l4B.length + payload, some (ipHeaderBytes addressFamily)⟩] := by
    refine ⟨hc.placed_ip hfamily hverifies hproto hl4' (by omega) hmax, ?_, ?_⟩
    · show Placed b packet.ipBytes (0 + ipHeaderBytes addressFamily) _ .none
      rw [Nat.zero_add, hlength]
      exact hplaced b _ hl4At (by omega)
    · show 0 + ipHeaderBytes addressFamily + l4B.length ≤ packet.ipBytes
      omega
  obtain ⟨s, hparse, hbuffer, htable, h4, h6, htcp, hudp, hpayload, hlen⟩ :=
    hlaid.parsed hip (shape_ip hfamily hc.ip packet.ipBytes packet.ipBytes (some 0)).2 hl4'
  refine ⟨_, s, _, _, hrun, hparse, htable, rfl, rfl, rfl, ?_, ?_⟩
  · rw [← hbuffer] at hc
    exact hc.showsIp h4 h6
  · rw [← hbuffer] at hl4At
    refine hshows s.packet (ipHeaderBytes addressFamily) hl4At htcp hudp ⟨?_, _, hpayload, ?_⟩
    · rw [hlen, hlength]
      simp only [Nat.cast_add, Except.ok.injEq]
      omega
    · rw [hbuffer]
      exact hzeros

end

/-! ## The two builders -/

theorem TcpBuilt.roundTrips {args : TcpArgs} {packet : FullPacket} (hb : TcpBuilt args packet)
    (hmax : packet.ipBytes < 65536) :
    RoundTrips packet (ipType args.addressFamily) .tcp (TCP_BYTES + args.optionLength)
      fun parsed => ShowsIp parsed args.addressFamily args.ipInfo ∧ ShowsTcp parsed args := by
  have hlen : (tcpHeader args (TCP_BYTES + args.optionLength) ++ args.optionBytes).length =
      TCP_BYTES + args.optionLength := by
    rw [List.length_append, length_tcpHeader, hb.options]
  have hsize : TCP_BYTES = 20 := rfl
  rw [← hlen]
  refine hb.built.roundTrips hb.family (.inl ⟨rfl, rfl⟩) hmax (by omega) ?_ ?_
  · intro b p hholds hlt
    exact ⟨⟨rfl, rfl, by simp, shape_tcp hb.aligned hb.header hb.options hholds _ _ _⟩,
      by simp only; omega, trivial⟩
  · intro parsed tcp hholds htcp hudp hzeros
    refine ⟨tcp, htcp, hudp, tcpSet_of_holds hb.aligned hb.header hholds, ?_, hzeros⟩
    apply List.ext_getElem
    · rw [length_readBytes, hb.options]
    · intro i hi hi'
      have hoptions := hb.options
      have hat := hholds (TCP_BYTES + i) (by omega) (by omega) (by omega)
      rw [List.getD_append_right _ _ _ _ (by rw [length_tcpHeader]; omega), length_tcpHeader,
        Nat.add_sub_cancel_left, List.getD_eq_getElem _ _ hi', ← Nat.add_assoc] at hat
      simpa [readBytes] using hat

theorem UdpBuilt.roundTrips {args : UdpArgs} {packet : FullPacket} (hb : UdpBuilt args packet)
    (hmax : packet.ipBytes < 65536) :
    RoundTrips packet (ipType args.addressFamily) .udp UDP_BYTES
      fun parsed => ShowsIp parsed args.addressFamily args.ipInfo ∧ ShowsUdp parsed args := by
  have hlen : (udpHeader args).length = UDP_BYTES := length_udpHeader
  have hsize : UDP_BYTES = 8 := rfl
  rw [← hlen]
  refine hb.built.roundTrips hb.family (.inr ⟨rfl, rfl⟩) hmax (by omega) ?_ ?_
  · intro b p hholds hlt
    have hset := udpSet_of_holds hholds
    refine ⟨⟨rfl, rfl, by simp, hlen⟩, by simp only; omega, ?_⟩
    show p + Udp.len b p = _
    rw [hset.len (by omega)]
    omega
  · intro parsed udp hholds htcp hudp hzeros
    exact ⟨udp, hudp, htcp, udpSet_of_holds hholds, hzeros⟩

/-- Whatever the builders return parses back to their arguments, as long as it is no longer
than a datagram can be. -/
theorem build_checksum_parse (heap : Memory) (packet : FullPacket)
    (hmax : packet.ipBytes ≤ 65535) :
    (∀ args : TcpArgs, newTcpPacket heap args = .ok (.ok packet) →
      RoundTrips packet (ipType args.addressFamily) .tcp (TCP_BYTES + args.optionLength)
        fun parsed => ShowsIp parsed args.addressFamily args.ipInfo ∧ ShowsTcp parsed args) ∧
    (∀ args : UdpArgs, newUdpPacket heap args = .ok (.ok packet) →
      RoundTrips packet (ipType args.addressFamily) .udp UDP_BYTES
        fun parsed => ShowsIp parsed args.addressFamily args.ipInfo ∧ ShowsUdp parsed args) := by
  have hlt : packet.ipBytes < 65536 := by omega
  exact ⟨fun args hok => (newTcpPacket_built hok).roundTrips hlt,
    fun args hok => (newUdpPacket_built hok).roundTrips hlt⟩

/-- An IPv6 SYN with a maximum segment size option. -/
def synArgs : TcpArgs where
  addressFamily := AF_INET6
  direction := .outbound
  ipInfo := ⟨⟨.none, 0x12⟩, 0xabcde, 64⟩
  srcPort := 8080
  dstPort := 443
  flags := "SEW".toList
  startSequence := 0xfffffffe
  tcpPayloadBytes := 3
  ackSequence := 0
  window := 65535
  urgPtr := 0
  tcpOptions := some ⟨(Vector.replicate 40 0).set 0 2 |>.set 1 4 |>.set 2 5 |>.set 3 0xb4, 4⟩

theorem build_checksum_parse_syn : ∃ packet, newTcpPacket (fun _ => 0) synArgs = .ok (.ok packet) ∧
    RoundTrips packet (ipType synArgs.addressFamily) .tcp (TCP_BYTES + synArgs.optionLength)
      fun parsed => ShowsIp parsed synArgs.addressFamily synArgs.ipInfo ∧
        ShowsTcp parsed synArgs := by
  obtain ⟨packet, hok, hmax⟩ : ∃ packet, newTcpPacket (fun _ => 0) synArgs = .ok (.ok packet) ∧
      packet.ipBytes ≤ 65535 := ⟨_, rfl, by decide⟩
  exact ⟨packet, hok, (build_checksum_parse (fun _ => 0) packet hmax).1 synArgs hok⟩

end QoSMos
