import QoSMos.Build.Program
import QoSMos.Lib.Returns
import QoSMos.Parser.Effect

/-!
# What the builders return

A packet from `new_tcp_packet` or `new_udp_packet` consists of an IP header and a transport
header, each given by its bytes, and zeros behind them: `BuiltAs`. The bytes are computed
from the arguments and do not depend on what `malloc` returned.
-/

namespace QoSMos

open Returns

theorem require_eq_ok_iff {c : Prop} [Decidable c] {function expression : String} {u : Unit} :
    require c function expression = .ok u ↔ c := by
  by_cases hc : c <;> simp [require, hc]

/-- The header that `set_packet_ip_header` makes for an address family. -/
def ipType (addressFamily : Int) : HeaderType := if addressFamily = AF_INET then .ipv4 else .ipv6

/-- The bytes of that header. -/
def ipHeader (addressFamily : Int) (ipBytes : UInt16) (tos : UInt8) (flowLabel : UInt32)
    (ttl protocol : UInt8) : List UInt8 :=
  if addressFamily = AF_INET then ipv4Header ipBytes tos ttl protocol
  else ipv6Header ipBytes tos flowLabel ttl protocol

def ipHeaderBytes (addressFamily : Int) : Nat :=
  if addressFamily = AF_INET then IPV4_BYTES else IPV6_BYTES

/-- The packet holds the IP header and the transport header with the given bytes, `payload`
zeros behind them, and nothing else. -/
structure BuiltAs (packet : FullPacket) (ip l4 : HeaderType) (ipBytes l4Bytes : List UInt8)
    (payload : Nat) : Prop where
  holds : ∀ i < ipBytes.length + l4Bytes.length + payload,
    packet.buffer i = (ipBytes ++ l4Bytes).getD i 0
  length : packet.ipBytes = ipBytes.length + l4Bytes.length + payload
  bufferBytes : packet.bufferBytes = packet.ipBytes
  table : Table packet.toPacket [⟨ip, ipBytes.length, packet.ipBytes % 65536, some 0⟩,
    ⟨l4, l4Bytes.length, l4Bytes.length + payload, some ipBytes.length⟩]
  ipv4 : packet.ipv4 = if ip = .ipv4 then some 0 else none
  ipv6 : packet.ipv6 = if ip = .ipv6 then some 0 else none
  tcp : packet.tcp = if l4 = .tcp then some ipBytes.length else none
  udp : packet.udp = if l4 = .udp then some ipBytes.length else none
  icmp : packet.icmpv4 = none ∧ packet.icmpv6 = none

section Steps

variable {packet packet' : FullPacket} {hs : List Header} {function : String} {t : HeaderType}
  {headerBytes total : Nat} {addressFamily : Int} {ipBytes : UInt16} {tos ttl protocol : UInt8}
  {flowLabel : UInt32}

@[simp] theorem length_ipv4Header : (ipv4Header ipBytes tos ttl protocol).length = IPV4_BYTES := by
  simp [ipv4Header, IPV4_BYTES]

@[simp] theorem length_ipv6Header :
    (ipv6Header ipBytes tos flowLabel ttl protocol).length = IPV6_BYTES := by
  simp [ipv6Header, IPV6_BYTES]

@[simp] theorem length_ipHeader :
    (ipHeader addressFamily ipBytes tos flowLabel ttl protocol).length =
      ipHeaderBytes addressFamily := by
  unfold ipHeader ipHeaderBytes
  split <;> simp

theorem ipHeaderMinLen_eq_ok_iff {n : Nat} : ipHeaderMinLen addressFamily = .ok n ↔
    (addressFamily = AF_INET ∨ addressFamily = AF_INET6) ∧ n = ipHeaderBytes addressFamily := by
  unfold ipHeaderMinLen ipHeaderBytes
  split_ifs with h4 h6
  · simp [h4, eq_comm]
  · simp [h6, eq_comm]
  · simp [h4, h6]

/-- A header is added to the table with its total length if there is room for it. -/
theorem appendHeaderTotal_eq_ok
    (hok : appendHeaderTotal function packet t headerBytes total = .ok packet')
    (ht : Table packet.toPacket hs) (hl2 : packet.l2HeaderBytes = 0) {p : Nat}
    (hp : packet.ipBytes = p) :
    packet' = { packet with
      toPacket := packet.toPacket.push ⟨t, headerBytes, total, some p⟩ } := by
  subst hp
  have hle := ht.le
  unfold appendHeaderTotal packetAppendHeader at hok
  rw [ht.count] at hok
  by_cases hfull : hs.length = PACKET_MAX_HEADERS
  · simp [hfull] at hok
  by_cases hroom : packet.bufferBytes < packet.ipBytes + headerBytes
  · simp [hle, hfull, hroom] at hok
  · have hget (h : Header) : (packet.headers.setIfInBounds hs.length h).toList.getD hs.length
        Header.unused = h := by
      rw [ht.setEntry (by omega)]
      simp
    simp only [hle, hfull, hroom, not_true, if_false, Packet.setTotalBytes, hget,
      Vector.setIfInBounds_setIfInBounds, hl2, Nat.zero_add, Except.ok.injEq] at hok
    simp only [← hok, Packet.push, ht.count, hl2]

/-- The packet after its IP header was filled in. -/
def FullPacket.withIpHeader (packet : FullPacket) (ip : HeaderType) (bytes : List UInt8)
    (total : Nat) : FullPacket :=
  { packet with
    toPacket := { packet.toPacket.push ⟨ip, bytes.length, total, some 0⟩ with
      buffer := writeBytes packet.buffer 0 bytes
      ipv4 := if ip = .ipv4 then some 0 else none
      ipv6 := if ip = .ipv6 then some 0 else none } }

theorem setPacketIpHeader_eq_ok (ht : Table packet.toPacket []) (hl2 : packet.l2HeaderBytes = 0)
    (hzero : packet.ipBytes = 0) (h4 : packet.ipv4 = none) (h6 : packet.ipv6 = none)
    (hok : setPacketIpHeader packet addressFamily ipBytes tos flowLabel ttl protocol =
      .ok packet') :
    packet' = packet.withIpHeader (ipType addressFamily)
      (ipHeader addressFamily ipBytes tos flowLabel ttl protocol) ipBytes.toNat := by
  unfold setPacketIpHeader at hok
  split_ifs at hok with hinet hinet6
  · obtain ⟨-, -, hok⟩ := bind_eq_ok_iff.mp hok
    obtain ⟨middle, happend, hok⟩ := bind_eq_ok_iff.mp hok
    obtain rfl := appendHeaderTotal_eq_ok happend ⟨ht.le, ht.entries, ht.used⟩ hl2 hzero
    obtain rfl := pure_eq_ok_iff.mp hok
    simp [FullPacket.withIpHeader, ipType, ipHeader, hinet, Packet.push, setIpv4Header,
      packetHeaderCount, hzero, h6]
  · obtain ⟨-, -, hok⟩ := bind_eq_ok_iff.mp hok
    obtain ⟨middle, happend, hok⟩ := bind_eq_ok_iff.mp hok
    obtain rfl := appendHeaderTotal_eq_ok happend ⟨ht.le, ht.entries, ht.used⟩ hl2 hzero
    obtain ⟨buffer, hset, hok⟩ := bind_eq_ok_iff.mp hok
    obtain ⟨-, -, hset⟩ := bind_eq_ok_iff.mp hset
    obtain rfl := pure_eq_ok_iff.mp hset
    obtain rfl := pure_eq_ok_iff.mp hok
    simp [FullPacket.withIpHeader, ipType, ipHeader, hinet, Packet.push, packetHeaderCount,
      hzero, h4]

end Steps

/-! ## The two builders -/

section Builders

variable {heap : Memory} {packet : FullPacket} {n : Nat} {ipBytes l4Bytes : List UInt8}

/-- The buffer, cleared at first, after both headers were written. -/
theorem holds_of_writes :
    ∀ i < n, writeBytes (writeBytes (writeBytes heap 0 (List.replicate n 0)) 0 ipBytes)
      ipBytes.length l4Bytes i = (ipBytes ++ l4Bytes).getD i 0 := by
  intro i hi
  rw [← Nat.zero_add ipBytes.length, writeBytes_append]
  by_cases hin : i < (ipBytes ++ l4Bytes).length
  · simpa using writeBytes_inside (b := writeBytes heap 0 (List.replicate n 0)) (p := 0) hin
  · rw [writeBytes_outside (by omega), List.getD_eq_default _ _ (by omega)]
    have hzero : writeBytes heap 0 (List.replicate n 0) (0 + i) = (List.replicate n 0).getD i 0 :=
      writeBytes_inside (by simpa using hi)
    simpa [hi] using hzero

/-- The table after two headers were appended to an empty one. -/
theorem table_of_pushes {fresh packet : Packet} {g h : Header} (ht : Table fresh [])
    (hg : g.type ≠ .none) (hh : h.type ≠ .none)
    (hheaders : packet.headers = ((fresh.push g).push h).headers) : Table packet [g, h] := by
  have hsix : PACKET_MAX_HEADERS = 6 := rfl
  have hone : Table (fresh.push g) [g] := ht.push (by simp [hsix]) hg
  have htwo : Table ((fresh.push g).push h) [g, h] := hone.push (by simp [hsix]) hh
  exact ⟨htwo.le, hheaders ▸ htwo.entries, htwo.used⟩

@[simp] theorem length_tcpHeader {args : TcpArgs} : (tcpHeader args n).length = TCP_BYTES := by
  simp [tcpHeader, TCP_BYTES]

@[simp] theorem length_udpHeader {args : UdpArgs} : (udpHeader args).length = UDP_BYTES := by
  simp [udpHeader, UDP_BYTES]

theorem length_optionBytes (args : TcpArgs) (h : TCP_BYTES + args.optionLength ≤ 60) :
    args.optionBytes.length = args.optionLength := by
  unfold TcpArgs.optionBytes TcpArgs.optionLength at *
  cases hopt : args.tcpOptions with
  | none => rfl
  | some options =>
    have hsize : options.data.toList.length = 40 := options.data.length_toList
    simp only [hopt, Option.map_some, Option.getD_some, TCP_BYTES] at h
    simp only [List.length_take, Option.map_some, Option.getD_some]
    omega

/-- The steps that the two builders share, and the write of the transport header. -/
theorem builtAs_of_steps {withIp withL4 : FullPacket} {start addressFamily : _}
    {direction : Direction} {tosChk : TosCheck} {tos ttl protocol : UInt8} {flowLabel : UInt32}
    {function : String} {payload : Nat} {l4 : HeaderType}
    (hset : setPacketIpHeader (clearPacket heap n direction tosChk) addressFamily (UInt16.ofNat n)
      tos flowLabel ttl protocol = .ok withIp)
    (happend : appendHeaderTotal function withIp l4 l4Bytes.length (l4Bytes.length + payload) =
      .ok withL4)
    (hstart : ipStart withL4.toPacket = .ok start) (hl4 : l4 = .tcp ∨ l4 = .udp)
    (hn : n = ipHeaderBytes addressFamily + l4Bytes.length + payload)
    (hpacket : packet.toPacket =
      { withL4.toPacket.keep ⟨l4, 0, 0, some (start + ipHeaderBytes addressFamily)⟩ with
        buffer := writeBytes withL4.buffer (start + ipHeaderBytes addressFamily) l4Bytes
        ipBytes := n }) :
    BuiltAs packet (ipType addressFamily) l4
      (ipHeader addressFamily (UInt16.ofNat n) tos flowLabel ttl protocol) l4Bytes payload := by
  have hfresh : Table (clearPacket heap n direction tosChk).toPacket [] := Table.packetNew _ _
  have hip : ipType addressFamily ≠ .none := by
    unfold ipType
    split <;> simp
  obtain rfl := setPacketIpHeader_eq_ok hfresh rfl rfl rfl rfl hset
  generalize hbytes : ipHeader addressFamily (UInt16.ofNat n) tos flowLabel ttl protocol = bytes
    at hstart happend
  have hlen : bytes.length = ipHeaderBytes addressFamily := by rw [← hbytes, length_ipHeader]
  have hu16 : (UInt16.ofNat n).toNat = n % 65536 := by simp
  rw [hu16] at happend
  have hone := hfresh.push (h := ⟨ipType addressFamily, bytes.length, n % 65536, some 0⟩)
    (by decide) hip
  obtain rfl := appendHeaderTotal_eq_ok happend ⟨hone.le, hone.entries, hone.used⟩ rfl
    (Nat.zero_add _)
  obtain rfl : start = 0 := by
    unfold ipType at hstart
    split_ifs at hstart <;> exact (Except.ok.inj hstart).symm
  rw [Nat.zero_add, ← hlen] at hpacket
  have hne : l4 ≠ .none := by rcases hl4 with rfl | rfl <;> simp
  have hlength : packet.ipBytes = n := congrArg Packet.ipBytes hpacket
  refine ⟨?_, by omega, ?_, ?_, ?_, ?_, ?_, ?_, ?_⟩
  · intro i hi
    rw [congrArg Packet.buffer hpacket]
    exact holds_of_writes i (by omega)
  · rw [hlength, congrArg Packet.bufferBytes hpacket]
    rfl
  · refine table_of_pushes hfresh (h := ⟨l4, _, _, some bytes.length⟩) hip hne ?_
    rw [congrArg Packet.headers hpacket, hlength]
    rfl
  · rw [congrArg Packet.ipv4 hpacket]
    rfl
  · rw [congrArg Packet.ipv6 hpacket]
    rfl
  · rw [congrArg Packet.tcp hpacket]
    rfl
  · rw [congrArg Packet.udp hpacket]
    rfl
  · rw [congrArg Packet.icmpv4 hpacket, congrArg Packet.icmpv6 hpacket]
    rcases hl4 with rfl | rfl <;> exact ⟨rfl, rfl⟩

/-- The bytes of the packet that `new_tcp_packet` is asked for. -/
def TcpArgs.packetBytes (args : TcpArgs) : Nat :=
  ipHeaderBytes args.addressFamily + (TCP_BYTES + args.optionLength) + args.tcpPayloadBytes.toNat

/-- A call of `new_tcp_packet` that returns `packet`: what its checks ask for, and its steps. -/
structure TcpCall (heap : Memory) (args : TcpArgs) (packet : FullPacket) : Prop where
  family : args.addressFamily = AF_INET ∨ args.addressFamily = AF_INET6
  aligned : args.optionLength % 4 = 0
  header : TCP_BYTES + args.optionLength ≤ MAX_TCP_HEADER_BYTES
  size : args.packetBytes ≤ MAX_TCP_DATAGRAM_BYTES
  flags : isTcpFlagsSpecValid args.flags = .ok ()
  window : ¬ (args.window = -1 ∧ args.direction = .inbound)
  steps : ∃ withIp withTcp start,
    setPacketIpHeader (clearPacket heap args.packetBytes args.direction args.ipInfo.tos.check)
      args.addressFamily (UInt16.ofNat args.packetBytes) args.ipInfo.tos.value args.ipInfo.flowLabel
      args.ipInfo.ttl (UInt8.ofNat IPPROTO_TCP) = .ok withIp ∧
    appendHeaderTotal "new_tcp_packet" withIp .tcp (TCP_BYTES + args.optionLength)
      (TCP_BYTES + args.optionLength + args.tcpPayloadBytes.toNat) = .ok withTcp ∧
    ipStart withTcp.toPacket = .ok start ∧
    packet = { withTcp with
      buffer := writeBytes (writeBytes withTcp.buffer (start + ipHeaderBytes args.addressFamily)
        (tcpHeader args (TCP_BYTES + args.optionLength)))
        (start + ipHeaderBytes args.addressFamily + TCP_BYTES) args.optionBytes
      tcp := some (start + ipHeaderBytes args.addressFamily)
      flags := (if args.window = -1 then FLAG_WIN_NOCHECK else 0) +
        (if args.tcpOptions = none then FLAG_OPTIONS_NOCHECK else 0)
      ipBytes := args.packetBytes }

theorem newTcpPacket_eq_ok_iff {args : TcpArgs} :
    newTcpPacket heap args = .ok (.ok packet) ↔ TcpCall heap args packet := by
  unfold newTcpPacket
  dsimp only
  constructor
  · intro hok
    obtain ⟨m, hmin, hok⟩ := bind_eq_ok_iff.mp hok
    obtain ⟨hfamily, rfl⟩ := ipHeaderMinLen_eq_ok_iff.mp hmin
    rw [Nat.add_zero, if_neg (by simp)] at hok
    by_cases haligned : args.optionLength % 4 = 0
    swap
    · rw [if_pos haligned] at hok
      cases hok
    rw [if_neg (not_not.mpr haligned)] at hok
    obtain ⟨-, -, hok⟩ := bind_eq_ok_iff.mp hok
    obtain ⟨-, -, hok⟩ := bind_eq_ok_iff.mp hok
    by_cases hheader : TCP_BYTES + args.optionLength > MAX_TCP_HEADER_BYTES
    · rw [if_pos hheader] at hok
      cases hok
    by_cases hsize : args.packetBytes > MAX_TCP_DATAGRAM_BYTES
    · rw [if_neg hheader] at hok
      cases (if_pos hsize).symm.trans hok
    replace hok := (if_neg hsize).symm.trans ((if_neg hheader).symm.trans hok)
    cases hflags : isTcpFlagsSpecValid args.flags with
    | error message =>
      rw [hflags] at hok
      cases hok
    | ok u =>
      rw [hflags] at hok
      obtain ⟨withIp, hset, hok⟩ := bind_eq_ok_iff.mp hok
      obtain ⟨withTcp, happend, hok⟩ := bind_eq_ok_iff.mp hok
      obtain ⟨start, hstart, hok⟩ := bind_eq_ok_iff.mp hok
      by_cases hwindow : args.window = -1 ∧ args.direction = .inbound
      · rw [if_pos hwindow] at hok
        cases hok
      rw [if_neg hwindow] at hok
      exact ⟨hfamily, haligned, not_lt.mp hheader, not_lt.mp hsize, hflags, hwindow, withIp,
        withTcp, start, hset, happend, hstart, (Except.ok.inj (pure_eq_ok_iff.mp hok)).symm⟩
  · rintro ⟨hfamily, haligned, hheader, hsize, hflags, hwindow, withIp, withTcp, start, hset,
      happend, hstart, rfl⟩
    have hmin := ipHeaderMinLen_eq_ok_iff.mpr ⟨hfamily, rfl⟩
    have hfour : (TCP_BYTES + args.optionLength) % 4 = 0 := by
      simp only [TCP_BYTES]
      omega
    have hip : ipHeaderBytes args.addressFamily % 4 = 0 := by
      unfold ipHeaderBytes
      split <;> rfl
    rw [bind_of_ok hmin, Nat.add_zero, if_neg (by simp), if_neg (not_not.mpr haligned),
      bind_of_ok ((require_eq_ok_iff (u := ())).mpr hfour),
      bind_of_ok ((require_eq_ok_iff (u := ())).mpr hip),
      if_neg (not_lt.mpr hheader)]
    refine (if_neg (not_lt.mpr hsize)).trans ?_
    rw [hflags]
    refine (bind_of_ok hset).trans ((bind_of_ok happend).trans ((bind_of_ok hstart).trans ?_))
    rw [if_neg hwindow]
    rfl

/-- What `new_tcp_packet` returns for arguments that it takes. -/
structure TcpBuilt (args : TcpArgs) (packet : FullPacket) : Prop where
  family : args.addressFamily = AF_INET ∨ args.addressFamily = AF_INET6
  options : args.optionBytes.length = args.optionLength
  aligned : args.optionLength % 4 = 0
  header : TCP_BYTES + args.optionLength ≤ MAX_TCP_HEADER_BYTES
  flags : isTcpFlagsSpecValid args.flags = .ok ()
  built : BuiltAs packet (ipType args.addressFamily) .tcp
    (ipHeader args.addressFamily (UInt16.ofNat packet.ipBytes) args.ipInfo.tos.value
      args.ipInfo.flowLabel args.ipInfo.ttl (UInt8.ofNat IPPROTO_TCP))
    (tcpHeader args (TCP_BYTES + args.optionLength) ++ args.optionBytes)
    args.tcpPayloadBytes.toNat

theorem newTcpPacket_built {args : TcpArgs} (hok : newTcpPacket heap args = .ok (.ok packet)) :
    TcpBuilt args packet := by
  obtain ⟨hfamily, haligned, hheader, hsize, hflags, -, withIp, withTcp, start, hset, happend,
    hstart, rfl⟩ := newTcpPacket_eq_ok_iff.mp hok
  have hoptions := length_optionBytes args hheader
  refine ⟨hfamily, hoptions, haligned, hheader, hflags, ?_⟩
  refine builtAs_of_steps hset (by simpa [hoptions] using happend) hstart (.inl rfl) ?_ ?_
  · simp only [List.length_append, length_tcpHeader, hoptions, TcpArgs.packetBytes]
  · rw [← writeBytes_append, length_tcpHeader]
    rfl

/-- The bytes of the packet. -/
def UdpArgs.packetBytes (args : UdpArgs) : Nat :=
  ipHeaderBytes args.addressFamily + UDP_BYTES + args.udpPayloadBytes.toNat

/-- A call of `new_udp_packet` that returns `packet`. -/
structure UdpCall (heap : Memory) (args : UdpArgs) (packet : FullPacket) : Prop where
  family : args.addressFamily = AF_INET ∨ args.addressFamily = AF_INET6
  size : args.packetBytes ≤ MAX_UDP_DATAGRAM_BYTES
  steps : ∃ withIp withUdp start,
    setPacketIpHeader (clearPacket heap args.packetBytes args.direction args.ipInfo.tos.check)
      args.addressFamily (UInt16.ofNat args.packetBytes) args.ipInfo.tos.value args.ipInfo.flowLabel
      args.ipInfo.ttl (UInt8.ofNat IPPROTO_UDP) = .ok withIp ∧
    appendHeaderTotal "new_udp_packet" withIp .udp UDP_BYTES
      (UDP_BYTES + args.udpPayloadBytes.toNat) = .ok withUdp ∧
    ipStart withUdp.toPacket = .ok start ∧
    packet = { withUdp with
      buffer := writeBytes withUdp.buffer (start + ipHeaderBytes args.addressFamily)
        (udpHeader args)
      udp := some (start + ipHeaderBytes args.addressFamily)
      ipBytes := args.packetBytes }

theorem udpCall_of_newUdpPacket {args : UdpArgs} (hok : newUdpPacket heap args = .ok (.ok packet)) :
    UdpCall heap args packet := by
  unfold newUdpPacket at hok
  dsimp only at hok
  obtain ⟨m, hmin, hok⟩ := bind_eq_ok_iff.mp hok
  obtain ⟨hfamily, rfl⟩ := ipHeaderMinLen_eq_ok_iff.mp hmin
  rw [Nat.add_zero, if_neg (by simp)] at hok
  obtain ⟨-, -, hok⟩ := bind_eq_ok_iff.mp hok
  obtain ⟨-, -, hok⟩ := bind_eq_ok_iff.mp hok
  by_cases hsize : args.packetBytes > MAX_UDP_DATAGRAM_BYTES
  · cases (if_pos hsize).symm.trans hok
  replace hok := (if_neg hsize).symm.trans hok
  obtain ⟨withIp, hset, hok⟩ := bind_eq_ok_iff.mp hok
  obtain ⟨withUdp, happend, hok⟩ := bind_eq_ok_iff.mp hok
  obtain ⟨start, hstart, hok⟩ := bind_eq_ok_iff.mp hok
  exact ⟨hfamily, not_lt.mp hsize, withIp, withUdp, start, hset, happend, hstart,
    (Except.ok.inj (pure_eq_ok_iff.mp hok)).symm⟩

/-- What `new_udp_packet` returns for arguments that it takes. -/
structure UdpBuilt (args : UdpArgs) (packet : FullPacket) : Prop where
  family : args.addressFamily = AF_INET ∨ args.addressFamily = AF_INET6
  size : packet.ipBytes ≤ MAX_UDP_DATAGRAM_BYTES
  built : BuiltAs packet (ipType args.addressFamily) .udp
    (ipHeader args.addressFamily (UInt16.ofNat packet.ipBytes) args.ipInfo.tos.value
      args.ipInfo.flowLabel args.ipInfo.ttl (UInt8.ofNat IPPROTO_UDP))
    (udpHeader args) args.udpPayloadBytes.toNat

theorem newUdpPacket_built {args : UdpArgs} (hok : newUdpPacket heap args = .ok (.ok packet)) :
    UdpBuilt args packet := by
  obtain ⟨hfamily, hsize, withIp, withUdp, start, hset, happend, hstart, rfl⟩ :=
    udpCall_of_newUdpPacket hok
  refine ⟨hfamily, hsize, ?_⟩
  refine builtAs_of_steps hset (by simpa using happend) hstart (.inr rfl) ?_ rfl
  rw [length_udpHeader]
  rfl

/-! Appending a header leaves the fields that are not of the table. -/

theorem appendHeaderTotal_rest {packet' : FullPacket} {function : String} {t : HeaderType}
    {headerBytes total : Nat}
    (hok : appendHeaderTotal function packet t headerBytes total = .ok packet') :
    packet' = { packet with toPacket := packet'.toPacket } := by
  unfold appendHeaderTotal at hok
  split at hok
  · cases hok
  · cases hok
  · obtain rfl := Except.ok.inj hok
    rfl

theorem setPacketIpHeader_rest {packet' : FullPacket} {addressFamily : Int}
    {ipBytes : UInt16} {tos ttl protocol : UInt8} {flowLabel : UInt32}
    (hok : setPacketIpHeader packet addressFamily ipBytes tos flowLabel ttl protocol =
      .ok packet') : packet' = { packet with toPacket := packet'.toPacket } := by
  unfold setPacketIpHeader at hok
  split_ifs at hok
  · obtain ⟨-, -, hok⟩ := bind_eq_ok_iff.mp hok
    obtain ⟨middle, happend, hok⟩ := bind_eq_ok_iff.mp hok
    obtain rfl := pure_eq_ok_iff.mp hok
    rw [appendHeaderTotal_rest happend]
  · obtain ⟨-, -, hok⟩ := bind_eq_ok_iff.mp hok
    obtain ⟨middle, happend, hok⟩ := bind_eq_ok_iff.mp hok
    obtain ⟨buffer, -, hok⟩ := bind_eq_ok_iff.mp hok
    obtain rfl := pure_eq_ok_iff.mp hok
    rw [appendHeaderTotal_rest happend]

theorem newTcpPacket_echoedHeader {args : TcpArgs}
    (hok : newTcpPacket heap args = .ok (.ok packet)) : packet.echoedHeader = false := by
  obtain ⟨-, -, -, -, -, -, withIp, withTcp, start, hset, happend, -, rfl⟩ :=
    newTcpPacket_eq_ok_iff.mp hok
  rw [appendHeaderTotal_rest happend, setPacketIpHeader_rest hset]
  rfl

theorem newUdpPacket_info {args : UdpArgs} (hok : newUdpPacket heap args = .ok (.ok packet)) :
    packet.echoedHeader = false ∧ packet.flags = 0 := by
  obtain ⟨-, -, withIp, withUdp, start, hset, happend, -, rfl⟩ := udpCall_of_newUdpPacket hok
  rw [appendHeaderTotal_rest happend, setPacketIpHeader_rest hset]
  exact ⟨rfl, rfl⟩

end Builders

end QoSMos
