import QoSMos.Build.EncapsulateLaw
import QoSMos.Parser.Moved

/-!
# Ethernet frames

`wire_server_netdev_send` puts an Ethernet header in front of a datagram. It takes the type from
`packet_address_family`, which is the family of the innermost IP header, while the datagram
starts with the outermost one. A frame whose type is right parses as the datagram does.
-/

namespace QoSMos

open Returns

/-- `ether_type_for_family` -/
def etherTypeForFamily (addressFamily : Int) : Except Halt Nat :=
  if addressFamily = AF_INET then .ok ETHERTYPE_IP
  else if addressFamily = AF_INET6 then .ok ETHERTYPE_IPV6
  else .error (.fault (.assertionFailed "ether_type_for_family" "!\"bad address family\""))

/-- `struct wire_server_netdev`, of which the addresses are used. -/
structure WireServerNetdev where
  clientEtherAddr : Vector UInt8 6
  serverEtherAddr : Vector UInt8 6

/-- The `ip_bytes` bytes from `packet_start` on. -/
def packetDatagram (packet : Packet) : Except Halt (List UInt8) := do
  let start ← ofFault (packetStart packet)
  return readBytes packet.buffer start packet.ipBytes

/-- `wire_server_netdev_send`: the bytes that are handed to `packet_socket_writev`. -/
def wireServerNetdevSend (netdev : WireServerNetdev) (packet : Packet) :
    Except Halt (List UInt8) := do
  let etherDhost := netdev.clientEtherAddr.toList
  let etherShost := netdev.serverEtherAddr.toList
  let etherType ← etherTypeForFamily (packetAddressFamily packet)
  let datagram ← packetDatagram packet
  return etherDhost ++ etherShost ++ be16 etherType ++ datagram

/-- A buffer that starts with the bytes that were received. -/
def Received (b : Memory) (bytes : List UInt8) : Prop := ∀ i < bytes.length, b i = bytes.getD i 0

/-- The frame has the type of the outermost header, and the parser makes the same of it as of
the bare datagram. -/
structure FramingLaw (packet : Packet) (frame : List UInt8) : Prop where
  etherType : be16At (.ofList frame) 12 =
    (packet.headers.toList.getD 0 Header.unused).type.ethProto
  parses : ∀ datagram, packetDatagram packet = .ok datagram →
    ∀ b m n k, Received b datagram → Received m frame → datagram.length ≤ n → frame.length ≤ k →
      ((∃ s, runParsePacket m k frame.length .layer2Ethernet = .ok (.ok, s)) ↔
        ∃ s, runParsePacket b n datagram.length .layer3Ip = .ok (.ok, s)) ∧
      ∀ s s', runParsePacket b n datagram.length .layer3Ip = .ok (.ok, s) →
        runParsePacket m k frame.length .layer2Ethernet = .ok (.ok, s') →
        MovedPacket ETHER_HEADER_BYTES s.packet s'.packet ∧
          ∀ i < datagram.length, s'.packet.buffer (ETHER_HEADER_BYTES + i) = s.packet.buffer i

/-- What `packet_encapsulate` returns for a built packet behind a legal chain of outer headers,
or the built packet itself. -/
inductive Emitted (outer : List OuterHeader) (inner : FullPacket) : FullPacket → Prop where
  | alone : outer = [] → Emitted outer inner inner
  | encapsulated {inetPton : InetPton} {heap heap' : Memory} {n : Nat} {front packet : FullPacket} :
      LegalOuter outer →
      appendHeaders inetPton (packetNew heap' n).full outer = .ok (.ok front) →
      packetEncapsulate heap front inner = .ok packet → Emitted outer inner packet

/-- The outermost header is of the family of the inner packet. -/
def SameFamily (outer : List OuterHeader) (inner : FullPacket) : Prop :=
  ∀ h ∈ outer.head?, (h.type = .ipv4 ↔ inner.ipv4 ≠ none)

/-! ## Frames and datagrams -/

section Frames

variable {b m : Memory} {e p : Nat} {t : HeaderType} {h : Header} {next : Symbol}
  {hs : List Header}

/-- An IP header with its version is expected by the type of the frame as by the datagram. -/
theorem headerAt_proto_iff (ht : t = .ipv4 ∨ t = .ipv6) (hversion : VersionAt b p t) :
    HeaderAt b e (.proto t.ethProto) p h next ↔ HeaderAt b e .ip p h next := by
  constructor
  · intro hh
    obtain ⟨he, hv, _⟩ | ⟨he, hv, _⟩ | ⟨he | he, _⟩ := hh.proto_inv
    · cases hh with
      | ipv4 _ hi => exact .ipv4 hv hi
      | ipv6 ha _ => cases he.symm.trans ha.1
      | mpls ha _ => rcases ha with ha | ha <;> cases he.symm.trans ha
    · cases hh with
      | ipv6 _ hi => exact .ipv6 hv hi
      | ipv4 ha _ => cases he.symm.trans ha.1
      | mpls ha _ => rcases ha with ha | ha <;> cases he.symm.trans ha
    · rcases ht with rfl | rfl <;> cases he
    · rcases ht with rfl | rfl <;> cases he
  · intro hh
    rcases ht with rfl | rfl
    · cases hh with
      | ipv4 _ hi => exact .ipv4 ⟨rfl, hversion⟩ hi
      | ipv6 ha _ => cases (show (6 : Nat) = 4 from Eq.trans (Eq.symm ha) hversion)
      | mpls ha _ => cases ha
    · cases hh with
      | ipv6 _ hi => exact .ipv6 ⟨rfl, hversion⟩ hi
      | ipv4 ha _ => cases (show (4 : Nat) = 6 from Eq.trans (Eq.symm ha) hversion)
      | mpls ha _ => cases ha

theorem derives_proto_iff (ht : t = .ipv4 ∨ t = .ipv6) (hversion : VersionAt b p t) :
    Derives b e (.proto t.ethProto, p) hs ↔ Derives b e (.ip, p) hs := by
  cases hs with
  | nil =>
    constructor
    · rintro ⟨q, hp⟩
      cases hp
    · rintro ⟨q, hp⟩
      cases hp
  | cons h hs =>
    constructor
    · rintro ⟨q, hp⟩
      obtain ⟨y, hn, hrest⟩ := LabelledPath.Path.cons_iff.mp hp
      exact ⟨q, .cons ⟨(headerAt_proto_iff ht hversion).mp hn.1, hn.2⟩ hrest⟩
    · rintro ⟨q, hp⟩
      obtain ⟨y, hn, hrest⟩ := LabelledPath.Path.cons_iff.mp hp
      exact ⟨q, .cons ⟨(headerAt_proto_iff ht hversion).mpr hn.1, hn.2⟩ hrest⟩

/-- The headers of a frame are those of its datagram, behind the Ethernet header. -/
theorem headerStack_frame_iff {d : Nat} (hd : d = ETHER_HEADER_BYTES)
    (hm : SameBytes b m e (d + e) 0 d) (ht : t = .ipv4 ∨ t = .ipv6)
    (hversion : VersionAt m d t) (htype : Ether.etherType m 0 = t.ethProto) {gs : List Header} :
    HeaderStack m (d + e) .layer2Ethernet gs ↔
      ∃ hs, HeaderStack b e .layer3Ip hs ∧ gs = hs.map (Header.moved d) := by
  have hfits : Expected.Fits e (Symbol.ip, 0) := layerStart_fits b .layer3Ip
  have hstart : layerStart m .layer2Ethernet = (Symbol.proto t.ethProto, d) := by
    rw [layerStart, htype, hd]
  unfold HeaderStack
  rw [hstart, derives_proto_iff ht hversion]
  constructor
  · rintro ⟨hderives, hlen⟩
    obtain ⟨hs, hds, rfl⟩ := Derives.unmoved (x := (.ip, 0)) hderives hfits hm
    exact ⟨hs, ⟨hds, by simpa using hlen⟩, rfl⟩
  · rintro ⟨hs, ⟨hds, hlen⟩, rfl⟩
    exact ⟨hds.moved hfits hm, by simpa using hlen⟩

/-- The parser makes the same of a frame as of its datagram. -/
theorem parses_frame {n k d : Nat} (hd : d = ETHER_HEADER_BYTES)
    (hm : SameBytes b m e (d + e) 0 d) (ht : t = .ipv4 ∨ t = .ipv6)
    (hversion : VersionAt m d t) (htype : Ether.etherType m 0 = t.ethProto) (hn : e ≤ n)
    (hk : d + e ≤ k) :
    ((∃ s, runParsePacket m k (d + e) .layer2Ethernet = .ok (.ok, s)) ↔
        ∃ s, runParsePacket b n e .layer3Ip = .ok (.ok, s)) ∧
      ∀ s s', runParsePacket b n e .layer3Ip = .ok (.ok, s) →
        runParsePacket m k (d + e) .layer2Ethernet = .ok (.ok, s') →
        MovedPacket d s.packet s'.packet ∧
          ∀ i < e, s'.packet.buffer (d + i) = s.packet.buffer i := by
  have hiff (gs : List Header) := @headerStack_frame_iff _ _ _ _ _ hd hm ht hversion htype gs
  refine ⟨⟨?_, ?_⟩, fun s s' hs hs' => ?_⟩
  · rintro ⟨s', hs'⟩
    obtain ⟨gs, hstack, -⟩ := runParsePacket_ok_stack hk hs'
    obtain ⟨hs, hstack, -⟩ := (hiff gs).mp hstack
    obtain ⟨s, hrun, -⟩ := hstack.accepted hn
    exact ⟨s, hrun⟩
  · rintro ⟨s, hs⟩
    obtain ⟨hs, hstack, -⟩ := runParsePacket_ok_stack hn hs
    obtain ⟨s', hrun, -⟩ := ((hiff _).mpr ⟨hs, hstack, rfl⟩).accepted hk
    exact ⟨s', hrun⟩
  · obtain ⟨hs, hstack, hpacket, -⟩ := runParsePacket_ok_stack hn hs
    obtain ⟨gs, hstack', hpacket', -⟩ := runParsePacket_ok_stack hk hs'
    obtain rfl := ((hiff _).mpr ⟨hs, hstack, rfl⟩).1.unique hstack'.1
    rw [hpacket, hpacket', buffer_afterHeaders, buffer_afterHeaders]
    refine ⟨(MovedPacket.start b m n k _ _).afterHeaders, fun i hi => ?_⟩
    have hbyte := hm.bytes i (by omega)
    rw [Nat.zero_add] at hbyte
    exact hbyte

end Frames

/-! ## Emitted packets -/

section Packets

variable {packet inner : FullPacket} {outer : List OuterHeader} {g h : Header} {t : HeaderType}

/-- The datagram starts in the buffer's first byte, with an IP header of the given type. -/
structure Outermost (packet : Packet) (t : HeaderType) : Prop where
  start : packetStart packet = .ok 0
  first : (packet.headers.toList.getD 0 Header.unused).type = t
  ip : t = .ipv4 ∨ t = .ipv6
  version : VersionAt packet.buffer 0 t

/-- A checksum is stored behind the first byte of the buffer. -/
theorem checksumPacket_first {packet packet' : Packet} (hok : checksumPacket packet = .ok packet') :
    ∃ c : Memory, packet' = { packet with buffer := c } ∧ c 0 = packet.buffer 0 ∧
      0 < packet.ipBytes := by
  unfold checksumPacket at hok
  split at hok
  · unfold checksumIpv4Packet at hok
    dsimp only at hok
    obtain ⟨_, hfits, hok⟩ := bind_eq_ok_iff.mp hok
    obtain ⟨_, hl4, hok⟩ := bind_eq_ok_iff.mp hok
    have hfits := require_eq_ok_iff.mp hfits
    have hl4 := require_eq_ok_iff.mp hl4
    have hfirst {c : Memory} {check : Nat} {compute : Memory → Nat} (hcheck : 0 < check) :
        fillChecksum c check compute 0 = c 0 := fillChecksum_outside (by omega) (by omega)
    split at hok
    · refine ⟨_, (pure_eq_ok_iff.mp hok).symm, ?_, by omega⟩
      rw [hfirst (by simp [Tcp.checkAt]), hfirst (by simp [Ipv4.checkAt])]
    · refine ⟨_, (pure_eq_ok_iff.mp hok).symm, ?_, by omega⟩
      rw [hfirst (by simp [Udp.checkAt]), hfirst (by simp [Ipv4.checkAt])]
    · refine ⟨_, (pure_eq_ok_iff.mp hok).symm, ?_, by omega⟩
      rw [hfirst (by simp [Icmp.checksumAt]), hfirst (by simp [Ipv4.checkAt])]
    · cases hok
  · unfold checksumIpv6Packet at hok
    dsimp only at hok
    obtain ⟨_, hfits, hok⟩ := bind_eq_ok_iff.mp hok
    obtain ⟨_, hl4, hok⟩ := bind_eq_ok_iff.mp hok
    have hfits := require_eq_ok_iff.mp hfits
    have hl4 := require_eq_ok_iff.mp hl4
    have hfirst {c : Memory} {check : Nat} {compute : Memory → Nat} (hcheck : 0 < check) :
        fillChecksum c check compute 0 = c 0 := fillChecksum_outside (by omega) (by omega)
    split at hok
    · exact ⟨_, (pure_eq_ok_iff.mp hok).symm, hfirst (by simp [Tcp.checkAt]), by omega⟩
    · exact ⟨_, (pure_eq_ok_iff.mp hok).symm, hfirst (by simp [Udp.checkAt]), by omega⟩
    · exact ⟨_, (pure_eq_ok_iff.mp hok).symm, hfirst (by simp [Icmp.checksumAt]), by omega⟩
    · cases hok
  · cases hok

theorem Outermost.checksummed {packet packet' : Packet} (ho : Outermost packet t)
    (hok : checksumPacket packet = .ok packet') : Outermost packet' t := by
  obtain ⟨c, rfl, hc, -⟩ := checksumPacket_first hok
  have hversion := ho.version
  refine ⟨ho.start, ho.first, ho.ip, ?_⟩
  have h0 : u8At c 0 = u8At packet.buffer 0 := congrArg UInt8.toNat hc
  rcases ho.ip with rfl | rfl
  · show u8At c 0 / 16 = 4
    rw [h0]
    exact hversion
  · show u8At c 0 / 16 = 6
    rw [h0]
    exact hversion

theorem InnerBuilt.ipv4_iff (hi : InnerBuilt inner g h) :
    g.type = .ipv4 ↔ inner.ipv4 ≠ none := by
  rcases hi.ip with ⟨h4, -, hne⟩ | ⟨h6, hnone⟩
  · exact iff_of_true h4 hne
  · exact iff_of_false (by simp [h6]) (by simp [hnone])

theorem InnerBuilt.outermost (hi : InnerBuilt inner g h) : Outermost inner.toPacket g.type := by
  have hfirst : inner.headers.toList.getD 0 Header.unused = g := by
    rw [hi.table.entries]
    rfl
  refine ⟨?_, by rw [hfirst], hi.ip.imp And.left And.left, hi.version⟩
  rw [packetStart, hfirst, hi.stacked.1.ptr]

/-- What an emitted packet starts with, and which family the sender takes it for. -/
theorem Emitted.outermost (hinner : IsBuilt inner) (he : Emitted outer inner packet) :
    ∃ t, Outermost packet.toPacket t ∧
      (SameFamily outer inner ↔ (t = .ipv4 ↔ inner.ipv4 ≠ none)) ∧
      (packet.ipv4 = none ↔ inner.ipv4 = none) := by
  obtain ⟨g, h, hi⟩ := hinner.innerBuilt
  cases he with
  | alone hnone =>
    refine ⟨g.type, hi.outermost, iff_of_true ?_ hi.ipv4_iff, Iff.rfl⟩
    simp [SameFamily, hnone]
  | encapsulated hlegal hfront hok =>
    obtain ⟨hs, hen⟩ := exists_encapsulated hlegal hfront hinner hok
    obtain ⟨os, ho⟩ := (ChainBuilt.packetNew _ _).appendHeaders hfront
    obtain ⟨init, last, henclosable⟩ := hinner.enclosable
    have hpointers := (henclosable.layout ho hok).pointers
    have hipv4 : packet.ipv4 = offsetPtr _ inner.ipv4 := (List.cons.inj hpointers).1
    have htypes := hen.types
    rw [hi.table.usedHeaders_eq] at htypes
    obtain ⟨c, hstacked, -⟩ := hen.stacked
    obtain ⟨x, rest, rfl⟩ : ∃ x rest, hs = x :: rest := by
      cases hs with
      | nil => simp at htypes
      | cons x rest => exact ⟨x, rest, rfl⟩
    have hfirst : packet.headers.toList.getD 0 Header.unused =
        x.withTotal (x.finishedTotal (finishedHeaders rest).head?) := by
      rw [hen.table.entries]
      rfl
    have hstart : packetStart packet.toPacket = .ok 0 := by
      rw [packetStart, hfirst, ptr_withTotal, hstacked.1.ptr]
    refine ⟨x.type, ⟨hstart, by rw [hfirst, type_withTotal], hen.first, hen.version⟩, ?_, ?_⟩
    · cases outer with
      | nil =>
        have hx : x.type = g.type := (List.cons.inj htypes).1
        rw [hx]
        exact iff_of_true (by simp [SameFamily]) hi.ipv4_iff
      | cons o outer =>
        have hx : x.type = o.type := (List.cons.inj htypes).1
        simp [SameFamily, hx]
    · rw [hipv4, offsetPtr_eq_none]

end Packets

/-! ## The law -/

section Law

variable {netdev : WireServerNetdev} {packet : Packet} {frame : List UInt8} {t : HeaderType}

/-- The header type that the Ethernet type written stands for. -/
def writtenType (packet : Packet) : HeaderType := if packet.ipv4 = none then .ipv6 else .ipv4

theorem writtenType_isIp (packet : Packet) :
    writtenType packet = .ipv4 ∨ writtenType packet = .ipv6 := by
  unfold writtenType
  split <;> simp

theorem etherTypeForFamily_eq_ok {n : Nat}
    (hok : etherTypeForFamily (packetAddressFamily packet) = .ok n) :
    n = (writtenType packet).ethProto := by
  unfold packetAddressFamily at hok
  unfold writtenType
  split at hok
  · rename_i h4
    rw [h4]
    exact (Except.ok.inj hok).symm
  · rename_i h4 h6
    rw [h4]
    exact (Except.ok.inj hok).symm
  · cases hok

/-- The frame of a packet that starts its buffer. -/
theorem wireServerNetdevSend_eq_ok (hstart : packetStart packet = .ok 0)
    (hok : wireServerNetdevSend netdev packet = .ok frame) :
    frame = netdev.clientEtherAddr.toList ++ netdev.serverEtherAddr.toList ++
      be16 (writtenType packet).ethProto ++ readBytes packet.buffer 0 packet.ipBytes := by
  unfold wireServerNetdevSend at hok
  dsimp only at hok
  obtain ⟨etherType, htype, hok⟩ := bind_eq_ok_iff.mp hok
  obtain rfl := etherTypeForFamily_eq_ok htype
  obtain ⟨datagram, hdatagram, hok⟩ := bind_eq_ok_iff.mp hok
  rw [packetDatagram, hstart] at hdatagram
  obtain rfl := Except.ok.inj hdatagram
  exact (pure_eq_ok_iff.mp hok).symm

theorem ethProto_inj {u : HeaderType} (ht : t = .ipv4 ∨ t = .ipv6) (hu : u = .ipv4 ∨ u = .ipv6)
    (heq : t.ethProto = u.ethProto) : t = u := by
  rcases ht with rfl | rfl <;> rcases hu with rfl | rfl <;> first | rfl | cases heq

/-- The bytes of a frame: its type at offset 12 and the datagram behind it. -/
theorem frame_bytes {addresses datagram : List UInt8} (n : Nat) (haddr : addresses.length = 12) :
    (addresses ++ be16 n ++ datagram).length = ETHER_HEADER_BYTES + datagram.length ∧
      (∀ k < 2, (addresses ++ be16 n ++ datagram).getD (12 + k) 0 = (be16 n).getD k 0) ∧
      ∀ i, (addresses ++ be16 n ++ datagram).getD (ETHER_HEADER_BYTES + i) 0 =
        datagram.getD i 0 := by
  have hlen : (addresses ++ be16 n).length = ETHER_HEADER_BYTES := by
    rw [List.length_append, haddr, length_be16]
    rfl
  refine ⟨by rw [List.length_append, hlen], fun k hk => ?_, fun i => ?_⟩
  · rw [List.getD_append _ _ _ _ (by rw [hlen, ETHER_HEADER_BYTES]; omega),
      List.getD_append_right _ _ _ _ (by omega), haddr, Nat.add_sub_cancel_left]
  · rw [List.getD_append_right _ _ _ _ (by omega), hlen, Nat.add_sub_cancel_left]

/-- The frame of a packet is right exactly if its type is. -/
theorem framingLaw_iff (ho : Outermost packet t) (hpos : 0 < packet.ipBytes)
    (hok : wireServerNetdevSend netdev packet = .ok frame) :
    FramingLaw packet frame ↔ writtenType packet = t := by
  obtain rfl := wireServerNetdevSend_eq_ok ho.start hok
  have haddr : (netdev.clientEtherAddr.toList ++ netdev.serverEtherAddr.toList).length = 12 := by
    simp
  obtain ⟨hlen, htype, hbytes⟩ := @frame_bytes _ (readBytes packet.buffer 0 packet.ipBytes)
    (writtenType packet).ethProto haddr
  generalize hframe : netdev.clientEtherAddr.toList ++ netdev.serverEtherAddr.toList ++
    be16 (writtenType packet).ethProto ++ readBytes packet.buffer 0 packet.ipBytes = frame at *
  rw [length_readBytes] at hlen
  have hread {m : Memory} (hm : ∀ k < 2, m (12 + k) = frame.getD (12 + k) 0) :
      be16At m 12 = (writtenType packet).ethProto := by
    have hwrite : be16At m 12 = be16At
        (writeBytes m 12 (be16 (writtenType packet).ethProto)) 12 := by
      have hk (k : Nat) (hk : k < 2) :
          m (12 + k) = writeBytes m 12 (be16 (writtenType packet).ethProto) (12 + k) := by
        rw [hm k hk, htype k hk, writeBytes_inside (by simpa using hk)]
      exact be16At_transfer (hk 0 (by omega)) (hk 1 (by omega))
    rw [hwrite, be16At_writeBytes_be16, Nat.mod_eq_of_lt (ethProto_lt _)]
  have hwritten : be16At (.ofList frame) 12 = (writtenType packet).ethProto :=
    hread fun k _ => rfl
  constructor
  · intro hlaw
    have heq := hlaw.etherType
    rw [hwritten, ho.first] at heq
    exact ethProto_inj (writtenType_isIp packet) ho.ip heq
  · intro heq
    refine ⟨by rw [hwritten, ho.first, heq], ?_⟩
    intro datagram hdatagram b m n k hb hm hn hk
    rw [packetDatagram, ho.start] at hdatagram
    obtain rfl := Except.ok.inj hdatagram
    have hdlen : (readBytes packet.buffer 0 packet.ipBytes).length = packet.ipBytes :=
      length_readBytes
    have hfourteen : ETHER_HEADER_BYTES = 14 := rfl
    unfold Received at hb hm
    rw [hdlen] at hb hn ⊢
    rw [hlen] at hm hk ⊢
    have hsame : SameBytes b m packet.ipBytes (ETHER_HEADER_BYTES + packet.ipBytes) 0
        ETHER_HEADER_BYTES := by
      refine ⟨Nat.zero_add _, fun i hi => ?_⟩
      rw [Nat.zero_add] at hi ⊢
      rw [hm _ (by omega), hbytes, hb i hi]
    have hfirst : m ETHER_HEADER_BYTES = packet.buffer 0 := by
      have h0 := hm ETHER_HEADER_BYTES (by omega)
      have h1 := hbytes 0
      rw [Nat.add_zero] at h1
      rw [h0, h1, getD_readBytes hpos]
    have hversion : VersionAt m ETHER_HEADER_BYTES t := by
      have hv := ho.version
      have h0 : u8At m ETHER_HEADER_BYTES = u8At packet.buffer 0 := congrArg UInt8.toNat hfirst
      rcases ho.ip with rfl | rfl
      · show u8At m ETHER_HEADER_BYTES / 16 = 4
        rw [h0]
        exact hv
      · show u8At m ETHER_HEADER_BYTES / 16 = 6
        rw [h0]
        exact hv
    have hether : Ether.etherType m 0 = t.ethProto := by
      rw [← heq]
      exact hread fun k _ => hm _ (by omega)
    exact parses_frame rfl hsame ho.ip hversion hether hn hk

/-- What `wire_server_netdev_send` makes of an emitted packet is right exactly if the outermost
header is of the family of the innermost. -/
theorem wireServerNetdevSend_framing_iff {outer : List OuterHeader} {inner emitted : FullPacket}
    (hinner : IsBuilt inner) (hemitted : Emitted outer inner emitted)
    (hchecksum : checksumPacket emitted.toPacket = .ok packet)
    (hok : wireServerNetdevSend netdev packet = .ok frame) :
    FramingLaw packet frame ↔ SameFamily outer inner := by
  obtain ⟨t, ho, hfamily, h4⟩ := hemitted.outermost hinner
  obtain ⟨c, hpacket, -, hpos⟩ := checksumPacket_first hchecksum
  have hpos' : 0 < packet.ipBytes := by
    rw [hpacket]
    exact hpos
  have hipv4 : packet.ipv4 = none ↔ inner.ipv4 = none := by
    rw [hpacket]
    exact h4
  rw [framingLaw_iff (ho.checksummed hchecksum) hpos' hok, hfamily]
  unfold writtenType
  rcases ho.ip with rfl | rfl <;> by_cases hnone : inner.ipv4 = none <;> simp [hipv4, hnone]

end Law

/-- Two addresses of a test network. -/
def testNetdev : WireServerNetdev where
  clientEtherAddr := ⟨#[2, 0, 0, 0, 0, 1], rfl⟩
  serverEtherAddr := ⟨#[2, 0, 0, 0, 0, 2], rfl⟩

theorem wireServerNetdevSend_framing_iff_syn : ∃ inner packet frame,
    newTcpPacket (fun _ => 0) synArgs = .ok (.ok inner) ∧
    checksumPacket inner.toPacket = .ok packet ∧
    wireServerNetdevSend testNetdev packet = .ok frame ∧
    (FramingLaw packet frame ↔ SameFamily [] inner) := by
  obtain ⟨inner, packet, frame, hinner, hchecksum, hok⟩ : ∃ inner packet frame,
      newTcpPacket (fun _ => 0) synArgs = .ok (.ok inner) ∧
      checksumPacket inner.toPacket = .ok packet ∧
      wireServerNetdevSend testNetdev packet = .ok frame := ⟨_, _, _, rfl, rfl, rfl⟩
  exact ⟨inner, packet, frame, hinner, hchecksum, hok,
    wireServerNetdevSend_framing_iff (.inl ⟨_, synArgs, hinner⟩) (.alone rfl) hchecksum hok⟩

/-- An IPv6 segment behind IPv4, GRE and MPLS headers is sent with the type of IPv6. -/
theorem not_forall_framingLaw :
    ¬ ∀ (netdev : WireServerNetdev) (outer : List OuterHeader) (inner emitted : FullPacket)
      (packet : Packet) (frame : List UInt8), IsBuilt inner → Emitted outer inner emitted →
      checksumPacket emitted.toPacket = .ok packet →
      wireServerNetdevSend netdev packet = .ok frame → FramingLaw packet frame := by
  intro h
  obtain ⟨front, inner, emitted, packet, frame, hfront, hinner, hencapsulate, hchecksum, hok, htype,
      hfirst⟩ : ∃ front inner emitted packet frame,
      appendHeaders (pton "192.0.2.1") (packetNew (fun _ => 0) 256).full greMplsOuter =
        .ok (.ok front) ∧
      newTcpPacket (fun _ => 0) synArgs = .ok (.ok inner) ∧
      packetEncapsulate (fun _ => 0) front inner = .ok emitted ∧
      checksumPacket emitted.toPacket = .ok packet ∧
      wireServerNetdevSend testNetdev packet = .ok frame ∧
      be16At (.ofList frame) 12 = ETHERTYPE_IPV6 ∧
      (packet.headers.toList.getD 0 Header.unused).type = .ipv4 :=
    ⟨_, _, _, _, _, rfl, rfl, rfl, rfl, rfl, rfl, rfl⟩
  have hlaw := h _ _ _ _ _ _ (.inl ⟨_, synArgs, hinner⟩)
    (.encapsulated legalOuter_greMpls hfront hencapsulate) hchecksum hok
  have heq := hlaw.etherType
  rw [htype, hfirst] at heq
  exact absurd heq (by decide)

end QoSMos
