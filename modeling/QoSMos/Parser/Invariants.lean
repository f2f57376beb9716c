import Mathlib.Data.List.ReduceOption
import QoSMos.Parser.Table

/-!
# What an accepted packet satisfies

The header table of every accepted packet, the datagram length that is left in
`ip_bytes`, and how far the headers of a tunnel contain each other. The last two hold
under conditions on the header stack only, which are stated with them.
-/

namespace QoSMos

open LabelledPath

/-- The header table `hs` of a packet and what the rest of the packet says of it. -/
structure HeaderTable (packet : Packet) (parsed : List (HeaderType × Option Nat))
    (hs : List Header) : Prop where
  table : Table packet hs
  nonempty : hs ≠ []
  first : hs.head?.map Header.ptr = some (some packet.l2HeaderBytes)
  next : hs.IsChain fun h g => ∃ p, h.ptr = some p ∧ g.ptr = some (p + h.headerBytes)
  /-- Every pointer is the position at which the header was parsed. -/
  position : parsed = hs.map fun h => (h.type, h.ptr)
  transport : ∃ init last p, hs = init ++ [last] ∧ last.type.isTransport = true ∧
    (∀ h ∈ init, h.type.isTransport = false) ∧ last.ptr = some p ∧
    [packet.tcp, packet.udp, packet.icmpv4, packet.icmpv6].reduceOption = [p]
  /-- The primary IP header is the innermost one. -/
  primary : ∃ outer ip inner p, hs = outer ++ ip :: inner ∧ ip.type.isIp = true ∧
    (∀ h ∈ inner, ¬ h.type.isIp = true) ∧ ip.ptr = some p ∧
    [packet.ipv4, packet.ipv6].reduceOption = [p]

variable {b : Memory} {bufferBytes e : Nat} {layer : PacketLayer} {hs : List Header}

theorem layerStart_ne_done (b : Memory) (layer : PacketLayer) :
    (layerStart b layer).1 ≠ .done := by
  cases layer <;> simp [layerStart]

theorem layerStart_ne_payload (b : Memory) (layer : PacketLayer) (protocol len : Nat) :
    (layerStart b layer).1 ≠ .payload protocol len := by
  cases layer <;> simp [layerStart]

theorem startPacket_table (b : Memory) (bufferBytes : Nat) (layer : PacketLayer)
    (hused : ∀ h ∈ hs, h.type ≠ .none)
    (hlen : hs.length ≤ PACKET_MAX_HEADERS) :
    Table ((startPacket b bufferBytes layer).afterHeaders hs) hs :=
  have hempty : Table (startPacket b bufferBytes layer) [] :=
    ⟨by simp, (Table.packetNew b bufferBytes).entries, by simp⟩
  hempty.afterHeaders hused (by simpa using hlen)

theorem startPacket_transports (b : Memory) (bufferBytes : Nat) (layer : PacketLayer)
    {init : List Header} {last : Header} {p : Nat}
    (hinit : ∀ h ∈ init, h.type.isTransport = false) (hptr : last.ptr = some p) :
    ((startPacket b bufferBytes layer).afterHeaders (init ++ [last])).transports =
      [if last.type = .tcp then some p else none, if last.type = .udp then some p else none,
        if last.type = .icmpv4 then some p else none,
        if last.type = .icmpv6 then some p else none] := by
  rw [transports_afterHeaders hinit, ← hptr]
  rfl

theorem HeaderStack.headerTable (hstack : HeaderStack b e layer hs) :
    HeaderTable ((startPacket b bufferBytes layer).afterHeaders hs)
      (hs.map fun h => (h.type, h.ptr)) hs := by
  obtain ⟨hd, hlen⟩ := hstack
  obtain ⟨init, last, y, q, hsplit, -, hlast, -, hp, hinit⟩ :=
    exists_last_of_derives hd (layerStart_ne_done b layer)
  refine ⟨startPacket_table b bufferBytes layer (used_of_path hp) hlen, by simp [hsplit], ?_,
    isChain_of_path hp, rfl, ?_, ?_⟩
  · obtain ⟨h, tl, next, rfl, hh⟩ := head_of_path hp (by simp [hsplit])
    rw [l2HeaderBytes_afterHeaders, List.head?_cons, Option.map_some, hh.ptr]
    rfl
  · have htransport : last.type.isTransport = true := hlast.isTransport_iff.mpr rfl
    refine ⟨init, last, y.2, hsplit, htransport, hinit, hlast.ptr, ?_⟩
    have hkept := startPacket_transports b bufferBytes layer hinit hlast.ptr
    rw [← hsplit] at hkept
    show List.reduceOption (Packet.transports _) = _
    rw [hkept]
    cases ht : last.type <;> simp [ht, HeaderType.isTransport] at htransport ⊢
  · obtain ⟨outer, ip, inner, rfl, hip, hinner⟩ :=
      exists_innermost (exists_isIp_of_derives hd (layerStart_ne_done b layer)
        (layerStart_ne_payload b layer))
    obtain ⟨p, hptr⟩ := ptr_of_path hp ip (by simp)
    refine ⟨outer, ip, inner, p, rfl, hip, hinner, hptr, ?_⟩
    obtain ⟨h4, h6⟩ := primary_afterHeaders (startPacket b bufferBytes layer) outer ⟨rfl, rfl⟩
      hptr hip hinner
    rw [h4, h6]
    cases ht : ip.type <;> simp [ht, HeaderType.isIp] at hip ⊢

/-- The header table of every accepted packet is in order. -/
theorem runParsePacket_headerTable (b : Memory) {bufferBytes inBytes : Nat} {layer : PacketLayer}
    {s : ParseState} (hle : inBytes ≤ bufferBytes)
    (hrun : runParsePacket b bufferBytes inBytes layer = .ok (.ok, s)) :
    ∃ hs, HeaderTable s.packet s.parsed hs := by
  obtain ⟨hs, hstack, hpacket, hparsed⟩ := runParsePacket_ok_stack hle hrun
  refine ⟨hs, ?_⟩
  rw [hpacket, hparsed]
  exact hstack.headerTable

theorem runParsePacket_headerTable_greMpls : ∃ s, runParsePacket (.ofList greMplsPacket) 84 84
    .layer3Ip = .ok (.ok, s) ∧ ∃ hs, HeaderTable s.packet s.parsed hs :=
  ⟨_, rfl, @runParsePacket_headerTable (.ofList greMplsPacket) 84 84 .layer3Ip _ (by decide) rfl⟩

/-! ## Datagram length -/

/-- `ip_bytes` is the length of the outermost datagram, which was captured, and the
payload of the transport header ends with it or before. -/
structure DatagramLength (packet : Packet) (inBytes : Nat) : Prop where
  ipBytes : packet.ipBytes = (packet.headers.toList.getD 0 Header.unused).totalBytes
  inside : ∃ start, packetStart packet = .ok start ∧
    packetEnd packet =
      .ok (start + (packet.headers.toList.getD 0 Header.unused).totalBytes) ∧
    start + (packet.headers.toList.getD 0 Header.unused).totalBytes ≤ inBytes
  payload : ∃ len, packetPayloadLen packet = .ok len ∧ 0 ≤ len

/-- All the headers fit the length that the outermost one gives; those of an outermost
MPLS stack, which has no length of its own, fill the captured bytes. -/
def OutermostCovers : List Header → Prop
  | [] => True
  | h :: hs =>
    if h.type = .mpls then headerSum (h :: hs) = h.totalBytes
    else headerSum (h :: hs) ≤ h.totalBytes

theorem packetPayload_of_transports {packet : Packet} {sym : Symbol} {p : Nat} {last : Header}
    (hlast : HeaderAt packet.buffer e sym p last .done)
    (ht : packet.transports = [if last.type = .tcp then some p else none,
      if last.type = .udp then some p else none, if last.type = .icmpv4 then some p else none,
      if last.type = .icmpv6 then some p else none]) :
    packetPayload packet = .ok (p + last.headerBytes) := by
  simp only [Packet.transports, List.cons.injEq, and_true] at ht
  obtain ⟨htcp, hudp, hicmpv4, hicmpv6⟩ := ht
  unfold packetPayload
  rw [htcp, hudp, hicmpv4, hicmpv6]
  generalize hd : Symbol.done = next at hlast
  cases hlast <;> first | rfl | cases hd

theorem HeaderStack.packetStart_eq (hstack : HeaderStack b e layer hs) (bufferBytes : Nat) :
    packetStart ((startPacket b bufferBytes layer).afterHeaders hs) =
      .ok (layerStart b layer).2 := by
  obtain ⟨⟨q, hp⟩, hlen⟩ := hstack
  have htable := startPacket_table b bufferBytes layer (used_of_path hp) hlen
  obtain ⟨init, last, -, -, hsplit, -⟩ :=
    exists_last_of_derives ⟨q, hp⟩ (layerStart_ne_done b layer)
  obtain ⟨h, tl, next, rfl, hh⟩ := head_of_path hp (by simp [hsplit])
  have hfirst : (((startPacket b bufferBytes layer).afterHeaders (h :: tl)).headers.toList.getD 0
      Header.unused) = h := by
    rw [htable.entries]
    rfl
  rw [packetStart, hfirst, hh.ptr]

/-- The payload starts behind all the headers. -/
theorem HeaderStack.packetPayload_eq (hstack : HeaderStack b e layer hs) (bufferBytes : Nat) :
    packetPayload ((startPacket b bufferBytes layer).afterHeaders hs) =
      .ok ((layerStart b layer).2 + headerSum hs) := by
  obtain ⟨init, last, y, q, hsplit, -, hlast, hq, hp, hinit⟩ :=
    exists_last_of_derives hstack.1 (layerStart_ne_done b layer)
  have hbuf : ((startPacket b bufferBytes layer).afterHeaders hs).buffer = b := by
    rw [buffer_afterHeaders]
    rfl
  have hpos : q = (layerStart b layer).2 + headerSum hs := position_of_path hp
  rw [← hpos, hq]
  refine packetPayload_of_transports (hbuf ▸ hlast) ?_
  rw [hsplit, startPacket_transports b bufferBytes layer hinit hlast.ptr]

/-- What `ip_bytes` counts depends on the outermost header only. -/
theorem HeaderStack.ipBytes_eq {h : Header} {tl : List Header}
    (hstack : HeaderStack b e layer (h :: tl)) (bufferBytes : Nat) :
    ((startPacket b bufferBytes layer).afterHeaders (h :: tl)).ipBytes =
      if h.type.isIp then h.totalBytes else headerSum (h :: tl) := by
  obtain ⟨⟨q, hp⟩, -⟩ := hstack
  exact ipBytes_afterHeaders rfl (headerBytes_pos_of_path hp (layerStart_fits b layer) h (by simp))

theorem HeaderStack.packetPayloadLen_eq (hstack : HeaderStack b e layer hs) (bufferBytes : Nat) :
    packetPayloadLen ((startPacket b bufferBytes layer).afterHeaders hs) =
      .ok ((((startPacket b bufferBytes layer).afterHeaders hs).ipBytes : Int) - headerSum hs) := by
  rw [packetPayloadLen, packetEnd, hstack.packetStart_eq bufferBytes,
    hstack.packetPayload_eq bufferBytes]
  simp only [bind, Except.bind, pure, Except.pure, Except.ok.injEq]
  omega

theorem HeaderStack.datagramLength_iff (hstack : HeaderStack b e layer hs) :
    DatagramLength ((startPacket b bufferBytes layer).afterHeaders hs) e ↔
      OutermostCovers hs := by
  obtain ⟨init, last, y, q, hsplit, -, -, -, hp, -⟩ :=
    exists_last_of_derives hstack.1 (layerStart_ne_done b layer)
  obtain ⟨h, tl, next, rfl, hh⟩ := head_of_path hp (by simp [hsplit])
  have htable := startPacket_table b bufferBytes layer (used_of_path hp) hstack.2
  have hstart := hstack.packetStart_eq bufferBytes
  have hipBytes := hstack.ipBytes_eq bufferBytes
  have hpayloadLen := hstack.packetPayloadLen_eq bufferBytes
  generalize (startPacket b bufferBytes layer).afterHeaders (h :: tl) = packet at *
  have hfirst : packet.headers.toList.getD 0 Header.unused = h := by
    rw [htable.entries]
    rfl
  have hend : packetEnd packet = .ok ((layerStart b layer).2 + packet.ipBytes) := by
    rw [packetEnd, hstart]
    rfl
  have htotal := hh.totalBytes_le (layerStart_fits b layer)
  rcases hh.isIp_or_mpls (layerStart_ne_payload b layer) with hip | ⟨hmpls, -, -⟩
  · have hnot : h.type ≠ .mpls := by rintro ht; simp [ht, HeaderType.isIp] at hip
    rw [if_pos hip] at hipBytes
    rw [OutermostCovers, if_neg hnot]
    constructor
    · rintro ⟨-, -, len, hlen, hnonneg⟩
      rw [hpayloadLen, Except.ok.injEq] at hlen
      omega
    · intro hcovers
      refine ⟨by rw [hfirst, hipBytes], ⟨_, hstart, ?_, by rwa [hfirst]⟩, _, hpayloadLen, by omega⟩
      rw [hend, hfirst, hipBytes]
  · rw [if_neg (by simp [hmpls, HeaderType.isIp])] at hipBytes
    rw [OutermostCovers, if_pos hmpls]
    constructor
    · rintro ⟨htotal, -, -⟩
      rwa [hipBytes, hfirst] at htotal
    · intro hcovers
      refine ⟨by rw [hfirst, hipBytes, hcovers], ⟨_, hstart, ?_, by rwa [hfirst]⟩, _, hpayloadLen,
        by omega⟩
      rw [hend, hfirst, hipBytes, hcovers]

/-- The datagram length is right exactly for the packets whose outermost header covers all
the others. -/
theorem runParsePacket_datagramLength_iff (b : Memory) {bufferBytes inBytes : Nat}
    (layer : PacketLayer) (hle : inBytes ≤ bufferBytes) :
    (∀ s, runParsePacket b bufferBytes inBytes layer = .ok (.ok, s) →
      DatagramLength s.packet inBytes) ↔
    ∀ hs, HeaderStack b inBytes layer hs → OutermostCovers hs := by
  constructor
  · intro h hs hstack
    obtain ⟨s, hrun, hpacket⟩ := hstack.accepted hle
    exact hstack.datagramLength_iff.mp (hpacket ▸ h s hrun)
  · intro h s hrun
    obtain ⟨hs, hstack, hpacket, -⟩ := runParsePacket_ok_stack hle hrun
    rw [hpacket]
    exact hstack.datagramLength_iff.mpr (h hs hstack)

theorem runParsePacket_datagramLength_iff_greMpls :
    (∀ s, runParsePacket (.ofList greMplsPacket) 84 84 .layer3Ip = .ok (.ok, s) →
      DatagramLength s.packet 84) ↔
    ∀ hs, HeaderStack (.ofList greMplsPacket) 84 .layer3Ip hs → OutermostCovers hs :=
  runParsePacket_datagramLength_iff _ .layer3Ip (by decide)

/-- An Ethernet/MPLS/IPv4/UDP frame with four bytes of payload. -/
def mplsFrame : List UInt8 :=
  [0x0a, 0x00, 0x00, 0x00, 0x00, 0x02, 0x0a, 0x00, 0x00, 0x00, 0x00, 0x01, 0x88, 0x47, 0x00, 0x00,
   0x01, 0x40, 0x45, 0x00, 0x00, 0x20, 0x00, 0x00, 0x00, 0x00, 0x40, 0x11, 0xf9, 0x17, 0xc0, 0xa8,
   0x00, 0x01, 0xc0, 0xa8, 0x00, 0x64, 0x1f, 0x90, 0xdb, 0xcc, 0x00, 0x0c, 0x00, 0x00, 0x01, 0x02,
   0x03, 0x04]

/-- Under an outermost MPLS stack, `ip_bytes` stays the sum of the headers. -/
theorem not_runParsePacket_datagramLength :
    ¬ ∀ (b : Memory) (bufferBytes inBytes : Nat) (layer : PacketLayer) (s : ParseState),
      inBytes ≤ bufferBytes → runParsePacket b bufferBytes inBytes layer = .ok (.ok, s) →
      DatagramLength s.packet inBytes := by
  intro h
  have hlen := h (.ofList mplsFrame) 50 50 .layer2Ethernet _ le_rfl rfl
  exact absurd hlen.ipBytes (by decide)

/-! ## Containment -/

/-- The bytes of `inner` lie in the payload of `outer`. -/
def Contained (outer inner : Header) : Prop :=
  ∃ p q, outer.ptr = some p ∧ inner.ptr = some q ∧
    p + outer.headerBytes ≤ q ∧ q + inner.totalBytes ≤ p + outer.totalBytes

/-- An IP datagram directly in an IP or GRE header fits the payload that this declares,
and an MPLS stack directly in a GRE header only stands in a payload up to the last byte. -/
structure TunnelFits (e : Nat) (outer inner : Header) : Prop where
  datagram : outer.type.isIp = true ∨ outer.type = .gre → inner.type.isIp = true →
    outer.headerBytes + inner.totalBytes ≤ outer.totalBytes
  labels : outer.type = .gre → inner.type = .mpls →
    ∀ p, outer.ptr = some p → p + outer.totalBytes = e

theorem contained_iff {p : Nat} {outer inner : Header} (hp : outer.ptr = some p)
    (hq : inner.ptr = some (p + outer.headerBytes)) :
    Contained outer inner ↔ outer.headerBytes + inner.totalBytes ≤ outer.totalBytes := by
  constructor
  · rintro ⟨p', q', hp', hq', -, hle⟩
    obtain rfl : p = p' := by simpa [hp] using hp'
    obtain rfl : p + outer.headerBytes = q' := by simpa [hq] using hq'
    omega
  · intro hle
    exact ⟨p, _, hp, hq, le_rfl, by omega⟩

theorem contained_iff_tunnelFits {x y z : Expected} {g h : Header} (hx : x.Fits e)
    (hn : Next b e x h y) (hm : Next b e y g z) : Contained h g ↔ TunnelFits e h g := by
  have hq : g.ptr = some (x.2 + h.headerBytes) := by rw [hm.1.ptr, hn.2]
  have hcap := (hn.1.captured hx).2.1
  have hh := hn.1.totalBytes_le hx
  have hg := hm.1.totalBytes_le (hn.fits hx)
  rw [hn.2] at hg
  rw [contained_iff hn.1.ptr hq]
  obtain ⟨hip, hle, protocol, hy⟩ | ⟨hmpls, htotal, hy⟩ | ⟨hgre, t, hy⟩ | ⟨-, hy⟩ :=
    hn.1.next_cases
  · have hnot : h.type ≠ .gre := by rintro ht; simp [ht, HeaderType.isIp] at hip
    have hgAt := hm.1
    rw [hy] at hgAt
    refine ⟨fun hin => ⟨fun _ _ => hin, fun hgre => absurd hgre hnot⟩, fun hfits => ?_⟩
    rcases hgAt.isIp_or_totalBytes with hgip | ⟨-, htotal⟩
    · exact hfits.datagram (.inl hip) hgip
    · omega
  · refine iff_of_true (by omega) ⟨?_, ?_⟩
    · simp [hmpls, HeaderType.isIp]
    · simp [hmpls]
  · have hgAt := hm.1
    rw [hy] at hgAt
    refine ⟨fun hin => ⟨fun _ _ => hin, fun _ hgm p hp => ?_⟩, fun hfits => ?_⟩
    · obtain rfl : x.2 = p := by simpa [hn.1.ptr] using hp
      have htotal := hm.1.totalBytes_mpls hgm
      rw [hn.2] at htotal
      omega
    · rcases hgAt.isIp_or_mpls (by simp) with hgip | ⟨hgm, -, -⟩
      · exact hfits.datagram (.inr hgre) hgip
      · have hend := hfits.labels hgre hgm _ hn.1.ptr
        omega
  · exact absurd hy hm.1.ne_done

theorem isChain_contained_iff {x y : Expected} (hp : Path (Next b e) x hs y) (hx : x.Fits e) :
    hs.IsChain Contained ↔ hs.IsChain (TunnelFits e) := by
  induction hp with
  | nil => simp
  | cons hn hp ih =>
    have hfits := hn.fits hx
    cases hp with
    | nil => simp
    | cons hm _ =>
      rw [List.isChain_cons_cons, List.isChain_cons_cons, contained_iff_tunnelFits hx hn hm,
        ih hfits]

/-- The headers contain each other exactly in the packets whose tunnels fit. -/
theorem runParsePacket_contained_iff (b : Memory) {bufferBytes inBytes : Nat}
    (layer : PacketLayer) (hle : inBytes ≤ bufferBytes) :
    (∀ s hs, runParsePacket b bufferBytes inBytes layer = .ok (.ok, s) → Table s.packet hs →
      hs.IsChain Contained) ↔
    ∀ hs, HeaderStack b inBytes layer hs → hs.IsChain (TunnelFits inBytes) := by
  constructor
  · intro h hs hstack
    obtain ⟨s, hrun, hpacket⟩ := hstack.accepted hle
    obtain ⟨q, hp⟩ := hstack.1
    rw [← isChain_contained_iff hp (layerStart_fits b layer)]
    refine h s hs hrun ?_
    rw [hpacket]
    exact startPacket_table b bufferBytes layer (used_of_path hp) hstack.2
  · intro h s hs hrun htable
    obtain ⟨gs, hstack, hpacket, -⟩ := runParsePacket_ok_stack hle hrun
    obtain ⟨q, hp⟩ := hstack.1
    rw [hpacket] at htable
    obtain rfl := (startPacket_table b bufferBytes layer (used_of_path hp) hstack.2).unique htable
    exact (isChain_contained_iff hp (layerStart_fits b layer)).mpr (h _ hstack)

theorem runParsePacket_contained_iff_greMpls :
    (∀ s hs, runParsePacket (.ofList greMplsPacket) 84 84 .layer3Ip = .ok (.ok, s) →
      Table s.packet hs → hs.IsChain Contained) ↔
    ∀ hs, HeaderStack (.ofList greMplsPacket) 84 .layer3Ip hs → hs.IsChain (TunnelFits 84) :=
  runParsePacket_contained_iff _ .layer3Ip (by decide)

/-- An IPv4/IPv4/ICMP packet whose inner datagram is 8 bytes longer than the payload of the
outer one. -/
def overlongIpip : List UInt8 :=
  [0x45, 0x00, 0x00, 0x28, 0x00, 0x00, 0x00, 0x00, 0x40, 0x04, 0xf9, 0x1c, 0xc0, 0xa8, 0x00, 0x01,
   0xc0, 0xa8, 0x00, 0x64, 0x45, 0x00, 0x00, 0x1c, 0x00, 0x00, 0x00, 0x00, 0x40, 0x01, 0xf9, 0x2b,
   0xc0, 0xa8, 0x00, 0x01, 0xc0, 0xa8, 0x00, 0x64, 0x08, 0x00, 0xf7, 0xff, 0x00, 0x00, 0x00, 0x00]

theorem not_runParsePacket_contained :
    ¬ ∀ (b : Memory) (bufferBytes inBytes : Nat) (layer : PacketLayer) (s : ParseState)
      (hs : List Header), inBytes ≤ bufferBytes →
      runParsePacket b bufferBytes inBytes layer = .ok (.ok, s) → Table s.packet hs →
      hs.IsChain Contained := by
  intro h
  have hchain := h (.ofList overlongIpip) 48 48 .layer3Ip _
    [⟨.ipv4, 20, 40, some 0⟩, ⟨.ipv4, 20, 28, some 20⟩, ⟨.icmpv4, 8, 8, some 40⟩] le_rfl rfl
    ⟨by decide, by decide, by decide⟩
  rw [List.isChain_cons_cons, contained_iff rfl rfl] at hchain
  exact absurd hchain.1 (by decide)

end QoSMos
