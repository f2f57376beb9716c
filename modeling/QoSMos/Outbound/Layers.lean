import QoSMos.Outbound.Ordered

/-!
# The layers of a packet

In a packet that was parsed or built, the last two headers are an IP header and a transport header,
and in front of them are only headers that carry another one. The pointers of the packet are those
of its last two headers.
-/

namespace QoSMos

open Returns LabelledPath

/-- The bytes at the start of a header in which a verifier or a printer looks for its fields. -/
def HeaderType.comparedBytes : HeaderType → Nat
  | .ipv4 => 12
  | .ipv6 => 8
  | .gre => 4
  | _ => 0

/-- A header that carries another one. `gre_len` accepts it if it is a GRE header. -/
structure Carrier (b : Memory) (h : Header) : Prop where
  ptr : ∃ p, h.ptr = some p
  kind : h.type = .ipv4 ∨ h.type = .ipv6 ∨ h.type = .gre ∨ h.type = .mpls
  gre : h.type = .gre → ∀ p, h.ptr = some p → Gre.version b p = 0 ∧ Gre.hasRouting b p = false

/-- The packet has its innermost IP header at `p` and its transport header at `q`. -/
structure Layers (packet : Packet) (outer : List Header) (ip last : Header) (p q : Nat) : Prop where
  table : Table packet (outer ++ [ip, last])
  carriers : ∀ h ∈ outer, Carrier packet.buffer h
  ipPtr : ip.ptr = some p
  isIp : ip.type.isIp = true
  ipv4 : packet.ipv4 = if ip.type = .ipv4 then some p else none
  ipv6 : packet.ipv6 = if ip.type = .ipv6 then some p else none
  lastPtr : last.ptr = some q
  isTransport : last.type.isTransport = true
  transports : packet.transports =
    [if last.type = .tcp then some q else none, if last.type = .udp then some q else none,
      if last.type = .icmpv4 then some q else none, if last.type = .icmpv6 then some q else none]

/-- The packet that the mapping starts from: the compared fields of a header stand in front of the
next header. -/
structure LiveLayers (packet : FullPacket) (outer : List Header) (ip last : Header) (p q : Nat) :
    Prop extends Layers packet.toPacket outer ip last p q where
  start : ∃ start, packetStart packet.toPacket = .ok start ∧ start ≤ p
  front : ∀ h ∈ outer, ∀ r, h.ptr = some r → r + h.type.comparedBytes ≤ p
  behind : p + ip.type.ipFamily.headerBytes ≤ q
  doff : last.type = .tcp → TCP_BYTES ≤ Tcp.doff packet.buffer q * 4
  echoedHeader : packet.echoedHeader = false

section Pointers

variable {packet : Packet} {outer : List Header} {ip last : Header} {p q : Nat}

theorem Layers.tcp (hl : Layers packet outer ip last p q) :
    packet.tcp = if last.type = .tcp then some q else none :=
  (List.cons.inj hl.transports).1

theorem Layers.udp (hl : Layers packet outer ip last p q) :
    packet.udp = if last.type = .udp then some q else none :=
  (List.cons.inj (List.cons.inj hl.transports).2).1

theorem Layers.icmpv4 (hl : Layers packet outer ip last p q) :
    packet.icmpv4 = if last.type = .icmpv4 then some q else none :=
  (List.cons.inj (List.cons.inj (List.cons.inj hl.transports).2).2).1

theorem Layers.icmpv6 (hl : Layers packet outer ip last p q) :
    packet.icmpv6 = if last.type = .icmpv6 then some q else none :=
  (List.cons.inj (List.cons.inj (List.cons.inj (List.cons.inj hl.transports).2).2).2).1

theorem Layers.ip_cases (hl : Layers packet outer ip last p q) :
    ip.type = .ipv4 ∨ ip.type = .ipv6 := by
  have hip := hl.isIp
  cases ht : ip.type <;> simp_all [HeaderType.isIp]

theorem Layers.last_cases (hl : Layers packet outer ip last p q) :
    last.type = .tcp ∨ last.type = .udp ∨ last.type = .icmpv4 ∨ last.type = .icmpv6 := by
  have htransport := hl.isTransport
  cases ht : last.type <;> simp_all [HeaderType.isTransport]

theorem Layers.tupleFields (hl : Layers packet outer ip last p q) :
    packet.tupleFields = some ⟨ip.type.ipFamily, p, packet.tcp.or packet.udp⟩ := by
  unfold Packet.tupleFields headersFields HeaderType.ipFamily
  rw [hl.ipv4, hl.ipv6]
  rcases hl.ip_cases with ht | ht <;> simp [ht]

/-- The transport header decides where the payload starts. -/
theorem Layers.packetPayload (hl : Layers packet outer ip last p q) :
    packetPayload packet =
      .ok (q + if last.type = .tcp then Tcp.doff packet.buffer q * 4 else UDP_BYTES) := by
  rw [QoSMos.packetPayload, hl.tcp, hl.udp, hl.icmpv4, hl.icmpv6]
  rcases hl.last_cases with ht | ht | ht | ht <;> simp [ht] <;> rfl

/-- The layers stay while the pointers do and the bytes in front of the last but one header. -/
theorem LiveLayers.congr {packet packet' : FullPacket} (hl : LiveLayers packet outer ip last p q)
    (htable : Table packet'.toPacket (outer ++ [ip, last]))
    (hip : packet'.ipv4 = packet.ipv4 ∧ packet'.ipv6 = packet.ipv6)
    (htransports : packet'.transports = packet.transports)
    (hecho : packet'.echoedHeader = packet.echoedHeader)
    (hfront : ∀ i < p, packet'.buffer i = packet.buffer i)
    (hdoff : last.type = .tcp → packet'.buffer (q + 12) = packet.buffer (q + 12)) :
    LiveLayers packet' outer ip last p q := by
  obtain ⟨start, hstart, hle⟩ := hl.start
  have hsame : packetStart packet'.toPacket = packetStart packet.toPacket := by
    rw [packetStart, packetStart, htable.entries, hl.table.entries]
  refine ⟨⟨htable, fun h hh => ?_, hl.ipPtr, hl.isIp, hip.1.trans hl.ipv4, hip.2.trans hl.ipv6,
    hl.lastPtr, hl.isTransport, htransports.trans hl.transports⟩, ⟨start, hsame.trans hstart, hle⟩,
    hl.front, hl.behind, fun htcp => ?_, hecho.trans hl.echoedHeader⟩
  · refine ⟨(hl.carriers h hh).ptr, (hl.carriers h hh).kind, fun hgre r hr => ?_⟩
    obtain ⟨hversion, hrouting⟩ := (hl.carriers h hh).gre hgre r hr
    have hfits := hl.front h hh r hr
    rw [hgre, HeaderType.comparedBytes] at hfits
    have h0 : u8At packet'.buffer r = u8At packet.buffer r := u8At_transfer (hfront r (by omega))
    have h1 : u8At packet'.buffer (r + 1) = u8At packet.buffer (r + 1) :=
      u8At_transfer (hfront (r + 1) (by omega))
    exact ⟨by rwa [Gre.version, h1], by rwa [Gre.hasRouting, h0]⟩
  · have hsameDoff : Tcp.doff packet'.buffer q = Tcp.doff packet.buffer q :=
      congrArg (fun x : UInt8 => x.toNat / 16) (hdoff htcp)
    rw [hsameDoff]
    exact hl.doff htcp

end Pointers

/-! ## Parsed packets -/

section Parsed

variable {b : Memory} {e p : Nat} {layer : PacketLayer} {hs : List Header} {h : Header}
  {sym next : Symbol} {x y : Expected}

theorem HeaderAt.payload_of_isTransport (hh : HeaderAt b e sym p h next)
    (htransport : h.type.isTransport = true) : ∃ protocol len, sym = .payload protocol len := by
  cases hh with
  | ipv4 | ipv6 | mpls => cases htransport
  | gre | tcp | udp | icmpv4 | icmpv6 => exact ⟨_, _, rfl⟩

theorem HeaderAt.isIp_of_payload {protocol len : Nat}
    (hh : HeaderAt b e sym p h (.payload protocol len)) : h.type.isIp = true := by
  rcases hh.next_cases with ⟨hip, -⟩ | ⟨-, -, hnext⟩ | ⟨-, _, hnext⟩ | ⟨-, hnext⟩
  · exact hip
  · cases hnext
  · cases hnext
  · cases hnext

theorem HeaderAt.comparedBytes_le (hh : HeaderAt b e sym p h next) :
    h.type.comparedBytes ≤ h.headerBytes := by
  cases hh with
  | ipv4 _ hi =>
    have hsize : IPV4_BYTES = 20 := rfl
    have hminimum := hi.minimum
    simp only [HeaderType.comparedBytes]
    omega
  | ipv6 => exact (by decide : 8 ≤ IPV6_BYTES)
  | gre =>
    have hsize : GRE_MINLEN = 4 := rfl
    simp only [HeaderType.comparedBytes, Gre.len]
    omega
  | _ => exact Nat.zero_le _

theorem HeaderAt.carrier (hh : HeaderAt b e sym p h next) (hnext : next ≠ .done) :
    Carrier b h := by
  cases hh with
  | ipv4 => exact ⟨⟨_, rfl⟩, .inl rfl, by simp⟩
  | ipv6 => exact ⟨⟨_, rfl⟩, .inr (.inl rfl), by simp⟩
  | mpls => exact ⟨⟨_, rfl⟩, by simp, by simp⟩
  | gre hversion hrouting =>
    refine ⟨⟨_, rfl⟩, by simp, ?_⟩
    rintro - r ⟨⟩
    exact ⟨hversion, hrouting⟩
  | _ => exact absurd rfl hnext

/-- The headers in front of a position carry others, and end in front of it. -/
theorem carriers_of_path (hp : Path (Next b e) x hs y) (hy : y.1 ≠ .done) :
    ∀ h ∈ hs, Carrier b h ∧ ∀ r, h.ptr = some r → r + h.type.comparedBytes ≤ y.2 := by
  induction hp with
  | nil => simp
  | @cons x z y h hs hn hrest ih =>
    have hz : z.1 ≠ .done := by
      intro hdone
      cases hrest with
      | nil => exact hy hdone
      | cons hm => exact hm.1.ne_done hdone
    intro g hg
    rcases List.mem_cons.mp hg with rfl | hg
    · refine ⟨hn.1.carrier hz, fun r hr => ?_⟩
      obtain rfl := Option.some.inj (hn.1.ptr.symm.trans hr)
      have hbytes := hn.1.comparedBytes_le
      have hend := position_of_path hrest
      have hnext := hn.2
      omega
    · exact ih hy g hg

/-- A stack ends with an IP header and the transport header behind it. -/
theorem HeaderStack.split (hstack : HeaderStack b e layer hs) : ∃ outer ip last p q,
    hs = outer ++ [ip, last] ∧ ip.type.isIp = true ∧ ip.ptr = some p ∧
      (layerStart b layer).2 ≤ p ∧ p + ip.type.ipFamily.headerBytes ≤ q ∧
      last.ptr = some q ∧ last.type.isTransport = true ∧
      (last.type = .tcp → TCP_BYTES ≤ Tcp.doff b q * 4) ∧
      ∀ h ∈ outer, Carrier b h ∧ ∀ r, h.ptr = some r → r + h.type.comparedBytes ≤ p := by
  obtain ⟨init, last, y, r, rfl, hinit, hlast, -, -, -⟩ :=
    exists_last_of_derives hstack.1 (layerStart_ne_done b layer)
  have htransport : last.type.isTransport = true := hlast.isTransport_iff.mpr rfl
  obtain ⟨protocol, len, hy⟩ := hlast.payload_of_isTransport htransport
  rcases List.eq_nil_or_concat init with rfl | ⟨outer, ip, rfl⟩
  · rw [Path.nil_iff.mp hinit] at hy
    exact absurd hy (layerStart_ne_payload b layer protocol len)
  · rw [List.concat_eq_append] at *
    obtain ⟨u, houter, hn⟩ := Path.snoc_iff.mp hinit
    have hip : ip.type.isIp = true := by
      have hh := hn.1
      rw [hy] at hh
      exact hh.isIp_of_payload
    have hposition := position_of_path houter
    have hbytes := hn.1.ipFamily_headerBytes hip
    have hstep := hn.2
    refine ⟨outer, ip, last, u.2, y.2, by simp, hip, hn.1.ptr, by omega, by omega, hlast.ptr,
      htransport, ?_, carriers_of_path houter hn.1.ne_done⟩
    intro htcp
    generalize y.1 = sym at hlast
    generalize y.2 = at' at hlast ⊢
    cases hlast with
    | tcp hdoff => exact hdoff
    | _ => cases htcp

/-- A packet ends where the captured bytes do or before. -/
theorem HeaderStack.packetEnd_le (hstack : HeaderStack b e layer hs) (bufferBytes : Nat) :
    ∃ n, packetEnd ((startPacket b bufferBytes layer).afterHeaders hs) = .ok n ∧ n ≤ e := by
  have hstart := hstack.packetStart_eq bufferBytes
  obtain ⟨⟨r, hpath⟩, hlen⟩ := hstack
  refine ⟨_, by rw [packetEnd, hstart]; rfl, ?_⟩
  cases hs with
  | nil =>
    have hdone := congrArg Prod.fst (Path.nil_iff.mp hpath)
    exact absurd hdone.symm (layerStart_ne_done b layer)
  | cons h tl =>
    have hipBytes := HeaderStack.ipBytes_eq ⟨⟨r, hpath⟩, hlen⟩ bufferBytes
    obtain ⟨y, hn, hrest⟩ := Path.cons_iff.mp hpath
    rw [hipBytes]
    split
    · exact hn.1.totalBytes_le (layerStart_fits b layer)
    · have hend := position_of_path hpath
      rw [← hend]
      exact position_le_of_path hpath (layerStart_fits b layer) (by simp)

/-- Every packet that the parser accepts has its layers in place. -/
theorem liveLayers_of_runParsePacket {bufferBytes : Nat} {s : ParseState} {packet : FullPacket}
    (hrun : runParsePacket b bufferBytes e layer = .ok (.ok, s))
    (hpacket : packet.toPacket = s.packet) (hecho : packet.echoedHeader = false) :
    ∃ outer ip last p q n, LiveLayers packet outer ip last p q ∧
      packetEnd packet.toPacket = .ok n ∧ n ≤ bufferBytes := by
  have hle := le_of_runParsePacket hrun
  obtain ⟨hs, hstack, hparsed, -⟩ := runParsePacket_ok_stack hle hrun
  rw [hparsed] at hpacket
  obtain ⟨n, hend, hn⟩ := hstack.packetEnd_le bufferBytes
  have hstart := hstack.packetStart_eq bufferBytes
  have hbuffer : ((startPacket b bufferBytes layer).afterHeaders hs).buffer = b :=
    buffer_afterHeaders
  obtain ⟨outer, ip, last, p, q, rfl, hip, hptr, hle', hbehind, hlast, htransport, hdoff,
    hcarriers⟩ := hstack.split
  obtain ⟨r, hpath⟩ := hstack.1
  have htable := startPacket_table b bufferBytes layer (used_of_path hpath) hstack.2
  have hinner : ∀ h ∈ [last], ¬ h.type.isIp = true := by
    intro h hh hip
    rw [List.mem_singleton.mp hh] at hip
    rw [isTransport_of_isIp hip] at htransport
    cases htransport
  obtain ⟨h4, h6⟩ := primary_afterHeaders (startPacket b bufferBytes layer) outer ⟨rfl, rfl⟩ hptr
    hip hinner
  have hinit : ∀ h ∈ outer ++ [ip], h.type.isTransport = false := by
    intro h hh
    rcases List.mem_append.mp hh with hh | hh
    · rcases (hcarriers h hh).1.kind with ht | ht | ht | ht <;> rw [ht] <;> rfl
    · rw [List.mem_singleton.mp hh]
      exact isTransport_of_isIp hip
  have htransports := startPacket_transports b bufferBytes layer hinit hlast
  rw [List.append_assoc, List.singleton_append] at htransports
  rw [← hpacket] at htable h4 h6 htransports hstart hend hbuffer
  refine ⟨outer, ip, last, p, q, n, ⟨⟨htable, ?_, hptr, hip, h4, h6, hlast, htransport,
    htransports⟩, ⟨_, hstart, hle'⟩, fun h hh => (hcarriers h hh).2, hbehind, ?_, hecho⟩, hend,
    hn.trans hle⟩
  · rw [hbuffer]
    exact fun h hh => (hcarriers h hh).1
  · rwa [hbuffer]

end Parsed

/-! ## Sniffed packets -/

/-- The size of the buffers that packets are read into. -/
def PACKET_READ_BYTES : Nat := 64 * 1024

/-- A packet that the parser accepted in one of these buffers. -/
structure IsParsed (packet : FullPacket) : Prop where
  accepted : ∃ bufferBytes inBytes layer s, bufferBytes ≤ PACKET_READ_BYTES ∧
    runParsePacket packet.buffer bufferBytes inBytes layer = .ok (.ok, s) ∧
    packet.toPacket = s.packet
  echoedHeader : packet.echoedHeader = false

/-- A sniffed packet, with its sequence numbers in script space if it has any. -/
inductive LivePacket : FullPacket → Prop
  | parsed {live : FullPacket} (hparsed : IsParsed live) (htcp : live.tcp = none) : LivePacket live
  | converted {socket : Socket} {sniffed live : FullPacket} (hparsed : IsParsed sniffed)
      (hok : tcpConvertSeqNumber socket sniffed = .ok live) : LivePacket live

/-- What is used of a live packet: its layers, and that it can be copied. -/
structure LiveShape (live : FullPacket) (outer : List Header) (ip last : Header) (p q : Nat) :
    Prop extends LiveLayers live outer ip last p q where
  ends : ∃ n, packetEnd live.toPacket = .ok n ∧ n ≤ PACKET_READ_BYTES

theorem IsParsed.shape {packet : FullPacket} (hp : IsParsed packet) :
    ∃ outer ip last p q, LiveShape packet outer ip last p q := by
  obtain ⟨⟨bufferBytes, inBytes, layer, s, hsize, hrun, hpacket⟩, hecho⟩ := hp
  obtain ⟨outer, ip, last, p, q, n, hl, hend, hn⟩ := liveLayers_of_runParsePacket hrun hpacket hecho
  exact ⟨outer, ip, last, p, q, hl, n, hend, hn.trans hsize⟩

theorem LivePacket.shape {live : FullPacket} (hp : LivePacket live) :
    ∃ outer ip last p q, LiveShape live outer ip last p q := by
  cases hp with
  | parsed hparsed => exact hparsed.shape
  | @converted socket sniffed live hparsed hok =>
    obtain ⟨outer, ip, last, p, q, hl, n, hend, hn⟩ := hparsed.shape
    obtain ⟨tcp, htcp⟩ : ∃ tcp, sniffed.tcp = some tcp := by
      unfold tcpConvertSeqNumber at hok
      cases htcp : sniffed.tcp with
      | none =>
        rw [htcp] at hok
        cases hok
      | some tcp => exact ⟨tcp, rfl⟩
    obtain ⟨b, rfl, hkept⟩ := tcpConvertSeqNumber_spec htcp hok
    have htable := hl.table
    have hbehind := hl.behind
    obtain rfl : q = tcp := by
      rw [hl.tcp] at htcp
      split at htcp
      · exact Option.some.inj htcp
      · cases htcp
    have hsize : TCP_BYTES = 20 := rfl
    refine ⟨outer, ip, last, p, q, hl.congr ⟨htable.le, htable.entries, htable.used⟩ ⟨rfl, rfl⟩ rfl
      rfl (fun i hi => hkept i (by omega)) (fun _ => hkept _ (by omega)), n, hend, hn⟩

end QoSMos
