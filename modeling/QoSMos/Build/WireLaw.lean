import Mathlib.Data.List.Chain
import QoSMos.Build.Outer
import QoSMos.Build.RoundTrip

/-!
# Encapsulated packets on the wire

A packet of `packet_encapsulate` parses to the headers of the outer chain and the inner
packet, with every length, protocol and checksum in order, exactly if each of its IPv4
datagrams is short enough for the 16 bits of `tot_len`. `ipv6_header_finish` asserts the
bound for its own length field, `ipv4_header_finish` does not.
-/

namespace QoSMos

open Returns

/-- The used entries of the table. -/
def usedHeaders (packet : Packet) : List Header :=
  packet.headers.toList.take (packetHeaderCount packet)

/-- The length, protocol and checksum fields of the headers from `p` on are right. -/
def Describes (b : Memory) (e : Nat) : Nat → List Header → Prop
  | _, [] => True
  | p, h :: inner =>
    FieldsDescribe b e p h (nextType inner) ∧ Describes b e (p + h.headerBytes) inner

/-- A packet that `new_tcp_packet` or `new_udp_packet` returned. -/
def IsBuilt (inner : FullPacket) : Prop :=
  (∃ heap args, newTcpPacket heap args = .ok (.ok inner)) ∨
    ∃ heap args, newUdpPacket heap args = .ok (.ok inner)

/-- The packet is on the wire what it was encapsulated from. -/
structure WireLaw (outer : List OuterHeader) (inner packet : FullPacket) : Prop where
  parses : ∃ s, runParsePacket packet.buffer packet.ipBytes packet.ipBytes .layer3Ip =
      .ok (.ok, s) ∧
    (usedHeaders s.packet).map Header.type =
      outer.map OuterHeader.type ++ (usedHeaders inner.toPacket).map Header.type
  describes : Describes packet.buffer packet.ipBytes 0 (usedHeaders packet.toPacket)

/-- Each IPv4 datagram that starts with one of the outer headers, or is the inner packet, has
at most 65535 bytes. -/
def Ipv4LengthsFit (inner : FullPacket) : List OuterHeader → Prop
  | [] => inner.ipv4 ≠ none → inner.ipBytes ≤ 65535
  | h :: outer => (h.type = .ipv4 →
      ((h :: outer).map OuterHeader.bytes).sum + inner.ipBytes ≤ 65535) ∧
    Ipv4LengthsFit inner outer

theorem Table.usedHeaders_eq {packet : Packet} {hs : List Header} (ht : Table packet hs) :
    usedHeaders packet = hs := by
  rw [usedHeaders, ht.count, ht.entries, List.take_left']
  rfl

/-! ## The inner packet -/

/-- What is used of the inner packet: two headers that fill it. -/
structure InnerBuilt (inner : FullPacket) (g h : Header) : Prop where
  table : Table inner.toPacket [g, h]
  ip : g.type = .ipv4 ∧ g.headerBytes = IPV4_BYTES ∧ inner.ipv4 ≠ none ∨
    g.type = .ipv6 ∧ inner.ipv4 = none
  transport : h.type = .tcp ∨ h.type = .udp
  ipBytes : inner.ipBytes = g.headerBytes + h.totalBytes
  stacked : Stacked inner.buffer inner.ipBytes 0 [g, h]
  version : VersionAt inner.buffer 0 g.type
  udp : h.type = .udp → Udp.len inner.buffer g.headerBytes = h.totalBytes

theorem BuiltAs.innerBuilt {packet : FullPacket} {addressFamily : Int} {l4 : HeaderType}
    {ipBytes : UInt16} {tos ttl protocol : UInt8} {flowLabel : UInt32} {l4B : List UInt8}
    {payload : Nat} (hfamily : addressFamily = AF_INET ∨ addressFamily = AF_INET6)
    (hl4 : l4 = .tcp ∨ l4 = .udp)
    (hb : BuiltAs packet (ipType addressFamily) l4
      (ipHeader addressFamily ipBytes tos flowLabel ttl protocol) l4B payload)
    (hshape : (∀ k < l4B.length,
        packet.buffer (ipHeaderBytes addressFamily + k) = l4B.getD k 0) →
      Shape packet.buffer packet.ipBytes (ipHeaderBytes addressFamily)
        ⟨l4, l4B.length, l4B.length + payload, some (ipHeaderBytes addressFamily)⟩ ∧
      (l4 = .udp → Udp.len packet.buffer (ipHeaderBytes addressFamily) = l4B.length + payload)) :
    ∃ g h, InnerBuilt packet g h := by
  have hiplen : (ipHeader addressFamily ipBytes tos flowLabel ttl protocol).length =
    ipHeaderBytes addressFamily := length_ipHeader
  have htable := hb.table
  have hlength := hb.length
  have hholds := hb.holds
  rw [hiplen] at htable hlength hholds
  obtain ⟨hl4Shape, hudp⟩ := hshape fun k hk => by
    rw [hholds _ (by omega), List.getD_append_right _ _ _ _ (by omega), hiplen,
      Nat.add_sub_cancel_left]
  obtain ⟨hipShape, hversion⟩ := shape_ip hfamily (b := packet.buffer) (p := 0)
    (fun k hk _ _ => by
      rw [hiplen] at hk
      rw [Nat.zero_add, hholds k (by omega), List.getD_append _ _ _ _ (by omega)])
    packet.ipBytes (packet.ipBytes % 65536) (some 0)
  have hcarriesIp : (ipType addressFamily).carries l4 = true := by
    unfold ipType
    rcases hl4 with rfl | rfl <;> split <;> rfl
  have hcarries : l4.carries .none = true := by
    rcases hl4 with rfl | rfl <;> rfl
  have hnotTunnel : ¬ (ipType addressFamily = .gre ∨ ipType addressFamily = .mpls) := by
    unfold ipType
    split <;> simp
  refine ⟨_, _, htable, ?_, hl4, ?_, ⟨⟨rfl, hcarriesIp, fun h => absurd h hnotTunnel, hipShape⟩,
    ⟨?_, hcarries, fun _ => trivial, ?_⟩, ?_⟩, hversion, hudp⟩
  · rw [hb.ipv4]
    rcases hfamily with rfl | rfl
    · exact .inl ⟨rfl, rfl, by simp [ipType]⟩
    · exact .inr ⟨rfl, rfl⟩
  · simp only
    omega
  · simp
  · simpa using hl4Shape
  · show 0 + ipHeaderBytes addressFamily + l4B.length ≤ packet.ipBytes
    omega

theorem IsBuilt.innerBuilt {inner : FullPacket} (hinner : IsBuilt inner) :
    ∃ g h, InnerBuilt inner g h := by
  obtain ⟨heap, args, hok⟩ | ⟨heap, args, hok⟩ := hinner
  · have hb := newTcpPacket_built hok
    refine hb.built.innerBuilt hb.family (.inl rfl) fun hholds => ⟨?_, fun h => by cases h⟩
    exact shape_tcp hb.aligned hb.header hb.options (fun k hk _ _ => hholds k hk) _ _ _
  · have hb := newUdpPacket_built hok
    have hlen : (udpHeader args).length = UDP_BYTES := length_udpHeader
    have hsize : UDP_BYTES = 8 := rfl
    have hmax : inner.ipBytes ≤ 65536 := hb.size
    have hlength := hb.built.length
    have hip : 20 ≤ ipHeaderBytes args.addressFamily := by
      unfold ipHeaderBytes
      split <;> simp [IPV4_BYTES, IPV6_BYTES]
    rw [length_ipHeader] at hlength
    refine hb.built.innerBuilt hb.family (.inr rfl) fun hholds => ⟨hlen, fun _ => ?_⟩
    rw [(udpSet_of_holds (fun k hk _ _ => hholds k hk)).len (by omega)]
    omega

/-! ## The outer chain in front of it -/

section Join

variable {b : Memory} {e p : Nat} {hs tail : List Header}

/-- Headers that stand alone stand in front of others that they carry. -/
theorem StandAlone.stacked (hstand : StandAlone b p hs)
    (htail : Stacked b e (p + headerSum hs) tail) (hne : tail ≠ [])
    (hversion : VersionAt b (p + headerSum hs) (nextType tail))
    (hchain : (hs ++ tail).IsChain fun h g => h.type.carries g.type = true) :
    Stacked b e p (hs ++ tail) := by
  induction hs generalizing p with
  | nil => simpa using htail
  | cons h inner ih =>
    rw [headerSum_cons, ← Nat.add_assoc] at htail hversion
    rw [List.cons_append] at hchain ⊢
    have hrest : Stacked b e (p + h.headerBytes) (inner ++ tail) :=
      ih hstand.2 htail hversion hchain.tail
    refine ⟨⟨hstand.1.ptr, ?_, fun _ => ?_, hstand.1.shape e hrest.le⟩, hrest⟩
    · obtain ⟨g, rest, hg⟩ :=
        List.exists_cons_of_ne_nil (List.append_ne_nil_of_right_ne_nil inner hne)
      rw [hg] at hchain ⊢
      exact (List.isChain_cons_cons.mp hchain).1
    · cases inner with
      | nil => simpa using hversion
      | cons g rest => exact hstand.2.1.version

theorem OuterHeader.carries_ip (o : OuterHeader) {t : HeaderType} (ht : t = .ipv4 ∨ t = .ipv6) :
    o.type.carries t = true := by
  rcases ht with rfl | rfl <;> cases o <;> rfl

theorem types_of_entries {outer : List OuterHeader} {hs : List Header}
    (hentries : List.Forall₂ (fun o h => h.type = o.type ∧ h.headerBytes = o.bytes) outer hs) :
    hs.map Header.type = outer.map OuterHeader.type := by
  induction hentries with
  | nil => rfl
  | cons hentry _ ih => rw [List.map_cons, List.map_cons, ih, hentry.1]

/-- The outer headers and the two of the inner packet, each in front of what it carries. -/
theorem isChain_carries {outer : List OuterHeader} {g h : Header}
    (hlegal : LegalOuter outer) (htypes : hs.map Header.type = outer.map OuterHeader.type)
    (hg : g.type = .ipv4 ∨ g.type = .ipv6) (hgh : g.type.carries h.type = true) :
    (hs ++ [g, h]).IsChain fun h g => h.type.carries g.type = true := by
  have hmap (l : List Header) : l.IsChain (fun h g => h.type.carries g.type = true) ↔
      (l.map Header.type).IsChain fun t u => t.carries u = true := by
    rw [List.isChain_map]
  rw [hmap, List.map_append, htypes, List.isChain_append]
  refine ⟨?_, by simpa using hgh, fun t ht u hu => ?_⟩
  · rw [List.isChain_map]
    exact hlegal.nested
  · obtain ⟨o, -, rfl⟩ := List.mem_map.mp (List.mem_of_getLast? ht)
    obtain rfl : g.type = u := by simpa using hu
    exact o.carries_ip hg

end Join

/-! ## Encapsulation -/

section Encapsulation

variable {heap : Memory} {outer inner packet : FullPacket} {os ns : List Header}

theorem entries_packetCopyHeaders {packet old : Packet} {d : Nat} (ht : Table old ns) :
    (packetCopyHeaders packet old d).headers =
      headersOfList (ns.map (Header.moved d) ++ packet.headers.toList.drop ns.length) := by
  have htake : old.headers.toList.take (packetHeaderCount old) = ns := ht.usedHeaders_eq
  simp only [packetCopyHeaders, htake, List.length_map]

/-- In a copy without outer headers the entries are the same. -/
theorem entries_copied {old : Packet} {n : Nat} (ht : Table old ns) :
    (packetCopyHeaders (packetNew heap n) old 0).headers =
      headersOfList (ns ++ List.replicate (PACKET_MAX_HEADERS - ns.length) Header.unused) := by
  rw [entries_packetCopyHeaders ht, map_moved_zero, ← List.drop_replicate]
  rfl

/-- The table after the entries were copied, moved, and copied again. -/
theorem entries_encapsulated (os gs : List Header)
    (hroom : os.length + gs.length ≤ PACKET_MAX_HEADERS) :
    let copied := headersOfList (gs ++ (List.replicate PACKET_MAX_HEADERS Header.unused).drop
      gs.length)
    let entries := copied.toList
    let moved := headersOfList (entries.take os.length ++ entries.take gs.length ++
      entries.drop (os.length + gs.length))
    os ++ moved.toList.drop os.length =
      (os ++ gs) ++ List.replicate (PACKET_MAX_HEADERS - (os ++ gs).length) Header.unused := by
  intro copied entries moved
  have hentries : entries =
      gs ++ List.replicate (PACKET_MAX_HEADERS - gs.length) Header.unused := by
    rw [← List.drop_replicate]
    apply toList_headersOfList
    simp only [List.length_append, List.length_drop, List.length_replicate]
    omega
  have hsize : entries.length = PACKET_MAX_HEADERS := by
    rw [hentries, List.length_append, List.length_replicate]
    omega
  have hmoved : moved.toList = entries.take os.length ++ entries.take gs.length ++
      entries.drop (os.length + gs.length) := by
    apply toList_headersOfList
    simp only [List.length_append, List.length_take, List.length_drop]
    omega
  have htake : (entries.take os.length).length = os.length := by
    rw [List.length_take]
    omega
  rw [hmoved, List.append_assoc, List.drop_append_of_le_length htake.ge,
    List.drop_of_length_le htake.le, List.nil_append, hentries, List.take_left',
    ← List.append_assoc]
  · congr 1
    rw [List.drop_append, List.drop_of_length_le (by omega), List.nil_append, List.drop_replicate]
    congr 1
    rw [List.length_append]
    omega
  · rfl

/-- The bytes of both packets in the new buffer. -/
def joinedBytes (heap : Memory) (outer inner : FullPacket) : Memory :=
  writeBytes (writeBytes heap outer.ipBytes (readBytes inner.buffer 0 inner.ipBytes)) 0
    (readBytes outer.buffer 0 outer.ipBytes)

theorem joinedBytes_outer {i : Nat} (hi : i < outer.ipBytes) :
    joinedBytes heap outer inner i = outer.buffer i := by
  unfold joinedBytes
  rw [← Nat.zero_add i, writeBytes_readBytes _ _ _ _ hi]

theorem joinedBytes_inner {i : Nat} (hi : i < inner.ipBytes) :
    joinedBytes heap outer inner (outer.ipBytes + i) = inner.buffer i := by
  unfold joinedBytes
  rw [writeBytes_outside (.inr (by rw [length_readBytes]; omega)),
    writeBytes_readBytes _ _ _ _ hi, Nat.zero_add]

theorem joinedBytes_outside {i : Nat} (hi : outer.ipBytes + inner.ipBytes ≤ i) :
    joinedBytes heap outer inner i = heap i := by
  unfold joinedBytes
  rw [writeBytes_outside (.inr (by rw [length_readBytes]; omega)),
    writeBytes_outside (.inr (by rw [length_readBytes]; omega))]

/-- The pointers of a packet besides those of its table. -/
def FullPacket.pointers (packet : FullPacket) : List (Option Nat) :=
  [packet.ipv4, packet.ipv6, packet.tcp, packet.udp, packet.icmpv4, packet.icmpv6,
    packet.tcpTsVal, packet.tcpTsEcr]

/-- The new packet with the headers `hs` of both packets, before they are finished. -/
structure Joined (heap : Memory) (outer inner : FullPacket) (hs : List Header)
    (packet : FullPacket) : Prop where
  buffer : packet.buffer = joinedBytes heap outer inner
  bufferBytes : packet.bufferBytes = outer.ipBytes + inner.ipBytes
  table : Table packet.toPacket hs
  pointers : packet.pointers = inner.pointers.map (offsetPtr outer.ipBytes)

/-- The headers and bytes that are finished are those of `outer`, and behind them those of
`inner`. -/
theorem packetEncapsulate_joined (ho : Table outer.toPacket os) (hi : Table inner.toPacket ns)
    (hstart : packetStart inner.toPacket = .ok 0)
    (hok : packetEncapsulate heap outer inner = .ok packet) :
    ∃ before finished, Joined heap outer inner (os ++ ns.map (Header.moved outer.ipBytes)) before ∧
      packetFinishEncapsulationHeaders before = .ok finished ∧
      packet = { finished with ipBytes := outer.ipBytes + inner.ipBytes } := by
  unfold packetEncapsulate at hok
  dsimp only at hok
  rw [ho.count, hi.count, bind_eq_ok_iff] at hok
  obtain ⟨_, hroom, hok⟩ := hok
  have hroom : os.length + ns.length ≤ PACKET_MAX_HEADERS := require_eq_ok_iff.mp hroom
  obtain ⟨copy, hcopy, hok⟩ := bind_eq_ok_iff.mp hok
  obtain ⟨_, -, hok⟩ := bind_eq_ok_iff.mp hok
  obtain ⟨finished, hfinish, hok⟩ := bind_eq_ok_iff.mp hok
  have hpacket := (pure_eq_ok_iff.mp hok).symm
  unfold packetCopyWithHeadroom at hcopy
  have hend : packetEnd inner.toPacket = .ok inner.ipBytes := by
    rw [packetEnd, hstart]
    exact congrArg Except.ok (Nat.zero_add _)
  rw [hend] at hcopy
  obtain ⟨_, hused, hcopy⟩ := bind_eq_ok_iff.mp hcopy
  obtain rfl := Except.ok.inj hused
  obtain ⟨_, -, hcopy⟩ := bind_eq_ok_iff.mp hcopy
  obtain ⟨_, -, hcopy⟩ := bind_eq_ok_iff.mp hcopy
  obtain rfl := pure_eq_ok_iff.mp hcopy
  have hentries := entries_encapsulated os (ns.map (Header.moved outer.ipBytes))
    (by simpa using hroom)
  refine ⟨_, finished, ⟨rfl, rfl, Table.of_headersOfList ?_ (by simpa using hroom) ?_, rfl⟩,
    hfinish, hpacket⟩
  · refine (entries_packetCopyHeaders ho).trans (congrArg headersOfList ?_)
    rw [← hentries, map_moved_zero]
    simp only [packetDuplicateInfo, entries_packetCopyHeaders hi, List.length_map]
    rfl
  · intro h hh
    rcases List.mem_append.mp hh with hh | hh
    · exact ho.used h hh
    · obtain ⟨g, hg, rfl⟩ := List.mem_map.mp hh
      exact hi.used g hg

/-- After they are finished, the headers that stood behind each other are in the table. -/
theorem packetEncapsulate_spec (ho : Table outer.toPacket os) (hi : Table inner.toPacket ns)
    (hstart : packetStart inner.toPacket = .ok 0)
    (hstack : ∀ m : Memory, (∀ i < outer.ipBytes, m i = outer.buffer i) →
      (∀ i < inner.ipBytes, m (outer.ipBytes + i) = inner.buffer i) →
      Stacked m (outer.ipBytes + inner.ipBytes) 0 (os ++ ns.map (Header.moved outer.ipBytes)))
    (hok : packetEncapsulate heap outer inner = .ok packet) :
    ∃ m : Memory, (∀ i < outer.ipBytes, m i = outer.buffer i) ∧
      (∀ i < inner.ipBytes, m (outer.ipBytes + i) = inner.buffer i) ∧
      Table packet.toPacket (finishedHeaders (os ++ ns.map (Header.moved outer.ipBytes))) ∧
      FinishedAs m packet.buffer 0 (os ++ ns.map (Header.moved outer.ipBytes)) ∧
      packet.ipBytes = outer.ipBytes + inner.ipBytes := by
  obtain ⟨before, finished, hjoined, hfinish, rfl⟩ := packetEncapsulate_joined ho hi hstart hok
  have houter (i : Nat) (hi : i < outer.ipBytes) :
      joinedBytes heap outer inner i = outer.buffer i := joinedBytes_outer hi
  have hinner (i : Nat) (hi : i < inner.ipBytes) :
      joinedBytes heap outer inner (outer.ipBytes + i) = inner.buffer i := joinedBytes_inner hi
  have hstacked := hstack _ houter hinner
  rw [← hjoined.buffer] at hstacked
  obtain ⟨hfinal, hbytes, -⟩ := packetFinishEncapsulationHeaders_spec hjoined.table hstacked.chained
    hfinish
  rw [hjoined.buffer] at hbytes
  exact ⟨_, houter, hinner, ⟨hfinal.le, hfinal.entries, hfinal.used⟩, hbytes, rfl⟩

/-! ## The law -/

theorem LaidOut.describes {b : Memory} {e p : Nat} {hs : List Header} (hl : LaidOut b e p hs) :
    Describes b e p hs := by
  induction hs generalizing p with
  | nil => exact trivial
  | cons h inner ih => exact ⟨hl.1.fields, ih hl.2⟩

/-- A total length of 16 bits describes no datagram of 65536 bytes or more. -/
theorem Describes.fits {b c : Memory} {e p : Nat} {hs : List Header}
    (hd : Describes b e p (finishedHeaders hs)) (hstack : Stacked c e p hs) :
    ∀ h ∈ hs, h.type = .ipv4 → ∀ q, h.ptr = some q → e < q + 65536 := by
  induction hs generalizing p with
  | nil => simp
  | cons g inner ih =>
    intro h hh h4 q hq
    rcases List.mem_cons.mp hh with rfl | hmem
    · obtain rfl : p = q := Option.some.inj (hstack.1.ptr.symm.trans hq)
      have hfields := hd.1
      unfold FieldsDescribe at hfields
      rw [type_withTotal, h4] at hfields
      have := be16At_lt b (p + 2)
      have htot : p + be16At b (p + 2) = e := hfields.1
      omega
    · exact ih hd.2 hstack.2 h hmem h4 q hq

theorem ipv4LengthsFit_iff {b : Memory} {e p : Nat} {outer : List OuterHeader} {g h : Header}
    (hentries : List.Forall₂ (fun o h => h.type = o.type ∧ h.headerBytes = o.bytes) outer os)
    (hstand : StandAlone b p os) (hg : g.ptr = some (p + headerSum os))
    (hg4 : g.type = .ipv4 ↔ inner.ipv4 ≠ none) (hh : h.type ≠ .ipv4)
    (he : p + headerSum os + inner.ipBytes = e) :
    Ipv4LengthsFit inner outer ↔
      ∀ x ∈ os ++ [g, h], x.type = .ipv4 → ∀ q, x.ptr = some q → e < q + 65536 := by
  induction hentries generalizing p with
  | nil =>
    simp only [headerSum_nil, Nat.add_zero, List.nil_append, List.mem_cons, List.not_mem_nil,
      or_false, forall_eq_or_imp, forall_eq, hg, Option.some.injEq, hh, false_imp_iff, and_true,
      hg4, Ipv4LengthsFit] at he ⊢
    constructor
    · intro hfit h4 q hq
      have := hfit h4
      omega
    · intro hfit h4
      have := hfit h4 p rfl
      omega
  | @cons o x outer os hentry hrest ih =>
    rw [headerSum_cons, ← Nat.add_assoc] at hg he
    have hsum : (outer.map OuterHeader.bytes).sum = headerSum os := by
      clear ih he hg hstand
      induction hrest with
      | nil => rfl
      | cons hentry _ ih => rw [List.map_cons, List.sum_cons, ih, headerSum_cons, hentry.2]
    rw [Ipv4LengthsFit, ih hstand.2 hg he, List.cons_append, List.forall_mem_cons, List.map_cons,
      List.sum_cons, hsum, ← hentry.1, ← hentry.2, hstand.1.ptr]
    apply and_congr_left'
    apply imp_congr_right
    intro _
    constructor
    · rintro hle q ⟨⟩
      omega
    · intro hlt
      have := hlt p rfl
      omega

/-- The headers `hs` of an encapsulated packet before they are finished in it. -/
structure Encapsulated (outer : List OuterHeader) (inner packet : FullPacket)
    (hs : List Header) : Prop where
  table : Table packet.toPacket (finishedHeaders hs)
  stacked : ∃ c, Stacked c packet.ipBytes 0 hs ∧ FinishedAs c packet.buffer 0 hs
  types : hs.map Header.type =
    outer.map OuterHeader.type ++ (usedHeaders inner.toPacket).map Header.type
  first : nextType hs = .ipv4 ∨ nextType hs = .ipv6
  version : VersionAt packet.buffer 0 (nextType hs)
  fit_iff : Ipv4LengthsFit inner outer ↔
    ∀ x ∈ hs, x.type = .ipv4 → ∀ q, x.ptr = some q → packet.ipBytes < q + 65536
  reach : (∀ x ∈ hs, x.type = .ipv4 → ∀ q, x.ptr = some q → packet.ipBytes < q + 65536) →
    WillReach packet.buffer packet.ipBytes hs

section Behind

variable {front : FullPacket} {calls : List OuterHeader} {g h x : Header} {m : Memory}

theorem InnerBuilt.sameShape {d : Nat} (hi : InnerBuilt inner g h)
    (hm : ∀ i < inner.ipBytes, m (d + i) = inner.buffer i) :
    SameShape inner.buffer m d 0 [g, h] := by
  apply SameShape.of_eq
  intro i _ hlt
  have hle := hi.stacked.headerSum_le
  exact hm i (by omega)

theorem InnerBuilt.isIp (hi : InnerBuilt inner g h) : g.type = .ipv4 ∨ g.type = .ipv6 :=
  hi.ip.imp And.left And.left

/-- The version of the inner IP header stands behind the outer headers. -/
theorem OuterBuilt.versionAt (ho : OuterBuilt front calls os) (hi : InnerBuilt inner g h)
    (hm : ∀ i < inner.ipBytes, m (front.ipBytes + i) = inner.buffer i) :
    VersionAt m (0 + headerSum os) g.type := by
  have hversion := hi.stacked.versionAt (hi.sameShape hm) hi.version
  rwa [Nat.add_zero, ho.ipBytes, ← Nat.zero_add (headerSum os)] at hversion

/-- The inner headers stand behind the outer ones. -/
theorem OuterBuilt.stacked (hlegal : LegalOuter calls) (ho : OuterBuilt front calls os)
    (hi : InnerBuilt inner g h) (hfront : ∀ i < front.ipBytes, m i = front.buffer i)
    (hm : ∀ i < inner.ipBytes, m (front.ipBytes + i) = inner.buffer i) :
    Stacked m (front.ipBytes + inner.ipBytes) 0
      (os ++ [g, h].map (Header.moved front.ipBytes)) := by
  have hsum := ho.ipBytes
  have hstand : StandAlone m 0 os := ho.standing.congr fun i _ hlt => hfront i (by omega)
  have htail : Stacked m (front.ipBytes + inner.ipBytes) (0 + headerSum os)
      ([g, h].map (Header.moved front.ipBytes)) := by
    rw [Nat.zero_add, ← hsum]
    have hle := hi.stacked.headerSum_le
    have hend : front.ipBytes + 0 + headerSum [g, h] ≤ front.ipBytes + inner.ipBytes := by omega
    exact hi.stacked.moved (hi.sameShape hm) hend
  have hversion := ho.versionAt hi hm
  exact hstand.stacked htail (by simp) hversion
    (isChain_carries hlegal (types_of_entries ho.entries) hi.isIp hi.stacked.1.carries)

/-- The first header of all is an IP header. -/
theorem OuterBuilt.first (hlegal : LegalOuter calls) (ho : OuterBuilt front calls os)
    (hi : InnerBuilt inner g h) (hfront : ∀ i < front.ipBytes, m i = front.buffer i)
    (hm : ∀ i < inner.ipBytes, m (front.ipBytes + i) = inner.buffer i) :
    (nextType (os ++ [g, h].map (Header.moved front.ipBytes)) = .ipv4 ∨
      nextType (os ++ [g, h].map (Header.moved front.ipBytes)) = .ipv6) ∧
      VersionAt m 0 (nextType (os ++ [g, h].map (Header.moved front.ipBytes))) := by
  have hversion := ho.versionAt hi hm
  cases hentries : ho.entries with
  | nil => exact ⟨hi.isIp, hversion⟩
  | @cons o x calls os hentry _ =>
    have hstand : StandsAlone m 0 x := ho.standing.1.congr fun k hk => hfront _ (by
      rw [ho.ipBytes, headerSum_cons]
      omega)
    refine ⟨?_, hstand.version⟩
    show x.type = .ipv4 ∨ x.type = .ipv6
    rw [hentry.1]
    exact hlegal.first o rfl

theorem OuterBuilt.ptr_ip (ho : OuterBuilt front calls os) (hi : InnerBuilt inner g h) :
    (g.moved front.ipBytes).ptr = some (0 + headerSum os) := by
  rw [Header.moved, hi.stacked.1.ptr, ← ho.ipBytes, Nat.zero_add]
  rfl

theorem OuterBuilt.ptr_transport (ho : OuterBuilt front calls os) (hi : InnerBuilt inner g h) :
    (h.moved front.ipBytes).ptr = some (headerSum os + g.headerBytes) := by
  rw [Header.moved, hi.stacked.2.1.ptr, ← ho.ipBytes, Nat.zero_add]
  rfl

/-- A header is that of a call, the inner IP header or the transport header. -/
theorem OuterBuilt.mem_cases (ho : OuterBuilt front calls os)
    (hx : x ∈ os ++ [g, h].map (Header.moved front.ipBytes)) :
    (∃ o : OuterHeader, x.type = o.type ∧ x.headerBytes = o.bytes) ∨
      x = g.moved front.ipBytes ∨ x = h.moved front.ipBytes := by
  rcases List.mem_append.mp hx with hx | hx
  · exact .inl (ho.exists_call hx)
  · exact .inr (by simpa using hx)

/-- The length in a UDP header is kept. -/
theorem OuterBuilt.udpLen (ho : OuterBuilt front calls os) (hi : InnerBuilt inner g h)
    (hm : ∀ i < inner.ipBytes, m (front.ipBytes + i) = inner.buffer i)
    (hkept : Kept m packet.buffer 0 (os ++ [g, h].map (Header.moved front.ipBytes)))
    (hudp : h.type = .udp) :
    Udp.len packet.buffer (headerSum os + g.headerBytes) = h.totalBytes := by
  have h8 : h.headerBytes = UDP_BYTES := by
    have hshape := hi.stacked.2.1.shape
    unfold Shape at hshape
    rwa [hudp] at hshape
  have hbyte (k : Nat) (hk : k < 8) :
      packet.buffer (headerSum os + g.headerBytes + k) = inner.buffer (g.headerBytes + k) := by
    have hat := hkept.of_append.2.1 k (by simp only [Header.moved, h8, UDP_BYTES]; omega)
      (by simp [Header.moved, hudp, HeaderType.Rewritten])
    rw [Nat.zero_add] at hat
    refine hat.trans ?_
    have hend := hi.stacked.headerSum_le
    simp only [headerSum_cons, headerSum_nil, h8, UDP_BYTES] at hend
    rw [← ho.ipBytes, Nat.add_assoc]
    exact hm (g.headerBytes + k) (by omega)
  rw [← hi.udp hudp]
  exact be16At_transfer (hbyte 4 (by omega)) (hbyte 5 (by omega))

/-- If the lengths fit, the headers reach to the end of the packet once they are finished. -/
theorem OuterBuilt.willReach (ho : OuterBuilt front calls os) (hi : InnerBuilt inner g h)
    (hm : ∀ i < inner.ipBytes, m (front.ipBytes + i) = inner.buffer i)
    (hkept : Kept m packet.buffer 0 (os ++ [g, h].map (Header.moved front.ipBytes)))
    (hipBytes : packet.ipBytes = front.ipBytes + inner.ipBytes)
    (hfits : ∀ x ∈ os ++ [g, h].map (Header.moved front.ipBytes), x.type = .ipv4 →
      ∀ q, x.ptr = some q → packet.ipBytes < q + 65536) :
    WillReach packet.buffer packet.ipBytes
      (os ++ [g, h].map (Header.moved front.ipBytes)) := by
  have hsum := ho.ipBytes
  have hbytes := hi.ipBytes
  have hh : h.type ≠ .ipv4 := by rcases hi.transport with ht | ht <;> simp [ht]
  have hg : g.type.isTransport = false := by rcases hi.isIp with hg | hg <;> rw [hg] <;> rfl
  refine ⟨fun x hx h4 => ?_, fun x hx ht q hq => ?_, hfits, fun x hx hudp q hq => ?_⟩
  · obtain ⟨o, htype, hsize⟩ | rfl | rfl := ho.mem_cases hx
    · rw [hsize]
      cases o with
      | ipv4 => rfl
      | ipv6 | gre | mpls => cases htype.symm.trans h4
    · rcases hi.ip with ⟨-, hsize, -⟩ | ⟨h6, -⟩
      · exact hsize
      · cases h6.symm.trans h4
    · exact absurd h4 hh
  · obtain ⟨o, htype, -⟩ | rfl | rfl := ho.mem_cases hx
    · rw [htype] at ht
      cases o <;> cases ht
    · exact absurd ht (by simp [Header.moved, hg])
    · obtain rfl := Option.some.inj ((ho.ptr_transport hi).symm.trans hq)
      show headerSum os + g.headerBytes + h.totalBytes = packet.ipBytes
      omega
  · obtain ⟨o, htype, -⟩ | rfl | rfl := ho.mem_cases hx
    · rw [htype] at hudp
      cases o <;> cases hudp
    · exact absurd hudp (by rcases hi.isIp with hg | hg <;> simp [Header.moved, hg])
    · obtain rfl := Option.some.inj ((ho.ptr_transport hi).symm.trans hq)
      rw [ho.udpLen hi hm hkept hudp]
      omega

theorem OuterBuilt.encapsulated (hlegal : LegalOuter calls) (ho : OuterBuilt front calls os)
    (hi : InnerBuilt inner g h) (hok : packetEncapsulate heap front inner = .ok packet) :
    ∃ hs, Encapsulated calls inner packet hs := by
  have hsum := ho.ipBytes
  have hstart : packetStart inner.toPacket = .ok 0 := by
    rw [packetStart, hi.table.entries]
    simp only [List.cons_append, List.getD_cons_zero, hi.stacked.1.ptr]
  obtain ⟨m, hfront, hm, htable, hfinished, hipBytes⟩ :=
    packetEncapsulate_spec ho.table hi.table hstart (fun _ => ho.stacked hlegal hi) hok
  have hstacked := ho.stacked hlegal hi hfront hm
  rw [← hipBytes] at hstacked
  obtain ⟨hfirst, hversion⟩ := ho.first hlegal hi hfront hm
  have hversion := hstacked.versionAt (.of_kept hfinished.kept) hversion
  rw [Nat.zero_add] at hversion
  refine ⟨_, htable, ⟨m, hstacked, hfinished⟩, ?_, hfirst, hversion, ?_,
    ho.willReach hi hm hfinished.kept hipBytes⟩
  · rw [hi.table.usedHeaders_eq, List.map_append, types_of_entries ho.entries, List.map_map]
    rfl
  · apply ipv4LengthsFit_iff ho.entries ho.standing (ho.ptr_ip hi)
    · rcases hi.ip with ⟨h4, -, hne⟩ | ⟨h6, hnone⟩
      · exact iff_of_true h4 hne
      · exact iff_of_false (by simp [Header.moved, h6]) (by simp [hnone])
    · rcases hi.transport with ht | ht <;> simp [Header.moved, ht]
    · omega

end Behind

theorem exists_encapsulated {inetPton : InetPton} {heap' : Memory} {n : Nat}
    {outer : List OuterHeader} {front : FullPacket} (hlegal : LegalOuter outer)
    (hfront : appendHeaders inetPton (packetNew heap' n).full outer = .ok (.ok front))
    (hinner : IsBuilt inner) (hok : packetEncapsulate heap front inner = .ok packet) :
    ∃ hs, Encapsulated outer inner packet hs := by
  obtain ⟨os, ho⟩ := appendHeaders_built hlegal.labels hfront
  obtain ⟨g, h, hi⟩ := hinner.innerBuilt
  exact ho.encapsulated hlegal hi hok

theorem Encapsulated.fits {outer : List OuterHeader} {hs : List Header}
    (hen : Encapsulated outer inner packet hs) (hlaw : WireLaw outer inner packet) :
    Ipv4LengthsFit inner outer := by
  obtain ⟨c, hstacked, -⟩ := hen.stacked
  have hdescribes := hlaw.describes
  rw [hen.table.usedHeaders_eq] at hdescribes
  exact hen.fit_iff.mpr (hdescribes.fits hstacked)

theorem Encapsulated.wireLaw {outer : List OuterHeader} {hs : List Header}
    (hen : Encapsulated outer inner packet hs) (hfits : Ipv4LengthsFit inner outer) :
    WireLaw outer inner packet := by
  obtain ⟨c, hstacked, hfinished⟩ := hen.stacked
  have hreaches := (hen.reach (hen.fit_iff.mp hfits)).reaches hstacked
  have hlaid : LaidOut packet.buffer packet.ipBytes 0 (finishedHeaders hs) :=
    .of_finished (hfinished.stacked hstacked) hfinished.finished hreaches
  have hstack : HeaderStack packet.buffer packet.ipBytes .layer3Ip (finishedHeaders hs) := by
    apply hlaid.headerStack hen.table.le
    · rw [nextType_finishedHeaders]
      exact hen.first
    · rw [nextType_finishedHeaders]
      exact hen.version
  obtain ⟨s, hrun, hpacket⟩ := hstack.accepted le_rfl
  refine ⟨⟨s, hrun, ?_⟩, ?_⟩
  · have htable := startPacket_table packet.buffer packet.ipBytes .layer3Ip hen.table.used
      hstack.2
    rw [hpacket, htable.usedHeaders_eq, map_type_finishedHeaders]
    exact hen.types
  · rw [hen.table.usedHeaders_eq]
    exact hlaid.describes

/-- For every legal outer chain and every built inner packet, the wire law holds of what
`packet_encapsulate` returns exactly if all IPv4 datagrams in it are short enough. -/
theorem wireLaw_iff {inetPton : InetPton} {heap' : Memory} {n : Nat} {outer : List OuterHeader}
    {front : FullPacket} (hlegal : LegalOuter outer)
    (hfront : appendHeaders inetPton (packetNew heap' n).full outer = .ok (.ok front))
    (hinner : IsBuilt inner) (hok : packetEncapsulate heap front inner = .ok packet) :
    WireLaw outer inner packet ↔ Ipv4LengthsFit inner outer := by
  obtain ⟨hs, hen⟩ := exists_encapsulated hlegal hfront hinner hok
  exact ⟨hen.fits, hen.wireLaw⟩

end Encapsulation

/-- An `inet_pton` that takes `address` for one IPv4 address. -/
def pton (address : String) : InetPton where
  inet s := if s = address then some ⟨#[192, 0, 2, 1], rfl⟩ else none
  inet6 _ := none

/-- IPv4 over GRE over one MPLS entry. -/
def greMplsOuter : List OuterHeader :=
  [.ipv4 "192.0.2.1" "192.0.2.1" 0 64, .gre (Vector.replicate 16 0),
    .mpls ⟨[0x17ff], by decide⟩]

theorem legalOuter_greMpls : LegalOuter greMplsOuter := by
  refine ⟨by simp [greMplsOuter, OuterHeader.type], by simp [greMplsOuter, OuterHeader.type,
    HeaderType.carries], ?_⟩
  simp only [greMplsOuter, List.mem_cons, List.not_mem_nil, or_false, reduceCtorEq, false_or,
    OuterHeader.mpls.injEq]
  rintro mplsStack rfl
  exact ⟨[], 0x17ff, rfl, by decide, by simp⟩

theorem wireLaw_iff_greMpls : ∃ front inner packet,
    appendHeaders (pton "192.0.2.1") (packetNew (fun _ => 0) 256).full greMplsOuter =
      .ok (.ok front) ∧
    newTcpPacket (fun _ => 0) synArgs = .ok (.ok inner) ∧
    packetEncapsulate (fun _ => 0) front inner = .ok packet ∧
    (WireLaw greMplsOuter inner packet ↔ Ipv4LengthsFit inner greMplsOuter) := by
  obtain ⟨front, inner, packet, hfront, hinner, hok⟩ : ∃ front inner packet,
      appendHeaders (pton "192.0.2.1") (packetNew (fun _ => 0) 256).full greMplsOuter =
        .ok (.ok front) ∧
      newTcpPacket (fun _ => 0) synArgs = .ok (.ok inner) ∧
      packetEncapsulate (fun _ => 0) front inner = .ok packet := ⟨_, _, _, rfl, rfl, rfl⟩
  exact ⟨front, inner, packet, hfront, hinner, hok,
    wireLaw_iff legalOuter_greMpls hfront (.inl ⟨_, synArgs, hinner⟩) hok⟩

/-- A segment that fills an IPv4 datagram of 65520 bytes. -/
def longArgs : TcpArgs where
  addressFamily := AF_INET
  direction := .outbound
  ipInfo := ⟨⟨.none, 0⟩, 0, 64⟩
  srcPort := 8080
  dstPort := 443
  flags := ".".toList
  startSequence := 1
  tcpPayloadBytes := 65480
  ackSequence := 1
  window := 65535
  urgPtr := 0
  tcpOptions := none

/-- Behind an outer IPv4 header the datagram has 65540 bytes, and `tot_len` says 4. -/
theorem not_forall_wireLaw :
    ¬ ∀ (inetPton : InetPton) (heap heap' : Memory) (n : Nat) (outer : List OuterHeader)
      (front inner packet : FullPacket), LegalOuter outer →
      appendHeaders inetPton (packetNew heap' n).full outer = .ok (.ok front) → IsBuilt inner →
      packetEncapsulate heap front inner = .ok packet → WireLaw outer inner packet := by
  intro h
  have hlegal : LegalOuter [.ipv4 "192.0.2.1" "192.0.2.1" 0 64] :=
    ⟨by simp [OuterHeader.type], by simp, by simp⟩
  obtain ⟨front, inner, packet, hfront, hinner, hok, hlen⟩ : ∃ front inner packet,
      appendHeaders (pton "192.0.2.1") (packetNew (fun _ => 0) 256).full
        [.ipv4 "192.0.2.1" "192.0.2.1" 0 64] = .ok (.ok front) ∧
      newTcpPacket (fun _ => 0) longArgs = .ok (.ok inner) ∧
      packetEncapsulate (fun _ => 0) front inner = .ok packet ∧ inner.ipBytes = 65520 :=
    ⟨_, _, _, rfl, rfl, rfl, rfl⟩
  have hbuilt : IsBuilt inner := .inl ⟨_, _, hinner⟩
  obtain ⟨hs, hen⟩ := exists_encapsulated hlegal hfront hbuilt hok
  have hfits := hen.fits (h _ _ _ _ _ _ _ _ hlegal hfront hbuilt hok)
  have hle := hfits.1 rfl
  simp [OuterHeader.bytes, IPV4_BYTES, hlen] at hle

end QoSMos
