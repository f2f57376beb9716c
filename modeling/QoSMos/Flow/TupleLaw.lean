import QoSMos.Flow.SetTuple

/-!
# What `set_packet_tuple` writes

For a packet that was parsed or built, `set_packet_tuple` writes the fields of the tuple and
nothing else as long as it keeps its hands off messages that echo no header, and `ip_bytes`
reaches behind the ports of the innermost header.
-/

namespace QoSMos

open LabelledPath

/-- The packets that a tuple is set in: the parsed ones and those that a builder returns. -/
def HasTuple (packet : FullPacket) : Prop :=
  (∃ (b : Memory) (bufferBytes inBytes : Nat) (layer : PacketLayer) (s : ParseState),
    inBytes ≤ bufferBytes ∧ runParsePacket b bufferBytes inBytes layer = .ok (.ok, s) ∧
      packet = s.packet.full) ∨
  IsBuilt packet ∨ ∃ heap args, newIcmpPacket heap args = .ok (.ok packet)

/-- `packet'` is `packet` with this tuple. -/
structure TupleLaw (packet packet' : FullPacket) (tuple : Tuple) : Prop where
  rest : packet' = { packet with buffer := packet'.buffer }
  inside : ∀ i, packet'.buffer i ≠ packet.buffer i → ∃ start,
    packetStart packet.toPacket = .ok start ∧ start ≤ i ∧ i < start + packet.ipBytes
  /-- An echoed header is written only where the packet says that there is one. -/
  frame : ∀ i, packet'.buffer i ≠ packet.buffer i →
    (∃ f, packet.tupleFields = some f ∧ f.Covers i) ∨
      packet.echoedHeader = true ∧ ∃ e, packet.echoedFields = some e ∧ e.Covers i
  echoed : packet.echoedHeader = true → ∃ e, packet.echoedFields = some e ∧
    e.read packet'.buffer = (reverseTuple tuple).asRead e
  tuple : ∃ f, packet.tupleFields = some f ∧
    getPacketTuple packet'.toPacket = .ok (tuple.asRead f)

/-- The fields of the innermost headers end within the `ip_bytes` of the packet. -/
def TupleRoom (packet : FullPacket) : Prop :=
  ∃ start f, packetStart packet.toPacket = .ok start ∧ packet.tupleFields = some f ∧
    ∀ i, f.Covers i → i < start + packet.ipBytes

/-- What follows the innermost IP header, if it is not TCP or UDP, is said to echo a header. -/
def EchoesIfIcmp (packet : FullPacket) : Prop :=
  packet.icmpv4 = none ∧ packet.icmpv6 = none ∨ packet.echoedHeader = true

/-! ## The echoed header -/

/-- The bytes of an IP header without options. -/
def AddressFamily.headerBytes : AddressFamily → Nat
  | .inet => IPV4_BYTES
  | .inet6 => IPV6_BYTES

def AddressFamily.protocol (family : AddressFamily) (b : Memory) (p : Nat) : Nat :=
  match family with
  | .inet => Ipv4.protocol b p
  | .inet6 => Ipv6.nextHeader b p

/-- The fields of a header at `p` that is said to be of this family. -/
def echoedAt (family : AddressFamily) (b : Memory) (p : Nat) : TupleFields where
  family := family
  ip := p
  ports :=
    if family.protocol b p = IPPROTO_TCP ∨ family.protocol b p = IPPROTO_UDP then
      some (p + family.headerBytes)
    else none

/-- The packet has the ICMP header of this family at `q`. -/
def IcmpOf (packet : Packet) (q : Nat) : AddressFamily → Prop
  | .inet => packet.icmpv4 = some q ∧ packet.icmpv6 = none
  | .inet6 => packet.icmpv4 = none ∧ packet.icmpv6 = some q

section Echoed

variable {packet : FullPacket} {family : AddressFamily} {b : Memory} {tuple : Tuple} {p q : Nat}

/-- The addresses are the end of a header without options. -/
theorem dstAt_add_size (f : TupleFields) :
    f.dstAt + f.family.size = f.ip + f.family.headerBytes := by
  obtain ⟨family, ip, ports⟩ := f
  cases family <;> rfl

theorem echoedAt_ordered : (echoedAt family b p).Ordered := by
  intro q hq
  have hend := dstAt_add_size (echoedAt family b p)
  simp only [echoedAt] at hq hend ⊢
  split_ifs at hq
  obtain rfl := Option.some.inj hq
  exact hend.le

theorem echoedIpProtocol_eq {packet : Packet} (h : IcmpOf packet q family) :
    packetEchoedIpProtocol packet = .ok (family.protocol packet.buffer (q + ICMPV4_BYTES)) := by
  cases family <;> simp [packetEchoedIpProtocol, h.1, h.2] <;> rfl

theorem echoedLayer4Header_eq {packet : Packet} (h : IcmpOf packet q family) :
    packetEchoedLayer4Header packet = .ok (q + ICMPV4_BYTES + family.headerBytes) := by
  cases family <;>
    simp [packetEchoedLayer4Header, packetEchoedIpHeader, packetEchoedIpHeaderLen, h.1, h.2] <;> rfl

theorem echoedTcpHeader_eq {packet : Packet} (h : IcmpOf packet q family) :
    packetEchoedTcpHeader packet =
      .ok (if family.protocol packet.buffer (q + ICMPV4_BYTES) = IPPROTO_TCP then
        some (q + ICMPV4_BYTES + family.headerBytes) else none) := by
  rw [packetEchoedTcpHeader, echoedIpProtocol_eq h, echoedLayer4Header_eq h]
  simp only [bind, Except.bind]
  split_ifs <;> rfl

theorem echoedUdpHeader_eq {packet : Packet} (h : IcmpOf packet q family) :
    packetEchoedUdpHeader packet =
      .ok (if family.protocol packet.buffer (q + ICMPV4_BYTES) = IPPROTO_UDP then
        some (q + ICMPV4_BYTES + family.headerBytes) else none) := by
  rw [packetEchoedUdpHeader, echoedIpProtocol_eq h, echoedLayer4Header_eq h]
  simp only [bind, Except.bind]
  split_ifs <;> rfl

/-- The fields depend on the ICMP header and on the byte in the place of a protocol number. -/
theorem echoedFields_eq {packet : Packet} (h : IcmpOf packet q family) :
    packet.echoedFields = some (echoedAt family packet.buffer (q + ICMPV4_BYTES)) := by
  have htcp : IPPROTO_TCP ≠ IPPROTO_UDP := by decide
  have hfields (tcp udp : Option Nat) : headersFields (packetEchoedIpv4Header packet)
      (packetEchoedIpv6Header packet) tcp udp =
      some ⟨family, q + ICMPV4_BYTES, tcp.or udp⟩ := by
    cases family <;> simp [headersFields, packetEchoedIpv4Header, packetEchoedIpv6Header, h.1, h.2]
    rfl
  rw [Packet.echoedFields, echoedTcpHeader_eq h, echoedUdpHeader_eq h]
  simp only [hfields, echoedAt]
  by_cases h6 : family.protocol packet.buffer (q + ICMPV4_BYTES) = IPPROTO_TCP
  · simp [h6]
  · simp [h6]

/-- The call writes the fields in the place of an echoed header, whether there is one or not. -/
theorem setIcmpEchoedTuple_eq (h : IcmpOf packet.toPacket q family) :
    setIcmpEchoedTuple packet tuple = .ok { packet with
      buffer := (echoedAt family packet.buffer (q + ICMPV4_BYTES)).write packet.buffer
        (reverseTuple tuple) } := by
  have hfields := echoedFields_eq h
  rw [Packet.echoedFields, echoedTcpHeader_eq h, echoedUdpHeader_eq h] at hfields
  rw [setIcmpEchoedTuple, echoedTcpHeader_eq h, echoedUdpHeader_eq h]
  simp only [bind, Except.bind, setHeadersTuple_eq hfields]
  rfl

/-- The fields stay where they are while the protocol number does. -/
theorem echoedAt_congr {c : Memory} (h : ∀ i, p ≤ i → b i = c i) :
    echoedAt family b p = echoedAt family c p := by
  have hprotocol : family.protocol b p = family.protocol c p := by
    cases family
    · exact congrArg UInt8.toNat (h (p + 9) (by omega))
    · exact congrArg UInt8.toNat (h (p + 6) (by omega))
  rw [echoedAt, echoedAt, hprotocol]

end Echoed

/-! ## Packets with their headers in order -/

/-- The fields of the innermost headers are `f`, in front of the transport header at `q`. -/
structure Addressed (packet : FullPacket) (start : Nat) (f : TupleFields) (q : Nat) : Prop where
  starts : packetStart packet.toPacket = .ok start
  fields : packet.tupleFields = some f
  le : start ≤ f.srcAt
  behind : f.dstAt + f.family.size ≤ q
  transport :
    (f.ports = some q ∧ packet.icmpv4 = none ∧ packet.icmpv6 = none ∧
      packet.echoedHeader = false) ∨
    f.ports = none ∧ ∃ family, IcmpOf packet.toPacket q family ∧
      (packet.echoedHeader = true → family = f.family ∧
        q + ICMPV4_BYTES + family.headerBytes + 4 ≤ start + packet.ipBytes)

section Addressed

variable {packet packet' : FullPacket} {start q : Nat} {f : TupleFields} {tuple : Tuple}
  {family : AddressFamily}

theorem Addressed.ordered (ha : Addressed packet start f q) : f.Ordered := by
  intro q' hq'
  rcases ha.transport with ⟨hports, -⟩ | ⟨hports, -⟩
  · obtain rfl := Option.some.inj (hports.symm.trans hq')
    exact ha.behind
  · rw [hports] at hq'
    cases hq'

theorem Addressed.srcAt_le (ha : Addressed packet start f q) {i : Nat} (hi : f.Covers i) :
    start ≤ i := by
  have hle := ha.le
  rcases hi with hi | ⟨q', hq', hi⟩
  · omega
  · have := ha.ordered q' hq'
    have : f.dstAt = f.srcAt + f.family.size := rfl
    omega

theorem not_icmp_of_none (h4 : packet.icmpv4 = none) (h6 : packet.icmpv6 = none) :
    ¬ (packet.icmpv4 ≠ none ∨ packet.icmpv6 ≠ none) := by
  simp [h4, h6]

theorem IcmpOf.icmp (h : IcmpOf packet.toPacket q family) :
    packet.icmpv4 ≠ none ∨ packet.icmpv6 ≠ none := by
  cases family
  · exact .inl (by simp [h.1])
  · exact .inr (by simp [h.2])

/-- Without an ICMP header only the fields of the innermost headers are written. -/
theorem setPacketTuple_eq (hf : packet.tupleFields = some f) (h4 : packet.icmpv4 = none)
    (h6 : packet.icmpv6 = none) : setPacketTuple packet tuple =
      .ok { packet with buffer := f.write packet.buffer tuple } := by
  simp only [setPacketTuple, bind, Except.bind, setHeadersTuple_eq hf]
  rw [if_neg (not_icmp_of_none h4 h6)]
  rfl

/-- With one, so are the fields that an echoed header would have. -/
theorem setPacketTuple_icmp (ha : Addressed packet start f q) (hports : f.ports = none)
    (hi : IcmpOf packet.toPacket q family) :
    setPacketTuple packet tuple = .ok { packet with
      buffer := (echoedAt family packet.buffer (q + ICMPV4_BYTES)).write
        (f.write packet.buffer tuple) (reverseTuple tuple) } := by
  have hbehind := ha.behind
  have hkeep : ∀ i, q + ICMPV4_BYTES ≤ i → f.write packet.buffer tuple i = packet.buffer i := by
    intro i hle
    apply TupleFields.write_outside
    rintro (hc | ⟨q', hq', -⟩)
    · omega
    · rw [hports] at hq'
      cases hq'
  simp only [setPacketTuple, bind, Except.bind, setHeadersTuple_eq ha.fields]
  rw [if_pos (IcmpOf.icmp hi)]
  have hi' : IcmpOf ({ packet with buffer := f.write packet.buffer tuple } : FullPacket).toPacket q
      family := by cases family <;> exact hi
  refine (setIcmpEchoedTuple_eq hi').trans ?_
  rw [← echoedAt_congr hkeep]

theorem OfFamily.reverse (ht : tuple.OfFamily family) : (reverseTuple tuple).OfFamily family :=
  ⟨ht.dst, ht.src, ht.ports.symm⟩

/-- Where no ICMP header is, the law holds if `ip_bytes` covers the fields. -/
theorem Addressed.law (ha : Addressed packet start f q) (hecho : packet.echoedHeader = false)
    (hroom : ∀ i, f.Covers i → i < start + packet.ipBytes) (ht : tuple.OfFamily f.family) :
    TupleLaw packet { packet with buffer := f.write packet.buffer tuple } tuple := by
  have hcovers (i : Nat) (hi : f.write packet.buffer tuple i ≠ packet.buffer i) : f.Covers i := by
    by_contra hc
    exact hi (TupleFields.write_outside hc)
  refine ⟨rfl, fun i hi => ⟨start, ha.starts, ha.srcAt_le (hcovers i hi), hroom i (hcovers i hi)⟩,
    fun i hi => .inl ⟨f, ha.fields, hcovers i hi⟩, fun h => ?_, f, ha.fields, ?_⟩
  · rw [hecho] at h
    cases h
  · rw [← TupleFields.read_write ha.ordered ht]
    exact getPacketTuple_eq ha.fields

/-- A header that is echoed gets the reversed tuple. -/
theorem Addressed.echoed_law (ha : Addressed packet start f q) (hports : f.ports = none)
    (hi : IcmpOf packet.toPacket q f.family) (hecho : packet.echoedHeader = true)
    (hroom : q + ICMPV4_BYTES + f.family.headerBytes + 4 ≤ start + packet.ipBytes)
    (ht : tuple.OfFamily f.family) :
    TupleLaw packet { packet with
      buffer := (echoedAt f.family packet.buffer (q + ICMPV4_BYTES)).write
        (f.write packet.buffer tuple) (reverseTuple tuple) } tuple := by
  have hfields := echoedFields_eq hi
  have hend : (echoedAt f.family packet.buffer (q + ICMPV4_BYTES)).dstAt + f.family.size =
      q + ICMPV4_BYTES + f.family.headerBytes := dstAt_add_size _
  have hord := @echoedAt_ordered f.family packet.buffer (q + ICMPV4_BYTES)
  have hports' : ∀ r, (echoedAt f.family packet.buffer (q + ICMPV4_BYTES)).ports = some r →
      r = q + ICMPV4_BYTES + f.family.headerBytes := by
    intro r hr
    simp only [echoedAt] at hr
    split_ifs at hr
    exact (Option.some.inj hr).symm
  have hsrc : q + ICMPV4_BYTES ≤ (echoedAt f.family packet.buffer (q + ICMPV4_BYTES)).srcAt :=
    Nat.le_add_right _ _
  have hfamily : (echoedAt f.family packet.buffer (q + ICMPV4_BYTES)).family = f.family := rfl
  generalize echoedAt f.family packet.buffer (q + ICMPV4_BYTES) = e at *
  have hreverse : (reverseTuple tuple).OfFamily e.family := hfamily ▸ OfFamily.reverse ht
  have hbehind := ha.behind
  have hcovers : ∀ i, f.Covers i → start ≤ i ∧ i < q := by
    intro i hc
    refine ⟨ha.srcAt_le hc, ?_⟩
    rcases hc with hc | ⟨r, hr, -⟩
    · omega
    · rw [hports] at hr
      cases hr
  have hcovers' : ∀ i, e.Covers i →
      q ≤ i ∧ i < q + ICMPV4_BYTES + f.family.headerBytes + 4 := by
    rintro i (hc | ⟨r, hr, hc⟩)
    · rw [hfamily] at hc
      omega
    · have := hports' r hr
      omega
  have hle : start ≤ q := by
    have := ha.le
    have : f.dstAt = f.srcAt + f.family.size := rfl
    omega
  have hchanged : ∀ i, e.write (f.write packet.buffer tuple) (reverseTuple tuple) i ≠
      packet.buffer i → f.Covers i ∨ e.Covers i := by
    intro i hne
    by_contra hc
    push Not at hc
    refine hne ?_
    rw [TupleFields.write_outside hc.2, TupleFields.write_outside hc.1]
  refine ⟨rfl, fun i hne => ⟨start, ha.starts, ?_⟩, fun i hne => ?_, fun _ => ⟨e, hfields, ?_⟩, f,
    ha.fields, ?_⟩
  · rcases hchanged i hne with hc | hc
    · have := hcovers i hc
      omega
    · have := hcovers' i hc
      omega
  · rcases hchanged i hne with hc | hc
    · exact .inl ⟨f, ha.fields, hc⟩
    · exact .inr ⟨hecho, e, hfields, hc⟩
  · exact TupleFields.read_write hord hreverse
  · have hread : f.read (e.write (f.write packet.buffer tuple) (reverseTuple tuple)) =
        f.read (f.write packet.buffer tuple) := by
      refine TupleFields.read_congr fun i hc => TupleFields.write_outside fun hc' => ?_
      have := hcovers i hc
      have := hcovers' i hc'
      omega
    rw [← TupleFields.read_write ha.ordered ht, ← hread]
    exact getPacketTuple_eq ha.fields

/-- The call sets every tuple of the family as it should. -/
def SetsTuples (packet : FullPacket) (family : AddressFamily) : Prop :=
  ∀ tuple : Tuple, tuple.OfFamily family →
    ∃ packet', setPacketTuple packet tuple = .ok packet' ∧ TupleLaw packet packet' tuple

theorem succ_ne_self (x : UInt8) : x + 1 ≠ x := by
  intro h
  simp at h

/-- Behind any other ICMP header, the source address of an echoed one is written as well. -/
theorem Addressed.not_setsTuples (ha : Addressed packet start f q) (hports : f.ports = none)
    (hi : IcmpOf packet.toPacket q family) (hecho : packet.echoedHeader = false) :
    ¬ SetsTuples packet f.family := by
  intro h
  obtain ⟨e, he⟩ : ∃ e, echoedAt family packet.buffer (q + ICMPV4_BYTES) = e := ⟨_, rfl⟩
  have hsrc : q ≤ e.srcAt := by
    rw [← he]
    exact (Nat.le_add_right _ _).trans (Nat.le_add_right _ _)
  let address : IpAddress := ⟨f.family, List.replicate 16 (packet.buffer e.srcAt + 1)⟩
  let tuple : Tuple := ⟨⟨address, 0⟩, ⟨address, 0⟩⟩
  have ht : tuple.OfFamily f.family := by
    refine ⟨⟨rfl, ?_⟩, ⟨rfl, ?_⟩, by simp [tuple]⟩ <;> simp [tuple, address]
  obtain ⟨packet', hset, hlaw⟩ := h tuple ht
  rw [setPacketTuple_icmp ha hports hi, he] at hset
  obtain rfl := Except.ok.inj hset
  have hbyte : e.write (f.write packet.buffer tuple) (reverseTuple tuple) e.srcAt =
      packet.buffer e.srcAt + 1 := by
    rw [TupleFields.write_srcAt (he ▸ echoedAt_ordered) ht.dst.2]
    rfl
  have hchanged : e.write (f.write packet.buffer tuple) (reverseTuple tuple) e.srcAt ≠
      packet.buffer e.srcAt := by
    rw [hbyte]
    exact succ_ne_self _
  have hbehind := ha.behind
  rcases hlaw.frame e.srcAt hchanged with ⟨g, hg, hc⟩ | ⟨htrue, -⟩
  · obtain rfl := Option.some.inj (ha.fields.symm.trans hg)
    rcases hc with hc | ⟨r, hr, -⟩
    · omega
    · rw [hports] at hr
      cases hr
  · rw [hecho] at htrue
    cases htrue

/-- A packet in which every tuple can be set has room for the fields. -/
theorem Addressed.tupleRoom (ha : Addressed packet start f q) (h4 : packet.icmpv4 = none)
    (h6 : packet.icmpv6 = none) (h : SetsTuples packet f.family) : TupleRoom packet := by
  refine ⟨start, f, ha.starts, ha.fields, fun i hi => ?_⟩
  let other : Memory := fun j => packet.buffer j + 1
  have ht : (f.read other).OfFamily f.family := TupleFields.ofFamily_read
  obtain ⟨packet', hset, hlaw⟩ := h _ ht
  rw [setPacketTuple_eq ha.fields h4 h6] at hset
  obtain rfl := Except.ok.inj hset
  have hchanged : f.write packet.buffer (f.read other) i ≠ packet.buffer i := by
    rw [TupleFields.write_read ha.ordered hi]
    exact succ_ne_self _
  obtain ⟨start', hstart', -, hlt⟩ := hlaw.inside i hchanged
  obtain rfl := Except.ok.inj (ha.starts.symm.trans hstart')
  exact hlt

theorem Addressed.setsTuples_iff (ha : Addressed packet start f q) :
    SetsTuples packet f.family ↔ EchoesIfIcmp packet ∧ TupleRoom packet := by
  rcases ha.transport with ⟨-, h4, h6, hecho⟩ | ⟨hports, family, hi, hroom⟩
  · constructor
    · intro h
      exact ⟨.inl ⟨h4, h6⟩, ha.tupleRoom h4 h6 h⟩
    · rintro ⟨-, start', g, hstart, hg, hfits⟩ tuple ht
      obtain rfl := Except.ok.inj (ha.starts.symm.trans hstart)
      obtain rfl := Option.some.inj (ha.fields.symm.trans hg)
      exact ⟨_, setPacketTuple_eq ha.fields h4 h6, ha.law hecho hfits ht⟩
  · cases hecho : packet.echoedHeader with
    | false =>
      refine iff_of_false (ha.not_setsTuples hports hi hecho) ?_
      rintro ⟨⟨h4, h6⟩ | htrue, -⟩
      · exact not_icmp_of_none h4 h6 hi.icmp
      · rw [hecho] at htrue
        cases htrue
    | true =>
      obtain ⟨rfl, hfits⟩ := hroom hecho
      have hlaw (tuple : Tuple) (ht : tuple.OfFamily f.family) :=
        ha.echoed_law hports hi hecho hfits ht
      refine iff_of_true (fun tuple ht => ⟨_, setPacketTuple_icmp ha hports hi, hlaw tuple ht⟩)
        ⟨.inr hecho, start, f, ha.starts, ha.fields, ?_⟩
      have hbehind := ha.behind
      rintro i (hc | ⟨r, hr, -⟩)
      · omega
      · rw [hports] at hr
        cases hr

end Addressed

/-! ## The packets in question -/

section Packets

variable {b : Memory} {e p n : Nat} {layer : PacketLayer} {hs : List Header} {sym next : Symbol}
  {h : Header} {packet : FullPacket}

/-- The family of an IP header. -/
def HeaderType.ipFamily (t : HeaderType) : AddressFamily := if t = .ipv4 then .inet else .inet6

theorem HeaderAt.ipFamily_headerBytes (hh : HeaderAt b e sym p h next)
    (hip : h.type.isIp = true) : h.type.ipFamily.headerBytes ≤ h.headerBytes := by
  cases hh with
  | ipv4 _ hi => exact hi.minimum
  | ipv6 _ _ => exact le_rfl
  | _ => cases hip

theorem isTransport_of_isIp {t : HeaderType} (h : t.isIp = true) : t.isTransport = false := by
  cases t <;> simp_all [HeaderType.isIp, HeaderType.isTransport]

/-- The innermost IP header of a stack and the transport header behind it. -/
theorem HeaderStack.innermost (hstack : HeaderStack b e layer hs) :
    ∃ outer ip inner last p q, hs = outer ++ ip :: (inner ++ [last]) ∧ ip.type.isIp = true ∧
      (∀ g ∈ inner ++ [last], ¬ g.type.isIp = true) ∧ ip.ptr = some p ∧
      (layerStart b layer).2 ≤ p ∧ p + ip.type.ipFamily.headerBytes ≤ q ∧
      last.type.isTransport = true ∧ last.ptr = some q ∧
      ∀ g ∈ outer ++ ip :: inner, g.type.isTransport = false := by
  obtain ⟨init, last, y, q, hsplit, hpath, hlast, -, -, hinit⟩ :=
    exists_last_of_derives hstack.1 (layerStart_ne_done b layer)
  have htransport : last.type.isTransport = true := hlast.isTransport_iff.mpr rfl
  obtain ⟨outer, ip, inner, hs', hip, hinner⟩ :=
    exists_innermost (exists_isIp_of_derives hstack.1 (layerStart_ne_done b layer)
      (layerStart_ne_payload b layer))
  obtain ⟨inner, rfl⟩ : ∃ rest, inner = rest ++ [last] := by
    rcases List.eq_nil_or_concat inner with rfl | ⟨rest, g, rfl⟩
    · have : ip = last := by
        have := (List.append_inj' (hs'.symm.trans hsplit) rfl).2
        simpa using this
      rw [this] at hip
      rw [isTransport_of_isIp hip] at htransport
      cases htransport
    · have : g = last := by
        have hlist : (outer ++ ip :: rest) ++ [g] = init ++ [last] := by
          rw [← hsplit, hs']
          simp
        simpa using (List.append_inj' hlist rfl).2
      exact ⟨rest, by rw [this]; simp⟩
  have hinit' : init = outer ++ ip :: inner := by
    have hlist : init ++ [last] = (outer ++ ip :: inner) ++ [last] := by
      rw [← hsplit, hs']
      simp
    exact (List.append_inj' hlist rfl).1
  subst hinit'
  obtain ⟨u, houter, hpath⟩ := Path.append_iff.mp hpath
  obtain ⟨v, hnext, hrest⟩ := Path.cons_iff.mp hpath
  have hu := position_of_path houter
  have hv := position_of_path hrest
  have hbytes := hnext.1.ipFamily_headerBytes hip
  have hstep := hnext.2
  exact ⟨outer, ip, inner, last, u.2, y.2, hs', hip, hinner, hnext.1.ptr, by omega, by omega,
    htransport, hlast.ptr, hinit⟩

theorem HeaderStack.addressed (hstack : HeaderStack b e layer hs) :
    ∃ start f q, Addressed ((startPacket b n layer).afterHeaders hs).full start f q := by
  have hstart := hstack.packetStart_eq n
  obtain ⟨outer, ip, inner, last, p, q, rfl, hip, hinner, hptr, hle, hbehind, htransport, hlast,
    hinit⟩ := hstack.innermost
  obtain ⟨h4, h6⟩ := primary_afterHeaders (startPacket b n layer) outer ⟨rfl, rfl⟩ hptr hip hinner
  have hkept := startPacket_transports b n layer hinit hlast
  rw [List.append_assoc, List.cons_append] at hkept
  generalize hpacket : (startPacket b n layer).afterHeaders (outer ++ ip :: (inner ++ [last])) =
    packet at *
  simp only [Packet.transports, List.cons.injEq, and_true] at hkept
  obtain ⟨htcp, hudp, hicmpv4, hicmpv6⟩ := hkept
  have hfields : packet.tupleFields = some ⟨ip.type.ipFamily, p, packet.tcp.or packet.udp⟩ := by
    unfold Packet.tupleFields headersFields
    rw [h4, h6]
    cases ht : ip.type <;> simp [ht, HeaderType.isIp] at hip ⊢ <;> rfl
  refine ⟨_, _, q, hstart, hfields, hle.trans (Nat.le_add_right _ _), ?_, ?_⟩
  · rw [dstAt_add_size]
    exact hbehind
  · show (packet.tcp.or packet.udp = some q ∧ packet.icmpv4 = none ∧ packet.icmpv6 = none ∧
        false = false) ∨ packet.tcp.or packet.udp = none ∧ ∃ family, IcmpOf packet q family ∧
        (false = true → _)
    unfold IcmpOf
    cases ht : last.type <;>
      simp [ht, HeaderType.isTransport] at htransport htcp hudp hicmpv4 hicmpv6
    · exact .inl ⟨by simp [htcp], hicmpv4, hicmpv6, rfl⟩
    · exact .inl ⟨by simp [htcp, hudp], hicmpv4, hicmpv6, rfl⟩
    · exact .inr ⟨by simp [htcp, hudp], .inet, ⟨hicmpv4, hicmpv6⟩, by simp⟩
    · exact .inr ⟨by simp [htcp, hudp], .inet6, ⟨hicmpv4, hicmpv6⟩, by simp⟩

/-- The family of a number that the builders accept. -/
def familyOf (addressFamily : Int) : AddressFamily :=
  if addressFamily = AF_INET then .inet else .inet6

theorem headerBytes_familyOf (addressFamily : Int) :
    (familyOf addressFamily).headerBytes = ipHeaderBytes addressFamily := by
  unfold familyOf ipHeaderBytes
  split <;> rfl

theorem packetStart_of_table {g : Header} {rest : List Header} {start : Nat} {packet : Packet}
    (ht : Table packet (g :: rest)) (hptr : g.ptr = some start) :
    packetStart packet = .ok start := by
  simp [packetStart, ht.entries, hptr]

theorem BuiltAs.addressed {addressFamily : Int} {l4 : HeaderType} {ipB l4B : List UInt8}
    {payload : Nat} (hlength : ipB.length = ipHeaderBytes addressFamily)
    (hl4 : l4 = .tcp ∨ l4 = .udp) (hb : BuiltAs packet (ipType addressFamily) l4 ipB l4B payload)
    (hecho : packet.echoedHeader = false) : ∃ start f q, Addressed packet start f q := by
  have hports : packet.tcp.or packet.udp = some ipB.length := by
    rw [hb.tcp, hb.udp]
    rcases hl4 with rfl | rfl <;> rfl
  have hfields : packet.tupleFields = some ⟨familyOf addressFamily, 0, some ipB.length⟩ := by
    unfold Packet.tupleFields headersFields familyOf
    rw [hb.ipv4, hb.ipv6, hports]
    unfold ipType
    by_cases hinet : addressFamily = AF_INET <;> simp [hinet]
  refine ⟨0, _, ipB.length, packetStart_of_table hb.table rfl, hfields, Nat.zero_le _, ?_,
    .inl ⟨rfl, hb.icmp.1, hb.icmp.2, hecho⟩⟩
  rw [dstAt_add_size, headerBytes_familyOf, hlength, Nat.zero_add]

theorem IsBuilt.addressed (hbuilt : IsBuilt packet) : ∃ start f q, Addressed packet start f q := by
  obtain ⟨heap, args, hok⟩ | ⟨heap, args, hok⟩ := hbuilt
  · exact (newTcpPacket_built hok).built.addressed length_ipHeader (.inl rfl)
      (newTcpPacket_echoedHeader hok)
  · exact (newUdpPacket_built hok).built.addressed length_ipHeader (.inr rfl)
      (newUdpPacket_info hok).1

theorem IcmpBuilt.addressed {args : IcmpArgs} (hb : IcmpBuilt args packet) :
    ∃ start f q, Addressed packet start f q := by
  have hfields : packet.tupleFields = some ⟨familyOf args.addressFamily, 0, none⟩ := by
    unfold Packet.tupleFields headersFields familyOf
    rw [hb.ipv4, hb.ipv6, hb.noPorts.1, hb.noPorts.2]
    split_ifs <;> rfl
  have hi : IcmpOf packet.toPacket (ipHeaderBytes args.addressFamily)
      (familyOf args.addressFamily) := by
    unfold familyOf IcmpOf
    rw [hb.icmp.icmpv4, hb.icmp.icmpv6]
    split_ifs <;> exact ⟨rfl, rfl⟩
  refine ⟨0, _, ipHeaderBytes args.addressFamily, packetStart_of_table hb.table rfl, hfields,
    Nat.zero_le _, ?_, .inr ⟨rfl, _, hi, fun hecho => ⟨rfl, ?_⟩⟩⟩
  · rw [dstAt_add_size, headerBytes_familyOf, Nat.zero_add]
  · have hbytes := (hb.echoed (hb.echoedHeader.mp hecho)).1
    simp only [ICMP_ECHO_BYTES] at hbytes
    rw [headerBytes_familyOf]
    omega

end Packets

/-- Every tuple of the family of the packet can be set, with nothing else changed, exactly where an
ICMP message is marked as echoing a header and `ip_bytes` covers the fields. -/
theorem setPacketTuple_frame_iff {packet : FullPacket} (hp : HasTuple packet) :
    (∀ f, packet.tupleFields = some f → SetsTuples packet f.family) ↔
      EchoesIfIcmp packet ∧ TupleRoom packet := by
  obtain ⟨start, f, q, ha⟩ : ∃ start f q, Addressed packet start f q := by
    rcases hp with ⟨b, bufferBytes, inBytes, layer, s, hle, hrun, rfl⟩ | hbuilt | ⟨heap, args, hok⟩
    · obtain ⟨hs, hstack, hpacket, -⟩ := runParsePacket_ok_stack hle hrun
      rw [hpacket]
      exact hstack.addressed
    · exact hbuilt.addressed
    · exact (newIcmpPacket_built hok).addressed
  rw [← ha.setsTuples_iff]
  constructor
  · intro h
    exact h f ha.fields
  · intro h g hg
    obtain rfl := Option.some.inj (ha.fields.symm.trans hg)
    exact h

theorem setPacketTuple_frame_iff_syn :
    ∃ packet, newTcpPacket (fun _ => 0) synArgs = .ok (.ok packet) ∧
      ((∀ f, packet.tupleFields = some f → SetsTuples packet f.family) ↔
        EchoesIfIcmp packet ∧ TupleRoom packet) := by
  obtain ⟨packet, hok⟩ :
      ∃ packet, newTcpPacket (fun _ => 0) synArgs = .ok (.ok packet) := ⟨_, rfl⟩
  exact ⟨packet, hok, setPacketTuple_frame_iff (.inr (.inl (.inl ⟨_, _, hok⟩)))⟩

/-- The arguments for an ICMPv4 echo request of eight bytes. -/
def echoRequestArgs : IcmpArgs where
  addressFamily := AF_INET
  direction := .inbound
  typeString := "echo_request".toList
  codeString := none
  protocol := IPPROTO_RAW
  tcpStartSequence := 0
  payloadBytes := 8
  ipInfo := ⟨⟨.none, 0⟩, 0, 0⟩
  mtu := -1
  echoId := 1

/-- An echo request has no header behind its eight bytes, and is written there all the same. -/
theorem not_setPacketTuple_frame : ¬ ∀ packet, HasTuple packet →
    ∀ f, packet.tupleFields = some f → SetsTuples packet f.family := by
  intro h
  obtain ⟨packet, hok⟩ :
      ∃ packet, newIcmpPacket (fun _ => 0) echoRequestArgs = .ok (.ok packet) := ⟨_, rfl⟩
  have hb := newIcmpPacket_built hok
  obtain ⟨start, f, q, ha⟩ := hb.addressed
  have hsets := h packet (.inr (.inr ⟨_, _, hok⟩)) f ha.fields
  rcases (ha.setsTuples_iff.mp hsets).1 with ⟨hnone, -⟩ | hecho
  · rw [hb.icmp.icmpv4] at hnone
    cases hnone
  · exact absurd (hb.echoedHeader.mp hecho) (by decide)

end QoSMos
