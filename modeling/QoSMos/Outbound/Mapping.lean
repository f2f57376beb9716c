import QoSMos.Outbound.Layers
import QoSMos.Outbound.Timestamps

/-!
# What mapping a live packet leaves

The copy of a live packet has its headers, and after `map_outbound_live_packet` its bytes but for
the addresses and ports of the innermost headers and the value of the last timestamp. The packet of
the script gets nothing but the pointers to its timestamp.
-/

namespace QoSMos

open Returns

/-- A byte of the timestamp value that is mapped. -/
def IsTsVal (packet : FullPacket) (i : Nat) : Prop :=
  ∃ tcp options o, OptionsAt packet.toPacket tcp options ∧
    lastTimestamp packet.buffer options = some o ∧ o + 2 ≤ i ∧ i < o + 6

/-- The packets after `map_outbound_live_packet`, compared with those before. -/
structure Mapping (live script : FullPacket) (mapping : OutboundMapping) (outer : List Header)
    (ip last : Header) (p q n : Nat) : Prop where
  layers : LiveLayers mapping.actual outer ip last p q
  ends : packetEnd mapping.actual.toPacket = .ok n
  inside : q + (if last.type = .tcp then Tcp.doff live.buffer q * 4 else UDP_BYTES) ≤ n
  front : ∀ i < p + ip.type.ipFamily.srcOffset, mapping.actual.buffer i = live.buffer i
  behind : last.type = .tcp ∨ last.type = .udp → ∀ i, q + 4 ≤ i → i < n → ¬ IsTsVal live i →
    mapping.actual.buffer i = live.buffer i
  scriptKept : mapping.script = { script with
    tcpTsVal := mapping.script.tcpTsVal
    tcpTsEcr := mapping.script.tcpTsEcr }
  /-- The loops over the options found the same ones in the copy, and where the timestamps are. -/
  stamped : last.type = .tcp → ∃ options tcp' options', OptionsAt live.toPacket q options ∧
    OptionsAt mapping.actual.toPacket q options ∧ OptionsAt script.toPacket tcp' options' ∧
    mapping.actual.tcpTsVal = (lastTimestamp live.buffer options).map (· + 2) ∧
    mapping.script.tcpTsVal = (lastTimestamp script.buffer options').map (· + 2)

section Tuples

variable {packet : FullPacket} {outer : List Header} {ip last : Header} {p q start n i : Nat}
  {f : TupleFields} {tuple : Tuple} {len : Int}

theorem LiveLayers.addressed (hl : LiveLayers packet outer ip last p q) : ∃ start,
    Addressed packet start ⟨ip.type.ipFamily, p, packet.tcp.or packet.udp⟩ q := by
  obtain ⟨start, hstart, hle⟩ := hl.start
  refine ⟨start, hstart, hl.tupleFields, hle.trans (Nat.le_add_right _ _), ?_, ?_⟩
  · rw [dstAt_add_size]
    exact hl.behind
  · rw [hl.tcp, hl.udp, hl.icmpv4, hl.icmpv6]
    rcases hl.last_cases with ht | ht | ht | ht <;> simp only [ht]
    · exact .inl ⟨rfl, rfl, rfl, hl.echoedHeader⟩
    · exact .inl ⟨rfl, rfl, rfl, hl.echoedHeader⟩
    · exact .inr ⟨rfl, .inet, ⟨by rw [hl.icmpv4, ht]; rfl, by rw [hl.icmpv6, ht]; rfl⟩,
        by simp [hl.echoedHeader]⟩
    · exact .inr ⟨rfl, .inet6, ⟨by rw [hl.icmpv4, ht]; rfl, by rw [hl.icmpv6, ht]; rfl⟩,
        by simp [hl.echoedHeader]⟩

theorem TupleFields.srcAt_le (hord : f.Ordered) (hc : f.Covers i) : f.srcAt ≤ i := by
  rcases hc with hc | ⟨r, hr, hc⟩
  · exact hc.1
  · have := hord r hr
    have : f.dstAt = f.srcAt + f.family.size := rfl
    omega

/-- Setting a tuple writes behind the compared fields of the last IP header, and nothing behind the
ports if there are any. -/
theorem LiveLayers.setPacketTuple (hl : LiveLayers packet outer ip last p q) (tuple : Tuple) :
    ∃ b, setPacketTuple packet tuple = .ok { packet with buffer := b } ∧
      (∀ i < p + ip.type.ipFamily.srcOffset, b i = packet.buffer i) ∧
      (last.type = .tcp ∨ last.type = .udp → ∀ i ≥ q + 4, b i = packet.buffer i) := by
  obtain ⟨start, ha⟩ := hl.addressed
  have hbehind := ha.behind
  rcases ha.transport with ⟨hports, h4, h6, -⟩ | ⟨hports, family, hi, -⟩
  · refine ⟨_, setPacketTuple_eq ha.fields h4 h6, fun i hi => ?_, fun _ i hi => ?_⟩
    · refine TupleFields.write_outside fun hc => ?_
      exact absurd (TupleFields.srcAt_le ha.ordered hc) (not_le.mpr hi)
    · refine TupleFields.write_outside ?_
      rintro (hc | ⟨r, hr, hc⟩)
      · omega
      · obtain rfl := Option.some.inj (hports.symm.trans hr)
        omega
  · refine ⟨_, setPacketTuple_icmp ha hports hi, fun i hi => ?_, fun htransport => ?_⟩
    · have hend : p + ip.type.ipFamily.srcOffset ≤ q := by
        have hle : TupleFields.srcAt ⟨ip.type.ipFamily, p, packet.tcp.or packet.udp⟩ ≤ _ :=
          (Nat.le_add_right _ _).trans ((Nat.le_add_right _ _).trans hbehind)
        exact hle
      rw [TupleFields.write_outside, TupleFields.write_outside]
      · exact fun hc => absurd (TupleFields.srcAt_le ha.ordered hc) (not_le.mpr hi)
      · intro hc
        have hle : q + ICMPV4_BYTES ≤ _ :=
          (Nat.le_add_right _ _).trans (TupleFields.srcAt_le echoedAt_ordered hc)
        omega
    · have hor : packet.tcp.or packet.udp = none := hports
      rw [hl.tcp, hl.udp] at hor
      rcases htransport with ht | ht <;> simp [ht] at hor

/-- A payload that does not end in front of its start is behind the transport header. -/
theorem LiveLayers.inside (hl : LiveLayers packet outer ip last p q)
    (hlen : packetPayloadLen packet.toPacket = .ok len) (hpos : 0 ≤ len)
    (hend : packetEnd packet.toPacket = .ok n) :
    q + (if last.type = .tcp then Tcp.doff packet.buffer q * 4 else UDP_BYTES) ≤ n := by
  rw [packetPayloadLen, hend, hl.packetPayload] at hlen
  have heq : (n : Int) - (q + (if last.type = .tcp then Tcp.doff packet.buffer q * 4
      else UDP_BYTES) : Nat) = len := Except.ok.inj hlen
  omega

end Tuples

/-! ## The copy -/

section Copy

variable {heap : Memory} {live actual : FullPacket} {outer : List Header} {ip last : Header}
  {p q n i : Nat} {len : Int}

theorem packetCopy_echoedHeader (hok : packetCopy heap live = .ok actual) :
    actual.echoedHeader = live.echoedHeader := by
  unfold packetCopy packetCopyWithHeadroom at hok
  obtain ⟨_, -, hok⟩ := bind_eq_ok_iff.mp hok
  obtain ⟨_, -, hok⟩ := bind_eq_ok_iff.mp hok
  obtain ⟨_, -, hok⟩ := bind_eq_ok_iff.mp hok
  obtain rfl := pure_eq_ok_iff.mp hok
  rfl

theorem LiveShape.packetCopy_ok (hl : LiveShape live outer ip last p q) (heap : Memory) :
    ∃ actual, packetCopy heap live = .ok actual := by
  obtain ⟨n, hend, hle⟩ := hl.ends
  have hsize : PACKET_READ_BYTES = 65536 := rfl
  unfold packetCopy packetCopyWithHeadroom
  rw [hend, ofFault, bind_of_ok rfl, bind_of_ok (require_ok (Nat.zero_le n)),
    bind_of_ok (require_ok (by omega))]
  exact ⟨_, rfl⟩

/-- The layers of the copy are those of the live packet, and it ends where that does. -/
theorem LiveShape.copied (hl : LiveShape live outer ip last p q)
    (hok : packetCopy heap live = .ok actual)
    (hlen : packetPayloadLen live.toPacket = .ok len) (hpos : 0 ≤ len) :
    ∃ n, LiveLayers actual outer ip last p q ∧ packetEnd live.toPacket = .ok n ∧
      packetEnd actual.toPacket = .ok n ∧ ∀ i < n, actual.buffer i = live.buffer i := by
  obtain ⟨n, hc⟩ := packetCopy_copyOf hok
  obtain ⟨m, hend, hsize⟩ := hl.ends
  obtain rfl := Except.ok.inj (hend.symm.trans hc.ends)
  have hinside := hl.inside hlen hpos hend
  have hbehind := hl.behind
  have htable := hc.tables _ hl.table
  have hpointers := hc.pointers
  simp only [FullPacket.pointers, List.cons.injEq] at hpointers
  obtain ⟨h4, h6, htcp, hudp, hicmp4, hicmp6, -⟩ := hpointers
  have htransports : actual.transports = live.transports := by
    rw [Packet.transports, Packet.transports, htcp, hudp, hicmp4, hicmp6]
  have hfront : ∀ i < p, actual.buffer i = live.buffer i := fun i hi => hc.bytes i (by omega)
  refine ⟨m, hl.toLiveLayers.congr htable ⟨h4, h6⟩ htransports (packetCopy_echoedHeader hok) hfront
    fun ht => ?_, hend, ?_, hc.bytes⟩
  · have hdoff := hl.doff ht
    have hbytes : TCP_BYTES = 20 := rfl
    rw [if_pos ht] at hinside
    exact hc.bytes _ (by omega)
  · obtain ⟨start, hstart, -⟩ := hl.start
    have hsame : packetStart actual.toPacket = packetStart live.toPacket := by
      rw [packetStart, packetStart, htable.entries, hl.table.entries]
    have hbytes : PACKET_READ_BYTES = 65536 := rfl
    rw [packetEnd, hstart] at hend
    have hsum : start + live.ipBytes = m := Except.ok.inj hend
    rw [packetEnd, hsame, hstart, hc.ipBytes, Nat.mod_eq_of_lt (by omega)]
    exact congrArg Except.ok hsum

end Copy

/-! ## The timestamps -/

section Timestamps

variable {hashKey : UInt32 → UInt32} {socket : Socket} {actual script : FullPacket}
  {lastActual lastScript : Option Nat} {b : Memory} {e r o o' p i : Nat} {options : List Nat}

/-- The value of a timestamp that is found is rewritten. -/
theorem mapTimestamps_ok : ∃ socket' b, mapTimestamps hashKey socket
    (actual.withTimestamp lastActual) (script.withTimestamp lastScript) =
      .ok ⟨socket', { actual.withTimestamp lastActual with buffer := b },
        script.withTimestamp lastScript⟩ ∧
    ∀ i, (∀ o, lastActual = some o → i < o + 2 ∨ o + 6 ≤ i) → b i = actual.buffer i := by
  unfold mapTimestamps
  cases lastScript with
  | none =>
    rw [if_neg (by simp [FullPacket.withTimestamp, foundAt])]
    exact ⟨socket, actual.buffer, rfl, fun i _ => rfl⟩
  | some s =>
    cases lastActual with
    | none =>
      rw [if_neg (by simp [FullPacket.withTimestamp, foundAt])]
      exact ⟨socket, actual.buffer, rfl, fun i _ => rfl⟩
    | some a =>
      rw [if_pos (by simp [FullPacket.withTimestamp, foundAt])]
      refine ⟨_, _, rfl, fun i hi => ?_⟩
      exact writeBytes_outside (hi a rfl)

/-- The kind and the length of an option are not part of a timestamp's value, nor is the rest of an
option of another kind. -/
theorem Tiles.outsideTsVal (h : Tiles b e p options r) (ho : o ∈ options)
    (hkind : u8At b o = TCPOPT_TIMESTAMP) (ho' : o' ∈ options)
    (hi : i < wireLength b o') (hother : i < 2 ∨ u8At b o' ≠ TCPOPT_TIMESTAMP) :
    o' + i < o + 2 ∨ o + 6 ≤ o' + i := by
  have hwire := wireLength_of_timestamp (h.mem ho).1 hkind
  have hten : TCPOLEN_TIMESTAMP = 10 := rfl
  rcases h.apart ho ho' with rfl | hle | hle
  · rcases hother with hi | hne
    · omega
    · exact absurd hkind hne
  · omega
  · omega

end Timestamps

/-! ## The call -/

section Call

variable {hashKey : UInt32 → UInt32} {heap : Memory} {socket : Socket}
  {live actual script : FullPacket} {mapping : OutboundMapping} {outer : List Header}
  {ip last : Header} {p q n : Nat} {len : Int}

theorem AddressFamily.srcOffset_le (family : AddressFamily) :
    family.srcOffset ≤ family.headerBytes := by
  cases family <;> decide

/-- What a call that returns has left. -/
theorem mapOutboundLivePacket_mapping (hl : LiveShape live outer ip last p q)
    (hcopy : packetCopy heap live = .ok actual) (hlen : packetPayloadLen live.toPacket = .ok len)
    (hpos : 0 ≤ len) (hok : mapOutboundLivePacket hashKey socket live actual script = .ok mapping) :
    ∃ n, packetEnd live.toPacket = .ok n ∧ Mapping live script mapping outer ip last p q n := by
  obtain ⟨n, hcopied, hend, hendActual, hbytes⟩ := hl.copied hcopy hlen hpos
  have hinside := hl.inside hlen hpos hend
  have hbehind := hl.behind
  have hoffset := ip.type.ipFamily.srcOffset_le
  refine ⟨n, hend, ?_⟩
  unfold mapOutboundLivePacket at hok
  obtain ⟨_, -, hok⟩ := bind_eq_ok_iff.mp hok
  obtain ⟨mapped, hset, hok⟩ := bind_eq_ok_iff.mp hok
  obtain ⟨b, hb, hfront, hrest⟩ := hcopied.setPacketTuple (socketGetOutbound socket.script)
  rw [hb] at hset
  obtain rfl := Except.ok.inj hset
  have htable := hcopied.table
  by_cases hnone : live.tcp = none
  · rw [if_pos hnone] at hok
    obtain rfl := pure_eq_ok_iff.mp hok
    have hnotTcp : last.type ≠ .tcp := by
      intro ht
      rw [hl.tcp, if_pos ht] at hnone
      cases hnone
    refine ⟨hcopied.congr ⟨htable.le, htable.entries, htable.used⟩ ⟨rfl, rfl⟩ rfl rfl
      (fun i hi => hfront i (by omega)) (fun ht => absurd ht hnotTcp), hendActual, hinside,
      fun i hi => (hfront i hi).trans (hbytes i (by omega)),
      fun ht i hle hlt _ => (hrest ht i hle).trans (hbytes i hlt), rfl, fun ht => absurd ht hnotTcp⟩
  · have ht : last.type = .tcp := by
      rw [hl.tcp] at hnone
      by_contra ht
      exact hnone (if_neg ht)
    rw [if_neg hnone] at hok
    obtain ⟨script', hscript, hok⟩ := bind_eq_ok_iff.mp hok
    obtain ⟨actual', hactual, hok⟩ := bind_eq_ok_iff.mp hok
    obtain ⟨tcp', options', hareaScript, rfl⟩ := findTcpTimestamp_eq_ok_iff.mp hscript
    obtain ⟨tcp, options, harea, rfl⟩ := findTcpTimestamp_eq_ok_iff.mp hactual
    obtain ⟨socket', b', hmap, hts⟩ := @mapTimestamps_ok hashKey socket
      { actual with buffer := b } script (lastTimestamp b options)
      (lastTimestamp script.buffer options')
    obtain rfl := Except.ok.inj (hmap.symm.trans hok)
    obtain rfl : q = tcp :=
      Option.some.inj ((if_pos ht).symm.trans (hcopied.tcp.symm.trans harea.header))
    have hdoff := hl.doff ht
    have hsize : TCP_BYTES = 20 := rfl
    have hcovered := hinside
    rw [if_pos ht] at hcovered
    have hsame : ∀ i, q + 12 ≤ i → i < n → live.buffer i = b i := fun i hle hlt =>
      ((hrest (.inl ht) i (by omega)).trans (hbytes i hlt)).symm
    have hdoffSame : Tcp.doff live.buffer q = Tcp.doff b q :=
      congrArg (fun x : UInt8 => x.toNat / 16) (hsame _ le_rfl (by omega))
    have hareaLive : OptionsAt live.toPacket q options := by
      refine harea.same ?_ fun i hle hlt => hsame i hle ?_
      · rw [hl.tcp, if_pos ht]
        exact harea.header.symm
      · exact (hdoffSame.symm ▸ hlt : i < q + Tcp.doff live.buffer q * 4).trans_le hcovered
    have hlast : lastTimestamp live.buffer options = lastTimestamp b options := by
      refine lastTimestamp_congr fun o ho => ?_
      have hmem := hareaLive.tiles.mem ho
      exact hsame o (by omega) (by omega)
    -- the value of a timestamp is in the options
    have hbefore : ∀ i < q + TCP_BYTES, b' i = b i := fun i hi => hts i fun o ho => by
      have hle := (harea.last ho).2.1
      omega
    refine ⟨hcopied.congr ⟨htable.le, htable.entries, htable.used⟩ ⟨rfl, rfl⟩ rfl rfl
      (fun i hi => ?_) (fun _ => ?_), hendActual, hinside, fun i hi => ?_,
      fun _ i hle hlt hno => ?_, rfl,
      fun _ => ⟨options, tcp', options', hareaLive, ?_, hareaScript, ?_, rfl⟩⟩
    · exact (hbefore i (by omega)).trans (hfront i (by omega))
    · exact (hbefore _ (by omega)).trans (hrest (.inl ht) _ (by omega))
    · exact (hbefore i (by omega)).trans ((hfront i hi).trans (hbytes i (by omega)))
    · refine Eq.trans (hts i fun o ho => ?_) ((hrest (.inl ht) i hle).trans (hbytes i hlt))
      by_contra hin
      exact hno ⟨q, options, o, hareaLive, hlast.trans ho, by omega, by omega⟩
    · refine harea.congr rfl (hbefore _ (by omega)) fun o ho i hi hlt => hts _ fun o' ho' => ?_
      obtain ⟨hmem', -, -⟩ := harea.last ho'
      have hkind : u8At b o' = TCPOPT_TIMESTAMP := by simpa using List.find?_some ho'
      exact harea.tiles.outsideTsVal hmem' hkind ho hlt (.inl hi)
    · rw [hlast]
      rfl

theorem isEqualIp_self {a : IpAddress} : isEqualIp a a = true := by
  simp [isEqualIp]

/-- And on well-formed options it returns. -/
theorem mapOutboundLivePacket_ok (hl : LiveShape live outer ip last p q)
    (hcopy : packetCopy heap live = .ok actual) (hlen : packetPayloadLen live.toPacket = .ok len)
    (hpos : 0 ≤ len) (htuple : getPacketTuple live.toPacket = .ok (socketGetOutbound socket.live))
    (hformed : live.tcp ≠ none → (∃ tcp options, OptionsAt live.toPacket tcp options) ∧
      ∃ tcp options, OptionsAt script.toPacket tcp options) :
    ∃ mapping, mapOutboundLivePacket hashKey socket live actual script = .ok mapping := by
  obtain ⟨n, hcopied, hend, hendActual, hbytes⟩ := hl.copied hcopy hlen hpos
  have hinside := hl.inside hlen hpos hend
  obtain ⟨b, hb, -, hrest⟩ := hcopied.setPacketTuple (socketGetOutbound socket.script)
  have hassert : assertOutbound socket live = .ok () := by
    unfold assertOutbound
    rw [htuple, ofFault, halting, bind_of_ok rfl]
    dsimp only
    split
    · rw [require_ok ⟨isEqualIp_self, isEqualIp_self⟩]
      rfl
    · rw [require_ok rfl]
      rfl
  unfold mapOutboundLivePacket
  rw [bind_of_ok hassert, hb, ofFault, halting, bind_of_ok rfl]
  by_cases hnone : live.tcp = none
  · rw [if_pos hnone]
    exact ⟨_, rfl⟩
  · obtain ⟨⟨tcp, options, hlive⟩, tcp', options', hscript⟩ := hformed hnone
    have ht : last.type = .tcp := by
      rw [hl.tcp] at hnone
      by_contra ht
      exact hnone (if_neg ht)
    rw [if_pos ht] at hinside
    have htcp := hl.tcp
    rw [if_pos ht] at htcp
    obtain rfl := Option.some.inj (htcp.symm.trans hlive.header)
    have hactual : OptionsAt ({ actual with buffer := b } : FullPacket).toPacket q options := by
      refine hlive.same ?_ fun i hle hlt => ?_
      · exact hcopied.tcp.trans (by rw [htcp, if_pos ht])
      · exact (hrest (.inl ht) i (by omega)).trans (hbytes i (by omega))
    rw [if_neg hnone, bind_of_ok (findTcpTimestamp_of_options hscript),
      bind_of_ok (findTcpTimestamp_of_options hactual)]
    obtain ⟨socket', b', hmap, -⟩ := @mapTimestamps_ok hashKey socket
      { actual with buffer := b } script (lastTimestamp b options)
      (lastTimestamp script.buffer options')
    exact ⟨_, hmap⟩

end Call

end QoSMos
