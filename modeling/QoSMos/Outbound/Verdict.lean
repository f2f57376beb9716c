import QoSMos.Outbound.Agree
import QoSMos.Outbound.Mapping
import QoSMos.Outbound.ScriptLayers
import QoSMos.Outbound.VerifyPacket

/-!
# What `STATUS_OK` says about an outbound packet

The comparison is made with a copy of the live packet that has the addresses, the ports and the
timestamp of the script. What it has found in the copy holds of the live packet, as nothing else
was mapped.
-/

namespace QoSMos

open Returns

/-- What a packet that got `STATUS_OK` has in common with that of the script. -/
structure VerdictSound (live script : FullPacket) : Prop where
  headers : List.Forall₂ (HeaderAgrees live script) (usedHeaders live.toPacket)
    (usedHeaders script.toPacket)
  /-- The options are the same but for timestamps. -/
  options : script.tcp ≠ none → script.flags &&& FLAG_OPTIONS_NOCHECK = 0 →
    ∃ tcp options tcp' options', OptionsAt live.toPacket tcp options ∧
      OptionsAt script.toPacket tcp' options' ∧
      List.Forall₂ (SameOption live.buffer script.buffer) options options'
  payload : ∃ a s len, packetPayload live.toPacket = .ok a ∧ packetPayload script.toPacket = .ok s ∧
    packetPayloadLen live.toPacket = .ok (len : Nat) ∧
    packetPayloadLen script.toPacket = .ok (len : Nat) ∧
    readBytes live.buffer a len = readBytes script.buffer s len

/-- The packets that `verify_outbound_live_packet` is called with: the live one was sent by the
socket, and as much as the script has was sent. -/
structure Compared (socket : Socket) (script live : FullPacket) : Prop where
  isScript : TransportScript script
  isLive : LivePacket live
  outbound : getPacketTuple live.toPacket = .ok (socketGetOutbound socket.live)
  sameLen : packetPayloadLen live.toPacket = packetPayloadLen script.toPacket

/-! ## Headers -/

section Headers

variable {live script actual : FullPacket} {mapping : OutboundMapping}
  {outer outer' hs gs : List Header} {ip last ip' last' h g : Header} {p q p' q' n r layer : Nat}

theorem Layers.exists_ptr {packet : Packet} (hl : Layers packet outer ip last p q)
    (hh : h ∈ outer ++ [ip, last]) : ∃ r, h.ptr = some r := by
  simp only [List.mem_append, List.mem_cons, List.not_mem_nil, or_false] at hh
  rcases hh with hh | rfl | rfl
  · exact (hl.carriers h hh).ptr
  · exact ⟨p, hl.ipPtr⟩
  · exact ⟨q, hl.lastPtr⟩

/-- Only the last header is a transport header. -/
theorem Layers.eq_last {packet : Packet} (hl : Layers packet outer ip last p q)
    (hh : h ∈ outer ++ [ip, last]) (ht : h.type.isTransport = true) : h = last := by
  simp only [List.mem_append, List.mem_cons, List.not_mem_nil, or_false] at hh
  rcases hh with hh | rfl | rfl
  · rcases (hl.carriers h hh).kind with hk | hk | hk | hk <;> rw [hk] at ht <;> cases ht
  · rw [isTransport_of_isIp hl.isIp] at ht
    cases ht
  · rfl

theorem LiveLayers.uncheckedBytes_bound (hl : LiveLayers actual outer ip last p q) :
    0 ≤ uncheckedBytes actual script ∧ uncheckedBytes actual script ≤ 40 := by
  have hsize : TCP_BYTES = 20 := rfl
  unfold uncheckedBytes
  rw [hl.tcp]
  split_ifs with hchecked ht
  · have hdoff := hl.doff ht
    have hbyte := u8At_lt actual.buffer (q + 12)
    have hlt : Tcp.doff actual.buffer q < 16 := by
      unfold Tcp.doff
      omega
    dsimp only
    omega
  · exact ⟨le_rfl, by simp⟩
  · exact ⟨le_rfl, by simp⟩

/-- The value of a timestamp is behind the fixed part of a TCP header. -/
theorem LiveLayers.tcp_of_isTsVal (hl : LiveLayers live outer ip last p q) (hi : IsTsVal live r) :
    last.type = .tcp ∧ q + TCP_BYTES ≤ r := by
  obtain ⟨tcp, options, o, harea, ho, hle, -⟩ := hi
  have htcp := hl.tcp.symm.trans harea.header
  split_ifs at htcp with ht
  obtain rfl := Option.some.inj htcp
  have hbehind := (harea.last ho).2.1
  exact ⟨ht, by omega⟩

/-- No field that is compared was mapped. -/
theorem Mapping.compared (hm : Mapping live script mapping outer ip last p q n)
    (hl : LiveLayers live outer ip last p q) (hh : h ∈ outer ++ [ip, last]) (hr : h.ptr = some r) :
    ∀ i, h.type.Compares i → live.buffer (r + i) = mapping.actual.buffer (r + i) := by
  intro i hi
  have hoffset := ip.type.ipFamily.srcOffset_le
  simp only [List.mem_append, List.mem_cons, List.not_mem_nil, or_false] at hh
  rcases hh with hh | rfl | rfl
  · have hfits := hl.front h hh r hr
    refine (hm.front (r + i) ?_).symm
    have hlt : i < h.type.comparedBytes := by
      rcases (hl.carriers h hh).kind with ht | ht | ht | ht <;> rw [ht] at hi ⊢
      · exact hi
      · exact hi
      · exact hi.elim
      · exact hi.elim
    omega
  · obtain rfl := Option.some.inj (hl.ipPtr.symm.trans hr)
    refine (hm.front (p + i) (Nat.add_lt_add_left ?_ p)).symm
    rcases hl.ip_cases with ht | ht <;> rw [ht] at hi ⊢
    · exact hi
    · exact hi
  · obtain rfl := Option.some.inj (hl.lastPtr.symm.trans hr)
    have hinside := hm.inside
    have hsize : TCP_BYTES = 20 ∧ UDP_BYTES = 8 := ⟨rfl, rfl⟩
    rcases hl.last_cases with ht | ht | ht | ht
    · have hdoff := hl.doff ht
      rw [if_pos ht] at hinside
      rw [ht] at hi
      refine (hm.behind (.inl ht) (q + i) (Nat.add_le_add_left hi.1 q) ?_ fun hts => ?_).symm
      · have hlt : i < TCP_BYTES := hi.2
        omega
      · exact absurd (hl.tcp_of_isTsVal hts).2 (not_le.mpr (Nat.add_lt_add_left hi.2 q))
    · rw [if_neg (by simp [ht])] at hinside
      rw [ht] at hi
      refine (hm.behind (.inr ht) (q + i) (Nat.add_le_add_left hi.1 q) ?_ fun hts => ?_).symm
      · have hlt : i < UDP_BYTES := hi.2
        omega
      · rw [(hl.tcp_of_isTsVal hts).1] at ht
        cases ht
    · rw [ht] at hi
      exact hi.elim
    · rw [ht] at hi
      exact hi.elim

theorem Mapping.doff_eq (hm : Mapping live script mapping outer ip last p q n)
    (hl : LiveLayers live outer ip last p q) (ht : last.type = .tcp) :
    Tcp.doff mapping.actual.buffer q = Tcp.doff live.buffer q := by
  have hbyte := hm.compared hl (by simp) hl.lastPtr 12 (by rw [ht]; exact ⟨by decide, by decide⟩)
  exact congrArg (fun x : UInt8 => x.toNat / 16) hbyte.symm

/-- The packets have the same options that are not compared. -/
theorem Mapping.uncheckedBytes_eq (hm : Mapping live script mapping outer ip last p q n)
    (hl : LiveLayers live outer ip last p q) :
    uncheckedBytes mapping.actual script = uncheckedBytes live script := by
  unfold uncheckedBytes
  rw [hm.layers.tcp, hl.tcp]
  by_cases ht : last.type = .tcp
  · simp only [if_pos ht, hm.doff_eq hl ht]
  · simp only [if_neg ht]

theorem Mapping.packetPayload_eq (hm : Mapping live script mapping outer ip last p q n)
    (hl : LiveLayers live outer ip last p q) :
    packetPayload mapping.actual.toPacket = packetPayload live.toPacket := by
  rw [hm.layers.packetPayload, hl.packetPayload]
  split_ifs with ht
  · rw [hm.doff_eq hl ht]
  · rfl

theorem Mapping.packetPayloadLen_eq (hm : Mapping live script mapping outer ip last p q n)
    (hl : LiveLayers live outer ip last p q) (hend : packetEnd live.toPacket = .ok n) :
    packetPayloadLen mapping.actual.toPacket = packetPayloadLen live.toPacket := by
  rw [packetPayloadLen, packetPayloadLen, hm.ends, hend, hm.packetPayload_eq hl]

/-- The headers that were compared agree. -/
theorem Mapping.headersAgree (hm : Mapping live script mapping outer ip last p q n)
    (hl : LiveLayers live outer ip last p q) (hs : ScriptShape script outer' ip' last' p' q')
    (hok : verifyOutboundLiveHeaders mapping.actual mapping.script true = .ok ()) :
    List.Forall₂ (HeaderAgrees live script) (outer ++ [ip, last]) (outer' ++ [ip', last']) := by
  have htable : Table mapping.script.toPacket (outer' ++ [ip', last']) := by
    rw [hm.scriptKept]
    exact hs.table
  obtain ⟨hlen, hheaders⟩ := verifyOutboundLiveHeaders_ok hm.layers.table htable hok
  refine List.forall₂_iff_get.mpr ⟨hlen, fun i hi hi' => ?_⟩
  have hheader := hheaders i hi'
  rw [hm.scriptKept, verifyHeader_timestamps] at hheader
  have hactual := hm.layers.table.headerAt hi
  have hscript := hs.table.headerAt hi'
  have htypes := (verifyHeader_ok hheader).1
  have hmem : (outer ++ [ip, last])[i] ∈ outer ++ [ip, last] := List.getElem_mem hi
  have hmem' : (outer' ++ [ip', last'])[i] ∈ outer' ++ [ip', last'] := List.getElem_mem hi'
  obtain ⟨a, ha⟩ := hl.exists_ptr hmem
  obtain ⟨s, hs'⟩ := hs.exists_ptr hmem'
  rw [List.get_eq_getElem, List.get_eq_getElem]
  have hagree := fieldsAgree_of_ok (hactual ▸ ha) (hscript ▸ hs') hm.layers.uncheckedBytes_bound
    (fun htcp => ?_) hheader
  · rw [hactual, hscript] at htypes
    rw [hscript, hm.uncheckedBytes_eq hl] at hagree
    refine ⟨htypes, a, s, ha, hs', hagree.congr fun j hj => ?_⟩
    exact hm.compared hl hmem ha j (htypes ▸ hj)
  · rw [← htypes, hactual] at htcp
    have hlast := hl.eq_last hmem (htcp ▸ rfl)
    rw [hlast] at ha htcp
    obtain rfl := Option.some.inj (hl.lastPtr.symm.trans ha)
    exact ⟨by rw [hm.layers.tcp, if_pos htcp], hm.layers.doff htcp⟩

end Headers

/-! ## Options and payload -/

section Contents

variable {live script : FullPacket} {mapping : OutboundMapping} {config : OptionConfig}
  {outer outer' : List Header} {ip last ip' last' : Header} {p q p' q' n tcp o i : Nat}
  {options : List Nat}

/-- An option has no byte of the timestamp that was mapped, unless it is one. -/
theorem OptionsAt.not_isTsVal (h : OptionsAt live.toPacket tcp options) (ho : o ∈ options)
    (hi : i < wireLength live.buffer o) (hother : i < 2 ∨ u8At live.buffer o ≠ TCPOPT_TIMESTAMP) :
    ¬ IsTsVal live (o + i) := by
  rintro ⟨tcp', options', o', h', ho', hle, hlt⟩
  obtain rfl := Option.some.inj (h.header.symm.trans h'.header)
  obtain rfl := h.tiles.unique rfl h'.tiles
  have hkind : u8At live.buffer o' = TCPOPT_TIMESTAMP := by simpa using List.find?_some ho'
  have houtside := h.tiles.outsideTsVal (h'.last ho').1 hkind ho hi hother
  omega

theorem Mapping.option_byte (hm : Mapping live script mapping outer ip last p q n)
    (ht : last.type = .tcp) (hlive : OptionsAt live.toPacket q options) (ho : o ∈ options)
    (hi : i < wireLength live.buffer o) (hother : i < 2 ∨ u8At live.buffer o ≠ TCPOPT_TIMESTAMP) :
    mapping.actual.buffer (o + i) = live.buffer (o + i) := by
  have hinside := hm.inside
  rw [if_pos ht] at hinside
  have hsize : TCP_BYTES = 20 := rfl
  obtain ⟨-, hle, -, hend⟩ := hlive.tiles.mem ho
  exact hm.behind (.inl ht) (o + i) (by omega) (by omega) (hlive.not_isTsVal ho hi hother)

theorem Mapping.option_kind (hm : Mapping live script mapping outer ip last p q n)
    (ht : last.type = .tcp) (hlive : OptionsAt live.toPacket q options) (ho : o ∈ options) :
    u8At mapping.actual.buffer o = u8At live.buffer o :=
  have hpos := wireLength_pos (hlive.tiles.mem ho).1
  u8At_transfer (hm.option_byte ht hlive ho hpos (.inl (by omega)))

/-- The options that were compared are the same but for timestamps. -/
theorem Mapping.optionsAgree (hm : Mapping live script mapping outer ip last p q n)
    (ht : last.type = .tcp) (hchecked : script.flags &&& FLAG_OPTIONS_NOCHECK = 0)
    (hok : verifyOutboundLiveTcpOptions config mapping.actual mapping.script = .ok ()) :
    ∃ tcp options tcp' options', OptionsAt live.toPacket tcp options ∧
      OptionsAt script.toPacket tcp' options' ∧
      List.Forall₂ (SameOption live.buffer script.buffer) options options' := by
  obtain ⟨options, tcp', options', hlive, hactual, hscript, -, -⟩ := hm.stamped ht
  refine ⟨q, options, tcp', options', hlive, hscript, ?_⟩
  have hbuffer : mapping.script.buffer = script.buffer := by rw [hm.scriptKept]
  have hcompare : compareOptions config mapping.actual mapping.script options options' =
      .ok () := by
    rw [← verifyOutboundLiveTcpOptions_eq (by rw [hm.scriptKept]; exact hchecked) hactual
      (by rw [hm.scriptKept]; exact hscript)]
    exact hok
  have hsame := compareOptions_ok hactual.tiles hcompare
  rw [hbuffer] at hsame
  obtain ⟨hlength, hpairs⟩ := List.forall₂_iff_zip.mp hsame
  refine List.forall₂_iff_zip.mpr ⟨hlength, fun {o o'} hmem => ?_⟩
  obtain ⟨hkind, hbytes⟩ := hpairs hmem
  have ho := (List.of_mem_zip hmem).1
  have hformed := (hlive.tiles.mem ho).1
  obtain ⟨-, hwire⟩ := formed_congr hformed fun i hi hlt => hm.option_byte ht hlive ho hlt (.inl hi)
  rw [hm.option_kind ht hlive ho] at hkind hbytes
  refine ⟨hkind, fun hne => ?_⟩
  rw [← hbytes hne, hwire]
  exact readBytes_congr fun i hi => (hm.option_byte ht hlive ho hi (.inr hne)).symm

/-- No byte of the payload is part of a timestamp. -/
theorem LiveLayers.not_isTsVal (hl : LiveLayers live outer ip last p q)
    (hi : q + (if last.type = .tcp then Tcp.doff live.buffer q * 4 else UDP_BYTES) ≤ i) :
    ¬ IsTsVal live i := by
  intro hts
  obtain ⟨ht, -⟩ := hl.tcp_of_isTsVal hts
  obtain ⟨tcp, options, o, harea, ho, -, hlt⟩ := hts
  rw [if_pos ht] at hi
  have htcp := hl.tcp
  rw [if_pos ht] at htcp
  obtain rfl := Option.some.inj (htcp.symm.trans harea.header)
  have hend := (harea.last ho).2.2
  omega

/-- The payloads that were compared are the same. -/
theorem Mapping.payloadAgrees (hm : Mapping live script mapping outer ip last p q n)
    (hl : LiveLayers live outer ip last p q) (hend : packetEnd live.toPacket = .ok n)
    (hs : ScriptShape script outer' ip' last' p' q') (ht : last.type = .tcp ∨ last.type = .udp)
    (hlens : packetPayloadLen live.toPacket = packetPayloadLen script.toPacket)
    (hok : verifyOutboundLivePayload mapping.actual mapping.script = .ok ()) :
    ∃ a s len, packetPayload live.toPacket = .ok a ∧ packetPayload script.toPacket = .ok s ∧
      packetPayloadLen live.toPacket = .ok (len : Nat) ∧
      packetPayloadLen script.toPacket = .ok (len : Nat) ∧
      readBytes live.buffer a len = readBytes script.buffer s len := by
  obtain ⟨len, hlen, hpos⟩ := hs.payloadLen
  obtain ⟨len, rfl⟩ := Int.eq_ofNat_of_zero_le hpos
  have hscript : mapping.script.toPacket = script.toPacket := by rw [hm.scriptKept]
  have hinside := hm.inside
  have hpayload := hl.packetPayload
  have hlive := hlens.trans hlen
  have hsum := hlive
  rw [packetPayloadLen, hend, hpayload] at hsum
  have hsum := Except.ok.inj hsum
  refine ⟨_, _, len, hpayload, hs.packetPayload, hlive, hlen, ?_⟩
  unfold verifyOutboundLivePayload at hok
  rw [hscript, hm.packetPayloadLen_eq hl hend, hm.packetPayload_eq hl, hlive, hlen, hpayload,
    hs.packetPayload] at hok
  simp only [ofFault, halting, bind_of_ok rfl, require_ok, if_neg (not_lt.mpr hpos),
    Int.toNat_natCast] at hok
  have hsame := check_eq_ok_iff.mp hok
  rw [hsame]
  refine readBytes_congr fun i hi => (hm.behind ht _ ?_ ?_ ?_).symm
  · have hsize : TCP_BYTES = 20 ∧ UDP_BYTES = 8 := ⟨rfl, rfl⟩
    split_ifs with ht
    · have hdoff := hl.doff ht
      omega
    · omega
  · omega
  · exact hl.not_isTsVal (Nat.le_add_right _ _)

end Contents

/-! ## The verdict -/

section Verdicts

variable {printing : Printing} {hashKey : UInt32 → UInt32} {heap : Memory} {state : VerifyState}
  {socket : Socket} {flowlabelMap flowlabelMap' : FlowlabelMap} {script live actual : FullPacket}
  {verdict : Verdict} {status : PacketStatus} {error : Option String}

theorem reportVerdict_status (hok : reportVerdict printing state live actual script socket
    flowlabelMap status error = .ok verdict) : verdict.status = status := by
  unfold reportVerdict at hok
  obtain ⟨_, -, hok⟩ := bind_eq_ok_iff.mp hok
  obtain ⟨_, -, hok⟩ := bind_eq_ok_iff.mp hok
  obtain rfl := pure_eq_ok_iff.mp hok
  rfl

/-- A packet gets `STATUS_OK` only at the end of all comparisons. -/
theorem compared_of_ok (hok : verifyOutboundLivePacket printing hashKey heap state socket
    flowlabelMap script live = .ok verdict) (hstatus : verdict.status = .ok) :
    ∃ actual mapping, packetCopy heap live = .ok actual ∧
      mapOutboundLivePacket hashKey socket live actual script = .ok mapping ∧
      (compareMapped printing state flowlabelMap live mapping.actual mapping.script).1 =
        .ok () := by
  unfold verifyOutboundLivePacket at hok
  obtain ⟨actual, hcopy, hok⟩ := bind_eq_ok_iff.mp hok
  cases hchecksums : verifyOutboundLiveChecksums live with
  | error failure =>
    rw [hchecksums] at hok
    cases failure with
    | halt halt => cases hok
    | error message =>
      rw [reportVerdict_status hok] at hstatus
      cases hstatus
  | ok u =>
    rw [hchecksums] at hok
    cases hmap : mapOutboundLivePacket hashKey socket live actual script with
    | error failure =>
      rw [hmap] at hok
      cases failure with
      | halt halt => cases hok
      | error message =>
        obtain ⟨_, -, hok⟩ := bind_eq_ok_iff.mp hok
        rw [reportVerdict_status hok] at hstatus
        cases hstatus
    | ok mapping =>
      refine ⟨actual, mapping, hcopy, hmap, ?_⟩
      rw [hmap] at hok
      dsimp only at hok
      cases hcompare : compareMapped printing state flowlabelMap live mapping.actual
        mapping.script with
      | mk result labels =>
        rw [hcompare] at hok
        cases result with
        | ok u => rfl
        | error failure =>
          cases failure with
          | halt halt => cases hok
          | error message =>
            rw [reportVerdict_status hok] at hstatus
            split at hstatus <;> cases hstatus

/-- The comparisons that a packet has passed. -/
theorem compareMapped_ok
    (hok : (compareMapped printing state flowlabelMap live actual script).1 = .ok ()) :
    verifyOutboundLiveHeaders actual script true = .ok () ∧
      (script.tcp ≠ none →
        verifyOutboundLiveTcpOptions state.config.toOptionConfig actual script = .ok ()) ∧
      (actual.icmpv4 = none → actual.icmpv6 = none →
        verifyOutboundLivePayload actual script = .ok ()) := by
  unfold compareMapped at hok
  cases hheaders : verifyOutboundLiveHeaders actual script true with
  | error failure =>
    rw [hheaders] at hok
    cases hok
  | ok u =>
    rw [hheaders] at hok
    dsimp only at hok
    obtain ⟨_, -, hok⟩ := bind_eq_ok_iff.mp hok
    refine ⟨rfl, fun htcp => ?_, fun h4 h6 => ?_⟩
    · rw [if_pos htcp] at hok
      obtain ⟨_, hoptions, -⟩ := bind_eq_ok_iff.mp hok
      exact hoptions
    · rw [if_pos (And.intro h4 h6)] at hok
      split at hok
      · obtain ⟨_, -, hok⟩ := bind_eq_ok_iff.mp hok
        exact (bind_eq_ok_iff.mp hok).choose_spec.1
      · exact (bind_eq_ok_iff.mp hok).choose_spec.1

/-- The transport headers of packets that were compared have the same type. -/
theorem last_type_of_types {outer outer' : List Header} {ip last ip' last' : Header}
    (h : (outer ++ [ip, last]).map Header.type = (outer' ++ [ip', last']).map Header.type) :
    ip.type = ip'.type ∧ last.type = last'.type := by
  rw [List.map_append, List.map_append] at h
  have hpair := (List.append_inj' h rfl).2
  simpa using hpair

/-- What `STATUS_OK` says of the two packets. -/
theorem Compared.sound (h : Compared socket script live)
    (hok : verifyOutboundLivePacket printing hashKey heap state socket flowlabelMap script live =
      .ok verdict) (hstatus : verdict.status = .ok) : VerdictSound live script := by
  obtain ⟨outer, ip, last, p, q, hl⟩ := h.isLive.shape
  obtain ⟨outer', ip', last', p', q', hs⟩ := h.isScript.shape
  obtain ⟨len, hlen, hpos⟩ := hs.payloadLen
  obtain ⟨actual, mapping, hcopy, hmap, hcompare⟩ := compared_of_ok hok hstatus
  obtain ⟨n, hend, hm⟩ := mapOutboundLivePacket_mapping hl hcopy (h.sameLen.trans hlen) hpos hmap
  obtain ⟨hheaders, hoptions, hpayload⟩ := compareMapped_ok hcompare
  have hscript : mapping.script.toPacket = script.toPacket := by rw [hm.scriptKept]
  have hlayers := hl.toLiveLayers
  have hlast : last.type = last'.type :=
    (last_type_of_types (verifyOutboundLiveHeaders_types hm.layers.table (hscript ▸ hs.table)
      hheaders)).2
  have htransport : last.type = .tcp ∨ last.type = .udp := hlast ▸ hs.transport
  refine ⟨?_, fun htcp hchecked => ?_, ?_⟩
  · rw [hl.table.usedHeaders_eq, hs.table.usedHeaders_eq]
    exact hm.headersAgree hlayers hs hheaders
  · have ht : last.type = .tcp := by
      rw [hs.tcp] at htcp
      by_contra ht
      exact htcp (if_neg (hlast ▸ ht))
    exact hm.optionsAgree ht hchecked (hoptions (by rw [hscript]; exact htcp))
  · refine hm.payloadAgrees hlayers hend hs htransport h.sameLen (hpayload ?_ ?_)
    · rw [hm.layers.icmpv4]
      exact if_neg (by rcases htransport with ht | ht <;> simp [ht])
    · rw [hm.layers.icmpv6]
      exact if_neg (by rcases htransport with ht | ht <;> simp [ht])

end Verdicts

end QoSMos
