import QoSMos.Lib.LastRun
import QoSMos.Outbound.AggregateLaw
import QoSMos.Outbound.Sniff

/-!
# What the sniffing loop retains

The list that the loop leaves is the last run of the sniffed packets with one tuple. Its packets
follow each other without a gap, and all but the last one have the same payload length.
-/

namespace QoSMos

open Returns LastRun

/-- A TCP packet that the parser accepted. -/
def IsTcpPacket (packet : FullPacket) : Prop :=
  (∃ layer, IsSegment layer packet) ∧ packet.tcp ≠ none

/-- `is_equal_tuple` compares these. -/
def tupleOf (packet : FullPacket) : Except Fault Tuple := getPacketTuple packet.toPacket

/-- The sequence number of a packet is the one behind the payload of the packet before it. -/
def Follows (previous current : FullPacket) : Prop :=
  ∃ q p, previous.tcp = some q ∧ current.tcp = some p ∧
    Tcp.seq current.buffer p = u32 (Tcp.seq previous.buffer q + payloadBytes previous)

/-- The packet is a sniffed one with its sequence numbers in script space. -/
def ConvertedFrom (sniffed packet : FullPacket) : Prop :=
  ∃ socket, tcpConvertSeqNumber socket sniffed = .ok packet

/-- The payloads have one length. -/
def SameLength (packets : List FullPacket) : Prop :=
  ∃ n, ∀ packet ∈ packets, payloadBytes packet = n

/-- What the loop has retained of the sniffed packets if it was left with the expected length. -/
structure Retained (expected : Int) (sniffed : List FullPacket) (s : Sniffing) : Prop where
  run : ∃ kept, IsLastRun tupleOf sniffed kept ∧ List.Forall₂ ConvertedFrom kept s.packets
  nonempty : s.packets ≠ []
  sequence : s.packets.IsChain Follows
  lengths : SameLength s.packets.dropLast
  count : s.packetCount = s.packets.length
  total : payloadSum s.packets = expected

/-! ## Conversion keeps what is compared -/

/-- A packet with the table entries `init` and a TCP header at `tcp`. -/
structure TcpAt (packet : FullPacket) (init : List Header) (top : Header) (tcp : Nat) (len : Int) :
    Prop where
  table : Table packet.toPacket (init ++ [top])
  type : top.type = .tcp
  ptr : top.ptr = some tcp
  tcpEq : packet.tcp = some tcp
  payloadLen : packetPayloadLen packet.toPacket = .ok len

section Packets

variable {packet packet' previous current : FullPacket} {init init' : List Header}
  {top top' : Header} {tcp tcp' : Nat} {len len' : Int} {b : Memory}

theorem TcpAt.payloadBytes_eq (h : TcpAt packet init top tcp len) : payloadBytes packet = len := by
  unfold payloadBytes
  rw [h.payloadLen]

theorem IsTcpPacket.tcpAt (h : IsTcpPacket packet) :
    ∃ init top tcp len, TcpAt packet init top tcp len := by
  obtain ⟨⟨layer, hseg⟩, htcp⟩ := h
  obtain ⟨init, top, hseg⟩ := hseg.segment
  have heq := hseg.tcp
  have htype : top.type = .tcp := by
    by_contra hnot
    rw [if_neg hnot] at heq
    exact htcp heq
  rw [if_pos htype, hseg.ptr] at heq
  exact ⟨init, top, _, _, hseg.table, htype, hseg.ptr, heq, hseg.payloadLen⟩

theorem TcpAt.converted (h : TcpAt packet init top tcp len)
    (hb : ∀ i, i < tcp + 4 ∨ tcp + 12 ≤ i ∧ i < tcp + TCP_BYTES → b i = packet.buffer i) :
    TcpAt { packet with buffer := b } init top tcp len := by
  refine ⟨⟨h.table.le, h.table.entries, h.table.used⟩, h.type, h.ptr, h.tcpEq, ?_⟩
  have hbytes : TCP_BYTES = 20 := rfl
  have hdoff : Tcp.doff b tcp = Tcp.doff packet.buffer tcp := by
    rw [Tcp.doff, Tcp.doff, u8At, u8At, hb (tcp + 12) (by omega)]
  have hpayload : packetPayload ({ packet with buffer := b } : FullPacket).toPacket =
      .ok (tcp + Tcp.doff b tcp * 4) := packetPayload_of_tcp h.tcpEq
  have hend : packetEnd ({ packet with buffer := b } : FullPacket).toPacket =
      packetEnd packet.toPacket := rfl
  rw [← h.payloadLen, packetPayloadLen, packetPayloadLen, hend, hpayload, hdoff,
    packetPayload_of_tcp h.tcpEq]

/-- The primary IP header stands in front of the TCP header. -/
theorem IsTcpPacket.primary_before (h : IsTcpPacket packet) (htcp : packet.tcp = some tcp) :
    (∀ p, packet.ipv4 = some p → p + IPV4_BYTES ≤ tcp) ∧
      ∀ p, packet.ipv6 = some p → p + IPV6_BYTES ≤ tcp := by
  obtain ⟨layer, hissegment⟩ := h.1
  obtain ⟨init, top, hseg⟩ := hissegment.segment
  obtain ⟨⟨bufferBytes, inBytes, s, hsize, hrun, hs⟩, -⟩ := hissegment
  obtain ⟨hs', hstack, hpacket, -⟩ := runParsePacket_ok_stack (le_of_runParsePacket hrun) hrun
  rw [hs] at hpacket
  obtain ⟨r, hpath⟩ := hstack.1
  obtain rfl : hs' = init ++ [top] := by
    have htable := hseg.table
    rw [hpacket] at htable
    exact (startPacket_table _ bufferBytes layer (used_of_path hpath) hstack.2).unique htable
  have hptr : tcp = (layerStart packet.buffer layer).2 + headerSum init := by
    have heq := hseg.tcp
    rw [htcp, hseg.ptr] at heq
    split at heq
    · exact Option.some.inj heq
    · cases heq
  obtain ⟨outer, ip, inner, hsplit, hip, hinner⟩ :=
    exists_innermost (exists_isIp_of_derives hstack.1 (layerStart_ne_done _ layer)
      (layerStart_ne_payload _ layer))
  obtain ⟨e, hstacked⟩ := hseg.stacked
  rw [hsplit] at hstacked
  have hstands := hstacked.of_append.1
  obtain ⟨h4, h6⟩ := primary_afterHeaders (startPacket packet.buffer bufferBytes layer) outer
    ⟨rfl, rfl⟩ hstands.ptr hip hinner
  rw [← hsplit, ← hpacket] at h4 h6
  -- The innermost IP header is not the last header.
  obtain ⟨inner', rfl⟩ : ∃ inner', inner = inner' ++ [top] := by
    rcases List.eq_nil_or_concat' inner with rfl | ⟨inner', last, rfl⟩
    · have htop : top = ip := by
        simpa using (List.append_inj' hsplit rfl).2
      rw [← htop] at hip
      rcases hseg.topType with ht | ht <;> simp [ht, HeaderType.isIp] at hip
    · have hlast : top = last := by
        have hcons : outer ++ ip :: (inner' ++ [last]) = (outer ++ ip :: inner') ++ [last] := by
          simp
        rw [hcons] at hsplit
        simpa using (List.append_inj' hsplit rfl).2
      exact ⟨inner', by rw [hlast]⟩
  have hinit : init = outer ++ ip :: inner' := by
    have hcons : outer ++ ip :: (inner' ++ [top]) = (outer ++ ip :: inner') ++ [top] := by simp
    rw [hcons] at hsplit
    exact (List.append_inj' hsplit rfl).1
  have hshape := hstands.shape
  rw [hinit, headerSum_append, headerSum_cons] at hptr
  constructor
  · intro p hp
    rw [h4] at hp
    split at hp
    · rename_i ht
      simp only [Shape, ht] at hshape
      have := Option.some.inj hp
      omega
    · cases hp
  · intro p hp
    rw [h6] at hp
    split at hp
    · rename_i ht
      simp only [Shape, ht] at hshape
      have := Option.some.inj hp
      omega
    · cases hp

theorem ofFn_bytes_congr {c : Memory} {p n : Nat} (h : ∀ i < n, b (p + i) = c (p + i)) :
    List.ofFn (fun i : Fin n => b (p + i)) = List.ofFn fun i : Fin n => c (p + i) :=
  congrArg List.ofFn (funext fun i => h i i.isLt)

theorem IsTcpPacket.tupleOf_converted (h : IsTcpPacket packet) (htcp : packet.tcp = some tcp)
    (hb : ∀ i < tcp + 4, b i = packet.buffer i) :
    tupleOf { packet with buffer := b } = tupleOf packet := by
  obtain ⟨h4, h6⟩ := h.primary_before htcp
  have hb4 : IPV4_BYTES = 20 := rfl
  have hb6 : IPV6_BYTES = 40 := rfl
  have hports : Ports.src b tcp = Ports.src packet.buffer tcp ∧
      Ports.dst b tcp = Ports.dst packet.buffer tcp :=
    ⟨be16At_transfer (hb _ (by omega)) (hb _ (by omega)),
      be16At_transfer (hb _ (by omega)) (hb _ (by omega))⟩
  have haddr4 (p : Nat) (hp : packet.ipv4 = some p) :
      Ipv4.srcIp b p = Ipv4.srcIp packet.buffer p ∧
        Ipv4.dstIp b p = Ipv4.dstIp packet.buffer p := by
    have := h4 p hp
    unfold Ipv4.srcIp Ipv4.dstIp ipFromIpv4
    exact ⟨by rw [ofFn_bytes_congr fun i hi => hb _ (by omega)],
      by rw [ofFn_bytes_congr fun i hi => hb _ (by omega)]⟩
  have haddr6 (p : Nat) (hp : packet.ipv6 = some p) :
      Ipv6.srcIp b p = Ipv6.srcIp packet.buffer p ∧
        Ipv6.dstIp b p = Ipv6.dstIp packet.buffer p := by
    have := h6 p hp
    unfold Ipv6.srcIp Ipv6.dstIp ipFromIpv6
    exact ⟨by rw [ofFn_bytes_congr fun i hi => hb _ (by omega)],
      by rw [ofFn_bytes_congr fun i hi => hb _ (by omega)]⟩
  simp only [tupleOf, getPacketTuple, htcp, hports]
  cases hv4 : packet.ipv4 with
  | some p => simp only [haddr4 p hv4]
  | none =>
    cases hv6 : packet.ipv6 with
    | some p => simp only [haddr6 p hv6]
    | none => rfl

/-- What a conversion keeps. -/
theorem IsTcpPacket.converted (h : IsTcpPacket packet) (hok : ConvertedFrom packet packet') :
    ∃ init top tcp len, TcpAt packet init top tcp len ∧ TcpAt packet' init top tcp len ∧
      tupleOf packet' = tupleOf packet := by
  obtain ⟨init, top, tcp, len, hat⟩ := h.tcpAt
  obtain ⟨socket, hok⟩ := hok
  obtain ⟨b, rfl, hb⟩ := tcpConvertSeqNumber_spec hat.tcpEq hok
  exact ⟨init, top, tcp, len, hat, hat.converted hb,
    h.tupleOf_converted hat.tcpEq fun i hi => hb i (.inl hi)⟩

/-- Fragments that were compared follow each other. -/
theorem TcpAt.follows (hprevious : TcpAt previous init top tcp len)
    (hcurrent : TcpAt current init' top' tcp' len') {payload sniffed expected : Int}
    (hok : verifyPacketFragments current previous payload sniffed expected = .ok ()) :
    Follows previous current ∧ (payload < expected - sniffed → payload = len) := by
  obtain ⟨hheaders, hlen⟩ := verifyPacketFragments_ok hprevious.payloadLen hok
  refine ⟨⟨tcp, tcp', hprevious.tcpEq, hcurrent.tcpEq, ?_⟩, hlen⟩
  obtain ⟨hlength, hlayers⟩ :=
    verifyOutboundLiveHeaders_ok hcurrent.table hprevious.table hheaders
  have hinit : init'.length = init.length := by simpa using hlength
  have hlt : init.length < (init ++ [top]).length := by simp
  have hheader := hlayers init.length hlt
  have hprev : previous.headerAt init.length = top := by
    rw [hprevious.table.headerAt hlt]
    simp
  have hcur : current.headerAt init.length = top' := by
    rw [hcurrent.table.headerAt (by simp [hinit])]
    simp [← hinit]
  have htcp := (verifyHeader_ok hheader).2 (by rw [hprev, hprevious.type])
  rw [hprevious.payloadBytes_eq]
  exact verifyTcp_seq (by rw [hcur, hcurrent.ptr]) (by rw [hprev, hprevious.ptr])
    hprevious.payloadLen htcp

end Packets

/-! ## A turn -/

section Turn

variable {script sniffed : FullPacket} {expected payload : Int} {s s' : Sniffing} {sniff : Sniff}

/-- The list and the counters after `sniffed` was put into the list. -/
inductive ListTurn (expected payload : Int) (packets : List FullPacket) (count sum : Int)
    (sniffed : FullPacket) : List FullPacket → Int → Int → Prop
  | first : packets = [] → ListTurn expected payload packets count sum sniffed [sniffed] count sum
  | restart (last : FullPacket) : packets.getLast? = some last →
      tupleOf sniffed ≠ tupleOf last →
      ListTurn expected payload packets count sum sniffed [sniffed] 0 0
  | next (last : FullPacket) : packets.getLast? = some last → tupleOf sniffed = tupleOf last →
      verifyPacketFragments sniffed last payload sum expected = .ok () →
      ListTurn expected payload packets count sum sniffed (packets ++ [sniffed]) count sum

theorem ofFault_eq_ok_iff {α : Type} {x : Except Fault α} {a : α} :
    ofFault x = .ok a ↔ x = .ok a := by
  cases x <;> simp [ofFault]

theorem appendSniffed_cases (hok : appendSniffed expected payload s sniffed = .ok s') :
    ListTurn expected payload s.packets s.packetCount s.sniffedPayloadLen sniffed
      s'.packets s'.packetCount s'.sniffedPayloadLen := by
  unfold appendSniffed at hok
  cases hlast : s.packets.getLast? with
  | none =>
    rw [hlast] at hok
    exact Except.ok.inj hok ▸ .first (List.getLast?_eq_none_iff.mp hlast)
  | some last =>
    rw [hlast] at hok
    obtain ⟨oldTuple, hold, hok⟩ := bind_eq_ok_iff.mp hok
    obtain ⟨newTuple, hnew, hok⟩ := bind_eq_ok_iff.mp hok
    have hold : tupleOf last = .ok oldTuple := ofFault_eq_ok_iff.mp (halting_eq_ok_iff.mp hold)
    have hnew : tupleOf sniffed = .ok newTuple := ofFault_eq_ok_iff.mp (halting_eq_ok_iff.mp hnew)
    split at hok
    · rename_i hne
      rw [← pure_eq_ok_iff.mp hok]
      exact .restart last hlast fun h => hne (Except.ok.inj (hold.symm.trans (h.symm.trans hnew)))
    · rename_i heq
      obtain ⟨_, hverify, hok⟩ := bind_eq_ok_iff.mp hok
      rw [← pure_eq_ok_iff.mp hok]
      exact .next last hlast (hnew.trans (not_not.mp heq ▸ hold.symm)) hverify

theorem addInt_eq_ok {function : String} {x y z : Int} (hok : addInt function x y = .ok z) :
    z = x + y := by
  unfold addInt at hok
  split at hok
  · exact (Except.ok.inj hok).symm
  · cases hok

/-- A turn converts the sniffed packet, puts it into the list and adds its payload. -/
theorem sniffTurn_cases (htcp : IsTcpPacket sniff.packet)
    (hok : sniffTurn script expected s sniff = .ok s') :
    ∃ sniffed count sum, ConvertedFrom sniff.packet sniffed ∧
      ListTurn expected (payloadBytes sniff.packet) s.packets s.packetCount s.sniffedPayloadLen
        sniffed s'.packets count sum ∧
      s'.packetCount = count + 1 ∧ s'.sniffedPayloadLen = sum + payloadBytes sniff.packet := by
  obtain ⟨init, top, tcp, len, hat⟩ := htcp.tcpAt
  unfold sniffTurn at hok
  obtain ⟨payload, hpayload, hok⟩ := bind_eq_ok_iff.mp hok
  obtain ⟨socket, -, hok⟩ := bind_eq_ok_iff.mp hok
  obtain ⟨⟨socket', sniffed⟩, hconvert, hok⟩ := bind_eq_ok_iff.mp hok
  obtain ⟨t, happend, hok⟩ := bind_eq_ok_iff.mp hok
  obtain ⟨count, hcount, hok⟩ := bind_eq_ok_iff.mp hok
  obtain ⟨sum, hsum, hend⟩ := bind_eq_ok_iff.mp hok
  obtain rfl : payload = payloadBytes sniff.packet := by
    have := ofFault_eq_ok_iff.mp (halting_eq_ok_iff.mp hpayload)
    rw [hat.payloadLen] at this
    rw [hat.payloadBytes_eq]
    exact (Except.ok.inj this).symm
  have hconverted : ConvertedFrom sniff.packet sniffed := by
    unfold convertLivePacket at hconvert
    rw [hat.tcpEq] at hconvert
    obtain ⟨packet, hpacket, hpair⟩ := bind_eq_ok_iff.mp hconvert
    obtain rfl : packet = sniffed := congrArg Prod.snd (pure_eq_ok_iff.mp hpair)
    exact ⟨_, hpacket⟩
  obtain rfl := Except.ok.inj hend
  exact ⟨sniffed, t.packetCount, t.sniffedPayloadLen, hconverted, appendSniffed_cases happend,
    addInt_eq_ok hcount, addInt_eq_ok hsum⟩

end Turn

/-! ## The loop -/

/-- What the loop has collected of the sniffed packets. -/
structure Collected (sniffed : List FullPacket) (s : Sniffing) : Prop where
  run : ∃ kept, IsLastRun tupleOf sniffed kept ∧ List.Forall₂ ConvertedFrom kept s.packets
  tcp : ∀ packet ∈ sniffed, IsTcpPacket packet
  nonempty : sniffed ≠ [] → s.packets ≠ []
  sequence : s.packets.IsChain Follows
  count : s.packetCount = s.packets.length
  total : s.sniffedPayloadLen = payloadSum s.packets

section Loop

variable {config : SegmentConfig} {script : FullPacket} {expected : Int} {s s' : Sniffing}
  {sniff : Sniff} {sniffed packets : List FullPacket} {packet last : FullPacket}

theorem payloadSum_concat : payloadSum (packets ++ [packet]) =
    payloadSum packets + payloadBytes packet := by
  simp [payloadSum]

/-- The packet at the end of the list was converted from the last packet that was kept. -/
theorem getLast?_of_forall₂ {α β : Type} {R : α → β → Prop} {l : List α} {m : List β} {y : β}
    (h : List.Forall₂ R l m) (hlast : m.getLast? = some y) :
    ∃ x, l.getLast? = some x ∧ R x y := by
  induction h with
  | nil => cases hlast
  | @cons a b l m hab h ih =>
    cases h with
    | nil =>
      obtain rfl : b = y := by simpa using hlast
      exact ⟨a, rfl, hab⟩
    | cons _ _ => simpa using ih (by simpa using hlast)

theorem collected_nil (socket : Socket) : Collected [] ⟨socket, [], 0, 0⟩ :=
  ⟨⟨[], ⟨List.suffix_rfl, by simp [Uniform], fun _ hs _ => hs⟩, .nil⟩, by simp,
    fun h => absurd rfl h,
    .nil, rfl, rfl⟩

/-- A step: the list stays the last run, and its payloads have one length as long as more is
expected. -/
theorem Collected.turn (hs : Collected sniffed s) (hsame : SameLength s.packets)
    (htcp : IsTcpPacket sniff.packet) (hok : sniffTurn script expected s sniff = .ok s') :
    Collected (sniffed ++ [sniff.packet]) s' ∧ SameLength s'.packets.dropLast ∧
      (s'.sniffedPayloadLen < expected → SameLength s'.packets) := by
  obtain ⟨packet, count, sum, hconverted, hturn, hcount, hsum⟩ := sniffTurn_cases htcp hok
  obtain ⟨init, top, tcp, len, hat, hat', htuple⟩ := htcp.converted hconverted
  have hpayload : payloadBytes packet = payloadBytes sniff.packet :=
    hat'.payloadBytes_eq.trans hat.payloadBytes_eq.symm
  have hall : ∀ packet ∈ sniffed ++ [sniff.packet], IsTcpPacket packet := by
    simpa [or_imp, forall_and, hs.tcp] using ⟨hs.tcp, htcp⟩
  obtain ⟨kept, hrun, hkept⟩ := hs.run
  have hsingle : SameLength [packet] := ⟨payloadBytes packet, by simp⟩
  have hempty : SameLength [] := ⟨0, by simp⟩
  -- A list that starts anew with the sniffed packet.
  have hone (hrun : IsLastRun tupleOf (sniffed ++ [sniff.packet]) [sniff.packet])
      (hpackets : s'.packets = [packet]) (hzero : count = 0 ∧ sum = 0) :
      Collected (sniffed ++ [sniff.packet]) s' ∧ SameLength s'.packets.dropLast ∧
        (s'.sniffedPayloadLen < expected → SameLength s'.packets) := by
    refine ⟨⟨⟨_, hrun, hpackets ▸ .cons hconverted .nil⟩, hall, by simp [hpackets],
      by simp [hpackets], ?_, ?_⟩, by simpa [hpackets] using hempty, fun _ => hpackets ▸ hsingle⟩
    · rw [hcount, hpackets, hzero.1]
      rfl
    · rw [hsum, hpackets, hzero.2, ← hpayload]
      simp [payloadSum]
  generalize hpackets : s'.packets = packets' at hturn
  cases hturn with
  | first hnil =>
    rw [← hpackets]
    have hsniffed : sniffed = [] := by
      by_contra hne
      exact hs.nonempty hne hnil
    refine hone ?_ hpackets ⟨?_, ?_⟩
    · rw [hsniffed]
      exact isLastRun_singleton _ _
    · rw [hs.count, hnil]
      rfl
    · rw [hs.total, hnil]
      rfl
  | restart last hlast hne =>
    rw [← hpackets]
    refine hone ?_ hpackets ⟨rfl, rfl⟩
    obtain ⟨x, hx, hconverted'⟩ := getLast?_of_forall₂ hkept hlast
    obtain ⟨before, rfl⟩ := hrun.suffix
    have hxlast : (before ++ kept).getLast? = some x := by simp [hx]
    obtain ⟨-, -, -, -, -, -, hxtuple⟩ :=
      (hs.tcp x (List.mem_of_getLast? hxlast)).converted hconverted'
    apply IsLastRun.restart hxlast
    rw [← htuple, ← hxtuple]
    exact hne
  | next last hlast heq hverify =>
    obtain ⟨x, hx, hconverted'⟩ := getLast?_of_forall₂ hkept hlast
    have hxkept : x ∈ kept := List.mem_of_getLast? hx
    obtain ⟨_, _, _, _, -, hlastAt, hxtuple⟩ :=
      (hs.tcp x (hrun.suffix.mem hxkept)).converted hconverted'
    obtain ⟨hfollows, hlength⟩ := hlastAt.follows hat' hverify
    obtain ⟨n, hn⟩ := hsame
    refine ⟨⟨⟨kept ++ [sniff.packet], hrun.concat hxkept ?_, ?_⟩, hall, ?_, ?_, ?_, ?_⟩, ?_, ?_⟩
    · rw [← htuple, ← hxtuple]
      exact heq
    · rw [hpackets]
      exact List.rel_append hkept (.cons hconverted .nil)
    · simp [hpackets]
    · rw [hpackets, List.isChain_append]
      refine ⟨hs.sequence, .singleton _, ?_⟩
      rw [hlast]
      simpa using hfollows
    · rw [hcount, hpackets, hs.count]
      simp
    · rw [hsum, hpackets, hs.total, payloadSum_concat, hpayload]
    · rw [List.dropLast_concat]
      exact ⟨n, hn⟩
    · intro hlt
      have hlt : payloadBytes sniff.packet < expected - s.sniffedPayloadLen := by omega
      refine ⟨n, fun p hp => ?_⟩
      rcases List.mem_append.mp hp with hp | hp
      · exact hn p hp
      · rw [List.mem_singleton.mp hp, hpayload, hlength hlt, ← hlastAt.payloadBytes_eq]
        exact hn last (List.mem_of_getLast? hlast)

/-- The run: when the loop is left, it has collected the packets that were sniffed. -/
theorem sniffLoop_spec {results : List (Status Sniff)} (hs : Collected sniffed s)
    (hsame : SameLength s.packets) (htcp : ∀ sniff, .ok sniff ∈ results → IsTcpPacket sniff.packet)
    (hok : sniffLoop config script expected results s = .ok (some s')) :
    ∃ (sniffs : List Sniff) (rest : List (Status Sniff)), sniffs ≠ [] ∧
      results = sniffs.map Except.ok ++ rest ∧
      Collected (sniffed ++ sniffs.map Sniff.packet) s' ∧ SameLength s'.packets.dropLast := by
  induction results generalizing s sniffed with
  | nil => cases Except.ok.inj hok
  | cons result results ih =>
    obtain ⟨sniff, hresult, hrest⟩ := bind_eq_ok_iff.mp hok
    obtain ⟨t, hturn, hend⟩ := bind_eq_ok_iff.mp hrest
    subst hresult
    obtain ⟨ht, hlengths, hagain⟩ := hs.turn hsame (htcp sniff List.mem_cons_self) hturn
    split at hend
    · rename_i hlt
      obtain ⟨sniffs, rest, -, rfl, hs', hlengths'⟩ := ih ht (hagain hlt.1)
        (fun sniff h => htcp sniff (List.mem_cons_of_mem _ h)) hend
      exact ⟨sniff :: sniffs, rest, by simp, rfl, by simpa using hs', hlengths'⟩
    · obtain rfl : t = s' := Option.some.inj (pure_eq_ok_iff.mp hend)
      exact ⟨[sniff], results, by simp, rfl, by simpa using ht, hlengths⟩

end Loop

/-- Whenever the loop is left and the payload has the size that the script expects, the list is
the last run of the sniffed packets with one tuple, without a gap, with payloads of one length
but for the last, and with the whole payload. -/
theorem sniffFragments_retained {config : SegmentConfig} {socket : Socket} {script : FullPacket}
    {results : List (Status Sniff)} {s : Sniffing}
    (htcp : ∀ sniff, .ok sniff ∈ results → IsTcpPacket sniff.packet)
    (hok : sniffFragments config socket script results = .ok (some s)) :
    ∃ (expected : Int) (sniffs : List Sniff) (rest : List (Status Sniff)),
      packetPayloadLen script.toPacket = .ok expected ∧
      results = sniffs.map Except.ok ++ rest ∧ Retained expected (sniffs.map Sniff.packet) s := by
  obtain ⟨expected, hexpected, hok⟩ := bind_eq_ok_iff.mp hok
  obtain ⟨out, hloop, hok⟩ := bind_eq_ok_iff.mp hok
  cases out with
  | none => cases Option.some_ne_none _ (pure_eq_ok_iff.mp hok).symm
  | some t =>
    obtain ⟨_, hsize, hok⟩ := bind_eq_ok_iff.mp hok
    obtain rfl : t = s := Option.some.inj (pure_eq_ok_iff.mp hok)
    obtain ⟨sniffs, rest, hne, hresults, ht, hlengths⟩ :=
      sniffLoop_spec (collected_nil _) ⟨0, by simp⟩ htcp hloop
    rw [List.nil_append] at ht
    refine ⟨expected, sniffs, rest, ofFault_eq_ok_iff.mp (halting_eq_ok_iff.mp hexpected), hresults,
      ht.run, ht.nonempty (by simpa using hne), ht.sequence, hlengths, ht.count, ?_⟩
    rw [← ht.total]
    exact check_eq_ok_iff.mp hsize

/-- The two fragments in one packet. -/
def wholeTcpPacket : List UInt8 :=
  [0x45, 0x00, 0x00, 0x2e, 0x00, 0x00, 0x40, 0x00, 0x40, 0x06, 0xb6, 0xc6, 0xc0, 0x00, 0x02, 0x01,
   0xc0, 0x00, 0x02, 0x02, 0x1f, 0x90, 0xdb, 0xcc, 0x00, 0x00, 0x00, 0x01, 0x00, 0x00, 0x00, 0x01,
   0x50, 0x90, 0xff, 0xff, 0x00, 0x00, 0x00, 0x00, 0x01, 0x02, 0x03, 0x04, 0x05, 0x06]

/-- A connection whose sequence numbers start at zero on both sides. -/
def unshiftedSocket : Socket :=
  let localEndpoint : Endpoint := ⟨⟨.inet, [192, 0, 2, 1]⟩, 8080⟩
  let remoteEndpoint : Endpoint := ⟨⟨.inet, [192, 0, 2, 2]⟩, 56268⟩
  let state : SocketState := ⟨localEndpoint, 0, remoteEndpoint, 0⟩
  ⟨.passiveSynackAcked, 6, state, state, hashMapNew 1, false, 0, 0, 0, 0, []⟩

def sniffedFragments : List (Status Sniff) :=
  [.ok ⟨parsedPacket firstTcpFragment, id⟩, .ok ⟨parsedPacket secondTcpFragment, id⟩]

theorem sniffFragments_retained_tcp : ∃ s,
    sniffFragments ⟨false, false⟩ unshiftedSocket (parsedPacket wholeTcpPacket) sniffedFragments =
        .ok (some s) ∧
      ∃ (expected : Int) (sniffs : List Sniff) (rest : List (Status Sniff)),
        packetPayloadLen (parsedPacket wholeTcpPacket).toPacket = .ok expected ∧
        sniffedFragments = sniffs.map Except.ok ++ rest ∧
        Retained expected (sniffs.map Sniff.packet) s := by
  have hrun : (sniffFragments ⟨false, false⟩ unshiftedSocket (parsedPacket wholeTcpPacket)
      sniffedFragments).toOption.join.isSome := by decide +kernel
  have htcp : ∀ sniff, .ok sniff ∈ sniffedFragments → IsTcpPacket sniff.packet := by
    intro sniff hsniff
    simp only [sniffedFragments, List.mem_cons, Except.ok.injEq, List.not_mem_nil, or_false]
      at hsniff
    rcases hsniff with rfl | rfl
    · exact ⟨⟨_, isSegment_parsedPacket (by decide) ⟨_, rfl, rfl⟩⟩, by decide +kernel⟩
    · exact ⟨⟨_, isSegment_parsedPacket (by decide) ⟨_, rfl, rfl⟩⟩, by decide +kernel⟩
  cases hok : sniffFragments ⟨false, false⟩ unshiftedSocket (parsedPacket wholeTcpPacket)
      sniffedFragments with
  | error e =>
    rw [hok] at hrun
    cases hrun
  | ok out =>
    cases out with
    | none =>
      rw [hok] at hrun
      cases hrun
    | some s => exact ⟨s, rfl, sniffFragments_retained htcp hok⟩

end QoSMos
