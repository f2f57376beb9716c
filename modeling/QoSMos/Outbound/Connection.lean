import QoSMos.Outbound.Handshake

/-!
# Segments of a connection

A socket forgets no initial sequence number that it has learnt. So from the event on that completes
what it knows, all segments that are injected, and all that are accepted from the kernel, have the
same positions in the script and live, counted from the same initial sequence numbers.
-/

namespace QoSMos

open Returns LabelledPath

/-! ## What is kept -/

/-- The initial sequence number of the remote end is known. -/
def SocketStateT.knowsRemote : SocketStateT → Bool
  | .passivePacketReceived | .passiveSynackSent | .passiveSynackAcked | .activeSynAcked => true
  | .init | .new | .passiveListening | .activeConnecting | .activeSynSent => false

/-- Both initial sequence numbers are known. -/
def SocketStateT.knowsBoth : SocketStateT → Bool
  | .passiveSynackSent | .passiveSynackAcked | .activeSynAcked => true
  | .init | .new | .passiveListening | .passivePacketReceived | .activeConnecting
  | .activeSynSent => false

def Knowledge.Aligned (k : Knowledge) : Prop := k.remote.script = k.remote.live

/-- The second socket knows what the first one does. -/
structure Knowledge.Keeps (k k' : Knowledge) : Prop where
  aligned : k.Aligned → k'.Aligned
  remote : k.state.knowsRemote = true → k'.state.knowsRemote = true ∧ k'.remote = k.remote
  both : k.state.knowsBoth = true → k'.state.knowsBoth = true ∧ k'.own = k.own

section Keeping

variable {e : PacketEvent} {k k' k'' : Knowledge}

theorem SocketStateT.knowsRemote_of_both {state : SocketStateT} (h : state.knowsBoth = true) :
    state.knowsRemote = true := by
  cases state <;> first | rfl | cases h

theorem Knowledge.Keeps.refl (k : Knowledge) : k.Keeps k :=
  ⟨id, fun h => ⟨h, rfl⟩, fun h => ⟨h, rfl⟩⟩

theorem Knowledge.Keeps.trans (h : k.Keeps k') (h' : k'.Keeps k'') : k.Keeps k'' := by
  refine ⟨fun ha => h'.aligned (h.aligned ha), fun hk => ?_, fun hk => ?_⟩
  · obtain ⟨hknows, hsame⟩ := h.remote hk
    exact ⟨(h'.remote hknows).1, (h'.remote hknows).2.trans hsame⟩
  · obtain ⟨hknows, hsame⟩ := h.both hk
    exact ⟨(h'.both hknows).1, (h'.both hknows).2.trans hsame⟩

/-- A move changes a number only while it is not known. -/
theorem Move.keeps (h : Move e k k') : k.Keeps k' := by
  cases h with
  | listen _ _ hfrom =>
    refine ⟨fun _ => rfl, fun hk => ?_, fun hk => ?_⟩ <;> rcases hfrom with hfrom | hfrom <;>
      simp [hfrom, SocketStateT.knowsRemote, SocketStateT.knowsBoth] at hk
  | connect _ _ _ hfrom =>
    refine ⟨id, fun hk => ?_, fun hk => ?_⟩ <;> rcases hfrom with hfrom | hfrom <;>
      simp [hfrom, SocketStateT.knowsRemote, SocketStateT.knowsBoth] at hk
  | expectSynack _ _ _ hfrom =>
    refine ⟨id, fun hk => ⟨hk, rfl⟩, fun hk => ?_⟩
    simp [hfrom, SocketStateT.knowsBoth] at hk
  | sniffSynack _ _ _ hfrom =>
    refine ⟨id, fun _ => ⟨rfl, rfl⟩, fun hk => ?_⟩
    simp [hfrom, SocketStateT.knowsBoth] at hk
  | sniffSyn _ hfrom =>
    refine ⟨id, fun hk => ⟨hk, rfl⟩, fun hk => ?_⟩
    simp [hfrom, SocketStateT.knowsBoth] at hk
  | receiveAck _ _ _ hfrom => exact ⟨id, fun _ => ⟨rfl, rfl⟩, fun _ => ⟨rfl, rfl⟩⟩
  | receiveSynack _ _ _ hfrom =>
    refine ⟨fun _ => rfl, fun hk => ?_, fun hk => ?_⟩ <;>
      simp [hfrom, SocketStateT.knowsRemote, SocketStateT.knowsBoth] at hk

theorem Moves.keeps (h : Moves e k k') : k.Keeps k' := by
  induction h with
  | refl => exact .refl k
  | tail _ hmove ih => exact ih.trans hmove.keeps

end Keeping

/-! ## Segments that are injected -/

/-- The event took one packet of the kernel: in local mode that is so with `strict_segments`, and
else where no packet is shorter than that of the script. -/
def OneSegment (config : SegmentConfig) (e : PacketEvent) : Prop :=
  config.strictSegments = true ∧ config.isWireServer = false ∨
    ∀ live expected len, .ok live ∈ e.received →
      packetPayloadLen e.packet.toPacket = .ok expected →
      packetPayloadLen live.toPacket = .ok len → expected ≤ len

/-- What was injected, or what the kernel sent, is at the positions that the script says. -/
structure EventSound (config : SegmentConfig) (k : Knowledge) (e : PacketEvent)
    (done : EventDone) : Prop where
  injected : ∀ tcp, e.packet.direction = .inbound → e.packet.tcp = some tcp →
    ∃ sent, done.injected = some sent ∧ sent.tcp = some tcp ∧
      Translated k.remote k.own e.packet sent tcp
  sniffed : ∀ tcp, e.packet.direction = .outbound → e.packet.tcp = some tcp →
    done.warning = none → OneSegment config e →
    ∃ live l, .ok live ∈ e.received ∧ live.tcp = some l ∧
      SameSegment k.own k.remote e.packet.buffer tcp live.buffer l

section Sound

variable {platform : EventPlatform} {e : PacketEvent} {state next : EventState} {done : EventDone}
  {config : EventConfig} {socket socket' ready : EventSocket} {tcp a p q p' q' : Nat}
  {script live : FullPacket} {old new : Socket} {sniffed : FullPacket} {s s' : Sniffing}
  {expected : Int} {segments : SegmentConfig} {results : List (Status FullPacket)}
  {unchecked : Int} {own remote : Origin} {verify : VerifyState} {verdict : Verdict}
  {printing : Printing} {hashKey : UInt32 → UInt32} {heap : Memory} {flowlabelMap : FlowlabelMap}

theorem Injects.translated (h : Injects platform config e socket ready done)
    (ha : socket.knowledge.Aligned) (hscript : TcpScript e.packet)
    (htcp : e.packet.tcp = some tcp) : ∃ sent, done.injected = some sent ∧ sent.tcp = some tcp ∧
      Translated done.socket.knowledge.remote done.socket.knowledge.own e.packet sent tcp := by
  obtain ⟨copy, mapped, sent, hcopy, hmap, hsend, hdone⟩ := h.sent
  have haligned : ready.toSocket.Aligned := h.moves.keeps.aligned ha
  obtain ⟨hheader, htranslated⟩ := inbound_translated haligned hscript htcp hcopy hmap hsend
  refine ⟨sent, hdone, hheader, ?_⟩
  rw [h.kept]
  exact htranslated

/-! ## Segments of the kernel -/

/-- Headers that agree after the conversion are of the same segment. -/
theorem TcpAgrees.sameSegment {b : Memory}
    (h : TcpAgrees script unchecked b a tcp) (hs : SameSegment own remote b a live.buffer a) :
    SameSegment own remote script.buffer tcp live.buffer a := by
  have hflags := h.flags
  simp only [tcpFlags, List.cons.injEq, and_true] at hflags
  obtain ⟨-, hsyn, -, -, hack, -⟩ := hflags
  refine ⟨hsyn ▸ hs.syn, hack ▸ hs.ack, h.seq ▸ hs.seq, fun hacked => ?_⟩
  exact h.ackSeq ▸ hs.ackSeq hacked

/-- A packet that gets `STATUS_OK` has the TCP header of the script. -/
theorem tcpAgrees_of_verdict (hlive : LivePacket live) (hscript : TransportScript script)
    (hlen : packetPayloadLen live.toPacket = packetPayloadLen script.toPacket)
    (hok : verifyOutboundLivePacket printing hashKey heap verify old flowlabelMap script live =
      .ok verdict) (hstatus : verdict.status = .ok) (htcp : script.tcp = some tcp) :
    ∃ a unchecked, live.tcp = some a ∧ TcpAgrees script unchecked live.buffer a tcp := by
  obtain ⟨outer, ip, last, p, q, hl⟩ := hlive.shape
  obtain ⟨outer', ip', last', p', q', hs⟩ := hscript.shape
  obtain ⟨len, hpayload, hpos⟩ := hs.payloadLen
  obtain ⟨actual, mapping, hcopy, hmap, hcompare⟩ := compared_of_ok hok hstatus
  obtain ⟨n, hend, hm⟩ := mapOutboundLivePacket_mapping hl hcopy (hlen.trans hpayload) hpos hmap
  have hagree := hm.headersAgree hl.toLiveLayers hs (compareMapped_ok hcompare).1
  obtain ⟨h, hlast, htype, a, s, ha, hs', hfields⟩ :=
    getLast?_of_forall₂ hagree (y := last') (by simp)
  obtain rfl : last = h := by simpa using hlast
  have hscriptTcp := hs.tcp
  rw [htcp] at hscriptTcp
  split at hscriptTcp
  · rename_i ht
    obtain rfl := Option.some.inj hscriptTcp
    obtain rfl := Option.some.inj (hs.lastPtr.symm.trans hs')
    rw [ht] at hfields
    refine ⟨a, _, ?_, hfields⟩
    rw [hl.tcp, if_pos (htype.trans ht)]
    exact hl.lastPtr.symm.trans ha
  · cases hscriptTcp

/-- The payload of a sniffed packet stays where it is. -/
theorem convertLivePacket_payloadLen (hok : convertLivePacket old live = .ok (new, sniffed)) :
    packetPayloadLen sniffed.toPacket = packetPayloadLen live.toPacket ∧
      sniffed.tcp = live.tcp := by
  unfold convertLivePacket at hok
  split at hok
  · rename_i tcp htcp
    obtain ⟨converted, hconvert, hok⟩ := bind_eq_ok_iff.mp hok
    obtain rfl := (Prod.mk.inj (pure_eq_ok_iff.mp hok)).2
    obtain ⟨b, rfl, hframe⟩ := tcpConvertSeqNumber_spec htcp hconvert
    have hbytes : TCP_BYTES = 20 := rfl
    have hdoff : Tcp.doff b tcp = Tcp.doff live.buffer tcp :=
      congrArg (fun x : UInt8 => x.toNat / 16) (hframe (tcp + 12) (by omega))
    have hend : packetEnd ({ live with buffer := b } : FullPacket).toPacket =
        packetEnd live.toPacket := rfl
    have hpayload : packetPayload ({ live with buffer := b } : FullPacket).toPacket =
        .ok (tcp + Tcp.doff b tcp * 4) := packetPayload_of_tcp htcp
    refine ⟨?_, rfl⟩
    rw [packetPayloadLen, packetPayloadLen, hend, hpayload, hdoff, packetPayload_of_tcp htcp]
  · obtain rfl := (Prod.mk.inj (pure_eq_ok_iff.mp hok)).2
    exact ⟨rfl, rfl⟩

theorem convertLivePacket_livePacket (hp : IsParsed live)
    (hok : convertLivePacket old live = .ok (new, sniffed)) : LivePacket sniffed := by
  unfold convertLivePacket at hok
  split at hok
  · obtain ⟨converted, hconvert, hok⟩ := bind_eq_ok_iff.mp hok
    obtain rfl := (Prod.mk.inj (pure_eq_ok_iff.mp hok)).2
    exact .converted hp hconvert
  · rename_i htcp
    obtain rfl := (Prod.mk.inj (pure_eq_ok_iff.mp hok)).2
    exact .parsed hp htcp

/-- A conversion moves the numbers by those of the socket. -/
theorem convertLivePacket_sameSegment (ha : old.Aligned) (htcp : live.tcp = some a)
    (hok : convertLivePacket old live = .ok (new, sniffed)) :
    SameSegment old.localOrigin old.remoteOrigin sniffed.buffer a live.buffer a := by
  unfold convertLivePacket at hok
  rw [htcp] at hok
  obtain ⟨converted, hconvert, hok⟩ := bind_eq_ok_iff.mp hok
  obtain rfl := (Prod.mk.inj (pure_eq_ok_iff.mp hok)).2
  exact (tcpConvertSeqNumber_translated ha htcp hconvert).segment

/-- What the loop has kept if it has ended with the first packet. -/
structure TookOne (received : List (Status FullPacket)) (socket' : EventSocket) (s' : Sniffing)
    (live sniffed : FullPacket) (t : Socket) : Prop where
  received : .ok live ∈ received
  converted : convertLivePacket t live = .ok (s'.socket, sniffed)
  knowledge : socket'.knowledge = t.knowledge
  packets : s'.packets = [sniffed]
  count : s'.packetCount = 1
  payloadLen : packetPayloadLen live.toPacket = .ok s'.sniffedPayloadLen

theorem outboundLoop_tookOne
    (hone : segments.strictSegments = true ∧ segments.isWireServer = false ∨
      ∀ live len, .ok live ∈ results → packetPayloadLen live.toPacket = .ok len → expected ≤ len)
    (hstart : s.packets = [] ∧ s.packetCount = 0 ∧ s.sniffedPayloadLen = 0)
    (hok : outboundLoop segments script expected results socket s = .ok (some (socket', s'))) :
    ∃ live sniffed t, TookOne results socket' s' live sniffed t := by
  induction results with
  | nil => cases Except.ok.inj hok
  | cons result results ih =>
    rw [outboundLoop] at hok
    obtain ⟨live, hresult, hok⟩ := bind_eq_ok_iff.mp hok
    obtain ⟨found, hfound, hok⟩ := bind_eq_ok_iff.mp hok
    have hlive : .ok live ∈ result :: results := hresult ▸ List.mem_cons_self
    cases found with
    | none =>
      obtain ⟨live, sniffed, t, htook⟩ := ih
        (hone.imp_right fun h live len hmem => h live len (List.mem_cons_of_mem _ hmem)) hok
      exact ⟨live, sniffed, t, { htook with received := List.mem_cons_of_mem _ htook.received }⟩
    | some sniffer =>
      obtain ⟨u, hturn, hok⟩ := bind_eq_ok_iff.mp hok
      obtain ⟨sniffed, hturned⟩ := sniffTurn_turned hturn
      obtain ⟨t, hremember, hconvert⟩ := hturned.socket
      obtain ⟨hpackets, hcount, payload, hpayload, hsum⟩ := hturned.first hstart.1
      have hsum : u.sniffedPayloadLen = payload := by
        rw [hsum, hstart.2.2, zero_add]
      have hdone : ¬ (u.sniffedPayloadLen < expected ∧
          (¬ segments.strictSegments = true ∨ segments.isWireServer = true)) := by
        rintro ⟨hshort, hgoes⟩
        rcases hone with ⟨hstrict, hlocal⟩ | hlong
        · grind
        · have hle := hlong live payload hlive hpayload
          omega
      dsimp only at hok
      rw [if_neg hdone] at hok
      obtain ⟨rfl, rfl⟩ := Prod.mk.inj (Option.some.inj (pure_eq_ok_iff.mp hok))
      refine ⟨live, sniffed, t, hlive, hconvert, ?_, hpackets, ?_, hsum ▸ hpayload⟩
      · refine EventSocket.knowledge_update (convertLivePacket_knowledge hconvert) ?_
        rcases rememberLiveIsn_ok hremember with ⟨-, rfl⟩ | ⟨-, l, -, hlearned⟩
        · rfl
        · rw [hlearned]
          rfl
      · rw [hcount, hstart.2.1, zero_add]

/-- Without a warning the packet that was compared has got `STATUS_OK`. -/
theorem concludeOutbound_ok (hpackets : s.packets = [sniffed]) (hcount : s.packetCount = 1)
    (hok : concludeOutbound platform verify script expected socket s = .ok done)
    (hwarning : done.warning = none) : s.sniffedPayloadLen = expected ∧ ∃ verdict,
      verifyOutboundLivePacket platform.printing platform.hashKey platform.heap verify
        socket.toSocket socket.flowlabelMap script sniffed = .ok verdict ∧
        verdict.status = .ok := by
  unfold concludeOutbound at hok
  obtain ⟨_, hlen, hok⟩ := bind_eq_ok_iff.mp hok
  obtain ⟨live, hlive, hok⟩ := bind_eq_ok_iff.mp hok
  obtain ⟨verdict, hverdict, hok⟩ := bind_eq_ok_iff.mp hok
  have hlive := halting_eq_ok_iff.mp hlive
  simp only [collectedPacket, hpackets, hcount, if_true, Except.ok.injEq] at hlive
  refine ⟨check_eq_ok_iff.mp hlen, verdict, hlive ▸ halting_eq_ok_iff.mp hverdict, ?_⟩
  cases hstatus : verdict.status with
  | ok => rfl
  | warn =>
    rw [hstatus] at hok
    rw [← pure_eq_ok_iff.mp hok] at hwarning
    cases hwarning
  | err =>
    rw [hstatus] at hok
    cases hok

theorem TcpScript.transport (h : TcpScript script) : TransportScript script := by
  cases h with
  | alone hnew => exact ⟨script, .inl ⟨_, _, hnew⟩, .alone⟩
  | encapsulated hnew houter hok => exact ⟨_, .inl ⟨_, _, hnew⟩, .encapsulated houter hok⟩

theorem doOutboundScriptPacket_sameSegment
    (hparsed : ∀ live, .ok live ∈ e.received → IsParsed live) (ha : done.socket.knowledge.Aligned)
    (hscript : TcpScript e.packet) (htcp : e.packet.tcp = some tcp)
    (hone : OneSegment segments e) (hwarning : done.warning = none)
    (hok : doOutboundScriptPacket platform segments verify socket e.packet e.received =
      .ok (some done)) : ∃ live l, .ok live ∈ e.received ∧ live.tcp = some l ∧
      SameSegment done.socket.knowledge.own done.socket.knowledge.remote e.packet.buffer tcp
        live.buffer l := by
  unfold doOutboundScriptPacket at hok
  obtain ⟨expected, hexpected, hok⟩ := bind_eq_ok_iff.mp hok
  obtain ⟨result, hloop, hok⟩ := bind_eq_ok_iff.mp hok
  have hexpected := ofFault_eq_ok_iff.mp (halting_eq_ok_iff.mp hexpected)
  cases result with
  | none => cases pure_eq_ok_iff.mp hok
  | some pair =>
    obtain ⟨concluded, hconclude, hok⟩ := bind_eq_ok_iff.mp hok
    obtain rfl := Option.some.inj (pure_eq_ok_iff.mp hok)
    obtain ⟨live, sniffed, t, htook⟩ := outboundLoop_tookOne
      (hone.imp_right fun h live len hmem => h live expected len hmem hexpected)
      ⟨rfl, rfl, rfl⟩ hloop
    obtain ⟨hlen, verdict, hverdict, hstatus⟩ :=
      concludeOutbound_ok htook.packets htook.count hconclude hwarning
    obtain ⟨hpayload, hheader⟩ := convertLivePacket_payloadLen htook.converted
    have hlive := convertLivePacket_livePacket (hparsed live htook.received) htook.converted
    obtain ⟨a, unchecked, hsniffed, hagrees⟩ := tcpAgrees_of_verdict hlive hscript.transport
      (hpayload.trans (htook.payloadLen.trans (hlen ▸ hexpected.symm))) hverdict hstatus htcp
    have hknown : concluded.socket.knowledge = t.knowledge :=
      (concludeOutbound_knowledge hconclude).trans htook.knowledge
    rw [hknown] at ha ⊢
    refine ⟨live, a, htook.received, hheader ▸ hsniffed, hagrees.sameSegment ?_⟩
    exact convertLivePacket_sameSegment ha (hheader ▸ hsniffed) htook.converted

/-! ## Runs -/

/-- A TCP packet of an event is one of the builder, and the packets of the kernel were parsed. -/
structure PacketEvent.WellFormed (e : PacketEvent) : Prop where
  script : e.packet.tcp ≠ none → TcpScript e.packet
  parsed : ∀ live, .ok live ∈ e.received → IsParsed live

theorem runPacketEvent_sound (he : e.WellFormed) (ha : state.knowledge.Aligned)
    (hok : runPacketEvent platform state e = .ok (some (next, done))) :
    next.knowledge = done.socket.knowledge ∧ next.config = state.config ∧
      EventSound state.config.segments done.socket.knowledge e done := by
  obtain ⟨socket, hran⟩ := runPacketEvent_ran hok
  have hscript {tcp : Nat} (htcp : e.packet.tcp = some tcp) : TcpScript e.packet :=
    he.script (by simp [htcp])
  refine ⟨hran.knowledge, hran.config, ?_⟩
  have hfound := hran.found.keeps.aligned ha
  rcases hran.acted with ⟨houtbound, first, hact, hsocket, hwarning⟩ | ⟨hinbound, ready, hinjects⟩
  · have hmoves := doOutboundScriptPacket_moves houtbound he.parsed hact
    refine ⟨fun tcp hin => ?_, fun tcp _ htcp hnone hone => ?_⟩
    · cases houtbound.symm.trans hin
    · exact hsocket ▸ doOutboundScriptPacket_sameSegment he.parsed (hmoves.keeps.aligned hfound)
        (hscript htcp) htcp hone (hwarning.mpr hnone) hact
  · refine ⟨fun tcp _ htcp => hinjects.translated hfound (hscript htcp) htcp, fun tcp hout => ?_⟩
    cases hinbound.symm.trans hout

/-- Only the initial sequence numbers matter, and those that are known are kept. -/
theorem EventSound.of_keeps {k k' : Knowledge} (h : EventSound segments k' e done)
    (hkeeps : k.Keeps k') (hknown : k.state.knowsBoth = true) : EventSound segments k e done := by
  have hown := (hkeeps.both hknown).2
  have hremote := (hkeeps.remote (SocketStateT.knowsRemote_of_both hknown)).2
  exact ⟨hown ▸ hremote ▸ h.injected, hown ▸ hremote ▸ h.sniffed⟩

variable {events : List (PacketEvent × EventDone)}

theorem keeps_of_path (hpath : Path (EventStep platform) state events next)
    (hevents : ∀ x ∈ events, x.1.WellFormed) :
    ∀ x ∈ events, state.knowledge.Keeps x.2.socket.knowledge := by
  induction hpath with
  | nil => simp
  | @cons state middle next x events hstep _ ih =>
    have hparsed := (hevents x List.mem_cons_self).parsed
    have hkeeps := (runPacketEvent_moves hparsed hstep).keeps
    obtain ⟨socket, hran⟩ := runPacketEvent_ran hstep
    intro y hy
    rcases List.mem_cons.mp hy with rfl | hy
    · exact hran.knowledge ▸ hkeeps
    · exact hkeeps.trans (ih (fun x hx => hevents x (List.mem_cons_of_mem _ hx)) y hy)

/-- Between two system calls, every event is sound for what the socket knows after it, and from
the event on that told the second initial sequence number, all are for what it knew then. -/
theorem sound_of_path (hpath : Path (EventStep platform) state events next)
    (ha : state.knowledge.Aligned) (hevents : ∀ x ∈ events, x.1.WellFormed) :
    (∀ x ∈ events, EventSound state.config.segments x.2.socket.knowledge x.1 x.2) ∧
      events.Pairwise fun x y => x.2.socket.knowledge.state.knowsBoth = true →
        EventSound state.config.segments x.2.socket.knowledge y.1 y.2 := by
  induction hpath with
  | nil => simp
  | @cons state middle next x events hstep hpath ih =>
    have hrest : ∀ y ∈ events, y.1.WellFormed := fun y hy => hevents y (List.mem_cons_of_mem _ hy)
    have hx := hevents x List.mem_cons_self
    obtain ⟨hknown, hconfig, hsound⟩ := runPacketEvent_sound hx ha hstep
    obtain ⟨hall, hpairs⟩ := ih ((runPacketEvent_moves hx.parsed hstep).keeps.aligned ha) hrest
    rw [hconfig] at hall hpairs
    refine ⟨List.forall_mem_cons.mpr ⟨hsound, hall⟩, List.pairwise_cons.mpr ⟨?_, hpairs⟩⟩
    intro y hy hboth
    exact (hall y hy).of_keeps (hknown ▸ keeps_of_path hpath hrest y hy) hboth

end Sound

/-! ## A passive connection -/

theorem wellFormed_passiveEvents : ∀ e ∈ passiveEvents, e.WellFormed := by
  intro e he
  refine ⟨fun _ => ?_, isParsed_passiveEvents e he⟩
  simp only [passiveEvents, List.mem_cons, List.not_mem_nil, or_false] at he
  rcases he with rfl | rfl | rfl
  · exact @TcpScript.alone (fun _ => 0) (handshakeArgs .inbound "S" 7 0 0 0) _ rfl
  · exact @TcpScript.alone (fun _ => 0) (handshakeArgs .outbound "S." 0 8 0 0) _ rfl
  · exact @TcpScript.alone (fun _ => 0) (handshakeArgs .inbound "." 1 1 0 0) _ rfl

/-- The SYNACK of the kernel and the packet behind it. -/
theorem sound_of_path_passive : ∃ events next,
    Path (EventStep testPlatform) serverState events next ∧ events.map Prod.fst = passiveEvents ∧
      (∀ x ∈ events,
        EventSound serverState.config.segments x.2.socket.knowledge x.1 x.2) ∧
      events.Pairwise fun x y => x.2.socket.knowledge.state.knowsBoth = true →
        EventSound serverState.config.segments x.2.socket.knowledge y.1 y.2 := by
  obtain ⟨events, next, hpath, hevents, -⟩ := path_passiveEvents
  refine ⟨events, next, hpath, hevents, sound_of_path hpath rfl fun x hx => ?_⟩
  exact wellFormed_passiveEvents x.1 (hevents ▸ List.mem_map_of_mem hx)

end QoSMos
