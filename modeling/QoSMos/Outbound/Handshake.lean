import QoSMos.Lib.Path
import QoSMos.Outbound.Layers
import QoSMos.Outbound.Positions
import QoSMos.Outbound.SniffLaw

/-!
# What packet events do to the state of a connection

A packet event moves the socket under test along the handshake, and with each move the socket learns
an initial sequence number. `Move` lists the moves. Every event that returns makes a few of them, so
that behind a socket whose handshake is complete there are the packets of that handshake, in order.
-/

namespace QoSMos

open Returns LabelledPath
open Relation (ReflTransGen)

/-! ## The moves -/

/-- What a socket knows of the connection. -/
structure Knowledge where
  state : SocketStateT
  own : Origin
  remote : Origin
  deriving DecidableEq, Repr

def Socket.knowledge (socket : Socket) : Knowledge :=
  ⟨socket.state, socket.localOrigin, socket.remoteOrigin⟩

def EventSocket.knowledge (socket : EventSocket) : Knowledge := socket.toSocket.knowledge

theorem EventSocket.knowledge_tracked (base : EventSocket) (tracked : TrackedSocket) :
    ({ base with toTrackedSocket := tracked } : EventSocket).knowledge =
      ⟨tracked.state, ⟨tracked.scriptLocalIsn, base.liveLocalIsn⟩,
        ⟨tracked.scriptRemoteIsn, tracked.liveRemoteIsn⟩⟩ := rfl

/-- What is known without a socket is what a new one knows. -/
def EventState.knowledge (state : EventState) : Knowledge :=
  match state.socketUnderTest with
  | none => ⟨.init, ⟨0, 0⟩, ⟨0, 0⟩⟩
  | some socket => socket.knowledge

/-- What an event may do to the state of a socket and to its initial sequence numbers. -/
inductive Move (e : PacketEvent) : Knowledge → Knowledge → Prop
  | listen {k : Knowledge} {tcp : Nat} : e.packet.direction = .inbound → e.packet.tcp = some tcp →
      k.state = .init ∨ k.state = .passiveListening →
      Move e k ⟨.passivePacketReceived, ⟨0, 0⟩,
        ⟨Tcp.seq e.packet.buffer tcp, Tcp.seq e.packet.buffer tcp⟩⟩
  | connect {k : Knowledge} {tcp : Nat} : e.packet.direction = .outbound →
      e.packet.tcp = some tcp → isSyn e.packet.toPacket = true →
      k.state = .init ∨ k.state = .activeConnecting →
      Move e k ⟨.activeSynSent, ⟨Tcp.seq e.packet.buffer tcp, k.own.live⟩, k.remote⟩
  | expectSynack {k : Knowledge} {tcp : Nat} : e.packet.direction = .outbound →
      e.packet.tcp = some tcp → isSynack e.packet = true → k.state = .passivePacketReceived →
      Move e k ⟨k.state, ⟨Tcp.seq e.packet.buffer tcp, k.own.live⟩, k.remote⟩
  | sniffSynack {k : Knowledge} {tcp l : Nat} {live : FullPacket} :
      e.packet.direction = .outbound → e.packet.tcp = some tcp → isSynack e.packet = true →
      k.state = .passivePacketReceived → k.own.script = Tcp.seq e.packet.buffer tcp →
      .ok live ∈ e.received → live.tcp = some l →
      Move e k ⟨.passiveSynackSent, ⟨k.own.script, Tcp.seq live.buffer l⟩, k.remote⟩
  | sniffSyn {k : Knowledge} {l : Nat} {live : FullPacket} : e.packet.direction = .outbound →
      k.state = .activeSynSent → .ok live ∈ e.received → live.tcp = some l →
      isSyn live.toPacket = true →
      Move e k ⟨k.state, ⟨k.own.script, Tcp.seq live.buffer l⟩, k.remote⟩
  | receiveAck {k : Knowledge} {tcp : Nat} : e.packet.direction = .inbound →
      e.packet.tcp = some tcp → Tcp.ack e.packet.buffer tcp = true →
      k.state = .passiveSynackSent → Move e k ⟨.passiveSynackAcked, k.own, k.remote⟩
  | receiveSynack {k : Knowledge} {tcp : Nat} : e.packet.direction = .inbound →
      e.packet.tcp = some tcp → isSynack e.packet = true → k.state = .activeSynSent →
      Move e k ⟨.activeSynAcked, k.own,
        ⟨Tcp.seq e.packet.buffer tcp, Tcp.seq e.packet.buffer tcp⟩⟩

/-- A few moves of one event. -/
abbrev Moves (e : PacketEvent) : Knowledge → Knowledge → Prop := ReflTransGen (Move e)

theorem Moves.of_eq {e : PacketEvent} {k k' : Knowledge} (h : k' = k) : Moves e k k' :=
  h ▸ .refl

/-- The step of a run of events. -/
def EventStep (platform : EventPlatform) (state : EventState) (x : PacketEvent × EventDone)
    (next : EventState) : Prop :=
  runPacketEvent platform state x.1 = .ok (some (next, x.2))

/-! ## The lookup -/

section Lookup

variable {ephemeralPort : UInt16} {state : EventState} {lookup lookup' : LookupState}
  {packet : FullPacket} {direction : Direction} {tracked : TrackedSocket}
  {found : Option TrackedSocket} {tcp lineNumber : Nat} {function : String} {e : PacketEvent}

theorem newScriptSocket_ok (hok : newScriptSocket function packet = .ok tracked) :
    ∃ addressFamily protocol, tracked = { TrackedSocket.new with
      addressFamily := addressFamily
      protocol := protocol
      scriptFd := -1
      liveFd := -1 } := by
  unfold newScriptSocket at hok
  obtain ⟨_, -, hok⟩ := bind_eq_ok_iff.mp hok
  obtain ⟨protocol, -, hok⟩ := bind_eq_ok_iff.mp hok
  exact ⟨_, protocol, (pure_eq_ok_iff.mp hok).symm⟩

/-- Where the lookup has found a socket. -/
inductive Finds (state : LookupState) (packet : FullPacket) (tracked : TrackedSocket) : Prop
  | listened {tcp : Nat} : packet.tcp = some tcp → listenMatches state packet.direction = true →
      tracked.state = .passivePacketReceived → tracked.scriptLocalIsn = 0 →
      tracked.scriptRemoteIsn = Tcp.seq packet.buffer tcp →
      tracked.liveRemoteIsn = Tcp.seq packet.buffer tcp → Finds state packet tracked
  | connected {tcp : Nat} : packet.tcp = some tcp →
      connectMatches state packet.buffer tcp packet.direction = true →
      tracked.state = .activeSynSent → tracked.scriptLocalIsn = Tcp.seq packet.buffer tcp →
      tracked.scriptRemoteIsn = (state.socketUnderTest.getD .new).scriptRemoteIsn →
      tracked.liveRemoteIsn = (state.socketUnderTest.getD .new).liveRemoteIsn →
      Finds state packet tracked
  | known : packet.tcp = none ∨ listenMatches state packet.direction = false →
      state.socketUnderTest = some tracked → Finds state packet tracked

theorem handleListen_ok (hok : handleListenForScriptPacket ephemeralPort lookup packet tcp
      packet.direction = .ok (lookup', found)) (htcp : packet.tcp = some tcp) :
    (∃ tracked, found = some tracked ∧ Finds lookup packet tracked) ∨
      found = none ∧ lookup' = lookup ∧ listenMatches lookup packet.direction = false := by
  unfold handleListenForScriptPacket at hok
  split at hok
  · rename_i hmatch
    obtain ⟨socket, hnew, hok⟩ := bind_eq_ok_iff.mp hok
    obtain ⟨tuple, -, hok⟩ := bind_eq_ok_iff.mp hok
    obtain ⟨addressFamily, protocol, rfl⟩ := newScriptSocket_ok hnew
    obtain rfl := (Prod.mk.inj (pure_eq_ok_iff.mp hok)).2
    exact .inl ⟨_, rfl, .listened htcp hmatch rfl rfl rfl rfl⟩
  · rename_i hmatch
    obtain ⟨rfl, rfl⟩ := Prod.mk.inj (pure_eq_ok_iff.mp hok)
    exact .inr ⟨rfl, rfl, by simpa using hmatch⟩

theorem handleConnect_ok (hok : handleConnectForScriptPacket lookup packet tcp packet.direction =
      .ok (lookup', found)) (htcp : packet.tcp = some tcp) :
    (∃ tracked, found = some tracked ∧ Finds lookup packet tracked) ∨
      found = none ∧ lookup' = lookup := by
  unfold handleConnectForScriptPacket at hok
  split at hok
  · rename_i hmatch
    left
    cases hunder : lookup.socketUnderTest with
    | some underTest =>
      simp only [hunder, pure_bind] at hok
      obtain ⟨tuple, -, hok⟩ := bind_eq_ok_iff.mp hok
      obtain rfl := (Prod.mk.inj (pure_eq_ok_iff.mp hok)).2
      exact ⟨_, rfl, .connected htcp hmatch rfl rfl (by rw [hunder]; rfl) (by rw [hunder]; rfl)⟩
    | none =>
      simp only [hunder, pure_bind] at hok
      obtain ⟨new, hnew, hok⟩ := bind_eq_ok_iff.mp hok
      obtain ⟨tuple, -, hok⟩ := bind_eq_ok_iff.mp hok
      obtain ⟨addressFamily, protocol, rfl⟩ := newScriptSocket_ok hnew
      obtain rfl := (Prod.mk.inj (pure_eq_ok_iff.mp hok)).2
      exact ⟨_, rfl, .connected htcp hmatch rfl rfl (by rw [hunder]; rfl) (by rw [hunder]; rfl)⟩
  · obtain ⟨rfl, rfl⟩ := Prod.mk.inj (pure_eq_ok_iff.mp hok)
    exact .inr ⟨rfl, rfl⟩

theorem askHandlers_ok
    (hok : askHandlers ephemeralPort lookup packet packet.direction = .ok (lookup', found)) :
    (∃ tracked, found = some tracked ∧ Finds lookup packet tracked) ∨
      found = none ∧ lookup' = lookup ∧
        (packet.tcp = none ∨ listenMatches lookup packet.direction = false) := by
  unfold askHandlers at hok
  cases htcp : packet.tcp with
  | none =>
    rw [htcp] at hok
    obtain ⟨rfl, rfl⟩ := Prod.mk.inj (pure_eq_ok_iff.mp hok)
    exact .inr ⟨rfl, rfl, .inl rfl⟩
  | some tcp =>
    rw [htcp] at hok
    obtain ⟨⟨next, first⟩, hlisten, hrest⟩ := bind_eq_ok_iff.mp hok
    rcases handleListen_ok hlisten htcp with ⟨tracked, rfl, hfinds⟩ | ⟨rfl, rfl, hnot⟩
    · obtain rfl := (Prod.mk.inj (pure_eq_ok_iff.mp hrest)).2
      exact .inl ⟨tracked, rfl, hfinds⟩
    · rcases handleConnect_ok hrest htcp with hfinds | ⟨rfl, rfl⟩
      · exact .inl hfinds
      · exact .inr ⟨rfl, rfl, .inr hnot⟩

theorem socketForForeignPort_ok (hok : socketForForeignPort lookup packet = .ok found) :
    lookup.socketUnderTest = found := by
  unfold socketForForeignPort at hok
  split at hok
  · exact pure_eq_ok_iff.mp hok
  · split at hok
    · exact pure_eq_ok_iff.mp hok
    · cases hok

theorem findOrCreateSocketForScriptPacket_ok (hok : findOrCreateSocketForScriptPacket ephemeralPort
    lookup packet packet.direction = .ok (lookup', some tracked)) :
    Finds lookup packet tracked := by
  unfold findOrCreateSocketForScriptPacket at hok
  obtain ⟨⟨next, first⟩, hask, hrest⟩ := bind_eq_ok_iff.mp hok
  rcases askHandlers_ok hask with ⟨found, rfl, hfinds⟩ | ⟨rfl, rfl, hnot⟩
  · have hsame := (Prod.mk.inj (pure_eq_ok_iff.mp hrest)).2
    exact Option.some.inj hsame ▸ hfinds
  · refine .known hnot ?_
    dsimp only at hrest
    cases hunder : next.socketUnderTest with
    | none =>
      rw [hunder] at hrest
      obtain ⟨answer, hport, hrest⟩ := bind_eq_ok_iff.mp hrest
      obtain rfl := (Prod.mk.inj (pure_eq_ok_iff.mp hrest)).2
      exact hunder ▸ socketForForeignPort_ok hport
    | some underTest =>
      rw [hunder] at hrest
      obtain ⟨answer, -, hrest⟩ := bind_eq_ok_iff.mp hrest
      split at hrest
      · exact (Prod.mk.inj (pure_eq_ok_iff.mp hrest)).2
      · obtain ⟨answer, hport, hrest⟩ := bind_eq_ok_iff.mp hrest
        obtain rfl := (Prod.mk.inj (pure_eq_ok_iff.mp hrest)).2
        exact hunder ▸ socketForForeignPort_ok hport

theorem runPacketEventSocket_ok (hok : runPacketEventSocket ephemeralPort lineNumber lookup packet =
    .ok (lookup', tracked)) : Finds lookup packet tracked := by
  unfold runPacketEventSocket at hok
  obtain ⟨_, -, hok⟩ := bind_eq_ok_iff.mp hok
  split at hok
  · rename_i next socket hfind
    have hsame := (Prod.mk.inj (pure_eq_ok_iff.mp hok)).2
    exact hsame ▸ findOrCreateSocketForScriptPacket_ok hfind
  · cases hok
  · cases hok
  · cases hok

theorem listenMatches_iff : listenMatches state.lookup packet.direction = true ↔
    packet.direction = .inbound ∧ if state.config.lookup.isWireServer
      then state.socketUnderTest = none
      else ∀ socket, state.socketUnderTest = some socket → socket.state = .passiveListening := by
  have hunder : state.lookup.socketUnderTest =
      state.socketUnderTest.map EventSocket.toTrackedSocket := rfl
  have hconfig : state.lookup.config = state.config.lookup := rfl
  unfold listenMatches
  rw [hunder, hconfig]
  cases state.socketUnderTest <;> simp

theorem connectMatches_iff :
    connectMatches state.lookup packet.buffer tcp packet.direction = true ↔
      packet.direction = .outbound ∧ Tcp.syn packet.buffer tcp = true ∧
        Tcp.ack packet.buffer tcp = false ∧ if state.config.lookup.isWireServer
          then state.socketUnderTest = none
          else ∃ socket, state.socketUnderTest = some socket ∧
            socket.state = .activeConnecting := by
  have hunder : state.lookup.socketUnderTest =
      state.socketUnderTest.map EventSocket.toTrackedSocket := rfl
  have hconfig : state.lookup.config = state.config.lookup := rfl
  unfold connectMatches
  rw [hunder, hconfig]
  cases state.socketUnderTest <;> simp [and_assoc]

/-- The lookup makes at most one move. -/
theorem lookup_moves (hok : runPacketEventSocket ephemeralPort lineNumber state.lookup e.packet =
    .ok (lookup', tracked)) : Moves e state.knowledge
      ({ state.eventSocket e.packet with toTrackedSocket := tracked } : EventSocket).knowledge := by
  have hunder : state.lookup.socketUnderTest =
      state.socketUnderTest.map EventSocket.toTrackedSocket := rfl
  rw [EventSocket.knowledge_tracked]
  unfold EventState.knowledge EventState.eventSocket
  cases runPacketEventSocket_ok hok with
  | @listened tcp htcp hmatch hstate hlocal hscript hlive =>
    obtain ⟨hinbound, hwho⟩ := listenMatches_iff.mp hmatch
    rw [hstate, hlocal, hscript, hlive]
    refine .single ?_
    cases hsocket : state.socketUnderTest with
    | none => exact .listen hinbound htcp (.inl rfl)
    | some socket =>
      have hlistening : socket.state = .passiveListening := by
        rw [hsocket] at hwho
        grind
      simp only [htcp, hmatch, Option.isSome_some, Bool.and_self, if_true]
      exact .listen hinbound htcp (.inr hlistening)
  | @connected tcp htcp hmatch hstate hlocal hscript hlive =>
    obtain ⟨houtbound, hsyn, hack, hwho⟩ := connectMatches_iff.mp hmatch
    have hisSyn : isSyn e.packet.toPacket = true := by
      simp [isSyn, htcp, hsyn, hack]
    have hnot : listenMatches state.lookup e.packet.direction = false := by
      simp [listenMatches, houtbound]
    rw [hstate, hlocal, hscript, hlive, hunder, hnot]
    refine .single ?_
    cases hsocket : state.socketUnderTest with
    | none => exact .connect houtbound htcp hisSyn (.inl rfl)
    | some socket =>
      have hconnecting : socket.state = .activeConnecting := by
        rw [hsocket] at hwho
        grind
      rw [Bool.and_false]
      exact Move.connect (k := socket.knowledge) houtbound htcp hisSyn (.inr hconnecting)
  | known hnot hfound =>
    rw [hunder] at hfound
    obtain ⟨socket, hsocket, rfl⟩ := Option.map_eq_some_iff.mp hfound
    refine .of_eq ?_
    rcases hnot with hnone | hmatch
    · simp [hsocket, hnone]
      rfl
    · simp [hsocket, hmatch]
      rfl

end Lookup

/-! ## Sniffing -/

section Sniffs

variable {e : PacketEvent} {socket socket' : EventSocket} {live packet : FullPacket}
  {old new changed : Socket} {s s' : Sniffing} {expected payload : Int} {config : SegmentConfig}
  {script sniffed : FullPacket} {results : List (Status FullPacket)}

/-- The sequence number of the remote end is not changed by the translation. -/
theorem EventSocket.knowledge_update {k : Knowledge} (h : changed.knowledge = k)
    (hremote : k.remote = socket.knowledge.remote) : (socket.update changed).knowledge = k := by
  subst h
  have hupdate : (socket.update changed).knowledge =
      ⟨changed.state, changed.localOrigin, socket.knowledge.remote⟩ := rfl
  rw [hupdate, ← hremote]
  rfl

/-- A packet with a UDP header has no TCP header. -/
theorem IsParsed.tcp_of_udp (hp : IsParsed live) (hudp : live.udp.isSome = true) :
    live.tcp = none := by
  obtain ⟨outer, ip, last, p, q, hl⟩ := hp.shape
  rw [hl.udp] at hudp
  rw [hl.tcp]
  split_ifs at hudp ⊢ <;> simp_all

theorem IsParsed.tcp_of_icmp (hp : IsParsed live)
    (hicmp : live.icmpv4.isSome = true ∨ live.icmpv6.isSome = true) : live.tcp = none := by
  obtain ⟨outer, ip, last, p, q, hl⟩ := hp.shape
  rw [hl.icmpv4, hl.icmpv6] at hicmp
  rw [hl.tcp]
  split_ifs at hicmp ⊢ <;> simp_all

/-- What a socket learns of a packet that it may have sent. -/
theorem findConnect_ok (hp : IsParsed live)
    (hok : findConnectForLivePacket socket live.toPacket = .ok (some socket')) :
    socket'.knowledge = socket.knowledge ∨ socket.state = .activeSynSent ∧
      isSyn live.toPacket = true ∧ ∃ l, live.tcp = some l ∧
        socket'.knowledge = ⟨socket.state, ⟨socket.scriptLocalIsn, Tcp.seq live.buffer l⟩,
          socket.knowledge.remote⟩ := by
  unfold findConnectForLivePacket at hok
  obtain ⟨tuple, -, hok⟩ := bind_eq_ok_iff.mp hok
  dsimp only at hok
  split at hok
  · rename_i hmatch
    obtain rfl := Option.some.inj (pure_eq_ok_iff.mp hok)
    cases htcp : live.tcp with
    | none => exact .inl rfl
    | some l =>
      right
      have hudp : live.udp.isSome = false := by
        by_contra h
        cases htcp.symm.trans (hp.tcp_of_udp (Bool.not_eq_false _ ▸ h))
      have hicmp : isIcmpOf socket live.toPacket = false := by
        by_contra h
        have hsome : live.icmpv4.isSome = true ∨ live.icmpv6.isSome = true := by
          unfold isIcmpOf at h
          grind
        cases htcp.symm.trans (hp.tcp_of_icmp hsome)
      rw [hudp, hicmp] at hmatch
      simp only [Bool.false_and, Bool.false_or, Bool.or_false, Bool.and_eq_true,
        decide_eq_true_eq] at hmatch
      exact ⟨hmatch.1.2, hmatch.1.1.1, l, rfl, rfl⟩
  · cases hok

/-- The socket of a sniffed packet has learnt the sequence number of its own SYN, or nothing. -/
theorem sniffOutbound_moves (hp : IsParsed live) (houtbound : e.packet.direction = .outbound)
    (hlive : .ok live ∈ e.received)
    (hok : sniffOutboundLivePacket socket live.toPacket = .ok (some socket')) :
    Moves e socket.knowledge socket'.knowledge ∧ socket'.knowledge.state = socket.state ∧
      socket'.knowledge.own.script = socket.scriptLocalIsn := by
  unfold sniffOutboundLivePacket at hok
  obtain ⟨direction, -, hok⟩ := bind_eq_ok_iff.mp hok
  split at hok
  · obtain rfl := Option.some.inj (pure_eq_ok_iff.mp hok)
    exact ⟨.refl, rfl, rfl⟩
  · rcases findConnect_ok hp hok with hsame | ⟨hsent, hsyn, l, htcp, hlearned⟩
    · rw [hsame]
      exact ⟨.refl, rfl, rfl⟩
    · rw [hlearned]
      exact ⟨.single (.sniffSyn houtbound hsent hlive htcp hsyn), rfl, rfl⟩

/-- A turn of the loop: what the socket learns, and what is kept of the first packet. -/
structure Turned (script live : FullPacket) (s s' : Sniffing) (sniffed : FullPacket) : Prop where
  socket : ∃ t, rememberLiveIsn s.socket script live = .ok t ∧
    convertLivePacket t live = .ok (s'.socket, sniffed)
  first : s.packets = [] → s'.packets = [sniffed] ∧ s'.packetCount = s.packetCount + 1 ∧
    ∃ payload, packetPayloadLen live.toPacket = .ok payload ∧
      s'.sniffedPayloadLen = s.sniffedPayloadLen + payload

theorem appendSniffed_socket (hok : appendSniffed expected payload s sniffed = .ok s') :
    s'.socket = s.socket := by
  unfold appendSniffed at hok
  split at hok
  · exact (Except.ok.inj hok) ▸ rfl
  · obtain ⟨_, -, hok⟩ := bind_eq_ok_iff.mp hok
    obtain ⟨_, -, hok⟩ := bind_eq_ok_iff.mp hok
    split at hok
    · exact (pure_eq_ok_iff.mp hok) ▸ rfl
    · obtain ⟨_, -, hok⟩ := bind_eq_ok_iff.mp hok
      exact (pure_eq_ok_iff.mp hok) ▸ rfl

theorem sniffTurn_turned (hok : sniffTurn script expected s ⟨live, id⟩ = .ok s') :
    ∃ sniffed, Turned script live s s' sniffed := by
  unfold sniffTurn at hok
  obtain ⟨payload, hpayload, hok⟩ := bind_eq_ok_iff.mp hok
  obtain ⟨t, hremember, hok⟩ := bind_eq_ok_iff.mp hok
  obtain ⟨⟨socket, sniffed⟩, hconvert, hok⟩ := bind_eq_ok_iff.mp hok
  obtain ⟨u, happend, hok⟩ := bind_eq_ok_iff.mp hok
  obtain ⟨count, hcount, hok⟩ := bind_eq_ok_iff.mp hok
  obtain ⟨sum, hsum, hok⟩ := bind_eq_ok_iff.mp hok
  obtain rfl := pure_eq_ok_iff.mp hok
  refine ⟨sniffed, ⟨t, hremember, (appendSniffed_socket happend) ▸ hconvert⟩, fun hempty => ?_⟩
  simp only [appendSniffed, hempty, List.getLast?_nil, Except.ok.injEq] at happend
  subst happend
  exact ⟨rfl, addInt_eq_ok hcount, payload, ofFault_eq_ok_iff.mp (halting_eq_ok_iff.mp hpayload),
    addInt_eq_ok hsum⟩

theorem convertLivePacket_knowledge (hok : convertLivePacket old live = .ok (new, sniffed)) :
    new.knowledge = old.knowledge := by
  unfold convertLivePacket at hok
  split at hok
  · obtain ⟨_, -, hok⟩ := bind_eq_ok_iff.mp hok
    rw [← (Prod.mk.inj (pure_eq_ok_iff.mp hok)).1]
    rfl
  · rw [← (Prod.mk.inj (pure_eq_ok_iff.mp hok)).1]

/-- The live sequence number of a SYNACK is learnt by a socket that the script let expect it. -/
theorem rememberLiveIsn_ok (hok : rememberLiveIsn old script live = .ok new) :
    expectsSynack old script = false ∧ new = old ∨
      expectsSynack old script = true ∧ ∃ l, live.tcp = some l ∧ new.knowledge =
        ⟨.passiveSynackSent, ⟨old.script.localIsn, Tcp.seq live.buffer l⟩, old.remoteOrigin⟩ := by
  unfold rememberLiveIsn at hok
  split at hok
  · rename_i hexpects
    split at hok
    · rename_i l htcp
      rw [← Except.ok.inj hok]
      exact .inr ⟨hexpects, l, htcp, rfl⟩
    · cases hok
  · rename_i hexpects
    exact .inl ⟨by simpa using hexpects, (Except.ok.inj hok).symm⟩

theorem expectsSynack_iff : expectsSynack old script = true ↔
    old.state = .passivePacketReceived ∧ isSynack script = true := by
  simp [expectsSynack]

theorem isSynack_tcp (h : isSynack packet = true) : ∃ tcp, packet.tcp = some tcp ∧
    Tcp.syn packet.buffer tcp = true ∧ Tcp.ack packet.buffer tcp = true := by
  unfold isSynack at h
  split at h
  · rename_i tcp htcp
    exact ⟨tcp, htcp, by simpa using h⟩
  · cases h

/-- A socket that expects a SYNACK has the sequence number of the script for it. -/
def Expecting (socket : EventSocket) (script : FullPacket) : Prop :=
  expectsSynack socket.toSocket script = true → ∀ tcp, script.tcp = some tcp →
    socket.scriptLocalIsn = Tcp.seq script.buffer tcp

/-- A turn learns the sequence number of a SYNACK if it is expected. -/
theorem turned_moves (houtbound : e.packet.direction = .outbound)
    (hlive : .ok live ∈ e.received) (hexpecting : Expecting socket e.packet)
    (hturned : Turned e.packet live { s with socket := socket.toSocket } s' sniffed) :
    Moves e socket.knowledge (socket.update s'.socket).knowledge ∧
      Expecting (socket.update s'.socket) e.packet := by
  obtain ⟨t, hremember, hconvert⟩ := hturned.socket
  have hkept := convertLivePacket_knowledge hconvert
  rcases rememberLiveIsn_ok hremember with ⟨hnot, rfl⟩ | ⟨hexpects, l, htcp, hlearned⟩
  · have hsame : (socket.update s'.socket).knowledge = socket.knowledge :=
      EventSocket.knowledge_update hkept rfl
    refine ⟨.of_eq hsame, fun h => ?_⟩
    obtain ⟨hreceived, hsynack⟩ := expectsSynack_iff.mp h
    have hstate : socket.state = .passivePacketReceived :=
      (congrArg Knowledge.state hsame).symm.trans hreceived
    cases hnot.symm.trans (expectsSynack_iff.mpr ⟨hstate, hsynack⟩)
  · have hsent := EventSocket.knowledge_update (hkept.trans hlearned) rfl
    obtain ⟨hreceived, hsynack⟩ := expectsSynack_iff.mp hexpects
    obtain ⟨tcp, hscript, -⟩ := isSynack_tcp hsynack
    refine ⟨hsent ▸ .single ?_, fun h => ?_⟩
    · exact .sniffSynack houtbound hscript hsynack hreceived (hexpecting hexpects tcp hscript) hlive
        htcp
    · cases (congrArg Knowledge.state hsent).symm.trans (expectsSynack_iff.mp h).1

theorem outboundLoop_moves (houtbound : e.packet.direction = .outbound)
    (hparsed : ∀ live, .ok live ∈ e.received → IsParsed live)
    (hresults : ∀ result ∈ results, result ∈ e.received) (hexpecting : Expecting socket e.packet)
    (hok : outboundLoop config e.packet expected results socket s = .ok (some (socket', s'))) :
    Moves e socket.knowledge socket'.knowledge := by
  induction results generalizing socket s with
  | nil => cases Except.ok.inj hok
  | cons result results ih =>
    have hrest := fun r hr => hresults r (List.mem_cons_of_mem _ hr)
    rw [outboundLoop] at hok
    obtain ⟨live, hresult, hok⟩ := bind_eq_ok_iff.mp hok
    obtain ⟨found, hfound, hok⟩ := bind_eq_ok_iff.mp hok
    have hfound := ofFault_eq_ok_iff.mp (halting_eq_ok_iff.mp hfound)
    have hlive : .ok live ∈ e.received := hresult ▸ hresults _ List.mem_cons_self
    cases found with
    | none => exact ih hrest hexpecting hok
    | some sniffer =>
      obtain ⟨t, hturn, hok⟩ := bind_eq_ok_iff.mp hok
      obtain ⟨hsniff, hstate, hscript⟩ :=
        sniffOutbound_moves (hparsed live hlive) houtbound hlive hfound
      obtain ⟨sniffed, hturned⟩ := sniffTurn_turned hturn
      have hexpecting : Expecting sniffer e.packet := fun h tcp htcp => by
        obtain ⟨hreceived, hsynack⟩ := expectsSynack_iff.mp h
        exact hscript.trans
          (hexpecting (expectsSynack_iff.mpr ⟨hstate.symm.trans hreceived, hsynack⟩) tcp htcp)
      obtain ⟨hturn, hstill⟩ := turned_moves houtbound hlive hexpecting hturned
      have hmoves := hsniff.trans hturn
      dsimp only at hok
      split at hok
      · exact hmoves.trans (ih hrest hstill hok)
      · obtain ⟨rfl, rfl⟩ := Prod.mk.inj (Option.some.inj (pure_eq_ok_iff.mp hok))
        exact hmoves

end Sniffs

/-! ## The events -/

section Events

variable {platform : EventPlatform} {e : PacketEvent} {state next : EventState} {done : EventDone}
  {socket : EventSocket} {old : Socket} {verify : VerifyState} {verdict : Verdict}
  {mapping : OutboundMapping} {s : Sniffing} {live actual script : FullPacket} {expected : Int}
  {config : SegmentConfig} {hashKey : UInt32 → UInt32} {heap : Memory} {printing : Printing}
  {flowlabelMap flowlabelMap' : FlowlabelMap} {status : PacketStatus} {error : Option String}

/-- Only what belongs to timestamps is changed. -/
def Socket.SameConnection (old new : Socket) : Prop :=
  ∃ tsValMap found firstScriptTsVal firstActualTsVal firstScriptTsEcr firstActualTsEcr, new =
    { old with
      tsValMap := tsValMap
      foundFirstTcpTs := found
      firstScriptTsVal := firstScriptTsVal
      firstActualTsVal := firstActualTsVal
      firstScriptTsEcr := firstScriptTsEcr
      firstActualTsEcr := firstActualTsEcr }

theorem Socket.SameConnection.refl (old : Socket) : old.SameConnection old :=
  ⟨_, _, _, _, _, _, rfl⟩

theorem mapTimestamps_same (hok : mapTimestamps hashKey old actual script = .ok mapping) :
    old.SameConnection mapping.socket := by
  unfold mapTimestamps at hok
  split at hok
  · obtain ⟨scriptTsVal, -, hok⟩ := bind_eq_ok_iff.mp hok
    obtain ⟨actualTsVal, -, hok⟩ := bind_eq_ok_iff.mp hok
    obtain ⟨scriptTsEcr, -, hok⟩ := bind_eq_ok_iff.mp hok
    obtain ⟨actualTsEcr, -, hok⟩ := bind_eq_ok_iff.mp hok
    obtain ⟨mapped, -, hok⟩ := bind_eq_ok_iff.mp hok
    rw [← pure_eq_ok_iff.mp hok]
    dsimp only
    unfold findBaseline
    split <;> exact ⟨_, _, _, _, _, _, rfl⟩
  · rw [← pure_eq_ok_iff.mp hok]
    exact .refl old

theorem mapOutboundLivePacket_same
    (hok : mapOutboundLivePacket hashKey old live actual script = .ok mapping) :
    old.SameConnection mapping.socket := by
  unfold mapOutboundLivePacket at hok
  obtain ⟨_, -, hok⟩ := bind_eq_ok_iff.mp hok
  obtain ⟨_, -, hok⟩ := bind_eq_ok_iff.mp hok
  split at hok
  · rw [← pure_eq_ok_iff.mp hok]
    exact .refl old
  · obtain ⟨_, -, hok⟩ := bind_eq_ok_iff.mp hok
    obtain ⟨_, -, hok⟩ := bind_eq_ok_iff.mp hok
    exact mapTimestamps_same hok

theorem reportVerdict_socket (hok : reportVerdict printing verify live actual script old
    flowlabelMap status error = .ok verdict) : verdict.socket = old := by
  unfold reportVerdict at hok
  obtain ⟨_, -, hok⟩ := bind_eq_ok_iff.mp hok
  obtain ⟨_, -, hok⟩ := bind_eq_ok_iff.mp hok
  rw [← pure_eq_ok_iff.mp hok]

/-- The verdict changes nothing but the timestamps and the flow labels. -/
theorem verifyOutboundLivePacket_same (hok : verifyOutboundLivePacket printing hashKey heap
    verify old flowlabelMap script live = .ok verdict) : old.SameConnection verdict.socket := by
  unfold verifyOutboundLivePacket at hok
  obtain ⟨actual, -, hok⟩ := bind_eq_ok_iff.mp hok
  split at hok
  · cases hok
  · exact reportVerdict_socket hok ▸ .refl old
  · split at hok
    · cases hok
    · obtain ⟨_, -, hok⟩ := bind_eq_ok_iff.mp hok
      exact reportVerdict_socket hok ▸ .refl old
    · rename_i hmap
      have hmapped := mapOutboundLivePacket_same hmap
      split at hok
      · cases hok
      · exact reportVerdict_socket hok ▸ hmapped
      · exact reportVerdict_socket hok ▸ hmapped

/-- The socket is updated with the result of the comparison, and has its map of flow labels. -/
theorem concludeOutbound_socket
    (hok : concludeOutbound platform verify script expected socket s = .ok done) :
    ∃ changed flowlabelMap, socket.toSocket.SameConnection changed ∧
      done.socket = { socket.update changed with flowlabelMap := flowlabelMap } := by
  unfold concludeOutbound at hok
  obtain ⟨_, -, hok⟩ := bind_eq_ok_iff.mp hok
  obtain ⟨live, -, hok⟩ := bind_eq_ok_iff.mp hok
  obtain ⟨verdict, hverdict, hok⟩ := bind_eq_ok_iff.mp hok
  have hsame := verifyOutboundLivePacket_same (halting_eq_ok_iff.mp hverdict)
  split at hok
  · exact ⟨verdict.socket, verdict.flowlabelMap, hsame, pure_eq_ok_iff.mp hok ▸ rfl⟩
  · exact ⟨verdict.socket, verdict.flowlabelMap, hsame, pure_eq_ok_iff.mp hok ▸ rfl⟩
  · cases hok

theorem concludeOutbound_knowledge
    (hok : concludeOutbound platform verify script expected socket s = .ok done) :
    done.socket.knowledge = socket.knowledge := by
  obtain ⟨changed, flowlabelMap, ⟨_, _, _, _, _, _, rfl⟩, hsocket⟩ := concludeOutbound_socket hok
  rw [hsocket]
  rfl

/-- What the script says of a SYNACK is remembered before it is sniffed. -/
theorem rememberScriptIsn_moves (socket : EventSocket)
    (houtbound : e.packet.direction = .outbound) :
    Moves e socket.knowledge
        (socket.update (rememberScriptIsn socket.toSocket e.packet)).knowledge ∧
      Expecting (socket.update (rememberScriptIsn socket.toSocket e.packet)) e.packet := by
  unfold rememberScriptIsn
  cases htcp : e.packet.tcp with
  | none =>
    refine ⟨.of_eq rfl, fun _ tcp h => ?_⟩
    cases htcp.symm.trans h
  | some tcp =>
    dsimp only
    split
    · rename_i hexpects
      obtain ⟨hreceived, hsynack⟩ := expectsSynack_iff.mp hexpects
      refine ⟨.single (.expectSynack houtbound htcp hsynack hreceived), fun _ tcp' h => ?_⟩
      obtain rfl := Option.some.inj (htcp.symm.trans h)
      rfl
    · rename_i hnot
      exact ⟨.of_eq rfl, fun h => absurd h hnot⟩

theorem doOutboundScriptPacket_moves (houtbound : e.packet.direction = .outbound)
    (hparsed : ∀ live, .ok live ∈ e.received → IsParsed live)
    (hok : doOutboundScriptPacket platform config verify socket e.packet e.received =
      .ok (some done)) : Moves e socket.knowledge done.socket.knowledge := by
  unfold doOutboundScriptPacket at hok
  obtain ⟨expected, -, hok⟩ := bind_eq_ok_iff.mp hok
  obtain ⟨result, hloop, hok⟩ := bind_eq_ok_iff.mp hok
  obtain ⟨hfirst, hexpecting⟩ := rememberScriptIsn_moves socket houtbound
  cases result with
  | none => cases pure_eq_ok_iff.mp hok
  | some pair =>
    obtain ⟨concluded, hconclude, hok⟩ := bind_eq_ok_iff.mp hok
    obtain rfl := Option.some.inj (pure_eq_ok_iff.mp hok)
    rw [concludeOutbound_knowledge hconclude]
    exact hfirst.trans
      (outboundLoop_moves houtbound hparsed (fun _ h => h) hexpecting hloop)

/-- An inbound packet ends a handshake before it is mapped. -/
theorem receiveHandshake_moves {tcp : Nat} (hinbound : e.packet.direction = .inbound)
    (htcp : e.packet.tcp = some tcp) :
    Moves e socket.knowledge (receiveHandshake socket e.packet.buffer tcp).knowledge := by
  unfold receiveHandshake
  split_ifs with hsent hsyn
  · exact .single (.receiveAck hinbound htcp hsent.2 hsent.1)
  · have hsynack : isSynack e.packet = true := by
      simp [isSynack, htcp, hsyn.2.1, hsyn.2.2]
    exact .single (.receiveSynack hinbound htcp hsynack hsyn.1)
  · exact .refl

theorem fillAnyip_knowledge {config : EventConfig} {packet : Packet} :
    (fillAnyip config socket packet).knowledge = socket.knowledge := by
  unfold fillAnyip
  split <;> rfl

theorem saveInjected_knowledge {socket' : EventSocket}
    (hok : saveInjected socket live = .ok socket') : socket'.knowledge = socket.knowledge := by
  unfold saveInjected at hok
  split at hok
  · obtain ⟨_, -, hok⟩ := bind_eq_ok_iff.mp hok
    rw [← pure_eq_ok_iff.mp hok]
    rfl
  · rw [← Except.ok.inj hok]

/-- What an inbound event has done. -/
structure Injects (platform : EventPlatform) (config : EventConfig) (e : PacketEvent)
    (socket ready : EventSocket) (done : EventDone) : Prop where
  moves : Moves e socket.knowledge ready.knowledge
  kept : done.socket.knowledge = ready.knowledge
  sent : ∃ copy mapped sent, packetCopy platform.heap e.packet = .ok copy ∧
    mapInboundPacket platform.hashKey ⟨config.tcpTsEcrScaled⟩ ready.toSocket copy =
      (mapped, .ok ()) ∧
    sendLiveIpPacket mapped = .ok sent ∧ done.injected = some sent

theorem doInboundScriptPacket_injects {config : EventConfig} {sends : Bool}
    (hinbound : e.packet.direction = .inbound)
    (hok : doInboundScriptPacket platform config socket e.packet sends = .ok done) :
    ∃ ready, Injects platform config e socket ready done := by
  unfold doInboundScriptPacket at hok
  obtain ⟨copy, hcopy, hok⟩ := bind_eq_ok_iff.mp hok
  obtain ⟨u, hresult, hok⟩ := bind_eq_ok_iff.mp hok
  obtain ⟨saved, hsaved, hok⟩ := bind_eq_ok_iff.mp hok
  obtain ⟨sent, hsent, hok⟩ := bind_eq_ok_iff.mp hok
  obtain ⟨_, -, hok⟩ := bind_eq_ok_iff.mp hok
  obtain rfl := pure_eq_ok_iff.mp hok
  refine ⟨_, ?_, saveInjected_knowledge (ofFault_eq_ok_iff.mp (halting_eq_ok_iff.mp hsaved)),
    copy, _, sent, halting_eq_ok_iff.mp hcopy, Prod.ext rfl hresult,
    halting_eq_ok_iff.mp hsent, rfl⟩
  rw [fillAnyip_knowledge]
  split
  · exact receiveHandshake_moves hinbound ‹_›
  · exact .refl

theorem reportEvent_ok {α : Type} {message : String → String} {result : Status α} {a : α}
    (hok : reportEvent message result = .ok a) : result = .ok a := by
  unfold reportEvent at hok
  split at hok
  · cases hok
  · exact hok

/-- What an event has done, with the socket that was found for it. -/
structure Ran (platform : EventPlatform) (state next : EventState) (e : PacketEvent)
    (done : EventDone) (socket : EventSocket) : Prop where
  found : Moves e state.knowledge socket.knowledge
  knowledge : next.knowledge = done.socket.knowledge
  config : next.config = state.config
  acted : (e.packet.direction = .outbound ∧ ∃ first,
      doOutboundScriptPacket platform state.config.segments (state.verify e.event) socket e.packet
        e.received = .ok (some first) ∧
      first.socket = done.socket ∧ (first.warning = none ↔ done.warning = none)) ∨
    e.packet.direction = .inbound ∧ ∃ ready, Injects platform state.config e socket ready done

theorem runPacketEvent_ran (hok : runPacketEvent platform state e = .ok (some (next, done))) :
    ∃ socket, Ran platform state next e done socket := by
  unfold runPacketEvent at hok
  obtain ⟨⟨lookup, tracked⟩, hlookup, hok⟩ := bind_eq_ok_iff.mp hok
  have hfound := lookup_moves hlookup
  refine ⟨{ state.eventSocket e.packet with toTrackedSocket := tracked }, ?_⟩
  dsimp only at hok
  split at hok
  · rename_i houtbound
    obtain ⟨result, hresult, hok⟩ := bind_eq_ok_iff.mp hok
    obtain ⟨first, rfl, hfinish⟩ := Option.map_eq_some_iff.mp (pure_eq_ok_iff.mp hok)
    obtain ⟨rfl, rfl⟩ := Prod.mk.inj hfinish
    exact ⟨hfound, rfl, rfl, .inl ⟨houtbound, first, reportEvent_ok hresult, rfl, by simp⟩⟩
  · rename_i hinbound
    obtain ⟨first, hresult, hok⟩ := bind_eq_ok_iff.mp hok
    obtain ⟨rfl, rfl⟩ := Prod.mk.inj (Option.some.inj (pure_eq_ok_iff.mp hok))
    obtain ⟨ready, hmoves, hkept, hsent⟩ :=
      doInboundScriptPacket_injects hinbound (reportEvent_ok hresult)
    exact ⟨hfound, rfl, rfl, .inr ⟨hinbound, ready, hmoves, hkept, hsent⟩⟩
  · cases hok

/-- An event makes a few moves. -/
theorem runPacketEvent_moves (hparsed : ∀ live, .ok live ∈ e.received → IsParsed live)
    (hok : runPacketEvent platform state e = .ok (some (next, done))) :
    Moves e state.knowledge next.knowledge := by
  obtain ⟨socket, hran⟩ := runPacketEvent_ran hok
  rw [hran.knowledge]
  rcases hran.acted with ⟨houtbound, first, hact, hsocket, -⟩ | ⟨hinbound, ready, hinjects⟩
  · exact hran.found.trans (hsocket ▸ doOutboundScriptPacket_moves houtbound hparsed hact)
  · exact hran.found.trans (hinjects.kept ▸ hinjects.moves)

end Events

/-! ## The handshake behind a socket -/

/-- The remote end has opened the connection with this packet. -/
def Opens (e : PacketEvent) (k : Knowledge) : Prop :=
  e.packet.direction = .inbound ∧ ∃ tcp, e.packet.tcp = some tcp ∧
    k.remote = ⟨Tcp.seq e.packet.buffer tcp, Tcp.seq e.packet.buffer tcp⟩

/-- The kernel has answered with a SYNACK that the script expects. -/
def AnswersOpen (e : PacketEvent) (k : Knowledge) : Prop :=
  e.packet.direction = .outbound ∧ isSynack e.packet = true ∧ ∃ tcp live l,
    e.packet.tcp = some tcp ∧ .ok live ∈ e.received ∧ live.tcp = some l ∧
      k.own = ⟨Tcp.seq e.packet.buffer tcp, Tcp.seq live.buffer l⟩

/-- The remote end has acknowledged something. -/
def Acknowledges (e : PacketEvent) : Prop :=
  e.packet.direction = .inbound ∧ ∃ tcp, e.packet.tcp = some tcp ∧
    Tcp.ack e.packet.buffer tcp = true

/-- The kernel has opened the connection as the script expects. -/
def Calls (e : PacketEvent) (k : Knowledge) : Prop :=
  e.packet.direction = .outbound ∧ isSyn e.packet.toPacket = true ∧ ∃ tcp,
    e.packet.tcp = some tcp ∧ k.own.script = Tcp.seq e.packet.buffer tcp

/-- The remote end has answered with a SYNACK. -/
def Accepts (e : PacketEvent) (k : Knowledge) : Prop :=
  isSynack e.packet = true ∧ Opens e k

/-- The packets of the handshake so far are among the events, in order. -/
def Explained (events : List PacketEvent) (k : Knowledge) : Prop :=
  match k.state with
  | .init | .new | .passiveListening | .activeConnecting => True
  | .passivePacketReceived => ∃ a, [a].Sublist events ∧ Opens a k
  | .passiveSynackSent => ∃ a b, [a, b].Sublist events ∧ Opens a k ∧ AnswersOpen b k
  | .passiveSynackAcked => ∃ a b c, [a, b, c].Sublist events ∧ Opens a k ∧ AnswersOpen b k ∧
    Acknowledges c
  | .activeSynSent => ∃ a, [a].Sublist events ∧ Calls a k
  | .activeSynAcked => ∃ a b, [a, b].Sublist events ∧ Calls a k ∧ Accepts b k

/-- No packet of a handshake was seen yet. -/
def SocketStateT.Fresh (state : SocketStateT) : Prop :=
  state = .init ∨ state = .new ∨ state = .passiveListening ∨ state = .activeConnecting

section Explanation

variable {platform : EventPlatform} {e : PacketEvent} {es fs : List PacketEvent}
  {k k' : Knowledge} {state next : EventState} {events : List (PacketEvent × EventDone)}

theorem SocketStateT.Fresh.explained (h : k.state.Fresh) : Explained es k := by
  unfold Explained
  rcases h with h | h | h | h <;> rw [h] <;> trivial

/-- More events explain no less. -/
theorem Explained.mono (h : Explained es k) (hsub : es.Sublist fs) : Explained fs k := by
  unfold Explained at h ⊢
  split at h
  · trivial
  · trivial
  · trivial
  · trivial
  · obtain ⟨a, ha, h⟩ := h
    exact ⟨a, ha.trans hsub, h⟩
  · obtain ⟨a, b, ha, h⟩ := h
    exact ⟨a, b, ha.trans hsub, h⟩
  · obtain ⟨a, b, c, ha, h⟩ := h
    exact ⟨a, b, c, ha.trans hsub, h⟩
  · obtain ⟨a, ha, h⟩ := h
    exact ⟨a, ha.trans hsub, h⟩
  · obtain ⟨a, b, ha, h⟩ := h
    exact ⟨a, b, ha.trans hsub, h⟩

/-- In the middle of an event, the events before it explain the socket, or the event is the last one
that does and cannot go on. -/
def Progress (es : List PacketEvent) (e : PacketEvent) (k : Knowledge) : Prop :=
  Explained es k ∨ Explained (es ++ [e]) k ∧
    (k.state = .passivePacketReceived ∧ e.packet.direction = .inbound ∨
      k.state = .passiveSynackSent ∧ e.packet.direction = .outbound ∨
      k.state = .passiveSynackAcked ∨
      k.state = .activeSynSent ∧ e.packet.direction = .outbound ∨
      k.state = .activeSynAcked)

/-- One case for each move. -/
theorem Progress.move (h : Progress es e k) (hmove : Move e k k') : Progress es e k' := by
  have hlast {l : List PacketEvent} (hl : l.Sublist es) : (l ++ [e]).Sublist (es ++ [e]) :=
    hl.append (.refl _)
  cases hmove with
  | listen hin htcp hfrom =>
    exact .inr ⟨⟨e, hlast (List.nil_sublist _), hin, _, htcp, rfl⟩, .inl ⟨rfl, hin⟩⟩
  | connect hout htcp hsyn hfrom =>
    exact .inr ⟨⟨e, hlast (List.nil_sublist _), hout, hsyn, _, htcp, rfl⟩,
      .inr (.inr (.inr (.inl ⟨rfl, hout⟩)))⟩
  | expectSynack hout htcp hsynack hfrom =>
    rcases h with h | ⟨-, h⟩
    · left
      unfold Explained at h ⊢
      rw [hfrom] at h ⊢
      exact h
    · grind
  | sniffSynack hout htcp hsynack hfrom hscript hlive hl =>
    rcases h with h | ⟨-, h⟩
    · unfold Explained at h
      rw [hfrom] at h
      obtain ⟨a, ha, hopens⟩ := h
      have hanswers : AnswersOpen e ⟨.passiveSynackSent, ⟨k.own.script, _⟩, k.remote⟩ :=
        ⟨hout, hsynack, _, _, _, htcp, hlive, hl, by rw [hscript]⟩
      exact .inr ⟨⟨a, e, hlast ha, hopens, hanswers⟩, .inr (.inl ⟨rfl, hout⟩)⟩
    · grind
  | sniffSyn hout hfrom hlive hl hsyn =>
    rcases h with h | ⟨h, hwhere⟩
    · left
      unfold Explained at h ⊢
      rw [hfrom] at h ⊢
      exact h
    · refine .inr ⟨?_, hwhere⟩
      unfold Explained at h ⊢
      rw [hfrom] at h ⊢
      exact h
  | receiveAck hin htcp hack hfrom =>
    rcases h with h | ⟨-, h⟩
    · unfold Explained at h
      rw [hfrom] at h
      obtain ⟨a, b, hab, hopens, hanswers⟩ := h
      exact .inr ⟨⟨a, b, e, hlast hab, hopens, hanswers, hin, _, htcp, hack⟩,
        .inr (.inr (.inl rfl))⟩
    · grind
  | receiveSynack hin htcp hsynack hfrom =>
    rcases h with h | ⟨-, h⟩
    · unfold Explained at h
      rw [hfrom] at h
      obtain ⟨a, ha, hcalls⟩ := h
      exact .inr ⟨⟨a, e, hlast ha, hcalls, hsynack, hin, _, htcp, rfl⟩,
        .inr (.inr (.inr (.inr rfl)))⟩
    · grind

theorem Explained.moves (h : Explained es k) (hmoves : Moves e k k') :
    Explained (es ++ [e]) k' := by
  have hprogress : Progress es e k' := by
    induction hmoves with
    | refl => exact .inl h
    | tail _ hmove ih => exact ih.move hmove
  rcases hprogress with h | ⟨h, -⟩
  · exact h.mono (List.sublist_append_left es [e])
  · exact h

/-- Between two system calls, the packets of a handshake come in order: behind the state of the
socket stand the events that led to it, and what it knows of the sequence numbers is theirs. -/
theorem explained_of_path (hpath : Path (EventStep platform) state events next)
    (hfresh : state.knowledge.state.Fresh)
    (hparsed : ∀ x ∈ events, ∀ live, .ok live ∈ x.1.received → IsParsed live) :
    Explained (events.map Prod.fst) next.knowledge := by
  suffices h : ∀ before, Explained before state.knowledge →
      Explained (before ++ events.map Prod.fst) next.knowledge from h [] hfresh.explained
  clear hfresh
  induction hpath with
  | nil =>
    intro before h
    rwa [List.map_nil, List.append_nil]
  | cons hstep _ ih =>
    intro before h
    have hmoved := h.moves (runPacketEvent_moves (hparsed _ List.mem_cons_self) hstep)
    rw [List.map_cons, List.append_cons]
    exact ih (fun x hx => hparsed x (List.mem_cons_of_mem _ hx)) _ hmoved

end Explanation

/-! ## A passive connection -/

/-- A packet without payload and options. -/
def handshakeArgs (direction : Direction) (flags : String) (seq ack : UInt32)
    (srcPort dstPort : UInt16) : TcpArgs :=
  { synArgs with
    direction := direction
    srcPort := srcPort
    dstPort := dstPort
    flags := flags.toList
    startSequence := seq
    tcpPayloadBytes := 0
    ackSequence := ack
    tcpOptions := none }

def scriptPacket (args : TcpArgs) : FullPacket :=
  match newTcpPacket (fun _ => 0) args with
  | .ok (.ok packet) => packet
  | _ => (packetNew (fun _ => 0) 0).full

/-- The packet that the parser makes of these bytes. -/
def kernelPacket (args : TcpArgs) : FullPacket :=
  match runParsePacket (scriptPacket args).buffer 60 60 .layer3Ip with
  | .ok (_, s) => s.packet.full
  | .error _ => (packetNew (fun _ => 0) 0).full

theorem isParsed_kernelPacket {args : TcpArgs}
    (h : ∃ s, runParsePacket (scriptPacket args).buffer 60 60 .layer3Ip = .ok (.ok, s) ∧
      s.packet.buffer = (scriptPacket args).buffer) : IsParsed (kernelPacket args) := by
  obtain ⟨s, hrun, hbuffer⟩ := h
  have hpacket : kernelPacket args = s.packet.full := by
    rw [kernelPacket, hrun]
  rw [hpacket]
  exact ⟨⟨60, 60, .layer3Ip, s, by decide, hbuffer ▸ hrun, rfl⟩, rfl⟩

def testPlatform : EventPlatform := ⟨plainPrinting, id, fun _ => 0⟩

/-- A wire server before the first packet of a test. -/
def serverState : EventState where
  config := ⟨⟨"passive.pkt", true, ⟨.inet6, List.replicate 16 0⟩, ⟨.inet6, List.replicate 16 0⟩,
    8080, 8080⟩, ⟨⟨4000, 0⟩, false⟩, false, false, false⟩
  socketUnderTest := none
  nextEphemeralPort := some 40000
  scriptStartTimeUsecs := 0
  liveStartTimeUsecs := 0

def packetEvent (packet : FullPacket) (received : List (Status FullPacket)) : PacketEvent :=
  ⟨1, ⟨.any, 0, 0, 0⟩, packet, 40000, received, true⟩

def synEvent : PacketEvent := packetEvent (scriptPacket (handshakeArgs .inbound "S" 7 0 0 0)) []

/-- The kernel answers with a sequence number of its own. -/
def synackEvent : PacketEvent :=
  packetEvent (scriptPacket (handshakeArgs .outbound "S." 0 8 0 0))
    [.ok (kernelPacket (handshakeArgs .outbound "S." 5000 8 8080 40000))]

def ackEvent : PacketEvent := packetEvent (scriptPacket (handshakeArgs .inbound "." 1 1 0 0)) []

def passiveEvents : List PacketEvent := [synEvent, synackEvent, ackEvent]

theorem isParsed_passiveEvents :
    ∀ e ∈ passiveEvents, ∀ live, .ok live ∈ e.received → IsParsed live := by
  have hkernel : IsParsed (kernelPacket (handshakeArgs .outbound "S." 5000 8 8080 40000)) :=
    isParsed_kernelPacket ⟨_, rfl, rfl⟩
  intro e he live hlive
  simp only [passiveEvents, List.mem_cons, List.not_mem_nil, or_false] at he
  rcases he with rfl | rfl | rfl
  · cases hlive
  · obtain rfl := Except.ok.inj (List.mem_singleton.mp hlive)
    exact hkernel
  · cases hlive

/-- These events run. -/
theorem path_passiveEvents : ∃ events next, Path (EventStep testPlatform) serverState events next ∧
    events.map Prod.fst = passiveEvents ∧
      next.knowledge = ⟨.passiveSynackAcked, ⟨0, 5000⟩, ⟨7, 7⟩⟩ := by
  obtain ⟨received, _, sent, _, acked, _, hsyn, hsynack, hack, hknown⟩ :
      ∃ received first sent second acked third,
        runPacketEvent testPlatform serverState synEvent = .ok (some (received, first)) ∧
        runPacketEvent testPlatform received synackEvent = .ok (some (sent, second)) ∧
        runPacketEvent testPlatform sent ackEvent = .ok (some (acked, third)) ∧
        acked.knowledge = ⟨.passiveSynackAcked, ⟨0, 5000⟩, ⟨7, 7⟩⟩ :=
    ⟨_, _, _, _, _, _, rfl, rfl, rfl, rfl⟩
  exact ⟨[(synEvent, _), (synackEvent, _), (ackEvent, _)], acked,
    .cons hsyn (.cons hsynack (.cons hack (.nil _))), rfl, hknown⟩

theorem explained_of_path_passive : ∃ next : EventState,
    next.knowledge.state = .passiveSynackAcked ∧ Explained passiveEvents next.knowledge := by
  obtain ⟨events, next, hpath, hevents, hknown⟩ := path_passiveEvents
  refine ⟨next, congrArg Knowledge.state hknown, hevents ▸ explained_of_path hpath (.inl rfl) ?_⟩
  intro x hx
  exact isParsed_passiveEvents x.1 (hevents ▸ List.mem_map_of_mem hx)

end QoSMos
