import QoSMos.Dump.Flags
import QoSMos.Outbound.Connection

/-!
# Resetting a connection

When the sockets of a test are closed, a RST is injected for the connection of each of them. Its
numbers are taken from the TCP headers that packet events have saved: it goes on behind the last
segment that was injected, or where the kernel said that it expects the next one.
-/

namespace QoSMos

open Returns LabelledPath

/-! ## The program -/

/-- A saved `struct tcp`, in memory. -/
def savedHeader (header : List UInt8) : Memory := writeBytes (fun _ => 0) 0 header

/-- The TCP header fields that `reset_connection` picks. -/
structure ResetFields where
  seq : UInt32
  ackSeq : UInt32
  window : UInt16
  deriving DecidableEq, Repr

/-- The sequence numbers that a segment takes up. -/
def segmentSpace (b : Memory) (tcp payloadLen : Nat) : UInt32 :=
  (if Tcp.syn b tcp then 1 else 0) + (if Tcp.fin b tcp then 1 else 0) + UInt32.ofNat payloadLen

def resetFields (socket : EventSocket) : ResetFields :=
  let injected := savedHeader socket.lastInjectedTcpHeader
  let outbound := savedHeader socket.lastOutboundTcpHeader
  if Tcp.ack injected 0 then
    { seq := UInt32.ofNat (Tcp.seq injected 0) +
        segmentSpace injected 0 socket.lastInjectedTcpPayloadLen
      ackSeq := UInt32.ofNat (Tcp.ackSeq injected 0)
      window := UInt16.ofNat (Tcp.window injected 0) }
  else if Tcp.ack outbound 0 then
    { seq := UInt32.ofNat (Tcp.ackSeq outbound 0)
      ackSeq := UInt32.ofNat (Tcp.seq outbound 0)
      window := 0 }
  else { seq := 0, ackSeq := UInt32.ofNat (Tcp.seq outbound 0) + 1, window := 0 }

/-- The arguments that `reset_connection` gives to `new_tcp_packet`. -/
def resetArgs (addressFamily : Int) (fields : ResetFields) : TcpArgs where
  addressFamily := addressFamily
  direction := .inbound
  ipInfo := ⟨⟨.none, 0⟩, 0, 0⟩
  srcPort := 0
  dstPort := 0
  flags := ['R', '.']
  startSequence := fields.seq
  tcpPayloadBytes := 0
  ackSequence := fields.ackSeq
  window := fields.window.toNat
  urgPtr := 0
  tcpOptions := none

/-- `reset_connection` up to the call of `netdev_send` -/
def resetConnection (heap : Memory) (socket : EventSocket) : Status FullPacket := do
  match ← halting (newTcpPacket heap (resetArgs socket.addressFamily (resetFields socket))) with
  | .error error => .error (.error error)
  | .ok packet =>
    let packet ← halting (ofFault
      (setPacketTuple packet (socketGetInbound socket.toSocket.live)))
    halting (sendLiveIpPacket packet)

/-- `socket_close`, with the RST that it injects; the file descriptor was closed before. -/
def socketClose (heap : Memory) (isWireClient sends : Bool) (socket : EventSocket) :
    Status (Option FullPacket) := do
  let live := socket.toSocket.live
  if socket.protocol = IPPROTO_TCP ∧ live.localEndpoint.port ≠ 0 ∧ live.remoteEndpoint.port ≠ 0 ∧
      isWireClient = false then
    let rst ← resetConnection heap socket
    if sends then return some rst
    else .error (.error ("error reseting connection" ++ "\n"))
  else return none

/-! ## Saved headers -/

section Headers

variable {b c : Memory} {p q i len : Nat}

/-- The headers agree between the ports and the checksum. -/
def SameHeader (b : Memory) (p : Nat) (c : Memory) (q : Nat) : Prop :=
  ∀ i, 4 ≤ i → i < 16 → b (p + i) = c (q + i)

theorem be32At_congr (h : ∀ i < 4, b (p + i) = c (q + i)) : be32At b p = be32At c q := by
  have h0 := h 0 (by omega)
  have h1 := h 1 (by omega)
  have h2 := h 2 (by omega)
  have h3 := h 3 (by omega)
  simp only [be32At, be16At, u8At, Nat.add_zero, Nat.add_assoc, Nat.reduceAdd] at h0 h1 h2 h3 ⊢
  rw [h0, h1, h2, h3]

namespace SameHeader

theorem seq (h : SameHeader b p c q) : Tcp.seq b p = Tcp.seq c q :=
  be32At_congr fun i hi => by
    simpa [Nat.add_assoc] using h (4 + i) (by omega) (by omega)

theorem ackSeq (h : SameHeader b p c q) : Tcp.ackSeq b p = Tcp.ackSeq c q :=
  be32At_congr fun i hi => by
    simpa [Nat.add_assoc] using h (8 + i) (by omega) (by omega)

theorem window (h : SameHeader b p c q) : Tcp.window b p = Tcp.window c q := by
  have h14 := h 14 (by omega) (by omega)
  have h15 := h 15 (by omega) (by omega)
  simp only [Tcp.window, be16At, u8At, Nat.add_assoc, Nat.reduceAdd, h14, h15]

theorem doff (h : SameHeader b p c q) : Tcp.doff b p = Tcp.doff c q := by
  simp only [Tcp.doff, u8At, h 12 (by omega) (by omega)]

theorem flags (h : SameHeader b p c q) : u8At b (p + 13) = u8At c (q + 13) :=
  congrArg UInt8.toNat (h 13 (by omega) (by omega))

theorem ack (h : SameHeader b p c q) : Tcp.ack b p = Tcp.ack c q := by
  simp only [Tcp.ack, h.flags]

theorem segmentSpace (h : SameHeader b p c q) :
    segmentSpace b p len = segmentSpace c q len := by
  have hsyn : Tcp.syn b p = Tcp.syn c q := by
    simp only [Tcp.syn, h.flags]
  have hfin : Tcp.fin b p = Tcp.fin c q := by
    simp only [Tcp.fin, h.flags]
  rw [QoSMos.segmentSpace, QoSMos.segmentSpace, hsyn, hfin]

theorem trans {d : Memory} {r : Nat} (h : SameHeader b p c q) (h' : SameHeader c q d r) :
    SameHeader b p d r := fun i hi hlt => (h i hi hlt).trans (h' i hi hlt)

end SameHeader

/-- A saved header is that of the packet. -/
theorem sameHeader_saved : SameHeader (savedHeader (readBytes b p TCP_BYTES)) 0 b p := by
  intro i _ hi
  have hbytes : TCP_BYTES = 20 := rfl
  rw [savedHeader, writeBytes_inside (by rw [length_readBytes]; omega),
    getD_readBytes (by omega)]

end Headers

/-! ## The RST -/

section Rst

variable {heap : Memory} {socket : EventSocket} {packet rst live : FullPacket}
  {fields : ResetFields}
  {addressFamily : Int}

/-- A segment with these numbers that has the flags RST and ACK, and no others. -/
structure IsReset (fields : ResetFields) (b : Memory) (r : Nat) : Prop where
  seq : UInt32.ofNat (Tcp.seq b r) = fields.seq
  ackSeq : UInt32.ofNat (Tcp.ackSeq b r) = fields.ackSeq
  window : UInt16.ofNat (Tcp.window b r) = fields.window
  flags : tcpFlags b r = [false, false, true, false, true, false, false, false]

theorem IsReset.of_tcpSet {b c : Memory} {r : Nat}
    (h : TcpSet b r (resetArgs addressFamily fields)) (hsame : SameHeader c r b r) :
    IsReset fields c r := by
  have hwindow : Tcp.window b r = fields.window.toNat := by
    have hlt := fields.window.toNat_lt
    exact Int.ofNat.inj (h.window (Int.natCast_nonneg _) (by simp [resetArgs]; omega))
  refine ⟨?_, ?_, ?_, ?_⟩
  · rw [hsame.seq, h.seq]
    exact UInt32.ofNat_toNat
  · rw [hsame.ackSeq, h.ackSeq]
    exact UInt32.ofNat_toNat
  · rw [hsame.window, hwindow]
    exact UInt16.ofNat_toNat
  · have hflags := h.flags
    simp only [tcpFlags, Tcp.fin, Tcp.syn, Tcp.rst, Tcp.psh, Tcp.ack, Tcp.urg, Tcp.ece, Tcp.cwr,
      hsame.flags] at hflags ⊢
    exact hflags

/-- What `reset_connection` sends has the numbers that it picks. -/
theorem isReset_of_resetConnection (hok : resetConnection heap socket = .ok rst) :
    ∃ r, rst.tcp = some r ∧ IsReset (resetFields socket) rst.buffer r := by
  unfold resetConnection at hok
  obtain ⟨result, hnew, hok⟩ := bind_eq_ok_iff.mp hok
  cases result with
  | error error => cases hok
  | ok packet =>
    have hnew := halting_eq_ok_iff.mp hnew
    have hb := newTcpPacket_built hnew
    obtain ⟨addressed, hset, hok⟩ := bind_eq_ok_iff.mp hok
    have ho := (hb.segmentAt (newTcpPacket_echoedHeader hnew)).1.toTcpOrdered
    obtain ⟨b, haddressed, hframe⟩ := ho.setPacketTuple (socketGetInbound socket.toSocket.live)
    obtain rfl := Except.ok.inj
      (haddressed.symm.trans (ofFault_eq_ok_iff.mp (halting_eq_ok_iff.mp hset)))
    have hmoved : TcpOrdered ({ packet with buffer := b } : FullPacket).toPacket _ :=
      ⟨ho.header, ho.noIcmp, ho.fields⟩
    obtain ⟨sent, rfl, hsums⟩ := sendLiveIpPacket_ok hmoved (halting_eq_ok_iff.mp hok)
    refine ⟨_, ho.header, .of_tcpSet hb.tcpSet fun i hi hlt => ?_⟩
    exact (hsums _ (by omega) (by omega) (by omega)).trans (hframe _ (by omega))

end Rst

/-! ## What an event saves -/

section Saving

variable {platform : EventPlatform} {config : EventConfig} {socket socket' : EventSocket}
  {packet copy mapped sent live : FullPacket} {sends : Bool} {done : EventDone} {tcp : Nat}
  {heap : Memory} {hashKey : UInt32 → UInt32} {ts : TsConfig} {old : Socket}

/-- The socket remembers this segment as the last one that was injected. -/
structure SavedSegment (socket : EventSocket) (sent : FullPacket) (tcp : Nat) : Prop where
  header : SameHeader (savedHeader socket.lastInjectedTcpHeader) 0 sent.buffer tcp
  payloadLen : ∃ len, packetPayloadLen sent.toPacket = .ok len ∧
    socket.lastInjectedTcpPayloadLen = u32 len

theorem packetPayloadLen_congr {b : Memory} (htcp : live.tcp = some tcp)
    (hsame : SameHeader b tcp live.buffer tcp) :
    packetPayloadLen ({ live with buffer := b } : FullPacket).toPacket =
      packetPayloadLen live.toPacket := by
  have hend : packetEnd ({ live with buffer := b } : FullPacket).toPacket =
      packetEnd live.toPacket := rfl
  have hpayload : packetPayload ({ live with buffer := b } : FullPacket).toPacket =
      .ok (tcp + Tcp.doff b tcp * 4) := packetPayload_of_tcp htcp
  rw [packetPayloadLen, packetPayloadLen, hend, hpayload, hsame.doff, packetPayload_of_tcp htcp]

/-- The header is saved before the checksums are filled in. -/
theorem saveInjected_saved (ho : TcpOrdered live.toPacket tcp)
    (hsave : saveInjected socket live = .ok socket') (hsend : sendLiveIpPacket live = .ok sent) :
    sent.tcp = some tcp ∧ SavedSegment socket' sent tcp := by
  obtain ⟨b, rfl, hsums⟩ := sendLiveIpPacket_ok ho hsend
  have hsame : SameHeader b tcp live.buffer tcp := fun i _ hi =>
    hsums _ (by omega) (by omega) (by omega)
  unfold saveInjected at hsave
  split at hsave
  · rename_i tcp' htcp
    obtain rfl : tcp' = tcp := Option.some.inj (htcp.symm.trans ho.header)
    obtain ⟨len, hlen, hsave⟩ := bind_eq_ok_iff.mp hsave
    rw [← pure_eq_ok_iff.mp hsave]
    refine ⟨htcp, fun i hi hlt => ?_, len, (packetPayloadLen_congr htcp hsame).trans hlen, rfl⟩
    exact (sameHeader_saved i hi hlt).trans (hsame i hi hlt).symm
  · rename_i htcp
    cases htcp.symm.trans ho.header

theorem mapInboundPacket_ordered (ho : TcpOrdered copy.toPacket tcp)
    (hmap : mapInboundPacket hashKey ts old copy = (mapped, .ok ())) :
    TcpOrdered mapped.toPacket tcp := by
  obtain ⟨options, b, last, rfl, -, -⟩ := mapInboundPacket_shifted ho hmap
  exact ⟨ho.header, ho.noIcmp, ho.fields⟩

theorem doInboundScriptPacket_saved (hscript : TcpScript packet) (htcp : packet.tcp = some tcp)
    (hok : doInboundScriptPacket platform config socket packet sends = .ok done) :
    ∃ sent, done.injected = some sent ∧ sent.tcp = some tcp ∧
      SavedSegment done.socket sent tcp := by
  unfold doInboundScriptPacket at hok
  obtain ⟨copy, hcopy, hok⟩ := bind_eq_ok_iff.mp hok
  obtain ⟨u, hresult, hok⟩ := bind_eq_ok_iff.mp hok
  obtain ⟨saved, hsaved, hok⟩ := bind_eq_ok_iff.mp hok
  obtain ⟨sent, hsent, hok⟩ := bind_eq_ok_iff.mp hok
  obtain ⟨_, -, hok⟩ := bind_eq_ok_iff.mp hok
  obtain rfl := pure_eq_ok_iff.mp hok
  obtain ⟨tcp', hsegment⟩ := hscript.segmentAt
  obtain rfl : tcp' = tcp := Option.some.inj (hsegment.header.symm.trans htcp)
  obtain ⟨n, hcopyOf⟩ := packetCopy_copyOf (halting_eq_ok_iff.mp hcopy)
  have hordered := hcopyOf.tcpOrdered hsegment.toTcpOrdered
  exact ⟨sent, rfl, saveInjected_saved (mapInboundPacket_ordered hordered (Prod.ext rfl hresult))
    (ofFault_eq_ok_iff.mp (halting_eq_ok_iff.mp hsaved)) (halting_eq_ok_iff.mp hsent)⟩

/-! ## What an event keeps -/

/-- The socket has the headers of the other one, but for one that was sniffed since. -/
structure Heard (received : List (Status FullPacket)) (old new : EventSocket) : Prop where
  injected : new.lastInjectedTcpHeader = old.lastInjectedTcpHeader
  payloadLen : new.lastInjectedTcpPayloadLen = old.lastInjectedTcpPayloadLen
  outbound : new.lastOutboundTcpHeader = old.lastOutboundTcpHeader ∨
    ∃ live l, .ok live ∈ received ∧ live.tcp = some l ∧
      new.lastOutboundTcpHeader = readBytes live.buffer l TCP_BYTES

theorem Heard.refl {received : List (Status FullPacket)} (socket : EventSocket) :
    Heard received socket socket := ⟨rfl, rfl, .inl rfl⟩

theorem Heard.mono {received all : List (Status FullPacket)} {s t : EventSocket}
    (h : Heard received s t) (hsub : ∀ result ∈ received, result ∈ all) : Heard all s t := by
  refine ⟨h.injected, h.payloadLen, h.outbound.imp_right ?_⟩
  rintro ⟨live, l, hlive, hheard⟩
  exact ⟨live, l, hsub _ hlive, hheard⟩

theorem Heard.trans {received : List (Status FullPacket)} {s t u : EventSocket}
    (h : Heard received s t) (h' : Heard received t u) : Heard received s u := by
  refine ⟨h'.injected.trans h.injected, h'.payloadLen.trans h.payloadLen, ?_⟩
  rcases h'.outbound with hsame | hheard
  · rcases h.outbound with hsame' | hheard
    · exact .inl (hsame.trans hsame')
    · exact .inr (hsame ▸ hheard)
  · exact .inr hheard

theorem setPacketTuple_tcp {tuple : Tuple} (hok : setPacketTuple packet tuple = .ok mapped) :
    mapped.tcp = packet.tcp := by
  unfold setPacketTuple at hok
  obtain ⟨buffer, -, hok⟩ := bind_eq_ok_iff.mp hok
  dsimp only at hok
  split at hok
  · obtain ⟨_, -, hok⟩ := bind_eq_ok_iff.mp hok
    obtain ⟨_, -, hok⟩ := bind_eq_ok_iff.mp hok
    obtain ⟨_, -, hok⟩ := bind_eq_ok_iff.mp hok
    rw [← pure_eq_ok_iff.mp hok]
  · rw [← pure_eq_ok_iff.mp hok]

theorem restorePorts_tcp (ports : Nat × Nat) : (restorePorts packet ports).tcp = packet.tcp := by
  unfold restorePorts
  split <;> rfl

theorem mapInboundIcmpPacket_tcp (hok : mapInboundIcmpPacket old packet = .ok mapped) :
    mapped.tcp = packet.tcp := by
  unfold mapInboundIcmpPacket at hok
  split at hok
  · obtain ⟨protocol, -, hok⟩ := bind_eq_ok_iff.mp hok
    split at hok
    · obtain ⟨seq, -, hok⟩ := bind_eq_ok_iff.mp hok
      rw [← pure_eq_ok_iff.mp hok]
    · split at hok
      · rw [← pure_eq_ok_iff.mp hok]
      · cases hok
  · rw [← pure_eq_ok_iff.mp hok]

/-- A packet without a TCP header does not get one. -/
theorem mapInboundPacket_tcp (htcp : packet.tcp = none)
    (hmap : mapInboundPacket hashKey ts old packet = (mapped, .ok ())) : mapped.tcp = none := by
  unfold mapInboundPacket at hmap
  cases hset : setInboundTuple old packet with
  | error fault =>
    rw [hset] at hmap
    cases (Prod.mk.inj hmap).2
  | ok addressed =>
    have haddressed : addressed.tcp = none := by
      obtain ⟨moved, hmoved, hrestored⟩ := bind_eq_ok_iff.mp hset
      rw [← pure_eq_ok_iff.mp hrestored, restorePorts_tcp, setPacketTuple_tcp hmoved, htcp]
    simp only [hset] at hmap
    split at hmap
    · cases hicmp : mapInboundIcmpPacket old addressed with
      | error fault =>
        rw [hicmp] at hmap
        cases (Prod.mk.inj hmap).2
      | ok icmp =>
        rw [hicmp] at hmap
        rw [← (Prod.mk.inj hmap).1, mapInboundIcmpPacket_tcp hicmp, haddressed]
    · rw [haddressed] at hmap
      rw [← (Prod.mk.inj hmap).1, haddressed]

theorem saveInjected_none (htcp : live.tcp = none)
    (hsave : saveInjected socket live = .ok socket') :
    socket' = socket := by
  unfold saveInjected at hsave
  rw [htcp] at hsave
  exact (Except.ok.inj hsave).symm

/-- Without a TCP header an inbound packet leaves no trace. -/
theorem doInboundScriptPacket_heard {received : List (Status FullPacket)}
    (htcp : packet.tcp = none)
    (hok : doInboundScriptPacket platform config socket packet sends = .ok done) :
    Heard received socket done.socket := by
  unfold doInboundScriptPacket at hok
  rw [htcp] at hok
  obtain ⟨copy, hcopy, hok⟩ := bind_eq_ok_iff.mp hok
  obtain ⟨u, hresult, hok⟩ := bind_eq_ok_iff.mp hok
  obtain ⟨saved, hsaved, hok⟩ := bind_eq_ok_iff.mp hok
  obtain ⟨sent, -, hok⟩ := bind_eq_ok_iff.mp hok
  obtain ⟨_, -, hok⟩ := bind_eq_ok_iff.mp hok
  obtain rfl := pure_eq_ok_iff.mp hok
  obtain ⟨n, hcopyOf⟩ := packetCopy_copyOf (halting_eq_ok_iff.mp hcopy)
  have hcopyTcp : copy.tcp = none := hcopyOf.header.trans htcp
  have hmapped := mapInboundPacket_tcp hcopyTcp (Prod.ext rfl hresult)
  have hsame := saveInjected_none hmapped (ofFault_eq_ok_iff.mp (halting_eq_ok_iff.mp hsaved))
  rw [hsame]
  unfold fillAnyip
  split <;> exact ⟨rfl, rfl, .inl rfl⟩

/-! ### Sniffing -/

theorem sniffOutboundLivePacket_heard {received : List (Status FullPacket)}
    (hok : sniffOutboundLivePacket socket live.toPacket = .ok (some socket')) :
    Heard received socket socket' := by
  unfold sniffOutboundLivePacket at hok
  obtain ⟨direction, -, hok⟩ := bind_eq_ok_iff.mp hok
  split at hok
  · obtain rfl := Option.some.inj (pure_eq_ok_iff.mp hok)
    exact .refl socket
  · unfold findConnectForLivePacket at hok
    obtain ⟨tuple, -, hok⟩ := bind_eq_ok_iff.mp hok
    dsimp only at hok
    split_ifs at hok
    · rw [← Option.some.inj (pure_eq_ok_iff.mp hok)]
      exact ⟨rfl, rfl, .inl rfl⟩
    · cases pure_eq_ok_iff.mp hok

theorem rememberLiveIsn_header {script : FullPacket} {new : Socket}
    (hok : rememberLiveIsn old script live = .ok new) :
    new.lastOutboundTcpHeader = old.lastOutboundTcpHeader := by
  unfold rememberLiveIsn at hok
  split at hok
  · split at hok
    · rw [← Except.ok.inj hok]
    · cases hok
  · rw [← Except.ok.inj hok]

theorem convertLivePacket_header {sniffed : FullPacket} {new : Socket}
    (hok : convertLivePacket old live = .ok (new, sniffed)) :
    live.tcp = none ∧ new.lastOutboundTcpHeader = old.lastOutboundTcpHeader ∨
      ∃ l, live.tcp = some l ∧
        new.lastOutboundTcpHeader = readBytes live.buffer l TCP_BYTES := by
  unfold convertLivePacket at hok
  split at hok
  · rename_i l htcp
    obtain ⟨_, -, hok⟩ := bind_eq_ok_iff.mp hok
    rw [← (Prod.mk.inj (pure_eq_ok_iff.mp hok)).1]
    exact .inr ⟨l, htcp, rfl⟩
  · rename_i htcp
    rw [← (Prod.mk.inj (Except.ok.inj hok)).1]
    exact .inl ⟨htcp, rfl⟩

/-- Each packet of the socket that is sniffed is the last one that was heard. -/
theorem outboundLoop_heard {segments : SegmentConfig} {script : FullPacket} {expected : Int}
    {received results : List (Status FullPacket)} {s s' : Sniffing}
    (hresults : ∀ result ∈ results, result ∈ received)
    (hok : outboundLoop segments script expected results socket s = .ok (some (socket', s'))) :
    Heard received socket socket' := by
  induction results generalizing socket s with
  | nil => cases Except.ok.inj hok
  | cons result results ih =>
    have hrest := fun r hr => hresults r (List.mem_cons_of_mem _ hr)
    rw [outboundLoop] at hok
    obtain ⟨live, hresult, hok⟩ := bind_eq_ok_iff.mp hok
    obtain ⟨found, hfound, hok⟩ := bind_eq_ok_iff.mp hok
    have hfound := ofFault_eq_ok_iff.mp (halting_eq_ok_iff.mp hfound)
    cases found with
    | none => exact ih hrest hok
    | some sniffer =>
      obtain ⟨t, hturn, hok⟩ := bind_eq_ok_iff.mp hok
      obtain ⟨sniffed, hturned⟩ := sniffTurn_turned hturn
      obtain ⟨learned, hremember, hconvert⟩ := hturned.socket
      have hsame : learned.lastOutboundTcpHeader = sniffer.lastOutboundTcpHeader :=
        rememberLiveIsn_header hremember
      have hturn : Heard received sniffer (sniffer.update t.socket) := by
        refine ⟨rfl, rfl, ?_⟩
        rcases convertLivePacket_header hconvert with ⟨-, hkept⟩ | ⟨l, htcp, hheader⟩
        · exact .inl (hkept.trans hsame)
        · exact .inr ⟨live, l, hresult ▸ hresults _ List.mem_cons_self, htcp, hheader⟩
      have hheard := (sniffOutboundLivePacket_heard hfound).trans hturn
      dsimp only at hok
      split at hok
      · exact hheard.trans (ih hrest hok)
      · obtain ⟨rfl, rfl⟩ := Prod.mk.inj (Option.some.inj (pure_eq_ok_iff.mp hok))
        exact hheard

/-- The loop does not end without a packet. -/
theorem outboundLoop_hears {segments : SegmentConfig} {script : FullPacket} {expected : Int}
    {results : List (Status FullPacket)} {s s' : Sniffing}
    (hresults : ∀ live, .ok live ∈ results → live.tcp ≠ none)
    (hok : outboundLoop segments script expected results socket s = .ok (some (socket', s'))) :
    ∃ live l, .ok live ∈ results ∧ live.tcp = some l ∧
      socket'.lastOutboundTcpHeader = readBytes live.buffer l TCP_BYTES := by
  induction results with
  | nil => cases Except.ok.inj hok
  | cons result results ih =>
    rw [outboundLoop] at hok
    obtain ⟨live, hresult, hok⟩ := bind_eq_ok_iff.mp hok
    obtain ⟨found, -, hok⟩ := bind_eq_ok_iff.mp hok
    have hlive : .ok live ∈ result :: results := hresult ▸ List.mem_cons_self
    cases found with
    | none =>
      obtain ⟨live, l, hlive, hheard⟩ :=
        ih (fun live hlive => hresults live (List.mem_cons_of_mem _ hlive)) hok
      exact ⟨live, l, List.mem_cons_of_mem _ hlive, hheard⟩
    | some sniffer =>
      obtain ⟨t, hturn, hok⟩ := bind_eq_ok_iff.mp hok
      obtain ⟨sniffed, hturned⟩ := sniffTurn_turned hturn
      obtain ⟨learned, -, hconvert⟩ := hturned.socket
      have hfirst : ∃ l, live.tcp = some l ∧
          (sniffer.update t.socket).lastOutboundTcpHeader =
            readBytes live.buffer l TCP_BYTES :=
        (convertLivePacket_header hconvert).resolve_left
          fun h => hresults live hlive h.1
      obtain ⟨l, htcp, hheader⟩ := hfirst
      dsimp only at hok
      split at hok
      · rcases (outboundLoop_heard (fun _ h => h) hok).outbound with hkept | hheard
        · exact ⟨live, l, hlive, htcp, hkept.trans hheader⟩
        · obtain ⟨live', l', hlive', hheard⟩ := hheard
          exact ⟨live', l', List.mem_cons_of_mem _ hlive', hheard⟩
      · obtain ⟨rfl, rfl⟩ := Prod.mk.inj (Option.some.inj (pure_eq_ok_iff.mp hok))
        exact ⟨live, l, hlive, htcp, hheader⟩

/-- Only the loop of an outbound event saves headers. -/
theorem doOutboundScriptPacket_looped {segments : SegmentConfig} {verify : VerifyState}
    {script : FullPacket} {received : List (Status FullPacket)}
    (hok : doOutboundScriptPacket platform segments verify socket script received =
      .ok (some done)) : ∃ expected start s looped s',
        outboundLoop segments script expected received start s = .ok (some (looped, s')) ∧
        Heard [] socket start ∧ Heard [] looped done.socket := by
  unfold doOutboundScriptPacket at hok
  obtain ⟨expected, -, hok⟩ := bind_eq_ok_iff.mp hok
  obtain ⟨result, hloop, hok⟩ := bind_eq_ok_iff.mp hok
  cases result with
  | none => cases pure_eq_ok_iff.mp hok
  | some pair =>
    obtain ⟨concluded, hconclude, hok⟩ := bind_eq_ok_iff.mp hok
    obtain rfl := Option.some.inj (pure_eq_ok_iff.mp hok)
    obtain ⟨changed, flowlabelMap, ⟨_, _, _, _, _, _, rfl⟩, hsocket⟩ :=
      concludeOutbound_socket hconclude
    refine ⟨expected, _, _, _, _, hloop, ⟨rfl, rfl, .inl ?_⟩, ?_⟩
    · unfold rememberScriptIsn
      split
      · split <;> rfl
      · rfl
    · rw [hsocket]
      exact ⟨rfl, rfl, .inl rfl⟩

theorem doOutboundScriptPacket_heard {segments : SegmentConfig} {verify : VerifyState}
    {script : FullPacket} {received : List (Status FullPacket)}
    (hok : doOutboundScriptPacket platform segments verify socket script received =
      .ok (some done)) : Heard received socket done.socket := by
  obtain ⟨expected, start, s, looped, s', hloop, hbefore, hbehind⟩ :=
    doOutboundScriptPacket_looped hok
  have hnil : ∀ result ∈ ([] : List (Status FullPacket)), result ∈ received := by simp
  exact ((hbefore.mono hnil).trans (outboundLoop_heard (fun _ h => h) hloop)).trans
    (hbehind.mono hnil)

theorem doOutboundScriptPacket_hears {segments : SegmentConfig} {verify : VerifyState}
    {script : FullPacket} {received : List (Status FullPacket)}
    (hreceived : ∀ live, .ok live ∈ received → live.tcp ≠ none)
    (hok : doOutboundScriptPacket platform segments verify socket script received =
      .ok (some done)) : ∃ live l, .ok live ∈ received ∧ live.tcp = some l ∧
        done.socket.lastOutboundTcpHeader = readBytes live.buffer l TCP_BYTES := by
  obtain ⟨expected, start, s, looped, s', hloop, -, hbehind⟩ := doOutboundScriptPacket_looped hok
  obtain ⟨live, l, hlive, htcp, hheader⟩ := outboundLoop_hears hreceived hloop
  refine ⟨live, l, hlive, htcp, (hbehind.outbound.resolve_right ?_).trans hheader⟩
  simp

theorem saveInjected_outbound (hsave : saveInjected socket live = .ok socket') :
    socket'.lastOutboundTcpHeader = socket.lastOutboundTcpHeader := by
  unfold saveInjected at hsave
  split at hsave
  · obtain ⟨_, -, hsave⟩ := bind_eq_ok_iff.mp hsave
    rw [← pure_eq_ok_iff.mp hsave]
  · rw [← Except.ok.inj hsave]

theorem fillAnyip_outbound {old : Packet} :
    (fillAnyip config socket old).lastOutboundTcpHeader = socket.lastOutboundTcpHeader := by
  unfold fillAnyip
  split <;> rfl

theorem receiveHandshake_outbound {b : Memory} :
    (receiveHandshake socket b tcp).lastOutboundTcpHeader = socket.lastOutboundTcpHeader := by
  unfold receiveHandshake
  split_ifs <;> rfl

theorem doInboundScriptPacket_outbound
    (hok : doInboundScriptPacket platform config socket packet sends = .ok done) :
    done.socket.lastOutboundTcpHeader = socket.lastOutboundTcpHeader := by
  unfold doInboundScriptPacket at hok
  obtain ⟨copy, -, hok⟩ := bind_eq_ok_iff.mp hok
  obtain ⟨u, -, hok⟩ := bind_eq_ok_iff.mp hok
  obtain ⟨saved, hsaved, hok⟩ := bind_eq_ok_iff.mp hok
  obtain ⟨sent, -, hok⟩ := bind_eq_ok_iff.mp hok
  obtain ⟨_, -, hok⟩ := bind_eq_ok_iff.mp hok
  obtain rfl := pure_eq_ok_iff.mp hok
  rw [saveInjected_outbound (ofFault_eq_ok_iff.mp (halting_eq_ok_iff.mp hsaved)),
    fillAnyip_outbound]
  split
  · exact receiveHandshake_outbound
  · rfl

end Saving

/-! ## Runs -/

/-- The event injects a TCP segment. -/
def PacketEvent.Sends (e : PacketEvent) : Prop :=
  e.packet.direction = .inbound ∧ e.packet.tcp ≠ none

/-- The event takes a TCP segment from a kernel that sends nothing else. -/
def PacketEvent.Hears (e : PacketEvent) : Prop :=
  e.packet.direction = .outbound ∧ ∀ live, .ok live ∈ e.received → live.tcp ≠ none

/-- The socket that the next event goes on with, unless it is for a connection of its own. -/
def EventState.latest (state : EventState) : EventSocket := state.socketUnderTest.getD .new

section Runs

variable {platform : EventPlatform} {state next : EventState} {e : PacketEvent} {done : EventDone}
  {events : List (PacketEvent × EventDone)} {tcp : Nat}

theorem EventState.latest_of_some {socket : EventSocket}
    (h : state.socketUnderTest = some socket) : state.latest = socket := by
  rw [EventState.latest, h]
  rfl

theorem EventState.knowledge_state (state : EventState) :
    state.knowledge.state = state.latest.state := by
  unfold EventState.knowledge EventState.latest
  cases state.socketUnderTest <;> rfl

/-- A new socket is made where there is none, or one that listens. -/
theorem eventSocket_cases (state : EventState) (packet : FullPacket) :
    state.eventSocket packet = .new ∧
        (state.socketUnderTest = none ∨ state.latest.state = .passiveListening) ∨
      state.eventSocket packet = state.latest := by
  unfold EventState.eventSocket EventState.latest
  cases hsocket : state.socketUnderTest with
  | none => exact .inl ⟨rfl, .inl rfl⟩
  | some socket =>
    dsimp only
    split
    · rename_i hnew
      obtain ⟨-, hwho⟩ := listenMatches_iff.mp (Bool.and_eq_true_iff.mp hnew).2
      rw [hsocket] at hwho
      exact .inl ⟨rfl, .inr (by grind)⟩
    · exact .inr rfl

/-- A new socket is made for an inbound SYN only, where there is one already. -/
theorem eventSocket_of_not_sends (h : ¬ e.Sends) : state.eventSocket e.packet = state.latest := by
  unfold EventState.eventSocket EventState.latest
  split
  · rename_i hnone
    rw [hnone]
    rfl
  · rename_i socket hsocket
    rw [hsocket]
    split
    · rename_i hnew
      obtain ⟨htcp, hmatch⟩ := Bool.and_eq_true_iff.mp hnew
      exact absurd ⟨(listenMatches_iff.mp hmatch).1, Option.isSome_iff_ne_none.mp htcp⟩ h
    · rfl

/-- What a packet event does with the socket that it has found. -/
theorem runPacketEvent_acted (hok : runPacketEvent platform state e = .ok (some (next, done))) :
    next.socketUnderTest = some done.socket ∧ ∃ tracked : TrackedSocket,
      (e.packet.direction = .outbound ∧ ∃ first,
        doOutboundScriptPacket platform state.config.segments (state.verify e.event)
          { state.eventSocket e.packet with toTrackedSocket := tracked } e.packet e.received =
            .ok (some first) ∧ first.socket = done.socket) ∨
      e.packet.direction = .inbound ∧ ∃ first,
        doInboundScriptPacket platform state.config
          { state.eventSocket e.packet with toTrackedSocket := tracked } e.packet e.sends =
            .ok first ∧ first.socket = done.socket ∧ first.injected = done.injected := by
  unfold runPacketEvent at hok
  obtain ⟨⟨lookup, tracked⟩, -, hok⟩ := bind_eq_ok_iff.mp hok
  dsimp only at hok
  split at hok
  · rename_i houtbound
    obtain ⟨result, hresult, hok⟩ := bind_eq_ok_iff.mp hok
    obtain ⟨first, rfl, hfinish⟩ := Option.map_eq_some_iff.mp (pure_eq_ok_iff.mp hok)
    obtain ⟨rfl, rfl⟩ := Prod.mk.inj hfinish
    exact ⟨rfl, tracked, .inl ⟨houtbound, first, reportEvent_ok hresult, rfl⟩⟩
  · rename_i hinbound
    obtain ⟨first, hresult, hok⟩ := bind_eq_ok_iff.mp hok
    obtain ⟨rfl, rfl⟩ := Prod.mk.inj (Option.some.inj (pure_eq_ok_iff.mp hok))
    exact ⟨rfl, tracked, .inr ⟨hinbound, first, reportEvent_ok hresult, rfl, rfl⟩⟩
  · cases hok

theorem runPacketEvent_saved (he : e.WellFormed) (hinbound : e.packet.direction = .inbound)
    (htcp : e.packet.tcp = some tcp)
    (hok : runPacketEvent platform state e = .ok (some (next, done))) :
    ∃ sent, done.injected = some sent ∧ sent.tcp = some tcp ∧
      SavedSegment next.latest sent tcp := by
  obtain ⟨hunder, tracked, ⟨houtbound, -⟩ | ⟨-, first, hact, hsocket, hinjected⟩⟩ :=
    runPacketEvent_acted hok
  · cases hinbound.symm.trans houtbound
  · rw [EventState.latest_of_some hunder, ← hsocket, ← hinjected]
    exact doInboundScriptPacket_saved (he.script (by simp [htcp])) htcp hact

theorem runPacketEvent_heard (hnot : ¬ e.Sends)
    (hok : runPacketEvent platform state e = .ok (some (next, done))) :
    Heard e.received state.latest next.latest := by
  obtain ⟨hunder, tracked, hacted⟩ := runPacketEvent_acted hok
  rw [eventSocket_of_not_sends hnot] at hacted
  suffices h : Heard e.received { state.latest with toTrackedSocket := tracked } done.socket by
    rw [EventState.latest_of_some hunder]
    exact ⟨h.injected, h.payloadLen, h.outbound⟩
  rcases hacted with ⟨-, first, hact, hsocket⟩ | ⟨hinbound, first, hact, hsocket, -⟩
  · exact hsocket ▸ doOutboundScriptPacket_heard hact
  · have htcp : e.packet.tcp = none := by
      by_contra h
      exact hnot ⟨hinbound, h⟩
    exact hsocket ▸ doInboundScriptPacket_heard htcp hact

/-- Segments that are only sniffed leave the last one that was injected. -/
theorem injected_of_path (hpath : Path (EventStep platform) state events next)
    (hnone : ∀ x ∈ events, ¬ x.1.Sends) :
    next.latest.lastInjectedTcpHeader = state.latest.lastInjectedTcpHeader ∧
      next.latest.lastInjectedTcpPayloadLen = state.latest.lastInjectedTcpPayloadLen := by
  induction hpath with
  | nil => exact ⟨rfl, rfl⟩
  | cons hstep _ ih =>
    have hheard := runPacketEvent_heard (hnone _ List.mem_cons_self) hstep
    obtain ⟨hheader, hlen⟩ := ih fun x hx => hnone x (List.mem_cons_of_mem _ hx)
    exact ⟨hheader.trans hheard.injected, hlen.trans hheard.payloadLen⟩

/-- The header was sniffed during one of the events, or it is blank. Then none of them hears a
segment, unless it is for a socket that only listens. -/
def Sniffed (events : List (PacketEvent × EventDone)) (header : List UInt8) : Prop :=
  (∃ x ∈ events, ∃ live l, .ok live ∈ x.1.received ∧
    live.tcp = some l ∧ header = readBytes live.buffer l TCP_BYTES) ∨
  header = List.replicate TCP_BYTES 0 ∧
    ∀ x ∈ events, x.1.Hears → x.2.socket.state = .passiveListening

/-- What the events leave: the socket has been waiting for its connection all the time if it still
does. -/
structure Listened (events : List (PacketEvent × EventDone)) (state : EventState) : Prop where
  sniffed : Sniffed events state.latest.lastOutboundTcpHeader
  started : state.socketUnderTest = none → events = []
  listening : state.latest.state = .passiveListening →
    ∀ x ∈ events, x.2.socket.state = .passiveListening

/-- No move leads back to a socket that listens. -/
theorem Moves.listening {k k' : Knowledge} (h : Moves e k k') (hk : k'.state = .passiveListening) :
    k = k' := by
  rcases h.cases_tail with hsame | ⟨middle, -, hmove⟩
  · exact hsame.symm
  · cases hmove <;> simp_all

/-- Where the header stays, the event has heard nothing. -/
theorem Sniffed.keep {x : PacketEvent × EventDone} {header : List UInt8}
    (h : Sniffed events header) (hnot : ¬ x.1.Hears) : Sniffed (events ++ [x]) header := by
  rcases h with ⟨y, hy, h⟩ | ⟨hblank, hheard⟩
  · exact .inl ⟨y, List.mem_append_left _ hy, h⟩
  · refine .inr ⟨hblank, fun y hy hhears => ?_⟩
    rcases List.mem_append.mp hy with hy | hy
    · exact hheard y hy hhears
    · obtain rfl := List.mem_singleton.mp hy
      exact absurd hhears hnot

theorem Listened.sniffed_step (h : Listened events state)
    (hok : runPacketEvent platform state e = .ok (some (next, done))) :
    Sniffed (events ++ [(e, done)]) next.latest.lastOutboundTcpHeader := by
  have hmem : (e, done) ∈ events ++ [(e, done)] := List.mem_append_right _ List.mem_cons_self
  obtain ⟨hunder, tracked, hacted⟩ := runPacketEvent_acted hok
  rw [EventState.latest_of_some hunder]
  rcases hacted with ⟨houtbound, first, hact, hsocket⟩ | ⟨hinbound, first, hact, hsocket, -⟩
  all_goals rw [← hsocket]
  · by_cases hhears : e.Hears
    · exact .inl ⟨_, hmem, doOutboundScriptPacket_hears hhears.2 hact⟩
    · rcases (doOutboundScriptPacket_heard hact).outbound with hkept | hheard
      · have hlatest : state.eventSocket e.packet = state.latest :=
          eventSocket_of_not_sends fun h => by cases houtbound.symm.trans h.1
        rw [hlatest] at hkept
        exact hkept ▸ h.sniffed.keep hhears
      · exact .inl ⟨_, hmem, hheard⟩
  · have hnot : ¬ e.Hears := fun h => by cases hinbound.symm.trans h.1
    rw [doInboundScriptPacket_outbound hact]
    rcases eventSocket_cases state e.packet with ⟨hnew, hwho⟩ | hlatest
    · have hall : ∀ x ∈ events, x.2.socket.state = .passiveListening := by
        rcases hwho with hnone | hlistening
        · simp [h.started hnone]
        · exact h.listening hlistening
      have hsniffed : Sniffed events (List.replicate TCP_BYTES 0) :=
        .inr ⟨rfl, fun x hx _ => hall x hx⟩
      exact hnew ▸ hsniffed.keep hnot
    · exact hlatest ▸ h.sniffed.keep hnot

theorem Listened.step (h : Listened events state)
    (hparsed : ∀ live, .ok live ∈ e.received → IsParsed live)
    (hok : runPacketEvent platform state e = .ok (some (next, done))) :
    Listened (events ++ [(e, done)]) next := by
  have hunder := (runPacketEvent_acted hok).1
  refine ⟨h.sniffed_step hok, fun hnone => ?_, fun hlistening x hx => ?_⟩
  · cases hunder.symm.trans hnone
  · rcases List.mem_append.mp hx with hx | hx
    · have hsame := (runPacketEvent_moves hparsed hok).listening
        ((EventState.knowledge_state next).trans hlistening)
      refine h.listening ?_ x hx
      rw [← EventState.knowledge_state, hsame, EventState.knowledge_state, hlistening]
    · obtain rfl := List.mem_singleton.mp hx
      rwa [EventState.latest_of_some hunder] at hlistening

theorem sniffed_of_path (hpath : Path (EventStep platform) state events next)
    (hquiet : state.latest.lastOutboundTcpHeader = List.replicate TCP_BYTES 0)
    (hevents : ∀ x ∈ events, x.1.WellFormed) :
    Sniffed events next.latest.lastOutboundTcpHeader := by
  suffices h : ∀ before, Listened before state → Listened (before ++ events) next from
    (h [] ⟨.inr ⟨hquiet, by simp⟩, fun _ => rfl, by simp⟩).sniffed
  clear hquiet
  induction hpath with
  | nil =>
    intro before h
    rwa [List.append_nil]
  | @cons state middle next x events hstep _ ih =>
    intro before h
    have hmiddle := h.step (hevents x List.mem_cons_self).parsed hstep
    simpa using ih (fun y hy => hevents y (List.mem_cons_of_mem _ hy)) _ hmiddle

/-- The RST goes on behind the segment that was injected for a packet of the script: the script
would write its numbers into the next segment. -/
structure Continues (k : Knowledge) (script sent : FullPacket) (tcp : Nat) (rst : Memory)
    (r : Nat) : Prop where
  seq : ∃ len, packetPayloadLen sent.toPacket = .ok len ∧
    k.remote.SamePosition (Tcp.syn sent.buffer tcp)
      (Tcp.seq script.buffer tcp + (segmentSpace sent.buffer tcp (u32 len)).toNat) (Tcp.seq rst r)
  ackSeq : k.own.SamePosition (Tcp.syn sent.buffer tcp) (Tcp.ackSeq script.buffer tcp)
    (Tcp.ackSeq rst r)
  window : Tcp.window rst r = Tcp.window sent.buffer tcp

/-- The RST is where the kernel has said that it expects the next segment, or acknowledges its SYN,
unless the events have not heard a segment of the kernel. -/
def AnswersKernel (events : List (PacketEvent × EventDone)) (rst : Memory) (r : Nat) : Prop :=
  (∃ x ∈ events, ∃ live l, .ok live ∈ x.1.received ∧ live.tcp = some l ∧
    if Tcp.ack live.buffer l then
      Tcp.seq rst r = Tcp.ackSeq live.buffer l ∧ Tcp.ackSeq rst r = Tcp.seq live.buffer l
    else Tcp.seq rst r = 0 ∧
      UInt32.ofNat (Tcp.ackSeq rst r) = UInt32.ofNat (Tcp.seq live.buffer l) + 1) ∨
  (∀ x ∈ events, x.1.Hears → x.2.socket.state = .passiveListening) ∧
    Tcp.seq rst r = 0 ∧ Tcp.ackSeq rst r = 1

variable {socket : EventSocket} {sent script rst : FullPacket} {k : Knowledge} {b c : Memory}
  {p q r : Nat}

theorem eq_of_ofNat_eq {x y : Nat} (hx : x < 4294967296) (hy : y < 4294967296)
    (h : UInt32.ofNat x = UInt32.ofNat y) : x = y := by
  have hnat := congrArg UInt32.toNat h
  rwa [UInt32.toNat_ofNat_of_lt' hx, UInt32.toNat_ofNat_of_lt' hy] at hnat

theorem resetFields_of_saved (h : SavedSegment socket sent tcp)
    (hack : Tcp.ack sent.buffer tcp = true) :
    ∃ len, packetPayloadLen sent.toPacket = .ok len ∧ resetFields socket =
      ⟨UInt32.ofNat (Tcp.seq sent.buffer tcp) + segmentSpace sent.buffer tcp (u32 len),
        UInt32.ofNat (Tcp.ackSeq sent.buffer tcp), UInt16.ofNat (Tcp.window sent.buffer tcp)⟩ := by
  obtain ⟨len, hlen, hpayload⟩ := h.payloadLen
  refine ⟨len, hlen, ?_⟩
  unfold resetFields
  rw [if_pos (h.header.ack.trans hack), h.header.seq, h.header.ackSeq, h.header.window,
    h.header.segmentSpace, hpayload]

/-- The number of a byte that follows is as far from the initial one in both spaces. -/
theorem Origin.SamePosition.add {o : Origin} {syn : Bool} {x y : Nat} {n : UInt32}
    (h : o.SamePosition syn x y) (hq : UInt32.ofNat q = UInt32.ofNat y + n) :
    o.SamePosition syn (x + n.toNat) q := by
  unfold Origin.SamePosition at h ⊢
  rw [hq, UInt32.ofNat_add, UInt32.ofNat_toNat]
  grind

theorem continues_of_saved (h : SavedSegment socket sent tcp)
    (hsegment : SameSegment k.remote k.own script.buffer tcp sent.buffer tcp)
    (hack : Tcp.ack script.buffer tcp = true) (hreset : IsReset (resetFields socket) b r) :
    Continues k script sent tcp b r := by
  have hsent : Tcp.ack sent.buffer tcp = true := hsegment.ack ▸ hack
  obtain ⟨len, hlen, hfields⟩ := resetFields_of_saved h hsent
  rw [hfields] at hreset
  refine ⟨⟨len, hlen, hsegment.seq.add hreset.seq⟩, ?_, ?_⟩
  · have hsame : Tcp.ackSeq b r = Tcp.ackSeq sent.buffer tcp :=
      eq_of_ofNat_eq (be32At_lt _ _) (be32At_lt _ _) hreset.ackSeq
    rw [hsame]
    exact hsegment.ackSeq hsent
  · have hlt (m : Memory) (p : Nat) : Tcp.window m p < 65536 := be16At_lt _ _
    have hnat : (UInt16.ofNat (Tcp.window b r)).toNat =
        (UInt16.ofNat (Tcp.window sent.buffer tcp)).toNat := congrArg UInt16.toNat hreset.window
    rwa [UInt16.toNat_ofNat_of_lt' (hlt _ _), UInt16.toNat_ofNat_of_lt' (hlt _ _)] at hnat

theorem answersKernel_of_sniffed (hsniffed : Sniffed events socket.lastOutboundTcpHeader)
    (hack : Tcp.ack (savedHeader socket.lastInjectedTcpHeader) 0 = false)
    (hreset : IsReset (resetFields socket) b r) : AnswersKernel events b r := by
  unfold resetFields at hreset
  rw [if_neg (by simp [hack])] at hreset
  rcases hsniffed with ⟨x, hx, live, l, hlive, htcp, hheader⟩ | ⟨hblank, hheard⟩
  · refine .inl ⟨x, hx, live, l, hlive, htcp, ?_⟩
    have hsame : SameHeader (savedHeader socket.lastOutboundTcpHeader) 0 live.buffer l :=
      hheader ▸ sameHeader_saved
    rw [hsame.ack, hsame.seq, hsame.ackSeq] at hreset
    split
    · rename_i hlast
      rw [if_pos hlast] at hreset
      exact ⟨eq_of_ofNat_eq (be32At_lt _ _) (be32At_lt _ _) hreset.seq,
        eq_of_ofNat_eq (be32At_lt _ _) (be32At_lt _ _) hreset.ackSeq⟩
    · rename_i hlast
      rw [if_neg hlast] at hreset
      exact ⟨eq_of_ofNat_eq (be32At_lt _ _) (by decide) hreset.seq, hreset.ackSeq⟩
  · rw [hblank] at hreset
    refine .inr ⟨hheard, eq_of_ofNat_eq (be32At_lt _ _) (by decide) hreset.seq, ?_⟩
    exact eq_of_ofNat_eq (be32At_lt _ _) (by decide) hreset.ackSeq

/-- The socket under test, if there is one, has neither injected nor sniffed a segment. -/
structure EventState.Quiet (state : EventState) : Prop where
  injected : state.latest.lastInjectedTcpHeader = List.replicate TCP_BYTES 0
  outbound : state.latest.lastOutboundTcpHeader = List.replicate TCP_BYTES 0

/-- The last segment that the events inject. -/
def LastSent (events : List (PacketEvent × EventDone)) (x : PacketEvent × EventDone) (tcp : Nat) :
    Prop :=
  ∃ before after, events = before ++ x :: after ∧ x.1.packet.direction = .inbound ∧
    x.1.packet.tcp = some tcp ∧ ∀ y ∈ after, ¬ y.1.Sends

theorem aligned_of_path (hpath : Path (EventStep platform) state events next)
    (ha : state.knowledge.Aligned) (hevents : ∀ y ∈ events, y.1.WellFormed) :
    next.knowledge.Aligned := by
  induction hpath with
  | nil => exact ha
  | cons hstep _ ih =>
    have hparsed := (hevents _ List.mem_cons_self).parsed
    exact ih ((runPacketEvent_moves hparsed hstep).keeps.aligned ha)
      fun y hy => hevents y (List.mem_cons_of_mem _ hy)

/-- What the socket remembers at the end of a run is the last segment that the run has injected. -/
theorem saved_of_path {x : PacketEvent × EventDone}
    (hpath : Path (EventStep platform) state events next) (ha : state.knowledge.Aligned)
    (hevents : ∀ y ∈ events, y.1.WellFormed) (hlast : LastSent events x tcp) :
    ∃ sent, x.2.injected = some sent ∧ sent.tcp = some tcp ∧ SavedSegment next.latest sent tcp ∧
      SameSegment x.2.socket.knowledge.remote x.2.socket.knowledge.own x.1.packet.buffer tcp
        sent.buffer tcp := by
  obtain ⟨before, after, rfl, hinbound, htcp, hafter⟩ := hlast
  obtain ⟨middle, hbefore, hrest⟩ := Path.append_iff.mp hpath
  obtain ⟨done, hstep, hrest⟩ := Path.cons_iff.mp hrest
  have hx := hevents x (by simp)
  obtain ⟨sent, hinjected, hsent, hsaved⟩ := runPacketEvent_saved hx hinbound htcp hstep
  have hmiddle := aligned_of_path hbefore ha fun y hy => hevents y (List.mem_append_left _ hy)
  obtain ⟨-, -, hsound⟩ := runPacketEvent_sound hx hmiddle hstep
  obtain ⟨sent', hinjected', -, htranslated⟩ := hsound.injected tcp hinbound htcp
  obtain rfl := Option.some.inj (hinjected.symm.trans hinjected')
  obtain ⟨hheader, hlen⟩ := injected_of_path hrest hafter
  exact ⟨sent, hinjected, hsent, ⟨hheader ▸ hsaved.header, hlen ▸ hsaved.payloadLen⟩,
    htranslated.segment⟩

/-- Without an ACK in the last segment that was injected, none is remembered. -/
theorem ack_of_path (hpath : Path (EventStep platform) state events next)
    (ha : state.knowledge.Aligned) (hquiet : state.Quiet)
    (hevents : ∀ x ∈ events, x.1.WellFormed)
    (hnone : ∀ x tcp, LastSent events x tcp → Tcp.ack x.1.packet.buffer tcp = false) :
    Tcp.ack (savedHeader next.latest.lastInjectedTcpHeader) 0 = false := by
  rcases hpath.last_or_none fun x => x.1.Sends with hnothing | ⟨before, x, after, u, v, hlast⟩
  · rw [(injected_of_path hpath hnothing).1, hquiet.injected]
    rfl
  · obtain ⟨hsplit, ⟨hinbound, htcp⟩, hafter, -⟩ := hlast
    obtain ⟨tcp, htcp⟩ := Option.ne_none_iff_exists'.mp htcp
    have hlast : LastSent events x tcp := ⟨before, after, hsplit, hinbound, htcp, hafter⟩
    obtain ⟨sent, -, -, hsaved, hsegment⟩ := saved_of_path hpath ha hevents hlast
    rw [hsaved.header.ack, ← hsegment.ack]
    exact hnone x tcp hlast

/-- A RST that the kernel accepts at the end of these events: it goes on behind the last segment
that was injected, if that had an ACK, and else it answers a segment of the kernel. -/
structure EndsRun (events : List (PacketEvent × EventDone)) (rst : Memory) (r : Nat) : Prop where
  flags : tcpFlags rst r = [false, false, true, false, true, false, false, false]
  continues : ∀ x tcp, LastSent events x tcp → Tcp.ack x.1.packet.buffer tcp = true →
    ∃ sent, x.2.injected = some sent ∧ sent.tcp = some tcp ∧
      Continues x.2.socket.knowledge x.1.packet sent tcp rst r
  answers : (∀ x tcp, LastSent events x tcp → Tcp.ack x.1.packet.buffer tcp = false) →
    AnswersKernel events rst r

theorem resetConnection_of_socketClose {heap : Memory} {isWireClient sends : Bool}
    (hok : socketClose heap isWireClient sends socket = .ok (some rst)) :
    resetConnection heap socket = .ok rst := by
  unfold socketClose at hok
  dsimp only at hok
  split at hok
  · obtain ⟨sent, hsent, hok⟩ := bind_eq_ok_iff.mp hok
    split at hok
    · rw [hsent, Option.some.inj (pure_eq_ok_iff.mp hok)]
    · cases hok
  · cases pure_eq_ok_iff.mp hok

/-- Whatever packet events were run, the RST that closes the connection under test is in
sequence. -/
theorem endsRun_of_path {heap : Memory} {isWireClient sends : Bool}
    (hpath : Path (EventStep platform) state events next) (ha : state.knowledge.Aligned)
    (hquiet : state.Quiet) (hevents : ∀ x ∈ events, x.1.WellFormed)
    (hclose : socketClose heap isWireClient sends next.latest = .ok (some rst)) :
    ∃ r, rst.tcp = some r ∧ EndsRun events rst.buffer r := by
  obtain ⟨r, hrst, hfields⟩ :=
    isReset_of_resetConnection (resetConnection_of_socketClose hclose)
  refine ⟨r, hrst, hfields.flags, fun x tcp hlast hack => ?_, fun hnone => ?_⟩
  · obtain ⟨sent, hinjected, hsent, hsaved, hsegment⟩ := saved_of_path hpath ha hevents hlast
    exact ⟨sent, hinjected, hsent, continues_of_saved hsaved hsegment hack hfields⟩
  · have hack := ack_of_path hpath ha hquiet hevents hnone
    exact answersKernel_of_sniffed (sniffed_of_path hpath hquiet.outbound hevents) hack hfields

end Runs

/-- The connection of the passive handshake is closed. -/
theorem endsRun_of_path_passive : ∃ events next rst r,
    Path (EventStep testPlatform) serverState events next ∧ events.map Prod.fst = passiveEvents ∧
      socketClose (fun _ => 0) false true next.latest = .ok (some rst) ∧ rst.tcp = some r ∧
      Tcp.seq rst.buffer r = 8 ∧ Tcp.ackSeq rst.buffer r = 5001 ∧
      EndsRun events rst.buffer r := by
  obtain ⟨received, first, sent, second, acked, third, rst, hsyn, hsynack, hack, hclose, hnumbers⟩ :
      ∃ received first sent second acked third rst,
        runPacketEvent testPlatform serverState synEvent = .ok (some (received, first)) ∧
        runPacketEvent testPlatform received synackEvent = .ok (some (sent, second)) ∧
        runPacketEvent testPlatform sent ackEvent = .ok (some (acked, third)) ∧
        socketClose (fun _ => 0) false true acked.latest = .ok (some rst) ∧
        rst.tcp = some 40 ∧ Tcp.seq rst.buffer 40 = 8 ∧ Tcp.ackSeq rst.buffer 40 = 5001 :=
    ⟨_, _, _, _, _, _, _, rfl, rfl, rfl, rfl, rfl, rfl, rfl⟩
  have hpath : Path (EventStep testPlatform) serverState
      [(synEvent, first), (synackEvent, second), (ackEvent, third)] acked :=
    .cons hsyn (.cons hsynack (.cons hack (.nil _)))
  obtain ⟨r, hr, hends⟩ := endsRun_of_path hpath rfl ⟨rfl, rfl⟩
    (fun x hx => wellFormed_passiveEvents x.1 (List.mem_map_of_mem hx)) hclose
  obtain rfl : 40 = r := Option.some.inj (hnumbers.1.symm.trans hr)
  exact ⟨_, acked, rst, 40, hpath, rfl, hclose, hnumbers.1, hnumbers.2.1, hnumbers.2.2, hends⟩

end QoSMos
