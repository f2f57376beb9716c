import QoSMos.Options.Search
import QoSMos.Outbound.Ordered

/-!
# Timestamps over a history of outbound packets

Every outbound packet that has a timestamp, as the packet of the script that it is compared with
does, adds a pair of values to what the socket remembers. An inbound packet gets the live value of
the latest pair with its echo reply.
-/

namespace QoSMos

open Returns Buckets

/-- The packet has well-formed options, of which the last timestamp has this value. -/
def Stamped (packet : FullPacket) (tsVal : UInt32) : Prop :=
  ∃ tcp options o, OptionsAt packet.toPacket tcp options ∧
    lastTimestamp packet.buffer options = some o ∧
    getUnalignedBe32 packet.buffer (o + 2) = tsVal

/-- A call of `map_outbound_live_packet` for a live packet, its copy and the packet of the
script. -/
structure OutboundCall where
  live : FullPacket
  actual : FullPacket
  script : FullPacket
  copied : ∃ heap, packetCopy heap live = .ok actual
  ordered : ∀ tcp, live.tcp = some tcp → TcpOrdered live.toPacket tcp

/-- The timestamps of the script and of the live packet, as the copy has it. -/
def OutboundCall.Pair (call : OutboundCall) (pair : UInt32 × UInt32) : Prop :=
  Stamped call.script pair.1 ∧ Stamped call.actual pair.2

/-- The result of the call. -/
def OutboundCall.run (hashKey : UInt32 → UInt32) (socket : Socket) (call : OutboundCall) :
    Status OutboundMapping :=
  mapOutboundLivePacket hashKey socket call.live call.actual call.script

/-- The fields of a socket that the mapping of timestamps reads. -/
structure TsMapping where
  tsValMap : HashMap
  foundFirstTcpTs : Bool
  firstScriptTsVal : UInt32
  firstActualTsVal : UInt32
  deriving DecidableEq, Repr

def Socket.tsMapping (socket : Socket) : TsMapping :=
  ⟨socket.tsValMap, socket.foundFirstTcpTs, socket.firstScriptTsVal, socket.firstActualTsVal⟩

/-- A socket of `socket_new` after calls with these pairs of timestamps, and others that have
none or return an error. Between the calls nothing else changes its mapping. -/
inductive OutboundHistory (hashKey : UInt32 → UInt32) : List (UInt32 × UInt32) → Socket → Prop
  | new {socket : Socket} (hmap : socket.tsValMap = hashMapNew 1)
      (hfirst : socket.foundFirstTcpTs = false) : OutboundHistory hashKey [] socket
  | stamped {pairs : List (UInt32 × UInt32)} {socket : Socket} {call : OutboundCall}
      {mapping : OutboundMapping} {pair : UInt32 × UInt32}
      (hhistory : OutboundHistory hashKey pairs socket) (hpair : call.Pair pair)
      (hok : call.run hashKey socket = .ok mapping) :
      OutboundHistory hashKey (pairs ++ [pair]) mapping.socket
  | unstamped {pairs : List (UInt32 × UInt32)} {socket : Socket} {call : OutboundCall}
      (hhistory : OutboundHistory hashKey pairs socket) (hnone : ∀ pair, ¬ call.Pair pair)
      (hreturns : ∀ halt, call.run hashKey socket ≠ .error (.halt halt)) :
      OutboundHistory hashKey pairs (socketAfter socket (call.run hashKey socket))
  | other {pairs : List (UInt32 × UInt32)} {socket socket' : Socket}
      (hhistory : OutboundHistory hashKey pairs socket)
      (hkept : socket'.tsMapping = socket.tsMapping) : OutboundHistory hashKey pairs socket'

/-- The live value for an echo reply of the script after some pairs. -/
def inferredTsEcr (scaled : Bool) (pairs : List (UInt32 × UInt32)) (tsEcr : UInt32) :
    Option UInt32 :=
  match lastSet pairs tsEcr with
  | some tsVal => some tsVal
  | none =>
    match scaled, pairs.head? with
    | true, some (firstScriptTsVal, firstActualTsVal) =>
      some (tsEcr - firstScriptTsVal + firstActualTsVal)
    | _, _ => none

/-- A TCP packet with ACK and well-formed options, of which the only timestamp is at `o`. -/
structure AckStamped (packet : FullPacket) (tcp : Nat) (options : List Nat) (o : Nat) : Prop where
  area : OptionsAt packet.toPacket tcp options
  sacks : SacksWhole packet.buffer options
  ack : Tcp.ack packet.buffer tcp = true
  mem : o ∈ options
  kind : u8At packet.buffer o = TCPOPT_TIMESTAMP
  unique : ∀ o' ∈ options, u8At packet.buffer o' = TCPOPT_TIMESTAMP → o' = o

/-! ## What a call remembers -/

/-- The mapping with one more pair. -/
def TsMapping.remember (hashKey : UInt32 → UInt32) (mapping : TsMapping)
    (pair : UInt32 × UInt32) : TsMapping :=
  let tsValMap := hashMapSet hashKey mapping.tsValMap pair.1 pair.2
  if mapping.foundFirstTcpTs then { mapping with tsValMap }
  else ⟨tsValMap, true, pair.1, pair.2⟩

/-- What the mapping is after some pairs. -/
structure TsMapping.Remembers (hashKey : UInt32 → UInt32) (mapping : TsMapping)
    (pairs : List (UInt32 × UInt32)) : Prop where
  map : mapping.tsValMap.Holds hashKey pairs
  first : mapping.foundFirstTcpTs = true →
    pairs.head? = some (mapping.firstScriptTsVal, mapping.firstActualTsVal)
  empty : mapping.foundFirstTcpTs = false → pairs = []

section Calls

variable {hashKey : UInt32 → UInt32} {mapping : TsMapping} {pairs : List (UInt32 × UInt32)}
  {pair : UInt32 × UInt32} {socket : Socket} {packet actual script live : FullPacket}
  {tsVal tsVal' : UInt32} {out : OutboundMapping} {call : OutboundCall} {tcp i n : Nat}
  {options : List Nat}

theorem TsMapping.Remembers.remember (h : mapping.Remembers hashKey pairs)
    (pair : UInt32 × UInt32) :
    (mapping.remember hashKey pair).Remembers hashKey (pairs ++ [pair]) := by
  obtain ⟨hmap, hfirst, hempty⟩ := h
  have hset := hashMapSet_holds hmap pair.1 pair.2
  unfold TsMapping.remember
  cases hfound : mapping.foundFirstTcpTs with
  | true =>
    refine ⟨hset, fun _ => ?_, fun hnot => ?_⟩
    · simp [hfirst hfound]
    · simp at hnot
  | false => exact ⟨hset, by simp [hempty hfound], by simp⟩

theorem Stamped.unique (h : Stamped packet tsVal) (h' : Stamped packet tsVal') :
    tsVal = tsVal' := by
  obtain ⟨tcp, options, o, harea, hlast, rfl⟩ := h
  obtain ⟨tcp', options', o', harea', hlast', rfl⟩ := h'
  obtain rfl := Option.some.inj (harea.header.symm.trans harea'.header)
  obtain rfl := harea.tiles.unique rfl harea'.tiles
  obtain rfl := Option.some.inj (hlast.symm.trans hlast')
  rfl

theorem stamped_iff (harea : OptionsAt packet.toPacket tcp options) :
    Stamped packet tsVal ↔ ∃ o, lastTimestamp packet.buffer options = some o ∧
      getUnalignedBe32 packet.buffer (o + 2) = tsVal := by
  constructor
  · rintro ⟨tcp', options', o, harea', hlast, hval⟩
    obtain rfl := Option.some.inj (harea.header.symm.trans harea'.header)
    obtain rfl := harea.tiles.unique rfl harea'.tiles
    exact ⟨o, hlast, hval⟩
  · rintro ⟨o, hlast, hval⟩
    exact ⟨tcp, options, o, harea, hlast, hval⟩

theorem getUnalignedBe32_congr {b b' : Memory} {p : Nat} (h : ∀ k < 4, b' (p + k) = b (p + k)) :
    getUnalignedBe32 b' p = getUnalignedBe32 b p := by
  have hbyte (k : Nat) (hk : k < 4) : u8At b' (p + k) = u8At b (p + k) :=
    congrArg UInt8.toNat (h k hk)
  have h0 := hbyte 0 (by omega)
  have h1 := hbyte 1 (by omega)
  have h2 := hbyte 2 (by omega)
  have h3 := hbyte 3 (by omega)
  simp only [Nat.add_zero] at h0
  simp only [getUnalignedBe32, be32At, be16At, Nat.add_assoc, h0, h1, h2, h3]

/-- Where the timestamp that was found stands. -/
theorem OptionsAt.last (harea : OptionsAt packet.toPacket tcp options) {o : Nat}
    (hlast : lastTimestamp packet.buffer options = some o) :
    o ∈ options ∧ tcp + TCP_BYTES ≤ o ∧
      o + 10 ≤ tcp + Tcp.doff packet.buffer tcp * 4 := by
  have hmem : o ∈ options := List.mem_reverse.mp (List.mem_of_find?_eq_some hlast)
  have hkind : u8At packet.buffer o = TCPOPT_TIMESTAMP := by simpa using List.find?_some hlast
  obtain ⟨hformed, hle, -, hend⟩ := harea.tiles.mem hmem
  rw [wireLength_of_timestamp hformed hkind] at hend
  exact ⟨hmem, hle, hend⟩

/-- A timestamp is where its bytes are. -/
theorem stamped_congr {packet' : FullPacket} (htcp : packet'.tcp = packet.tcp)
    (harea : OptionsAt packet.toPacket tcp options)
    (hsame : ∀ i, tcp + 12 ≤ i → i < tcp + Tcp.doff packet.buffer tcp * 4 →
      packet'.buffer i = packet.buffer i) :
    OptionsAt packet'.toPacket tcp options ∧
      lastTimestamp packet'.buffer options = lastTimestamp packet.buffer options ∧
      ∀ o, lastTimestamp packet.buffer options = some o → ∀ k ≤ 6,
        getUnalignedBe32 packet'.buffer (o + k) = getUnalignedBe32 packet.buffer (o + k) := by
  have hsize : TCP_BYTES = 20 := rfl
  refine ⟨harea.same htcp hsame, lastTimestamp_congr fun o ho => ?_, fun o hlast k hk => ?_⟩
  · have := harea.tiles.mem ho
    exact hsame o (by omega) (by omega)
  · obtain ⟨-, hle, hend⟩ := harea.last hlast
    exact getUnalignedBe32_congr fun j hj => hsame _ (by omega) (by omega)

theorem findBaseline_tsMapping (scriptTsVal actualTsVal scriptTsEcr actualTsEcr : UInt32) :
    (findBaseline (setOutboundTsValMapping hashKey socket scriptTsVal actualTsVal) scriptTsVal
      actualTsVal scriptTsEcr actualTsEcr).tsMapping =
      socket.tsMapping.remember hashKey (scriptTsVal, actualTsVal) := by
  cases hfound : socket.foundFirstTcpTs <;>
    simp [findBaseline, setOutboundTsValMapping, Socket.tsMapping, TsMapping.remember, hfound]

/-- Both searches have to find a timestamp. -/
theorem mapTimestamps_socket {lastScript lastActual : Option Nat}
    (hok : mapTimestamps hashKey socket (actual.withTimestamp lastActual)
      (script.withTimestamp lastScript) = .ok out) :
    (∃ s a, lastScript = some s ∧ lastActual = some a ∧ out.socket.tsMapping =
      socket.tsMapping.remember hashKey
        (getUnalignedBe32 script.buffer (s + 2), getUnalignedBe32 actual.buffer (a + 2))) ∨
    (lastScript = none ∨ lastActual = none) ∧ out.socket = socket := by
  unfold mapTimestamps at hok
  cases hs : lastScript with
  | none =>
    subst hs
    rw [if_neg (by simp [FullPacket.withTimestamp, foundAt])] at hok
    exact .inr ⟨.inl rfl, (congrArg OutboundMapping.socket (pure_eq_ok_iff.mp hok)).symm⟩
  | some s =>
    cases ha : lastActual with
    | none =>
      subst ha
      rw [if_neg (by simp [FullPacket.withTimestamp, foundAt])] at hok
      exact .inr ⟨.inr rfl, (congrArg OutboundMapping.socket (pure_eq_ok_iff.mp hok)).symm⟩
    | some a =>
      subst hs ha
      refine .inl ⟨s, a, rfl, rfl, ?_⟩
      rw [if_pos (by simp [FullPacket.withTimestamp, foundAt])] at hok
      obtain ⟨scriptTsVal, hscript, hok⟩ := bind_eq_ok_iff.mp hok
      obtain ⟨actualTsVal, hactual, hok⟩ := bind_eq_ok_iff.mp hok
      obtain ⟨_, -, hok⟩ := bind_eq_ok_iff.mp hok
      obtain ⟨_, -, hok⟩ := bind_eq_ok_iff.mp hok
      obtain ⟨_, -, hok⟩ := bind_eq_ok_iff.mp hok
      obtain rfl := Except.ok.inj hscript
      obtain rfl := Except.ok.inj hactual
      obtain rfl := pure_eq_ok_iff.mp hok
      exact findBaseline_tsMapping _ _ _ _

/-- A call that returns remembers the pair that it has. -/
theorem OutboundCall.run_ok (hok : call.run hashKey socket = .ok out) :
    (∃ pair, call.Pair pair ∧
      out.socket.tsMapping = socket.tsMapping.remember hashKey pair) ∨
    (∀ pair, ¬ call.Pair pair) ∧ out.socket = socket := by
  obtain ⟨live, actual, script, ⟨heap, hcopy⟩, hordered⟩ := call
  obtain ⟨n, hcopyOf⟩ := packetCopy_copyOf hcopy
  unfold OutboundCall.run mapOutboundLivePacket at hok
  simp only at hok
  obtain ⟨_, -, hok⟩ := bind_eq_ok_iff.mp hok
  obtain ⟨mapped, hset, hok⟩ := bind_eq_ok_iff.mp hok
  by_cases hnone : live.tcp = none
  · rw [if_pos hnone] at hok
    refine .inr ⟨?_, (congrArg OutboundMapping.socket (pure_eq_ok_iff.mp hok)).symm⟩
    rintro pair ⟨-, tcp, options, o, harea, -⟩
    have hsome := harea.header
    rw [hcopyOf.header.trans hnone] at hsome
    cases hsome
  · obtain ⟨tcp, htcp⟩ := Option.ne_none_iff_exists'.mp hnone
    obtain ⟨b, hb, hframe⟩ := (hcopyOf.tcpOrdered (hordered tcp htcp)).setPacketTuple
      (socketGetOutbound socket.script)
    rw [hb] at hset
    obtain rfl := Except.ok.inj hset
    rw [if_neg hnone] at hok
    obtain ⟨script', hscript, hok⟩ := bind_eq_ok_iff.mp hok
    obtain ⟨actual', hactual, hok⟩ := bind_eq_ok_iff.mp hok
    obtain ⟨tcp', options, hareaScript, rfl⟩ := findTcpTimestamp_eq_ok_iff.mp hscript
    obtain ⟨tcp'', options', harea, rfl⟩ := findTcpTimestamp_eq_ok_iff.mp hactual
    obtain rfl : tcp'' = tcp :=
      Option.some.inj (harea.header.symm.trans (hcopyOf.header.trans htcp))
    obtain ⟨hareaActual, hlast, hvalues⟩ := @stamped_congr { actual with buffer := b } tcp''
      options' actual rfl harea fun i hi _ => (hframe i (by omega)).symm
    have hpair (pair : UInt32 × UInt32) : (OutboundCall.mk live actual script ⟨heap, hcopy⟩
        hordered).Pair pair ↔ _ :=
      and_congr (stamped_iff hareaScript) (stamped_iff hareaActual)
    rcases mapTimestamps_socket hok with ⟨s, a, hs, ha, hsocket⟩ | ⟨hmissing, hsocket⟩
    · refine .inl ⟨_, (hpair _).mpr ⟨⟨s, hs, rfl⟩, a, hlast.trans ha, ?_⟩, hsocket⟩
      exact hvalues a ha 2 (by omega)
    · refine .inr ⟨fun pair hstamped => ?_, hsocket⟩
      obtain ⟨⟨s, hs, -⟩, a, ha, -⟩ := (hpair pair).mp hstamped
      rcases hmissing with hmissing | hmissing
      · rw [hmissing] at hs
        cases hs
      · rw [hlast, hmissing] at ha
        cases ha

/-- The run: a socket remembers the pairs of its history. -/
theorem OutboundHistory.remembers (h : OutboundHistory hashKey pairs socket) :
    socket.tsMapping.Remembers hashKey pairs := by
  induction h with
  | new hmap hfirst =>
    refine ⟨?_, by simp [Socket.tsMapping, hfirst], fun _ => rfl⟩
    rw [Socket.tsMapping, hmap]
    exact hashMapNew_holds 1
  | @stamped pairs socket call mapping pair hhistory hpair hok ih =>
    rcases OutboundCall.run_ok hok with ⟨pair', hpair', hmapping⟩ | ⟨hnone, -⟩
    · have hscript := hpair.1.unique hpair'.1
      have hactual := hpair.2.unique hpair'.2
      rw [hmapping, ← Prod.ext hscript hactual]
      exact ih.remember pair
    · exact absurd hpair (hnone pair)
  | @unstamped pairs socket call hhistory hnone hreturns ih =>
    cases hrun : call.run hashKey socket with
    | error failure => exact ih
    | ok mapping =>
      rcases OutboundCall.run_ok hrun with ⟨pair, hpair, -⟩ | ⟨-, hsocket⟩
      · exact absurd hpair (hnone pair)
      · rw [socketAfter, hsocket]
        exact ih
  | other hhistory hkept ih => rwa [hkept]

/-- And so it infers the live value of an echo reply. -/
theorem OutboundHistory.liveTsEcr (h : OutboundHistory hashKey pairs socket) (config : TsConfig)
    (tsEcr : UInt32) : match inferredTsEcr config.tcpTsEcrScaled pairs tsEcr with
      | some tsVal => liveTsEcr hashKey config socket tsEcr = .ok tsVal
      | none => ∃ message, liveTsEcr hashKey config socket tsEcr = .error (.error message) := by
  obtain ⟨hmap, hfirst, hempty⟩ := h.remembers
  have hget : getOutboundTsValMapping hashKey socket tsEcr = lastSet pairs tsEcr :=
    hmap.found tsEcr
  unfold inferredTsEcr QoSMos.liveTsEcr
  rw [hget]
  cases hlast : lastSet pairs tsEcr with
  | some tsVal => rfl
  | none =>
    cases hfound : socket.foundFirstTcpTs with
    | true =>
      rw [hfirst hfound]
      cases config.tcpTsEcrScaled <;> simp [Socket.tsMapping]
    | false =>
      rw [hempty hfound]
      cases config.tcpTsEcrScaled <;> simp

end Calls

/-! ## What an inbound packet gets -/

section Inbound

variable {hashKey : UInt32 → UInt32} {packet packet' script live : FullPacket} {tcp o n : Nat}
  {options : List Nat} {config : TsConfig} {socket : Socket} {pairs : List (UInt32 × UInt32)}
  {heap : Memory}

/-- The options are those of any packet with the same header from its length on. -/
theorem AckStamped.congr (h : AckStamped packet tcp options o) (htcp : packet'.tcp = packet.tcp)
    (hsame : ∀ i, tcp + 12 ≤ i → i < tcp + Tcp.doff packet.buffer tcp * 4 →
      packet'.buffer i = packet.buffer i) : AckStamped packet' tcp options o := by
  have hdoff := h.area.doff
  have hsize : TCP_BYTES = 20 := rfl
  have hbyte (i : Nat) (hle : tcp + 12 ≤ i) (hlt : i < tcp + Tcp.doff packet.buffer tcp * 4) :
      u8At packet'.buffer i = u8At packet.buffer i := congrArg UInt8.toNat (hsame i hle hlt)
  have hkind (q : Nat) (hq : q ∈ options) : u8At packet'.buffer q = u8At packet.buffer q := by
    have := h.area.tiles.mem hq
    exact hbyte q (by omega) (by omega)
  refine ⟨h.area.same htcp hsame, fun q hq hsack => ?_, ?_, h.mem, ?_, fun q hq hts => ?_⟩
  · rw [hkind q hq] at hsack
    have hwhole := h.sacks q hq hsack
    have hwire := wireLength_of_sack hsack
    have hlong := hwhole.1
    have := h.area.tiles.mem hq
    rwa [hbyte (q + 1) (by omega) (by omega)]
  · rw [← h.ack, Tcp.ack, Tcp.ack, hbyte (tcp + 13) (by omega) (by omega)]
  · rw [hkind o h.mem, h.kind]
  · exact h.unique q hq (by rwa [hkind q hq] at hts)

theorem offsetAckSeq_offsetSeq_frame {b : Memory} {seqOffset ackOffset i : Nat}
    (hi : tcp + 12 ≤ i) : offsetAckSeq (offsetSeq b tcp seqOffset) tcp ackOffset i = b i := by
  rw [offsetAckSeq_frame (.inr hi), offsetSeq_frame (.inr (by omega))]

/-- A packet with the bytes of its timestamp as they were, and the pointers to it. -/
structure TimestampKept (packet mapped : FullPacket) (o : Nat) : Prop where
  bytes : ∀ k, 2 ≤ k → k < 10 → mapped.buffer (o + k) = packet.buffer (o + k)
  found : mapped.tcpTsEcr = some (o + 6)

/-- Up to the echo reply nothing fails, and the timestamp is kept. -/
theorem mapInboundTcpPacket_eq (hs : AckStamped packet tcp options o)
    (hroom : tcp + Tcp.doff packet.buffer tcp * 4 ≤ packet.bufferBytes) :
    ∃ mapped, TimestampKept packet mapped o ∧ Tcp.ack mapped.buffer tcp = true ∧
      mapInboundTcpPacket hashKey config socket packet tcp =
        remapTsEcr hashKey config socket mapped tcp := by
  have hdoff := hs.area.doff
  have hsize : TCP_BYTES = 20 := rfl
  unfold mapInboundTcpPacket
  dsimp only
  generalize remoteSeqScriptToLiveOffset socket (Tcp.syn packet.buffer tcp) = seqOffset
  generalize localSeqScriptToLiveOffset socket (Tcp.syn packet.buffer tcp) = ackOffset
  have hframe (i : Nat) (hi : tcp + 12 ≤ i) :
      offsetAckSeq (offsetSeq packet.buffer tcp seqOffset) tcp ackOffset i = packet.buffer i :=
    offsetAckSeq_offsetSeq_frame hi
  generalize offsetAckSeq (offsetSeq packet.buffer tcp seqOffset) tcp ackOffset = b at *
  have hstamped : AckStamped { packet with buffer := b } tcp options o :=
    hs.congr rfl fun i hi _ => hframe i hi
  have hlength : Tcp.doff b tcp = Tcp.doff packet.buffer tcp :=
    congrArg (fun x : UInt8 => x.toNat / 16) (hframe (tcp + 12) le_rfl)
  obtain ⟨c, hsacks, hkept⟩ := @leaveSackBlocks_of_options ackOffset tcp options
    { packet with buffer := b } hstamped.area hstamped.sacks (by rw [hlength]; exact hroom)
  have htiles := hstamped.area.tiles
  have hstarts (q : Nat) (hq : q ∈ options) (i : Nat) (hi : i < 2) : c (q + i) = b (q + i) :=
    hkept _ (htiles.outsideSacks hq (.inl hi))
  have hbefore (i : Nat) (hi : i < tcp + TCP_BYTES) : c i = b i := by
    refine hkept i fun q hq _ => .inl ?_
    have := htiles.mem hq
    omega
  have harea : OptionsAt { packet with buffer := c } tcp options :=
    hstamped.area.congr rfl (hbefore _ (by omega)) fun q hq i hi _ => hstarts q hq i hi
  have hkinds (q : Nat) (hq : q ∈ options) : c q = b q := hstarts q hq 0 (by omega)
  have hlast : lastTimestamp c options = some o := by
    rw [lastTimestamp_congr hkinds]
    exact lastTimestamp_of_unique hstamped.mem hstamped.kind hstamped.unique
  have hfind := @findTcpTimestamp_of_options { packet with buffer := c } tcp options harea
  simp only [hsacks, hfind, hlast]
  refine ⟨_, ⟨fun k hle hlt => ?_, rfl⟩, ?_, rfl⟩
  · have hmem := htiles.mem hstamped.mem
    have hwire := wireLength_of_timestamp hmem.1 hstamped.kind
    rw [← hframe (o + k) (by omega)]
    refine hkept _ (htiles.outsideSacks hstamped.mem (.inr ⟨?_, ?_⟩))
    · rw [hstamped.kind]
      decide
    · rw [hwire]
      exact hlt
  · rw [← hstamped.ack, Tcp.ack, Tcp.ack]
    exact congrArg (fun x : UInt8 => x.toNat.testBit 4) (hbefore (tcp + 13) (by omega))

theorem mapInboundPacket_of_tcp (hset : setInboundTuple socket packet = .ok packet')
    (h4 : packet'.icmpv4 = none) (h6 : packet'.icmpv6 = none) (htcp : packet'.tcp = some tcp) :
    mapInboundPacket hashKey config socket packet =
      mapInboundTcpPacket hashKey config socket packet' tcp := by
  unfold mapInboundPacket
  simp only [hset, h4, h6, htcp, ne_eq, not_true, or_self, if_false]

theorem mapInboundPacket_eq (ho : TcpOrdered packet.toPacket tcp)
    (hs : AckStamped packet tcp options o)
    (hroom : tcp + Tcp.doff packet.buffer tcp * 4 ≤ packet.bufferBytes) :
    ∃ mapped, TimestampKept packet mapped o ∧ Tcp.ack mapped.buffer tcp = true ∧
      mapInboundPacket hashKey config socket packet =
        remapTsEcr hashKey config socket mapped tcp := by
  obtain ⟨b, hset, hframe⟩ := ho.setInboundTuple socket
  have hdoff := hs.area.doff
  have hsize : TCP_BYTES = 20 := rfl
  have hstamped : AckStamped { packet with buffer := b } tcp options o :=
    hs.congr rfl fun i hi _ => hframe i (by omega)
  have hlength : Tcp.doff b tcp = Tcp.doff packet.buffer tcp :=
    congrArg (fun x : UInt8 => x.toNat / 16) (hframe (tcp + 12) (by omega))
  obtain ⟨mapped, hkept, hack, hmapped⟩ := @mapInboundTcpPacket_eq hashKey
    { packet with buffer := b } tcp o options config socket hstamped (by rw [hlength]; exact hroom)
  refine ⟨mapped, ⟨fun k hle hlt => ?_, hkept.found⟩, hack, ?_⟩
  · have hmem := hs.area.tiles.mem hs.mem
    exact (hkept.bytes k hle hlt).trans (hframe _ (by omega))
  · exact (mapInboundPacket_of_tcp hset ho.noIcmp.1 ho.noIcmp.2 ho.header).trans hmapped

/-- The echo reply is written if a live value can be inferred. -/
theorem remapTsEcr_eq {mapped : FullPacket} {p : Nat} (hack : Tcp.ack mapped.buffer tcp = true)
    (hfound : mapped.tcpTsEcr = some p) :
    match liveTsEcr hashKey config socket (getUnalignedBe32 mapped.buffer p) with
    | .ok tsEcr => (remapTsEcr hashKey config socket mapped tcp).2 = .ok () ∧
        (remapTsEcr hashKey config socket mapped tcp).1.buffer =
          putUnalignedBe32 mapped.buffer p tsEcr
    | .error failure => remapTsEcr hashKey config socket mapped tcp =
        (mapped, .error failure) := by
  unfold remapTsEcr
  simp only [hack, hfound]
  cases liveTsEcr hashKey config socket (getUnalignedBe32 mapped.buffer p) with
  | ok tsEcr => exact ⟨rfl, rfl⟩
  | error failure => rfl

/-- After every history of outbound packets, the echo reply of an inbound packet of the script
becomes the live value of the latest outbound packet with that value of the script, or else a value
in the same distance from the first pair; if neither can be, it stays and there is an error. -/
theorem mapInboundPacket_tsEcr (hhistory : OutboundHistory hashKey pairs socket)
    (hscript : TcpScript script) (hstamped : AckStamped script tcp options o)
    (hcopy : packetCopy heap script = .ok live) :
    let tsEcr := getUnalignedBe32 script.buffer (o + 6)
    let (mapped, status) := mapInboundPacket hashKey config socket live
    match inferredTsEcr config.tcpTsEcrScaled pairs tsEcr with
    | some liveTsEcr =>
      status = .ok () ∧ getUnalignedBe32 mapped.buffer (o + 6) = liveTsEcr
    | none =>
      (∃ message, status = .error (.error message)) ∧
        getUnalignedBe32 mapped.buffer (o + 6) = tsEcr := by
  obtain ⟨tcp', hsegment⟩ := hscript.segmentAt
  obtain rfl : tcp' = tcp := Option.some.inj (hsegment.header.symm.trans hstamped.area.header)
  obtain ⟨n, hcopyOf⟩ := packetCopy_copyOf hcopy
  obtain ⟨hlength, hinside⟩ := hcopyOf.doff hsegment
  have hlive : AckStamped live tcp' options o :=
    hstamped.congr hcopyOf.header fun i _ hi => hcopyOf.bytes i (by omega)
  obtain ⟨mapped, hkept, hack, hmapped⟩ := @mapInboundPacket_eq hashKey live tcp' o options config
    socket (hcopyOf.tcpOrdered hsegment.toTcpOrdered) hlive
    (by rw [hlength, hcopyOf.bufferBytes]; exact hinside)
  have hmem := hstamped.area.tiles.mem hstamped.mem
  have hwire := wireLength_of_timestamp hmem.1 hstamped.kind
  have hecr : getUnalignedBe32 mapped.buffer (o + 6) = getUnalignedBe32 script.buffer (o + 6) := by
    refine getUnalignedBe32_congr fun k hk => ?_
    have hbyte := hkept.bytes (6 + k) (by omega) (by omega)
    rw [← Nat.add_assoc] at hbyte
    rw [hwire] at hmem
    exact hbyte.trans (hcopyOf.bytes _ (by simp only [TCPOLEN_TIMESTAMP] at hmem; omega))
  have hinferred := hhistory.liveTsEcr config (getUnalignedBe32 script.buffer (o + 6))
  have hremap := @remapTsEcr_eq hashKey tcp' config socket mapped (o + 6) hack hkept.found
  dsimp only
  rw [hmapped]
  rw [hecr] at hremap
  cases hexpected : inferredTsEcr config.tcpTsEcrScaled pairs
      (getUnalignedBe32 script.buffer (o + 6)) with
  | some tsVal =>
    rw [hexpected] at hinferred
    simp only [hinferred] at hremap
    refine ⟨hremap.1, ?_⟩
    rw [hremap.2]
    simp only [getUnalignedBe32, putUnalignedBe32, be32At_writeBytes_be32, UInt32.ofNat_toNat]
  | none =>
    rw [hexpected] at hinferred
    obtain ⟨message, herror⟩ := hinferred
    simp only [herror] at hremap
    rw [hremap]
    exact ⟨⟨message, rfl⟩, hecr⟩

end Inbound

/-- An ACK with a timestamp and two bytes of padding. -/
def timestampArgs (tsVal tsEcr : UInt32) : TcpArgs :=
  let options := [8, 10] ++ be32 tsVal.toNat ++ be32 tsEcr.toNat ++ [1, 1]
  { synArgs with
    flags := ".".toList
    tcpOptions := some ⟨.ofFn fun i => options.getD i 0, 12⟩ }

/-- A new socket between the addresses and ports of these packets. -/
def timestampSocket : Socket :=
  let state : SocketState :=
    ⟨⟨⟨.inet6, List.replicate 16 0⟩, 8080⟩, 0, ⟨⟨.inet6, List.replicate 16 0⟩, 443⟩, 0⟩
  ⟨.new, IPPROTO_TCP, state, state, hashMapNew 1, false, 0, 0, 0, 0, []⟩

/-- The timestamp and the padding of such a packet. -/
theorem ackStamped_of_next {packet : FullPacket}
    (h : packet.tcp = some 40 ∧ Tcp.doff packet.buffer 40 = 8 ∧
      Tcp.ack packet.buffer 40 = true ∧ tcpOptionsNext packet.buffer 60 72 = .ok 70 ∧
      tcpOptionsNext packet.buffer 70 72 = .ok 71 ∧ tcpOptionsNext packet.buffer 71 72 = .ok 72 ∧
      [60, 70, 71].map (u8At packet.buffer) = [8, 1, 1]) :
    AckStamped packet 40 [60, 70, 71] 60 ∧
      Stamped packet (getUnalignedBe32 packet.buffer 62) := by
  obtain ⟨htcp, hdoff, hack, hfirst, hsecond, hthird, hkinds⟩ := h
  simp only [List.map_cons, List.map_nil, List.cons.injEq, and_true] at hkinds
  obtain ⟨h60, h70, h71⟩ := hkinds
  have hend : 40 + Tcp.doff packet.buffer 40 * 4 = 72 := by rw [hdoff]
  have htiles : Tiles packet.buffer 72 60 [60, 70, 71] 72 :=
    .of_next (by decide) hfirst
      (.of_next (by decide) hsecond (.of_next (by decide) hthird (.nil 72)))
  have harea : OptionsAt packet.toPacket 40 [60, 70, 71] :=
    ⟨htcp, by rw [hdoff]; decide, by rw [hend]; exact htiles⟩
  have hunique : ∀ o ∈ [60, 70, 71], u8At packet.buffer o = TCPOPT_TIMESTAMP → o = 60 := by
    simp [h70, h71, TCPOPT_TIMESTAMP]
  refine ⟨⟨harea, ?_, hack, by simp, h60, hunique⟩, 40, _, 60, harea,
    lastTimestamp_of_unique (by simp) h60 hunique, rfl⟩
  simp [SacksWhole, h60, h70, h71, TCPOPT_SACK]

/-- What `ackStamped_of_next` says of such a packet, and its timestamp. -/
structure HasTimestamp (packet : FullPacket) (tsVal tsEcr : UInt32) : Prop where
  stamped : AckStamped packet 40 [60, 70, 71] 60 ∧
    Stamped packet (getUnalignedBe32 packet.buffer 62)
  value : getUnalignedBe32 packet.buffer 62 = tsVal
  echo : getUnalignedBe32 packet.buffer 66 = tsEcr

/-- One more packet of the kernel is mapped. -/
structure MapsKernel (socket : Socket) (script : FullPacket) (liveVal : UInt32)
    (mapping : OutboundMapping) (kernel actual : FullPacket) : Prop where
  built : newTcpPacket (fun _ => 0) (timestampArgs liveVal 0) = .ok (.ok kernel)
  copied : packetCopy (fun _ => 0) kernel = .ok actual
  stamped : HasTimestamp actual liveVal 0
  mapped : mapOutboundLivePacket id socket kernel actual script = .ok mapping

theorem OutboundHistory.kernel {pairs : List (UInt32 × UInt32)} {socket : Socket}
    {kernel actual script : FullPacket} {tsVal liveVal tsEcr : UInt32} {mapping : OutboundMapping}
    (hhistory : OutboundHistory id pairs socket) (hscript : HasTimestamp script tsVal tsEcr)
    (h : MapsKernel socket script liveVal mapping kernel actual) :
    OutboundHistory id (pairs ++ [(tsVal, liveVal)]) mapping.socket := by
  let call : OutboundCall := ⟨kernel, actual, script, ⟨_, h.copied⟩, fun tcp htcp => by
    obtain ⟨start, f, q, ha⟩ := IsBuilt.addressed (.inl ⟨_, _, h.built⟩)
    exact ha.tcpOrdered htcp⟩
  have hpair : call.Pair (tsVal, liveVal) :=
    ⟨hscript.value ▸ hscript.stamped.2, h.stamped.value ▸ h.stamped.stamped.2⟩
  exact .stamped hhistory hpair h.mapped

/-- Live timestamps of 7000 and 7010 where the script has 5, and an inbound packet that echoes
5. -/
theorem mapInboundPacket_tsEcr_latest : ∃ socket live,
    OutboundHistory id [(5, 7000), (5, 7010)] socket ∧
      (mapInboundPacket id ⟨false⟩ socket live).2 = .ok () ∧
      getUnalignedBe32 (mapInboundPacket id ⟨false⟩ socket live).1.buffer 66 = 7010 := by
  obtain ⟨script, inbound, first, second, live, -, hbuilt, hscript, hinbound, hlive,
      ⟨kernel, actual, hfirst⟩, kernel', actual', hsecond⟩ :
      ∃ (script inbound : FullPacket) (first second : OutboundMapping) (live : FullPacket),
        newTcpPacket (fun _ => 0) (timestampArgs 5 0) = .ok (.ok script) ∧
        newTcpPacket (fun _ => 0) (timestampArgs 1 5) = .ok (.ok inbound) ∧
        HasTimestamp script 5 0 ∧ HasTimestamp inbound 1 5 ∧
        packetCopy (fun _ => 0) inbound = .ok live ∧
        (∃ kernel actual, MapsKernel timestampSocket script 7000 first kernel actual) ∧
        ∃ kernel actual, MapsKernel first.socket script 7010 second kernel actual :=
    ⟨_, _, _, _, _, rfl, rfl,
      ⟨ackStamped_of_next ⟨rfl, rfl, rfl, rfl, rfl, rfl, rfl⟩, rfl, rfl⟩,
      ⟨ackStamped_of_next ⟨rfl, rfl, rfl, rfl, rfl, rfl, rfl⟩, rfl, rfl⟩, rfl,
      ⟨_, _, rfl, rfl,
        ⟨ackStamped_of_next ⟨rfl, rfl, rfl, rfl, rfl, rfl, rfl⟩, rfl, rfl⟩, rfl⟩,
      _, _, rfl, rfl,
      ⟨ackStamped_of_next ⟨rfl, rfl, rfl, rfl, rfl, rfl, rfl⟩, rfl, rfl⟩, rfl⟩
  have hhistory : OutboundHistory id [(5, 7000), (5, 7010)] second.socket :=
    ((OutboundHistory.new rfl rfl).kernel hscript hfirst).kernel hscript hsecond
  have hresult := @mapInboundPacket_tsEcr id inbound live 40 60 [60, 70, 71] ⟨false⟩ second.socket
    _ _ hhistory (.alone hbuilt) hinbound.stamped.1 hlive
  rw [hinbound.echo] at hresult
  exact ⟨second.socket, live, hhistory, hresult⟩

end QoSMos
