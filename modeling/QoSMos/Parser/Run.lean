import QoSMos.Parser.Nesting

/-!
# Whole packets

`Outcome` is the specification of `parsePacket` on a fresh packet, for both layers. It
says when the parser succeeds, what it then leaves in the packet, and when one of its
reads leaves the captured bytes.
-/

namespace QoSMos

open LabelledPath WeakestPre

/-- The fresh packet when the parser reaches the network layer. -/
def startPacket (buffer : Memory) (bufferBytes : Nat) (layer : PacketLayer) : Packet :=
  { packetNew buffer bufferBytes with l2HeaderBytes := (layerStart buffer layer).2 }

/-- The outcome of `parse_packet` on the first `e` bytes of a fresh packet. -/
structure Outcome (b : Memory) (bufferBytes e : Nat) (layer : PacketLayer) (r : ParseResult)
    (s' : ParseState) : Prop where
  reads : ReadsInside e s' ↔ ¬ EmptyIpipFrom b e (layerStart b layer) 0
  sound : r = .ok → ∃ hs, HeaderStack b e layer hs ∧
    s'.packet = (startPacket b bufferBytes layer).afterHeaders hs ∧
    s'.parsed = hs.map fun h => (h.type, h.ptr)
  complete : ∀ hs, HeaderStack b e layer hs → r = .ok
  message : r = .bad ↔ s'.error ≠ none

variable {b : Memory} {bufferBytes e : Nat} {layer : PacketLayer} {s : ParseState}
  {ip : IpParsers}

/-- The state in which the parser reaches the network layer. -/
def startState (b : Memory) (bufferBytes : Nat) (layer : PacketLayer) : ParseState :=
  { freshState b bufferBytes with packet := startPacket b bufferBytes layer }

theorem startState_cursor (layer : PacketLayer) (hle : e ≤ bufferBytes) :
    Cursor b e (layerStart b layer).2 0 (startState b bufferBytes layer) where
  buffer := rfl
  room := hle
  position := Nat.add_zero _
  table := ⟨[], ⟨by simp, (Table.packetNew b bufferBytes).entries, by simp⟩, rfl⟩

theorem parseLayer2Packet_spec (hip : ip.Good b e (PACKET_MAX_HEADERS + 1))
    (hle : e ≤ bufferBytes) :
    wp (parseLayer2Packet ip 0 e)
      (Parsed b e (layerStart b .layer2Ethernet) 0 (startState b bufferBytes .layer2Ethernet))
      (freshState b bufferBytes) := by
  have hsize : ETHER_HEADER_BYTES = 14 := rfl
  have hc : Cursor b e ETHER_HEADER_BYTES 0 (startState b bufferBytes .layer2Ethernet) :=
    startState_cursor .layer2Ethernet hle
  simp only [parseLayer2Packet, wp_bind, wp_ite_iff, wp_bad, wp_modifyPacket, wp_loadBe16]
  refine ⟨fun hshort => ?_, fun hshort => ?_⟩
  · refine .of_bad (fun h next hh => ?_) (by simp) hc.le (.inr (by simp)) (by rfl) (by simp)
    obtain ⟨_, _, hi⟩ | ⟨_, _, hi⟩ | ⟨_, l, hl⟩ := hh.proto_inv
    · have := hi.minimum_le
      omega
    · omega
    · have := hl.available
      omega
  · have hin : 0 + 12 + 2 ≤ e := by omega
    exact wp_mono (parseLayer3PacketByProto_spec hip (by omega) hc.touched) fun _ _ hp =>
      hp.of_touched hin

/-- The parser always returns, with an outcome that the grammar decides. -/
theorem runParsePacket_outcome (b : Memory) (layer : PacketLayer) (hle : e ≤ bufferBytes) :
    ∃ r s', runParsePacket b bufferBytes e layer = .ok (r, s') ∧
      Outcome b bufferBytes e layer r s' := by
  have hip := ipParsers_good b e (PACKET_MAX_HEADERS + 1)
  suffices h : wp (parsePacket e layer) (Outcome b bufferBytes e layer)
      (freshState b bufferBytes) by
    obtain ⟨r, s', hrun, hout⟩ := h
    exact ⟨r, s', hrun, hout⟩
  have hlayer : wp (parseLayer (ipParsers (PACKET_MAX_HEADERS + 1)) layer 0 e)
      (Parsed b e (layerStart b layer) 0 (startState b bufferBytes layer))
      (freshState b bufferBytes) := by
    cases layer with
    | layer2Ethernet => exact parseLayer2Packet_spec hip hle
    | layer3Ip => exact parseLayer3Packet_spec hip (by omega) (startState_cursor .layer3Ip hle)
  simp only [parsePacket, wp_bind, wp_get, wp_assertThat]
  refine ⟨hle, wp_mono hlayer fun r s' hp => ?_⟩
  have hreads : ReadsInside e s' ↔ ¬ EmptyIpipFrom b e (layerStart b layer) 0 := by
    rw [hp.reads]
    simp [ReadsInside, startState, freshState]
  simp only [wp_ite_iff, wp_pure, wp_bind, wp_touch, wp_get, wp_modify]
  refine ⟨fun hne => ⟨hreads, fun hok => ?_, fun hs hstack => ?_, ?_⟩, fun hbad => ?_⟩
  · obtain ⟨hs, hd, hlen, hpacket, hlog⟩ := hp.sound hok
    exact ⟨hs, ⟨hd, by simpa using hlen⟩, hpacket, by simpa [startState, freshState] using hlog⟩
  · exact hp.complete hs hstack.1 (by simpa using hstack.2)
  · simp [hne, hp.quiet hne, startState, freshState]
  · obtain rfl : r = .bad := not_not.mp hbad
    refine ⟨?_, by simp, fun hs hstack => ?_, by simp⟩
    · have hin : 0 + e ≤ e := by omega
      exact (readsInside_touched_of_le hin).trans hreads
    · simpa using hp.complete hs hstack.1 (by simpa using hstack.2)

/-- A packet is accepted with the effect of its header stack. -/
theorem runParsePacket_ok_stack (hle : e ≤ bufferBytes)
    (hrun : runParsePacket b bufferBytes e layer = .ok (.ok, s)) :
    ∃ hs, HeaderStack b e layer hs ∧
      s.packet = (startPacket b bufferBytes layer).afterHeaders hs ∧
      s.parsed = hs.map fun h => (h.type, h.ptr) := by
  obtain ⟨r, s', hrun', hout⟩ := runParsePacket_outcome b layer hle
  obtain ⟨rfl, rfl⟩ : r = .ok ∧ s' = s := by simpa [hrun'] using hrun
  exact hout.sound rfl

/-- More bytes than the buffer has are not parsed. -/
theorem le_of_runParsePacket {b : Memory} {bufferBytes inBytes : Nat} {layer : PacketLayer}
    {out : ParseResult × ParseState}
    (hrun : runParsePacket b bufferBytes inBytes layer = .ok out) : inBytes ≤ bufferBytes := by
  have hwp : wp (parsePacket inBytes layer) (fun _ _ => True) (freshState b bufferBytes) :=
    ⟨out.1, out.2, hrun, trivial⟩
  simp only [parsePacket, wp_bind, wp_get, wp_assertThat] at hwp
  exact hwp.1

theorem HeaderStack.accepted {hs : List Header} (hstack : HeaderStack b e layer hs)
    (hle : e ≤ bufferBytes) : ∃ s, runParsePacket b bufferBytes e layer = .ok (.ok, s) ∧
      s.packet = (startPacket b bufferBytes layer).afterHeaders hs := by
  obtain ⟨r, s, hrun, hout⟩ := runParsePacket_outcome b layer hle
  obtain rfl := hout.complete hs hstack
  obtain ⟨gs, hgs, hpacket, _⟩ := hout.sound rfl
  exact ⟨s, hrun, hgs.1.unique hstack.1 ▸ hpacket⟩

/-! ## Bounds -/

/-- Every call of `parse_packet` returns without a failed assertion and without reading
beyond `in_bytes`, unless it runs into an empty IPIP payload at their end. -/
theorem runParsePacket_readsInside_iff (b : Memory) {bufferBytes inBytes : Nat}
    (layer : PacketLayer) (hle : inBytes ≤ bufferBytes) :
    (∃ r s, runParsePacket b bufferBytes inBytes layer = .ok (r, s) ∧ ReadsInside inBytes s) ↔
      ¬ EmptyIpipFrom b inBytes (layerStart b layer) 0 := by
  obtain ⟨r, s, hrun, hout⟩ := runParsePacket_outcome b layer hle
  rw [← hout.reads]
  constructor
  · rintro ⟨r', s', hrun', hin⟩
    obtain ⟨rfl, rfl⟩ : r = r' ∧ s = s' := by simpa [hrun] using hrun'
    exact hin
  · exact fun hin => ⟨r, s, hrun, hin⟩

/-- An IPv4 header of protocol IPIP with nothing behind it. -/
def emptyIpip : List UInt8 :=
  [0x45, 0x00, 0x00, 0x14, 0x00, 0x00, 0x00, 0x00, 0x40, 0x04,
   0xf9, 0x30, 0xc0, 0xa8, 0x00, 0x01, 0xc0, 0xa8, 0x00, 0x64]

theorem runParsePacket_readsInside_iff_emptyIpip :
    (∃ r s, runParsePacket (.ofList emptyIpip) 20 20 .layer3Ip = .ok (r, s) ∧
      ReadsInside 20 s) ↔ ¬ EmptyIpipFrom (.ofList emptyIpip) 20 (.ip, 0) 0 :=
  runParsePacket_readsInside_iff _ .layer3Ip (by decide)

/-- The first byte of the missing datagram is read. -/
theorem not_runParsePacket_readsInside :
    ¬ ∀ (b : Memory) (bufferBytes inBytes : Nat) (layer : PacketLayer), inBytes ≤ bufferBytes →
      ∃ r s, runParsePacket b bufferBytes inBytes layer = .ok (r, s) ∧ ReadsInside inBytes s := by
  intro h
  obtain ⟨r, s, hrun, hin⟩ := h (.ofList emptyIpip) 20 20 .layer3Ip le_rfl
  have hread : (runParsePacket (.ofList emptyIpip) 20 20 .layer3Ip).toOption.map
      (fun out => out.2.reads.contains 20) = some true := by decide +kernel
  rw [hrun] at hread
  have hmem : 20 ∈ s.reads := by simpa [Except.toOption] using hread
  exact absurd (hin 20 hmem) (by decide)

/-! ## Acceptance -/

/-- `parse_packet` accepts exactly the packets that derive from the grammar. -/
theorem runParsePacket_ok_iff (b : Memory) {bufferBytes inBytes : Nat}
    (hle : inBytes ≤ bufferBytes) :
    (∃ s, runParsePacket b bufferBytes inBytes .layer3Ip = .ok (.ok, s)) ↔
      ∃ hs, HeaderStack b inBytes .layer3Ip hs := by
  obtain ⟨r, s, hrun, hout⟩ := runParsePacket_outcome b .layer3Ip hle
  constructor
  · rintro ⟨s', hrun'⟩
    have hok : r = .ok := by
      rw [hrun] at hrun'
      cases hrun'
      rfl
    obtain ⟨hs, hstack, _⟩ := hout.sound hok
    exact ⟨hs, hstack⟩
  · rintro ⟨hs, hstack⟩
    obtain rfl := hout.complete hs hstack
    exact ⟨s, hrun⟩

/-- An IPv4/GRE/MPLS/IPv4/TCP packet, from `packet_parser_test.c`. -/
def greMplsPacket : List UInt8 :=
  [0x45, 0x00, 0x00, 0x54, 0x00, 0x00, 0x40, 0x00, 0x40, 0x2f, 0xb7, 0xcf, 0xc0, 0xa8, 0x00, 0x01,
   0xc0, 0x00, 0x02, 0x02, 0x00, 0x00, 0x88, 0x47, 0x00, 0x00, 0x00, 0x00, 0xff, 0xff, 0xff, 0xff,
   0x45, 0x00, 0x00, 0x34, 0x86, 0x99, 0x40, 0x00, 0x40, 0x06, 0x31, 0x80, 0xc0, 0xa8, 0x00, 0x01,
   0xc0, 0x00, 0x02, 0x01, 0x1f, 0x90, 0xdb, 0xcc, 0x7b, 0x81, 0xc5, 0x7c, 0x00, 0x00, 0x00, 0x01,
   0x80, 0x11, 0x01, 0xc5, 0xa6, 0xa6, 0x00, 0x00, 0x01, 0x01, 0x08, 0x0a, 0x07, 0x02, 0x08, 0x43,
   0x00, 0x00, 0x00, 0x05]

theorem runParsePacket_ok_iff_greMpls :
    ∃ hs, HeaderStack (.ofList greMplsPacket) 84 .layer3Ip hs :=
  (@runParsePacket_ok_iff (.ofList greMplsPacket) 84 84 (by decide)).mp
    ⟨_, rfl⟩

end QoSMos
