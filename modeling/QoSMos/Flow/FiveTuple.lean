import QoSMos.Flow.CheckModifyDscp
import QoSMos.Flow.Key
import QoSMos.Parser.Invariants

/-!
# Flow keys and five-tuples

The five-tuple of an accepted packet is read off its header stack, and `get_packet_tuple`
is proved to find the four parts of it that a key holds. What the caller of each call finds in the
dead array behind a key is a parameter.
-/

namespace QoSMos

open LabelledPath WeakestPre

structure FiveTuple where
  transport : HeaderType
  tuple : Tuple
  deriving DecidableEq, Repr

/-- The addresses of the IP header `h` at `p`. -/
def srcIp (b : Memory) (h : Header) (p : Nat) : IpAddress :=
  if h.type = .ipv4 then Ipv4.srcIp b p else Ipv6.srcIp b p
def dstIp (b : Memory) (h : Header) (p : Nat) : IpAddress :=
  if h.type = .ipv4 then Ipv4.dstIp b p else Ipv6.dstIp b p

/-- The header stack `hs` has TCP or UDP on top, and `x` holds its protocol and ports and
the addresses of the innermost IP header. -/
def ShowsFiveTuple (b : Memory) (hs : List Header) (x : FiveTuple) : Prop :=
  ∃ outer ip inner p init last q, hs = outer ++ ip :: inner ∧ ip.type.isIp = true ∧
    (∀ h ∈ inner, ¬ h.type.isIp = true) ∧ ip.ptr = some p ∧
    hs = init ++ [last] ∧ last.ptr = some q ∧ (last.type = .tcp ∨ last.type = .udp) ∧
    x = ⟨last.type,
      ⟨⟨srcIp b ip p, Ports.src b q⟩, ⟨dstIp b ip p, Ports.dst b q⟩⟩⟩

/-- The parser accepted the packet, with TCP or UDP on top, and it belongs to the flow `x`. -/
def AcceptedFlow (packet : Packet) (x : FiveTuple) : Prop :=
  ∃ b bufferBytes inBytes layer s hs,
    runParsePacket b bufferBytes inBytes layer = .ok (.ok, s) ∧ s.packet = packet ∧
    Table packet hs ∧ ShowsFiveTuple packet.buffer hs x

section Tuples

variable {platform : Platform} {leftover : Leftover} {packet p q : Packet} {x y : FiveTuple}
  {t : Tuple}

/-- `get_packet_tuple` finds the addresses and ports of the flow. -/
theorem AcceptedFlow.getPacketTuple (h : AcceptedFlow packet x) :
    getPacketTuple packet = .ok x.tuple := by
  obtain ⟨b, bufferBytes, inBytes, layer, s, hs, hrun, rfl, htable, outer, ip, inner, p, init, last,
    q, hsplit, hip, hinner, hp, hlastSplit, hq, htransport, rfl⟩ := h
  obtain ⟨gs, hstack, hpacket, -⟩ := runParsePacket_ok_stack (le_of_runParsePacket hrun) hrun
  obtain ⟨r, hpath⟩ := hstack.1
  obtain rfl : gs = hs := by
    rw [hpacket] at htable
    exact (startPacket_table b bufferBytes layer (used_of_path hpath) hstack.2).unique htable
  obtain ⟨h4, h6⟩ := primary_afterHeaders (startPacket b bufferBytes layer) outer ⟨rfl, rfl⟩ hp
    hip hinner
  obtain ⟨init', last', -, -, hsplit', -, -, -, -, hinit'⟩ :=
    exists_last_of_derives hstack.1 (layerStart_ne_done b layer)
  obtain ⟨rfl, rfl⟩ : init = init' ∧ last = last' := by
    simpa using List.append_inj' (hlastSplit.symm.trans hsplit') rfl
  have htransports := startPacket_transports b bufferBytes layer hinit' hq
  rw [← hsplit, ← hpacket] at h4 h6
  rw [← hlastSplit, ← hpacket] at htransports
  simp only [Packet.transports, List.cons.injEq, and_true] at htransports
  obtain ⟨htcp, hudp, -, -⟩ := htransports
  unfold QoSMos.getPacketTuple
  rw [h4, h6, htcp, hudp]
  have hip' : ip.type = .ipv4 ∨ ip.type = .ipv6 := by
    cases ht : ip.type <;> simp [ht, HeaderType.isIp] at hip ⊢
  rcases hip' with ht | ht <;> rcases htransport with hu | hu <;>
    simp [ht, hu, srcIp, dstIp, bind, Except.bind, pure, Except.pure]

theorem AcceptedDatagram.acceptedFlow {data : Memory} {n : Nat} {l : List Header}
    (h : AcceptedDatagram data n packet) (htable : Table packet l)
    (hshows : ShowsFiveTuple packet.buffer l x) : AcceptedFlow packet x := by
  obtain ⟨s, hrun, hpacket⟩ := h.accepted
  exact ⟨data, n, n, .layer3Ip, s, l, hrun, hpacket, htable, hshows⟩

end Tuples

/-! ## Keys and flows -/

/-- The 4-tuple of both. -/
def testTuple : Tuple :=
  ⟨⟨⟨.inet, [192, 0, 2, 1, 0, 0, 0, 0, 0, 0, 0, 0, 0, 0, 0, 0]⟩, 8080⟩,
   ⟨⟨.inet, [192, 168, 0, 1, 0, 0, 0, 0, 0, 0, 0, 0, 0, 0, 0, 0]⟩, 57845⟩⟩

theorem exists_accepted_udp :
    ∃ p, AcceptedDatagram (.ofList udpDatagram) 32 p ∧ AcceptedFlow p ⟨.udp, testTuple⟩ := by
  have hdatagram : AcceptedDatagram (.ofList udpDatagram) 32 _ :=
    ⟨⟨_, rfl, rfl⟩, by decide, by decide, by decide⟩
  refine ⟨_, hdatagram, hdatagram.acceptedFlow
    (l := [⟨.ipv4, 20, 32, some 0⟩, ⟨.udp, 8, 12, some 20⟩]) ⟨by decide, by decide, by decide⟩
    ⟨[], _, [⟨.udp, 8, 12, some 20⟩], 0, [⟨.ipv4, 20, 32, some 0⟩], _, 20, rfl, rfl, ?_, rfl, rfl,
      rfl, .inr rfl, ?_⟩⟩
  · decide
  · decide

end QoSMos
