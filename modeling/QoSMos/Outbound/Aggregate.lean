import QoSMos.Outbound.Segment
import QoSMos.Outbound.Verify

/-!
# Aggregating fragments

`aggregate_packets` makes one packet of a list of fragments. Its headers are those of the last
fragment, with `extra_payload` added to every table entry, and are then finished like those of
an encapsulated packet. A `struct packet_list` is its first packet and the list of the others.
-/

namespace QoSMos

open Returns

/-- A turn of the loop that copies payloads, with the new `iter_base`. A negative length is
converted to a `size_t`. -/
def copyPayload (b : Memory) (iterBase : Nat) (packet : FullPacket) :
    Except Halt (Memory × Nat) := do
  let payload ← ofFault (packetPayload packet.toPacket)
  let len ← ofFault (packetPayloadLen packet.toPacket)
  if len < 0 then .error (.undefined "aggregate_packets" "memcpy")
  else
    let data := readBytes packet.buffer payload len.toNat
    return (writeBytes b iterBase data, iterBase + data.length)

def copyPayloads (b : Memory) (iterBase : Nat) : List FullPacket → Except Halt Memory
  | [] => .ok b
  | packet :: next => do
    let (b, iterBase) ← copyPayload b iterBase packet
    copyPayloads b iterBase next

/-- Copy the sequence number and the `cwr` flag of the first packet. -/
def copySequence (b : Memory) (tcp : Option Nat) (firstPacket : FullPacket) :
    Except Halt Memory :=
  let function := "aggregate_packets"
  match tcp, firstPacket.tcp with
  | none, _ => .error (.fault (.assertionFailed function "packet->tcp != NULL"))
  | some _, none => .error (.fault (.assertionFailed function "first_packet->tcp != NULL"))
  | some tcp, some firstTcp =>
    let b := writeBytes b (tcp + 4) (readBytes firstPacket.buffer (firstTcp + 4) 4)
    let cwr := (Tcp.cwr firstPacket.buffer firstTcp).toNat
    .ok (writeBytes b (tcp + 13) [UInt8.ofNat (u8At b (tcp + 13) % 128 + 128 * cwr)])

/-- A table entry for a payload that is longer by `extraPayload`. -/
def Header.grown (extraPayload : Int) (h : Header) : Header :=
  h.withTotal (u32 (h.totalBytes + extraPayload))

/-- The loop that adjusts the headers to the larger payload. -/
def growHeaders (b : Memory) (tcp : Option Nat) (firstPacket : FullPacket)
    (extraPayload : Int) : List Header → Except Halt (Memory × List Header)
  | [] => .ok (b, [])
  | header :: headers =>
    if header.type = .none then .ok (b, header :: headers)
    else do
      let b ← if header.type = .tcp then copySequence b tcp firstPacket else .ok b
      let (b, headers) ← growHeaders b tcp firstPacket extraPayload headers
      return (b, header.grown extraPayload :: headers)

/-- `aggregate_packets` of the packets from `head` to `tail`. -/
def aggregatePackets (heap : Memory) (head : FullPacket) (next : List FullPacket)
    (tail : FullPacket) (payloadSize : Int) : Except Halt FullPacket := do
  let oldPacket := tail
  let extraPayload := payloadSize - (← ofFault (packetPayloadLen oldPacket.toPacket))
  let headersLen ← ofFault (packetPayload oldPacket.toPacket)
  let oldPacketSize ← ofFault (packetEnd oldPacket.toPacket)
  let packet := (packetNew heap (u32 (oldPacketSize + extraPayload))).full
  let b := writeBytes packet.buffer 0 (readBytes oldPacket.buffer 0 headersLen)
  let b ← copyPayloads b headersLen (head :: next)
  let packet := packetDuplicateInfo { packet with buffer := b } oldPacket 0 extraPayload
  let (b, headers) ← growHeaders packet.buffer packet.tcp head extraPayload
    packet.headers.toList
  packetFinishEncapsulationHeaders { packet with buffer := b, headers := headersOfList headers }

/-! ## What is copied -/

/-- The payload length of a packet that has one. -/
def payloadBytes (packet : FullPacket) : Int :=
  match packetPayloadLen packet.toPacket with
  | .ok len => len
  | .error _ => 0

def payloadSum (packets : List FullPacket) : Int := (packets.map payloadBytes).sum

/-- The payload of a packet that has one. -/
def payloadData (packet : FullPacket) : List UInt8 :=
  match packetPayload packet.toPacket with
  | .ok payload => readBytes packet.buffer payload (payloadBytes packet).toNat
  | .error _ => []

section Copies

variable {b b' : Memory} {base q q' : Nat} {packet first : FullPacket} {packets : List FullPacket}
  {layer : PacketLayer} {init : List Header} {top : Header} {extra : Int}

theorem length_payloadData (hseg : Segment layer packet init top) :
    (payloadData packet).length = (payloadBytes packet).toNat := by
  unfold payloadData
  rw [hseg.payload]
  exact length_readBytes

/-- The payloads can be copied if no length is negative, and then stand behind each other. -/
theorem copyPayloads_eq_ok_iff
    (hsegs : ∀ packet ∈ packets, ∃ layer init top, Segment layer packet init top) :
    copyPayloads b base packets = .ok b' ↔ (∀ packet ∈ packets, 0 ≤ payloadBytes packet) ∧
      b' = writeBytes b base (packets.flatMap payloadData) := by
  induction packets generalizing b base with
  | nil => simp [copyPayloads, eq_comm]
  | cons packet next ih =>
    obtain ⟨layer, init, top, hseg⟩ := hsegs packet List.mem_cons_self
    have hnext := fun b base => @ih b base fun x hx => hsegs x (List.mem_cons_of_mem _ hx)
    have hlen : packetPayloadLen packet.toPacket = .ok (payloadBytes packet) := by
      unfold payloadBytes
      rw [hseg.payloadLen]
    have hturn : copyPayload b base packet = if payloadBytes packet < 0 then
        .error (.undefined "aggregate_packets" "memcpy")
        else .ok (writeBytes b base (payloadData packet),
          base + (payloadData packet).length) := by
      unfold copyPayload payloadData
      rw [hlen, hseg.payload]
      rfl
    rw [copyPayloads, List.forall_mem_cons, List.flatMap_cons, ← writeBytes_append, hturn]
    by_cases hneg : payloadBytes packet < 0
    · rw [if_pos hneg]
      exact iff_of_false (by simp [bind, Except.bind]) fun h => absurd h.1.1 (by omega)
    · rw [if_neg hneg]
      exact (hnext _ _).trans (and_congr_left fun _ => ⟨fun h => ⟨by omega, h⟩, And.right⟩)

/-- The bytes of a TCP header at `q` after those of the first packet, at `q'`, were copied. -/
structure SequenceCopied (b b' : Memory) (q : Nat) (first : Memory) (q' : Nat) : Prop where
  seq : Tcp.seq b' q = Tcp.seq first q'
  cwr : Tcp.cwr b' q = Tcp.cwr first q'
  flags : u8At b' (q + 13) % 128 = u8At b (q + 13) % 128
  frame : ∀ i, (∀ k < 4, i ≠ q + 4 + k) → i ≠ q + 13 → b' i = b i

theorem copySequence_spec (hfirst : first.tcp = some q') :
    ∃ b', copySequence b (some q) first = .ok b' ∧ SequenceCopied b b' q first.buffer q' := by
  unfold copySequence
  rw [hfirst]
  refine ⟨_, rfl, ?_⟩
  generalize hc : writeBytes b (q + 4) (readBytes first.buffer (q' + 4) 4) = c
  generalize hx : u8At c (q + 13) % 128 + 128 * (Tcp.cwr first.buffer q').toNat = x
  have hframe (i : Nat) (hi : ∀ k < 4, i ≠ q + 4 + k) : c i = b i := by
    have h0 := hi 0 (by omega)
    have h1 := hi 1 (by omega)
    have h2 := hi 2 (by omega)
    have h3 := hi 3 (by omega)
    rw [← hc]
    exact writeBytes_outside (by simp only [length_readBytes]; omega)
  have hseq (k : Nat) (hk : k < 4) : c (q + 4 + k) = first.buffer (q' + 4 + k) := by
    rw [← hc]
    exact writeBytes_readBytes _ _ _ _ hk
  have hflags : u8At (writeBytes c (q + 13) [UInt8.ofNat x]) (q + 13) = x := by
    have hlt : x < 256 := by
      rw [← hx]
      cases Tcp.cwr first.buffer q' <;> simp <;> omega
    rw [u8At_writeBytes_singleton, UInt8.toNat_ofNat']
    exact Nat.mod_eq_of_lt hlt
  have hcwr : x.testBit 7 = Tcp.cwr first.buffer q' ∧ x % 128 = u8At c (q + 13) % 128 := by
    have hlt : u8At c (q + 13) % 128 < 128 := Nat.mod_lt _ (by omega)
    rw [Nat.testBit_eq_decide_div_mod_eq]
    generalize u8At c (q + 13) % 128 = y at hx hlt ⊢
    subst hx
    cases Tcp.cwr first.buffer q' <;> simp <;> omega
  refine ⟨?_, ?_, ?_, fun i hi h13 => ?_⟩
  · apply be32At_transfer
    intro k hk
    rw [writeBytes_outside (by simp only [List.length_singleton]; omega)]
    exact hseq k hk
  · rw [Tcp.cwr, hflags]
    exact hcwr.1
  · rw [hflags, hcwr.2, u8At, hframe _ fun k hk => by omega, u8At]
  · rw [writeBytes_outside (by simp only [List.length_singleton]; omega)]
    exact hframe i hi

/-- Only the transport header's turn of the loop changes bytes. -/
theorem growHeaders_init {rest : List Header} (hinit : ∀ h ∈ init, h.type.isTransport = false)
    (hused : ∀ h ∈ init, h.type ≠ .none) {tcp : Option Nat}
    {l : List Header} (hrest : growHeaders b tcp first extra rest = .ok (b', l)) :
    growHeaders b tcp first extra (init ++ rest) =
      .ok (b', init.map (Header.grown extra) ++ l) := by
  induction init with
  | nil => exact hrest
  | cons h init ih =>
    have htcp : h.type ≠ .tcp := by
      intro ht
      have := hinit h List.mem_cons_self
      rw [ht] at this
      cases this
    rw [List.cons_append, growHeaders, if_neg (hused h List.mem_cons_self), if_neg htcp]
    simp only [bind, Except.bind, ih (fun g hg => hinit g (List.mem_cons_of_mem _ hg))
      (fun g hg => hused g (List.mem_cons_of_mem _ hg))]
    rfl

end Copies

end QoSMos
