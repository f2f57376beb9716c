import Mathlib.Algebra.Order.BigOperators.Group.List
import QoSMos.Outbound.Grown

/-!
# What aggregation keeps

Fragments that pass `verify_packet_fragments` become a packet that parses to the headers of the
last one, with all the payloads behind them, under an exact condition on the fragments. Two of
its parts go back to the finish functions, which count an IPv4 header as twenty bytes and know
one number for a label stack; and no function updates the length of a UDP header.
-/

namespace QoSMos

open Returns LabelledPath

/-- The last fragment of a list. -/
def lastFragment (head : FullPacket) (next : List FullPacket) : FullPacket := next.getLastD head

/-- Each fragment passes `verify_packet_fragments` after the one before it, with `sniffed`
bytes of payload up to there. -/
def FragmentsPass (expected : Int) : Int → FullPacket → List FullPacket → Prop
  | _, _, [] => True
  | sniffed, previous, current :: next =>
    verifyPacketFragments current previous (payloadBytes current) sniffed expected = .ok () ∧
      FragmentsPass expected (sniffed + payloadBytes current) current next

/-- The bytes by which the payload of all the fragments is longer than that of the last one. -/
def extraPayload (head : FullPacket) (next : List FullPacket) : Int :=
  payloadSum (head :: next) - payloadBytes (lastFragment head next)

/-- Where the network layer of a packet starts. -/
def layerOffset (layer : PacketLayer) (packet : FullPacket) : Nat :=
  (layerStart packet.buffer layer).2

/-- `packet_end`, for a packet with the given layer in front. -/
def packetStop (layer : PacketLayer) (packet : FullPacket) : Int :=
  layerOffset layer packet + packet.ipBytes

/-- A list of fragments whose aggregate fits a datagram. -/
structure Fragments (layer : PacketLayer) (head : FullPacket) (next : List FullPacket) : Prop where
  segments : ∀ packet ∈ head :: next, ∃ layer, IsSegment layer packet
  last : IsSegment layer (lastFragment head next)
  pass : FragmentsPass (payloadSum (head :: next)) (payloadBytes head) head next
  fits : FitsUpTo (packetStop layer (lastFragment head next) + extraPayload head next)
    (layerOffset layer (lastFragment head next)) (usedHeaders (lastFragment head next).toPacket)

/-- The bytes of a header that an aggregate does not take from the last fragment: lengths,
IPv4 checksums, and what TCP takes from the first fragment. -/
def HeaderType.Adapted : HeaderType → Nat → Prop
  | .ipv4, k => k = 2 ∨ k = 3 ∨ k = 10 ∨ k = 11
  | .ipv6, k => k = 4 ∨ k = 5
  | .udp, k => k = 4 ∨ k = 5
  | .tcp, k => 4 ≤ k ∧ k < 8 ∨ k = 13
  | _, _ => False

/-- The packet carries the payloads of all the fragments under the headers of the last one. -/
structure Aggregates (layer : PacketLayer) (head : FullPacket) (next : List FullPacket)
    (packet : FullPacket) (start stop payload : Nat) : Prop where
  startsAt : packetStart packet.toPacket = .ok start
  endsAt : packetEnd packet.toPacket = .ok stop
  payloadAt : packetPayload packet.toPacket = .ok payload
  payloadLen : packetPayloadLen packet.toPacket = .ok (payloadSum (head :: next))
  data : readBytes packet.buffer payload (payloadSum (head :: next)).toNat =
    (head :: next).flatMap payloadData
  sequence : ∀ tcp, packet.tcp = some tcp → ∃ firstTcp, head.tcp = some firstTcp ∧
    Tcp.seq packet.buffer tcp = Tcp.seq head.buffer firstTcp ∧
    Tcp.cwr packet.buffer tcp = Tcp.cwr head.buffer firstTcp
  entries : List.Forall₂ SameEntry (usedHeaders (lastFragment head next).toPacket)
    (usedHeaders packet.toPacket)
  fields : FieldsKept HeaderType.Adapted (lastFragment head next).buffer packet.buffer start
    (usedHeaders (lastFragment head next).toPacket)
  lengths : Describes packet.buffer stop start (usedHeaders packet.toPacket)
  parses : ∃ s, runParsePacket packet.buffer packet.bufferBytes stop layer = .ok (.ok, s) ∧
    (usedHeaders s.packet).map Header.type =
      (usedHeaders (lastFragment head next).toPacket).map Header.type ∧
    packetPayloadLen s.packet = .ok (payloadSum (head :: next))

/-- `aggregate_packets` returns the aggregate of the fragments. -/
def AggregateLaw (heap : Memory) (layer : PacketLayer) (head : FullPacket)
    (next : List FullPacket) : Prop :=
  ∃ packet start stop payload, aggregatePackets heap head next (lastFragment head next)
    (payloadSum (head :: next)) = .ok packet ∧
      Aggregates layer head next packet start stop payload

/-- The condition on the fragments: the headers of the last one, with every IPv4 header taken
for twenty bytes, come to the end of the packet, its UDP header already reaches to the end of
the aggregate, and it has no multicast label stack in a GRE header. -/
structure Combinable (layer : PacketLayer) (head : FullPacket) (next : List FullPacket) :
    Prop where
  payloads : ∀ packet ∈ head :: next, 0 ≤ payloadBytes packet
  counted : CountsTo (lastFragment head next).buffer (packetStop layer (lastFragment head next))
    (packetStop layer (lastFragment head next) + extraPayload head next)
    (layerOffset layer (lastFragment head next)) (usedHeaders (lastFragment head next).toPacket)
  labels : ∀ h ∈ usedHeaders (lastFragment head next).toPacket, h.type = .gre →
    ∀ p, h.ptr = some p → Gre.proto (lastFragment head next).buffer p ≠ ETHERTYPE_MPLS_MC

/-! ## Fragments of one list -/

section Chain

variable {layer : PacketLayer} {head packet previous : FullPacket} {next : List FullPacket}
  {init : List Header} {top : Header} {expected sniffed : Int}

theorem Segment.usedHeaders_eq (hseg : Segment layer packet init top) :
    usedHeaders packet.toPacket = init ++ [top] :=
  hseg.table.usedHeaders_eq

theorem Segment.payloadBytes_eq (hseg : Segment layer packet init top) :
    payloadBytes packet = packet.ipBytes - headerSum (init ++ [top]) := by
  unfold payloadBytes
  rw [hseg.payloadLen]

theorem lastFragment_mem : lastFragment head next ∈ head :: next := by
  unfold lastFragment
  induction next generalizing head with
  | nil => simp
  | cons current next ih =>
    rw [List.getLastD_cons]
    exact List.mem_cons_of_mem _ ih

/-- All the fragments have the header types of the first one. -/
theorem FragmentsPass.types (hsegs : ∀ packet ∈ previous :: next, ∃ layer, IsSegment layer packet)
    (hpass : FragmentsPass expected sniffed previous next) :
    ∀ packet ∈ next, (usedHeaders packet.toPacket).map Header.type =
      (usedHeaders previous.toPacket).map Header.type := by
  induction next generalizing previous sniffed with
  | nil => simp
  | cons current next ih =>
    obtain ⟨hverify, hrest⟩ := hpass
    rw [List.forall_mem_cons] at hsegs
    obtain ⟨⟨_, hprevious⟩, hsegs⟩ := hsegs
    obtain ⟨_, hcurrent⟩ := hsegs current List.mem_cons_self
    obtain ⟨init, top, hprevious⟩ := hprevious.segment
    obtain ⟨init', top', hcurrent⟩ := hcurrent.segment
    have hheaders := (verifyPacketFragments_ok hprevious.payloadLen hverify).1
    have htypes : (usedHeaders current.toPacket).map Header.type =
        (usedHeaders previous.toPacket).map Header.type := by
      rw [hcurrent.usedHeaders_eq, hprevious.usedHeaders_eq]
      exact verifyOutboundLiveHeaders_types hcurrent.table hprevious.table hheaders
    intro x hx
    rcases List.mem_cons.mp hx with rfl | hx
    · exact htypes
    · exact (ih hsegs hrest x hx).trans htypes

theorem Fragments.types (hf : Fragments layer head next) :
    ∀ packet ∈ head :: next, (usedHeaders packet.toPacket).map Header.type =
      (usedHeaders (lastFragment head next).toPacket).map Header.type := by
  have hfirst : ∀ packet ∈ head :: next, (usedHeaders packet.toPacket).map Header.type =
      (usedHeaders head.toPacket).map Header.type := by
    rw [List.forall_mem_cons]
    exact ⟨rfl, hf.pass.types hf.segments⟩
  intro packet hpacket
  rw [hfirst packet hpacket, hfirst _ lastFragment_mem]

/-- The first fragment of a TCP connection has a TCP header. -/
theorem Fragments.exists_firstTcp (hf : Fragments layer head next)
    (hlast : Segment layer (lastFragment head next) init top) (htcp : top.type = .tcp) :
    ∃ q, head.tcp = some q := by
  obtain ⟨layer', hhead⟩ := hf.segments head List.mem_cons_self
  obtain ⟨init', top', hhead⟩ := hhead.segment
  have htypes := hf.types head List.mem_cons_self
  rw [hhead.usedHeaders_eq, hlast.usedHeaders_eq, List.map_append, List.map_append] at htypes
  have htop : top'.type = top.type := by
    simpa using (List.append_inj' htypes rfl).2
  rw [hhead.tcp, if_pos (htop.trans htcp), hhead.ptr]
  exact ⟨_, rfl⟩

/-- Under an outermost label stack no fragment has a payload. -/
theorem Fragments.payloadSum_mpls (hf : Fragments layer head next)
    (hlast : Segment layer (lastFragment head next) init top)
    (hmpls : nextType (init ++ [top]) = .mpls) : payloadSum (head :: next) = 0 := by
  have hzero : ∀ n ∈ (head :: next).map payloadBytes, n = 0 := by
    intro n hn
    obtain ⟨packet, hpacket, rfl⟩ := List.mem_map.mp hn
    obtain ⟨layer', hseg⟩ := hf.segments packet hpacket
    obtain ⟨init', top', hseg⟩ := hseg.segment
    have htypes := hf.types packet hpacket
    rw [hseg.usedHeaders_eq, hlast.usedHeaders_eq] at htypes
    have hfirst (l : List Header) : nextType l = ((l.map Header.type).head?).getD .none := by
      cases l <;> rfl
    rw [hfirst, ← htypes, ← hfirst] at hmpls
    rw [hseg.payloadBytes_eq, hseg.ipBytes hmpls]
    omega
  exact List.sum_eq_zero hzero

end Chain

/-! ## Header fields -/

section Fields

variable {b c m : Memory} {e p : Nat} {h h' : Header} {hs : List Header} {t : HeaderType}
  {extra : Int}

theorem byte_eq_of_u8At {q : Nat} (h : u8At b p = u8At c q) : b p = c q := UInt8.toNat_inj.mp h

theorem bytes_eq_of_be16At {q : Nat} (h : be16At b p = be16At c q) :
    b p = c q ∧ b (p + 1) = c (q + 1) := by
  have := u8At_lt b p
  have := u8At_lt b (p + 1)
  have := u8At_lt c q
  have := u8At_lt c (q + 1)
  simp only [be16At] at h
  exact ⟨byte_eq_of_u8At (by omega), byte_eq_of_u8At (by omega)⟩

theorem HeaderType.ethProto_ne_multicast (t : HeaderType) : t.ethProto ≠ ETHERTYPE_MPLS_MC := by
  cases t <;> decide

/-- The protocol number of a GRE header is the only field that finishing can change. -/
theorem fieldKept_iff (hstands : Stands c e p h t) (hnamed : Named c p h t)
    (htaken : ∀ k < h.headerBytes, ¬ h.type.Taken k → m (p + k) = c (p + k))
    (hflags : h.type = .tcp → u8At m (p + 13) % 128 = u8At c (p + 13) % 128)
    (hkept : ∀ k < h.headerBytes, ¬ h.type.Rewritten k → b (p + k) = m (p + k))
    (hfinished : FinishedFields b p h' t) (htype : h'.type = h.type) :
    ((∀ k < h.headerBytes, ¬ h.type.Adapted k → b (p + k) = c (p + k)) ∧
      (h.type = .tcp → u8At b (p + 13) % 128 = u8At c (p + 13) % 128)) ↔
      (h.type = .gre → Gre.proto c p ≠ ETHERTYPE_MPLS_MC) := by
  have hsame (k : Nat) (hk : k < h.headerBytes) (hnot : ¬ h.type.Rewritten k)
      (hnot' : ¬ h.type.Taken k) : b (p + k) = c (p + k) :=
    (hkept k hk hnot).trans (htaken k hk hnot')
  have hshape := hstands.shape
  obtain ⟨type, n, total, ptr⟩ := h
  obtain ⟨type', n', total', ptr'⟩ := h'
  obtain rfl : type' = type := htype
  cases type' with
  | none => exact hshape.elim
  | ipv4 =>
    have hproto : Ipv4.protocol b p = Ipv4.protocol c p := hfinished.2.1.trans hnamed.symm
    refine iff_of_true ⟨fun k hk hnot => ?_, (by cases ·)⟩ (by cases ·)
    by_cases h9 : k = 9
    · subst h9
      exact byte_eq_of_u8At hproto
    · simp only [HeaderType.Adapted] at hnot
      exact hsame k hk (by simp only [HeaderType.Rewritten]; omega) id
  | ipv6 =>
    have hproto : Ipv6.nextHeader b p = Ipv6.nextHeader c p := hfinished.2.trans hnamed.symm
    refine iff_of_true ⟨fun k hk hnot => ?_, (by cases ·)⟩ (by cases ·)
    by_cases h6 : k = 6
    · subst h6
      exact byte_eq_of_u8At hproto
    · simp only [HeaderType.Adapted] at hnot
      exact hsame k hk (by simp only [HeaderType.Rewritten]; omega) id
  | gre =>
    have hproto : Gre.proto b p = t.ethProto := hfinished
    have hlen : Gre.len c p = n := hshape.2.2
    have hmin : 4 ≤ Gre.len c p := Gre.minlen_le_len c p
    constructor
    · rintro ⟨hbytes, -⟩ - hmulticast
      have heq : Gre.proto b p = Gre.proto c p :=
        be16At_transfer (hbytes 2 (by simp only; omega) id) (hbytes 3 (by simp only; omega) id)
      exact t.ethProto_ne_multicast (by rw [← hproto, heq, hmulticast])
    · intro hlabels
      have heq : Gre.proto b p = Gre.proto c p :=
        hproto.trans (hnamed.resolve_right fun h => hlabels rfl h.1).symm
      obtain ⟨h2, h3⟩ := bytes_eq_of_be16At heq
      refine ⟨fun k hk _ => ?_, (by cases ·)⟩
      by_cases hk2 : k = 2
      · rwa [hk2]
      · by_cases hk3 : k = 3
        · rwa [hk3]
        · exact hsame k hk (by simp only [HeaderType.Rewritten]; omega) id
  | tcp =>
    have hmin : 20 ≤ n := hshape.1
    refine iff_of_true ⟨fun k hk hnot => hsame k hk id hnot, fun _ => ?_⟩ (by cases ·)
    rw [u8At_transfer (hkept 13 (by simp only; omega) id)]
    exact hflags rfl
  | mpls | udp | icmpv4 | icmpv6 =>
    exact iff_of_true ⟨fun k hk _ => hsame k hk id id, (by cases ·)⟩ (by cases ·)

theorem fieldsKept_iff (hstack : Stacked c e p hs) (hnamed : NamedFrom c p hs)
    (htaken : FieldsKept HeaderType.Taken c m p hs)
    (hkept : Kept m b p (hs.map (Header.grown extra)))
    (hfinished : Finished b p (finishedHeaders (hs.map (Header.grown extra)))) :
    FieldsKept HeaderType.Adapted c b p hs ↔
      ∀ h ∈ hs, h.type = .gre → ∀ q, h.ptr = some q → Gre.proto c q ≠ ETHERTYPE_MPLS_MC := by
  induction hs generalizing p with
  | nil => simp [FieldsKept]
  | cons h inner ih =>
    have hfields := hfinished.1
    rw [nextType_finishedHeaders, nextType_grown] at hfields
    rw [List.forall_mem_cons]
    refine and_congr ((fieldKept_iff hstack.1 hnamed.1 htaken.1.1 htaken.1.2 hkept.1 hfields
      rfl).trans (imp_congr_right fun _ => ?_)) (ih hstack.2 hnamed.2 htaken.2 hkept.2 hfinished.2)
    rw [hstack.1.ptr]
    simp

end Fields

/-! ## Parsing the aggregate -/

section Parsing

variable {b : Memory} {e p n : Nat} {hs init : List Header} {h top : Header}
  {layer : PacketLayer}

/-- The entries of headers that all reach to the end `e`. -/
def reaching (e : Nat) : Nat → List Header → List Header
  | _, [] => []
  | p, h :: inner => h.withTotal (e - p) :: reaching e (p + h.headerBytes) inner

theorem sameEntry_reaching : List.Forall₂ SameEntry hs (reaching e p hs) := by
  induction hs generalizing p with
  | nil => exact .nil
  | cons h inner ih => exact .cons ⟨rfl, rfl, rfl⟩ ih

theorem map_type_of_same {gs : List Header} (hsame : List.Forall₂ SameEntry hs gs) :
    gs.map Header.type = hs.map Header.type := by
  induction hsame with
  | nil => rfl
  | cons hentry _ ih => rw [List.map_cons, List.map_cons, ih, hentry.type]

theorem headerSum_of_same {gs : List Header} (hsame : List.Forall₂ SameEntry hs gs) :
    headerSum gs = headerSum hs := by
  induction hsame with
  | nil => rfl
  | cons hentry _ ih => rw [headerSum_cons, headerSum_cons, ih, hentry.headerBytes]

theorem nextType_of_same {gs : List Header} (hsame : List.Forall₂ SameEntry hs gs) :
    nextType gs = nextType hs := by
  cases hsame with
  | nil => rfl
  | cons hentry _ => exact hentry.type

/-- Headers whose fields are right are laid out. -/
theorem LaidOut.of_describes (hstack : Stacked b e p hs) (hdescribes : Describes b e p hs) :
    LaidOut b e p (reaching e p hs) := by
  have hstacked := hstack.of_same (sameEntry_reaching (e := e) (p := p))
  induction hs generalizing p with
  | nil => exact hstack
  | cons h inner ih =>
    have hnext : nextType (reaching e (p + h.headerBytes) inner) = nextType inner :=
      nextType_of_same sameEntry_reaching
    have hle := hstack.2.le
    refine ⟨⟨hstacked.1, ?_, ?_⟩, ih hstack.2 hdescribes.2 hstacked.2⟩
    · show p + (e - p) = e
      omega
    · rw [hnext]
      exact hdescribes.1

/-- The grammar does not tell a multicast label stack from another one. -/
theorem Derives.multicast (hd : Derives b e (.proto ETHERTYPE_MPLS_UC, p) hs)
    (hmpls : nextType hs = .mpls) : Derives b e (.proto ETHERTYPE_MPLS_MC, p) hs := by
  obtain ⟨q, hp⟩ := hd
  cases hp with
  | @cons _ y _ h inner hn hp =>
    refine ⟨q, .cons ⟨?_, hn.2⟩ hp⟩
    obtain ⟨hh, -⟩ := hn
    have hmpls : h.type = .mpls := hmpls
    generalize y.1 = next at hh ⊢
    generalize hsym : Symbol.proto ETHERTYPE_MPLS_UC = sym at hh
    cases hh with
    | mpls _ hstack => exact .mpls (.inr rfl) hstack
    | _ => cases hmpls

theorem LaidOut.headerStack_layer (hl : LaidOut b e (layerStart b layer).2 hs)
    (hannounces : (layerStart b layer).1.Announces b (layerStart b layer).2 (nextType hs))
    (hlen : hs.length ≤ PACKET_MAX_HEADERS) : HeaderStack b e layer hs := by
  refine ⟨?_, hlen⟩
  cases layer with
  | layer3Ip => exact hl.derives hannounces
  | layer2Ethernet =>
    obtain ⟨hproto | ⟨hmulticast, hmpls⟩, htype, hversion⟩ := hannounces
    · exact hl.derives ⟨hproto, htype, hversion⟩
    · have hexpects : (Symbol.proto ETHERTYPE_MPLS_UC).Expects b e
          (layerStart b .layer2Ethernet).2 (nextType hs) := by
        rw [hmpls]
        exact ⟨rfl, by simp, trivial⟩
      have hd := (hl.derives hexpects).multicast hmpls
      rw [← hmulticast] at hd
      exact hd

theorem HeaderType.Structural.not_adapted {t : HeaderType} {k : Nat} (hk : t.Structural k) :
    ¬ t.Adapted k := by
  intro ha
  cases t <;> simp only [HeaderType.Structural, HeaderType.Adapted] at hk ha <;> omega

/-- What a packet starts with is still announced where its fields were kept. -/
theorem announces_of_kept {c : Memory} (hstack : Stacked b e (layerStart b layer).2 hs)
    (hfront : ∀ i < (layerStart b layer).2, c i = b i)
    (hfields : FieldsKept HeaderType.Adapted b c (layerStart b layer).2 hs)
    (hannounces : (layerStart b layer).1.Announces b (layerStart b layer).2 (nextType hs)) :
    (layerStart c layer).1.Announces c (layerStart c layer).2 (nextType hs) := by
  have hversion (h : VersionAt b (layerStart b layer).2 (nextType hs)) :
      VersionAt c (layerStart b layer).2 (nextType hs) := by
    cases hs with
    | nil => exact trivial
    | cons g inner =>
      exact hstack.1.shape.versionAt (fun k hk hs => hfields.1.1 k hk hs.not_adapted) h
  cases layer with
  | layer3Ip => exact ⟨hannounces.1, hversion hannounces.2⟩
  | layer2Ethernet =>
    have hfront (i : Nat) (hi : i < 14) : c i = b i := hfront i hi
    have htype : Ether.etherType c 0 = Ether.etherType b 0 :=
      be16At_transfer (hfront _ (by omega)) (hfront _ (by omega))
    obtain ⟨hproto, htypes, hv⟩ := hannounces
    rw [← htype] at hproto
    exact ⟨hproto, htypes, hversion hv⟩

/-- The parser finds the headers of a packet whose fields are right, and a payload up to its
end. -/
theorem parses_of_describes (hstack : Stacked b e (layerStart b layer).2 hs)
    (hdescribes : Describes b e (layerStart b layer).2 hs)
    (hannounces : (layerStart b layer).1.Announces b (layerStart b layer).2 (nextType hs))
    (hlen : hs.length ≤ PACKET_MAX_HEADERS)
    (hmpls : nextType hs = .mpls → (layerStart b layer).2 + headerSum hs = e)
    (hle : e ≤ n) :
    ∃ s, runParsePacket b n e layer = .ok (.ok, s) ∧
      (usedHeaders s.packet).map Header.type = hs.map Header.type ∧
      packetPayloadLen s.packet = .ok ((e : Int) - ((layerStart b layer).2 + headerSum hs)) := by
  have hsame : List.Forall₂ SameEntry hs (reaching e (layerStart b layer).2 hs) :=
    sameEntry_reaching
  have hlaid := LaidOut.of_describes hstack hdescribes
  have hstacked : HeaderStack b e layer (reaching e (layerStart b layer).2 hs) := by
    apply hlaid.headerStack_layer
    · rwa [nextType_of_same hsame]
    · rwa [← hsame.length_eq]
  obtain ⟨s, hrun, hpacket⟩ := hstacked.accepted hle
  obtain ⟨q, hpath⟩ := hstacked.1
  have htable := startPacket_table b n layer (used_of_path hpath) hstacked.2
  refine ⟨s, hrun, ?_, ?_⟩
  · rw [hpacket, htable.usedHeaders_eq, map_type_of_same hsame]
  · rw [hpacket, hstacked.packetPayloadLen_eq n, headerSum_of_same hsame]
    cases hs with
    | nil => exact absurd (layerStart_announces hannounces) (by simp [nextType, HeaderType.isIp])
    | cons h inner =>
      have hend := hstack.headerSum_le
      have hbytes : ((startPacket b n layer).afterHeaders
          (reaching e (layerStart b layer).2 (h :: inner))).ipBytes =
          if h.type.isIp then e - (layerStart b layer).2
          else headerSum (reaching e (layerStart b layer).2 (h :: inner)) :=
        hstacked.ipBytes_eq n
      rw [hbytes, headerSum_of_same hsame]
      apply congrArg Except.ok
      by_cases hip : h.type.isIp = true
      · rw [if_pos hip]
        omega
      · have hfull := hmpls ((layerStart_announces hannounces).resolve_left hip)
        rw [if_neg hip]
        omega

end Parsing

/-! ## The finished aggregate -/

/-- What there is of an aggregate that was finished, with its end at `stop`. -/
structure FinishedAggregate (layer : PacketLayer) (init : List Header) (top : Header)
    (extra : Int) (data : List UInt8) (first last packet : FullPacket) (stop : Nat) : Prop where
  table : Table packet.toPacket (finishedHeaders ((init ++ [top]).map (Header.grown extra)))
  startsAt : packetStart packet.toPacket = .ok (layerOffset layer last)
  endsAt : packetEnd packet.toPacket = .ok stop
  payloadAt : packetPayload packet.toPacket =
    .ok (layerOffset layer last + headerSum (init ++ [top]))
  data : readBytes packet.buffer (layerOffset layer last + headerSum (init ++ [top]))
    data.length = data
  sequence : ∀ tcp, packet.tcp = some tcp → ∃ firstTcp, first.tcp = some firstTcp ∧
    Tcp.seq packet.buffer tcp = Tcp.seq first.buffer firstTcp ∧
    Tcp.cwr packet.buffer tcp = Tcp.cwr first.buffer firstTcp
  front : ∀ i < layerOffset layer last, packet.buffer i = last.buffer i
  stacked : Stacked packet.buffer stop (layerOffset layer last) (init ++ [top])
  bufferBytes : packet.bufferBytes = stop
  fields_iff : FieldsKept HeaderType.Adapted last.buffer packet.buffer (layerOffset layer last)
      (init ++ [top]) ↔
    ∀ h ∈ init ++ [top], h.type = .gre →
      ∀ p, h.ptr = some p → Gre.proto last.buffer p ≠ ETHERTYPE_MPLS_MC
  lengths_iff : Describes packet.buffer stop (layerOffset layer last)
      (finishedHeaders ((init ++ [top]).map (Header.grown extra))) ↔
    CountsTo last.buffer (packetStop layer last) stop (layerOffset layer last) (init ++ [top])

section Finished

variable {layer : PacketLayer} {init hs : List Header} {top : Header} {extra : Int}
  {data : List UInt8} {first last before packet : FullPacket} {stop p e : Nat} {b : Memory}

theorem packetStart_of_stacked {q : Packet} (ht : Table q hs) (hstack : Stacked b e p hs)
    (hne : hs ≠ []) : packetStart q = .ok p := by
  obtain ⟨h, inner, rfl⟩ := List.exists_cons_of_ne_nil hne
  rw [packetStart, ht.entries]
  simp only [List.cons_append, List.getD_cons_zero, hstack.1.ptr]

theorem packetPayload_congr {q r : Packet} (htcp : q.tcp = r.tcp) (hudp : q.udp = r.udp)
    (hicmpv4 : q.icmpv4 = r.icmpv4) (hicmpv6 : q.icmpv6 = r.icmpv6)
    (hdoff : ∀ tcp, r.tcp = some tcp → Tcp.doff q.buffer tcp = Tcp.doff r.buffer tcp) :
    packetPayload q = packetPayload r := by
  unfold packetPayload
  rw [htcp, hudp, hicmpv4, hicmpv6]
  cases h : r.tcp with
  | none => cases r.udp <;> cases r.icmpv4 <;> cases r.icmpv6 <;> rfl
  | some tcp => simp only [hdoff tcp h]

theorem sameEntry_finished_grown :
    List.Forall₂ SameEntry hs (finishedHeaders (hs.map (Header.grown extra))) := by
  induction hs with
  | nil => exact .nil
  | cons h inner ih => exact .cons ⟨rfl, rfl, rfl⟩ ih

/-- The headers stand in the unfinished aggregate as they do in the last packet. -/
theorem FieldsKept.stacked {c : Memory} {stop : Nat}
    (hkept : FieldsKept HeaderType.Taken b c p hs) (hstack : Stacked b e p hs)
    (hend : p + headerSum hs ≤ stop) : Stacked c stop p hs := by
  have hsame : SameShape b c 0 p hs := by
    clear hstack hend
    induction hs generalizing p with
    | nil => exact trivial
    | cons h inner ih =>
      refine ⟨fun k hk hstructural => ?_, ih hkept.2⟩
      rw [Nat.zero_add]
      refine hkept.1.1 k hk fun htaken => ?_
      cases htype : h.type <;> rw [htype] at htaken hstructural <;> try exact htaken
      simp only [HeaderType.Taken, HeaderType.Structural] at htaken hstructural
      omega
  have hend : 0 + p + headerSum hs ≤ stop := by omega
  have hmoved := hstack.moved hsame hend
  rwa [Nat.zero_add, map_moved_zero] at hmoved

/-- The TCP header is the last one. -/
theorem Segment.tcp_eq {tcp : Nat} (hlast : Segment layer last init top)
    (h : last.tcp = some tcp) :
    top.type = .tcp ∧ tcp = layerOffset layer last + headerSum init := by
  rw [hlast.tcp] at h
  split at h
  · rename_i htype
    exact ⟨htype, Option.some.inj (h.symm.trans hlast.ptr)⟩
  · cases h

theorem Segment.udp_bytes (hlast : Segment layer last init top) (hudp : top.type = .udp) :
    top.headerBytes = UDP_BYTES := by
  obtain ⟨_, hshape⟩ := hlast.top_shape
  unfold Shape at hshape
  rwa [hudp] at hshape

theorem Unfinished.finished (hlast : Segment layer last init top)
    (hun : Unfinished (layerOffset layer last) init top extra data first last before)
    (hextra : 0 ≤ extra) (hsmall : extra ≤ 65575) (hlen : 0 ≤ payloadBytes last)
    (hstop : (stop : Int) = packetStop layer last + extra) (hlt : stop < 4294967296)
    (hdata : (data.length : Int) = payloadBytes last + extra)
    (hfits : FitsUpTo stop (layerOffset layer last) (init ++ [top]))
    (hok : packetFinishEncapsulationHeaders before = .ok packet) :
    FinishedAggregate layer init top extra data first last packet stop := by
  obtain ⟨e, hstack⟩ := hlast.stacked
  have hpayload := hlast.payloadBytes_eq
  have hstop' : (stop : Int) = layerOffset layer last + last.ipBytes + extra := hstop
  have htotals := hlast.totals
  have hsum : headerSum (init ++ [top]) = headerSum init + top.headerBytes := headerSum_concat
  have hend : layerOffset layer last + headerSum (init ++ [top]) ≤ stop := by omega
  have hgrown : Stacked before.buffer stop (layerOffset layer last)
      ((init ++ [top]).map (Header.grown extra)) :=
    (hun.fields.stacked hstack hend).of_same sameEntry_grown
  obtain ⟨htable, hfinish, hpacket⟩ :=
    packetFinishEncapsulationHeaders_spec hun.table hgrown.chained hok
  have hgrownStacked := hfinish.stacked_before hgrown
  have hstacked : Stacked packet.buffer stop (layerOffset layer last) (init ++ [top]) :=
    hgrownStacked.of_same (sameEntry_grown.imp fun _ _ h => h.symm).flip
  -- Nothing of the transport header and the payload is rewritten.
  have hkeptTop := hfinish.kept
  rw [List.map_append] at hkeptTop
  have hkeptTop := hkeptTop.of_append
  rw [headerSum_grown] at hkeptTop
  obtain ⟨htopKept, hdataKept⟩ := hkeptTop
  have hnot (k : Nat) : ¬ top.type.Rewritten k := by
    rcases hlast.topType with ht | ht <;> rw [ht] <;> exact id
  have htop (k : Nat) (hk : k < top.headerBytes) :
      packet.buffer (layerOffset layer last + headerSum init + k) =
        before.buffer (layerOffset layer last + headerSum init + k) := htopKept k hk (hnot k)
  obtain ⟨⟨htaken, -⟩, -⟩ := hun.fields.of_append
  have hipBytes : packet.ipBytes = last.ipBytes + extra := by
    rw [hpacket]
    show (before.ipBytes : Int) = _
    rw [hun.ipBytes, u32, Int.emod_eq_of_lt (by omega) (by omega)]
    omega
  have hstart : packetStart packet.toPacket = .ok (layerOffset layer last) :=
    packetStart_of_stacked htable (hgrownStacked.of_same sameEntry_finishedHeaders)
      (by cases init <;> simp [finishedHeaders_cons])
  have hpointers : packet.tcp = last.tcp ∧ packet.udp = last.udp ∧
      packet.icmpv4 = last.icmpv4 ∧ packet.icmpv6 = last.icmpv6 := by
    rw [hpacket]
    exact hun.pointers
  refine ⟨htable, hstart, ?_, ?_, ?_, ?_, ?_, hstacked, ?_, ?_, ?_⟩
  · rw [packetEnd, hstart]
    refine congrArg Except.ok ?_
    omega
  · refine (packetPayload_congr hpointers.1 hpointers.2.1 hpointers.2.2.1 hpointers.2.2.2
      fun tcp h => ?_).trans hlast.payload
    obtain ⟨htype, rfl⟩ := hlast.tcp_eq h
    have hmin : 20 ≤ top.headerBytes := (hlast.tcp_bytes htype).1
    have hdoff : packet.buffer (layerOffset layer last + headerSum init + 12) =
        last.buffer (layerOffset layer last + headerSum init + 12) := by
      refine (htop 12 (by omega)).trans (htaken 12 (by omega) ?_)
      rw [htype]
      simp [HeaderType.Taken]
    rw [Tcp.doff, Tcp.doff, u8At_transfer hdoff]
  · apply List.ext_getElem (by simp)
    intro i _ hi
    simp only [readBytes, List.getElem_map, List.getElem_range]
    have hbyte := hdataKept (layerOffset layer last + headerSum (init ++ [top]) + i) (by
      show layerOffset layer last + headerSum init + top.headerBytes ≤ _
      omega)
    rw [hbyte, hun.data i hi]
    exact List.getD_eq_getElem _ _ hi
  · intro tcp h
    rw [hpointers.1] at h
    obtain ⟨htype, rfl⟩ := hlast.tcp_eq h
    have hmin : 20 ≤ top.headerBytes := (hlast.tcp_bytes htype).1
    obtain ⟨firstTcp, hfirst, hseq, hcwr⟩ := hun.sequence htype
    refine ⟨firstTcp, hfirst, ?_, ?_⟩
    · rw [← hseq]
      apply be32At_transfer
      intro k hk
      rw [Nat.add_assoc (layerOffset layer last + headerSum init)]
      exact htop (4 + k) (by omega)
    · rw [← hcwr, Tcp.cwr, Tcp.cwr, u8At_transfer (htop 13 (by omega))]
  · intro i hi
    exact (hfinish.before i hi).trans (hun.front i hi)
  · rw [hpacket]
    show before.bufferBytes = stop
    rw [hun.bufferBytes, u32, Int.emod_eq_of_lt (by omega) (by omega)]
    omega
  · exact fieldsKept_iff hstack hlast.named hun.fields hfinish.kept hfinish.finished
  · have hnear : Near stop (layerOffset layer last)
        ((init ++ [top]).map (Header.grown extra)) :=
      near_grown hstack (by omega) (by omega) (by omega) hlast.top_isTransport
    rw [describes_finishedHeaders_iff hgrownStacked hfinish.finished (fitsUpTo_grown.mpr hfits)
      hnear, hstop, countsTo_grown (by omega) (by omega)]
    apply countsTo_congr hlast.notTransport
    intro hudp
    have h8 : top.headerBytes = 8 := hlast.udp_bytes hudp
    have hbyte (k : Nat) (hk : k < 8) :
        packet.buffer (layerOffset layer last + headerSum init + k) =
          last.buffer (layerOffset layer last + headerSum init + k) := by
      refine (htop k (by omega)).trans (htaken k (by omega) ?_)
      rw [hudp]
      exact id
    exact be16At_transfer (hbyte 4 (by omega)) (hbyte 5 (by omega))

end Finished

/-! ## The law -/

section Law

variable {heap : Memory} {layer : PacketLayer} {head before : FullPacket}
  {next : List FullPacket} {init : List Header} {top : Header}

/-- The sizes of an aggregate that ends at `stop`. -/
structure Sizes (layer : PacketLayer) (head : FullPacket) (next : List FullPacket)
    (hs : List Header) (stop : Nat) : Prop where
  extra : 0 ≤ extraPayload head next ∧ extraPayload head next ≤ 65575
  last : 0 ≤ payloadBytes (lastFragment head next)
  stops : (stop : Int) = packetStop layer (lastFragment head next) + extraPayload head next
  payload : (stop : Int) = layerOffset layer (lastFragment head next) + headerSum hs +
    payloadSum (head :: next)
  data : (((head :: next).flatMap payloadData).length : Int) = payloadSum (head :: next)
  lt : stop < 4294967296

theorem length_flatMap_payloadData {packets : List FullPacket}
    (hsegs : ∀ packet ∈ packets, ∃ layer init top, Segment layer packet init top)
    (hnonneg : ∀ packet ∈ packets, 0 ≤ payloadBytes packet) :
    ((packets.flatMap payloadData).length : Int) = payloadSum packets := by
  induction packets with
  | nil => rfl
  | cons packet next ih =>
    rw [List.forall_mem_cons] at hsegs hnonneg
    obtain ⟨⟨layer, init, top, hseg⟩, hsegs⟩ := hsegs
    obtain ⟨hfirst, hnonneg⟩ := hnonneg
    have hrest := ih hsegs hnonneg
    rw [List.flatMap_cons, List.length_append, length_payloadData hseg]
    simp only [payloadSum, List.map_cons, List.sum_cons] at hrest ⊢
    omega

theorem Fragments.exists_sizes (hf : Fragments layer head next)
    (hlast : Segment layer (lastFragment head next) init top)
    (hnonneg : ∀ packet ∈ head :: next, 0 ≤ payloadBytes packet) :
    ∃ stop, Sizes layer head next (init ++ [top]) stop := by
  have hsegs : ∀ packet ∈ head :: next, ∃ layer init top, Segment layer packet init top :=
    fun packet hpacket => (hf.segments packet hpacket).imp fun _ hseg => hseg.segment
  have hdata := length_flatMap_payloadData hsegs hnonneg
  have hlastLen := hnonneg _ lastFragment_mem
  have hlastEq := hlast.payloadBytes_eq
  have hle : payloadBytes (lastFragment head next) ≤ payloadSum (head :: next) := by
    refine List.single_le_sum (fun n hn => ?_) _ (List.mem_map_of_mem lastFragment_mem)
    obtain ⟨packet, hpacket, rfl⟩ := List.mem_map.mp hn
    exact hnonneg packet hpacket
  have hextra : extraPayload head next =
    payloadSum (head :: next) - payloadBytes (lastFragment head next) := rfl
  have hstop : packetStop layer (lastFragment head next) =
    layerOffset layer (lastFragment head next) + (lastFragment head next).ipBytes := rfl
  have hoffset : layerOffset layer (lastFragment head next) ≤ 14 := by
    cases layer
    · exact Nat.zero_le _
    · exact le_rfl
  have hsize : layerOffset layer (lastFragment head next) + headerSum (init ++ [top]) <
    4294967296 := hlast.size
  have hfits := hf.fits
  rw [hlast.usedHeaders_eq] at hfits
  have hshort : payloadSum (head :: next) ≤ 65575 ∧
      layerOffset layer (lastFragment head next) + headerSum (init ++ [top]) +
        payloadSum (head :: next) < 4294967296 := by
    rcases layerStart_announces hlast.announces with hip | hmpls
    · obtain ⟨h, inner, hcons⟩ : ∃ h inner, init ++ [top] = h :: inner :=
        List.exists_cons_of_ne_nil (by simp)
      rw [hcons] at hfits hip
      have h40 : IPV6_BYTES = 40 := rfl
      have hlimit : packetStop layer (lastFragment head next) + extraPayload head next ≤
          layerOffset layer (lastFragment head next) + 65575 := by
        obtain ⟨⟨h4, h6⟩, -⟩ := hfits
        have htype : h.type = .ipv4 ∨ h.type = .ipv6 := by
          have hip : h.type.isIp = true := hip
          cases ht : h.type <;> simp [ht, HeaderType.isIp] at hip ⊢
        rcases htype with ht | ht
        · have := h4 ht
          omega
        · have := h6 ht
          omega
      omega
    · have hzero := hf.payloadSum_mpls hlast hmpls
      omega
  obtain ⟨stop, hnat⟩ : ∃ stop : Nat, (stop : Int) =
      layerOffset layer (lastFragment head next) + headerSum (init ++ [top]) +
        payloadSum (head :: next) := ⟨_, Int.toNat_of_nonneg (by omega)⟩
  exact ⟨stop, by omega, hlastLen, by omega, hnat, hdata, by omega⟩

theorem Unfinished.exists_finished {stop : Nat}
    (hlast : Segment layer (lastFragment head next) init top)
    (hsizes : Sizes layer head next (init ++ [top]) stop)
    (hun : Unfinished (layerOffset layer (lastFragment head next)) init top
      (extraPayload head next) ((head :: next).flatMap payloadData) head
      (lastFragment head next) before)
    (hcounted : CountsTo (lastFragment head next).buffer
      (packetStop layer (lastFragment head next)) stop
      (layerOffset layer (lastFragment head next)) (init ++ [top]))
    (hfits : FitsUpTo stop (layerOffset layer (lastFragment head next)) (init ++ [top])) :
    ∃ packet, packetFinishEncapsulationHeaders before = .ok packet := by
  obtain ⟨e, hstack⟩ := hlast.stacked
  have htotals := hlast.totals
  obtain ⟨hextra, hsmall⟩ := hsizes.extra
  have hpayload := hsizes.payload
  have hlen := hsizes.last
  have hsum : 0 ≤ payloadSum (head :: next) := by
    have hextraEq : extraPayload head next =
      payloadSum (head :: next) - payloadBytes (lastFragment head next) := rfl
    omega
  have hend : layerOffset layer (lastFragment head next) + headerSum (init ++ [top]) ≤ stop := by
    omega
  have hgrown : Stacked before.buffer stop (layerOffset layer (lastFragment head next))
      ((init ++ [top]).map (Header.grown (extraPayload head next))) :=
    (hun.fields.stacked hstack hend).of_same sameEntry_grown
  have hgrownCounted : CountsTo (lastFragment head next).buffer
      (packetStop layer (lastFragment head next) + extraPayload head next) stop
      (layerOffset layer (lastFragment head next))
      ((init ++ [top]).map (Header.grown (extraPayload head next))) :=
    (countsTo_grown (by omega) (by omega)).mpr hcounted
  rw [← hsizes.stops] at hgrownCounted
  have hloop : ∃ r, finishHeaders before.buffer before.headers.toList = .ok r := by
    rw [hun.table.entries]
    exact finishHeaders_total hgrown hgrownCounted (fitsUpTo_grown.mpr hfits)
  obtain ⟨r, hloop⟩ := hloop
  exact ⟨_, bind_of_ok hloop⟩

theorem Fragments.exists_segments (hf : Fragments layer head next) :
    ∀ packet ∈ head :: next, ∃ layer init top, Segment layer packet init top :=
  fun packet hpacket => (hf.segments packet hpacket).imp fun _ hseg => hseg.segment

/-- Without a negative payload length, the aggregate is built up to its headers. -/
theorem Fragments.exists_unfinished (hf : Fragments layer head next)
    (hlast : Segment layer (lastFragment head next) init top)
    (hnonneg : ∀ packet ∈ head :: next, 0 ≤ payloadBytes packet) :
    ∃ stop before, Sizes layer head next (init ++ [top]) stop ∧
      aggregatePackets heap head next (lastFragment head next) (payloadSum (head :: next)) =
        packetFinishEncapsulationHeaders before ∧
      Unfinished (layerOffset layer (lastFragment head next)) init top
        (extraPayload head next) ((head :: next).flatMap payloadData) head
        (lastFragment head next) before := by
  obtain ⟨stop, hsizes⟩ := hf.exists_sizes hlast hnonneg
  obtain ⟨before, hbefore, hun⟩ := QoSMos.exists_unfinished hlast hf.exists_segments hnonneg
    (hf.exists_firstTcp hlast)
  exact ⟨stop, before, hsizes, hbefore, hun⟩

theorem Fragments.finished {stop : Nat} {packet : FullPacket} (hf : Fragments layer head next)
    (hlast : Segment layer (lastFragment head next) init top)
    (hsizes : Sizes layer head next (init ++ [top]) stop)
    (hun : Unfinished (layerOffset layer (lastFragment head next)) init top
      (extraPayload head next) ((head :: next).flatMap payloadData) head
      (lastFragment head next) before)
    (hok : packetFinishEncapsulationHeaders before = .ok packet) :
    FinishedAggregate layer init top (extraPayload head next)
      ((head :: next).flatMap payloadData) head (lastFragment head next) packet stop := by
  have hfits := hf.fits
  rw [hlast.usedHeaders_eq, ← hsizes.stops] at hfits
  have hextra : extraPayload head next =
    payloadSum (head :: next) - payloadBytes (lastFragment head next) := rfl
  have hdata := hsizes.data
  exact hun.finished hlast hsizes.extra.1 hsizes.extra.2 hsizes.last hsizes.stops hsizes.lt
    (by omega) hfits hok

/-- An aggregate with the right payload and headers shows that its fragments meet the
condition. -/
theorem Fragments.combinable (hf : Fragments layer head next)
    (hlaw : AggregateLaw heap layer head next) : Combinable layer head next := by
  obtain ⟨init, top, hlast⟩ := hf.last.segment
  obtain ⟨packet, start, stop, payload, hok, hagg⟩ := hlaw
  have hnonneg := payloads_of_returned hf.exists_segments hok
  obtain ⟨stop', before, hsizes, hbefore, hun⟩ := hf.exists_unfinished hlast hnonneg
  have hfin := hf.finished hlast hsizes hun (hbefore.symm.trans hok)
  obtain rfl := Except.ok.inj (hagg.startsAt.symm.trans hfin.startsAt)
  obtain rfl := Except.ok.inj (hagg.endsAt.symm.trans hfin.endsAt)
  have hlengths := hagg.lengths
  have hfields := hagg.fields
  rw [hfin.table.usedHeaders_eq] at hlengths
  rw [hlast.usedHeaders_eq] at hfields
  refine ⟨hnonneg, ?_, ?_⟩
  · rw [hlast.usedHeaders_eq, ← hsizes.stops]
    exact hfin.lengths_iff.mp hlengths
  · rw [hlast.usedHeaders_eq]
    exact hfin.fields_iff.mp hfields

theorem Fragments.aggregateLaw (hf : Fragments layer head next)
    (hc : Combinable layer head next) : AggregateLaw heap layer head next := by
  obtain ⟨init, top, hlast⟩ := hf.last.segment
  obtain ⟨hnonneg, hcounted, hlabels⟩ := hc
  obtain ⟨stop, before, hsizes, hbefore, hun⟩ := hf.exists_unfinished hlast hnonneg
  have hfits := hf.fits
  have hused := hlast.usedHeaders_eq
  rw [hused, ← hsizes.stops] at hcounted hfits
  rw [hused] at hlabels
  obtain ⟨packet, hok⟩ := hun.exists_finished hlast hsizes hcounted hfits
  have hfin := hf.finished hlast hsizes hun hok
  have hlengths := hfin.lengths_iff.mpr hcounted
  have hpayload := hsizes.payload
  have hlen : (((head :: next).flatMap payloadData).length : Int) =
    payloadSum (head :: next) := hsizes.data
  have hpayloadLen : packetPayloadLen packet.toPacket = .ok (payloadSum (head :: next)) := by
    rw [packetPayloadLen, hfin.endsAt, hfin.payloadAt]
    refine congrArg Except.ok ?_
    omega
  refine ⟨packet, layerOffset layer (lastFragment head next), stop, _, hbefore.trans hok,
    hfin.startsAt, hfin.endsAt, hfin.payloadAt, hpayloadLen, ?_, hfin.sequence, ?_, ?_, ?_, ?_⟩
  · rw [← hlen]
    exact hfin.data
  · rw [hused, hfin.table.usedHeaders_eq]
    exact sameEntry_finished_grown
  · rw [hused]
    exact hfin.fields_iff.mpr hlabels
  · rw [hfin.table.usedHeaders_eq]
    exact hlengths
  · obtain ⟨e, hstack⟩ := hlast.stacked
    have hsame : List.Forall₂ SameEntry (init ++ [top])
        (finishedHeaders ((init ++ [top]).map (Header.grown (extraPayload head next)))) :=
      sameEntry_finished_grown
    have hstacked := hfin.stacked.of_same hsame
    have hannounces := announces_of_kept hstack hfin.front (hfin.fields_iff.mpr hlabels)
      hlast.announces
    rw [← nextType_of_same hsame] at hannounces
    have hoffset : layerOffset layer (lastFragment head next) =
        (layerStart packet.buffer layer).2 := by cases layer <;> rfl
    rw [hoffset] at hstacked hlengths hpayload
    have hfull (hmpls : nextType (finishedHeaders ((init ++ [top]).map
        (Header.grown (extraPayload head next)))) = .mpls) :
        (layerStart packet.buffer layer).2 + headerSum (finishedHeaders ((init ++ [top]).map
          (Header.grown (extraPayload head next)))) = stop := by
      rw [nextType_of_same hsame] at hmpls
      have hzero := hf.payloadSum_mpls hlast hmpls
      rw [headerSum_of_same hsame]
      omega
    obtain ⟨s, hrun, htypes, hparsedLen⟩ := parses_of_describes hstacked hlengths hannounces
      hfin.table.le hfull hfin.bufferBytes.ge
    refine ⟨s, hrun, ?_, ?_⟩
    · rw [htypes, hused, map_type_of_same hsame]
    · rw [hparsedLen, headerSum_of_same hsame]
      apply congrArg Except.ok
      omega

/-- Fragments are aggregated to one packet with all their payloads and the headers of the last
one exactly if the condition on them holds. -/
theorem aggregateLaw_iff (hf : Fragments layer head next) :
    AggregateLaw heap layer head next ↔ Combinable layer head next :=
  ⟨hf.combinable, hf.aggregateLaw⟩

end Law

/-- The packet that the parser makes of these bytes. -/
def parsedPacket (bytes : List UInt8) : FullPacket :=
  match runParsePacket (.ofList bytes) bytes.length bytes.length .layer3Ip with
  | .ok (_, s) => s.packet.full
  | .error _ => (packetNew (.ofList bytes) bytes.length).full

theorem isSegment_parsedPacket {bytes : List UInt8} (hsize : bytes.length < 4294967296)
    (hrun : ∃ s, runParsePacket (.ofList bytes) bytes.length bytes.length .layer3Ip =
      .ok (.ok, s) ∧ s.packet.headers.toList.any (fun h => h.type = .tcp ∨ h.type = .udp) = true) :
    IsSegment .layer3Ip (parsedPacket bytes) := by
  obtain ⟨s, hrun, htop⟩ := hrun
  have hpacket : parsedPacket bytes = s.packet.full := by
    rw [parsedPacket, hrun]
  obtain ⟨hs, -, hleft, -⟩ := runParsePacket_ok_stack le_rfl hrun
  have hbuffer : s.packet.buffer = .ofList bytes := by
    rw [hleft, buffer_afterHeaders]
    rfl
  obtain ⟨h, hmem, htype⟩ := List.any_eq_true.mp htop
  rw [hpacket]
  refine ⟨⟨bytes.length, bytes.length, s, hsize, ?_, rfl⟩, h, hmem, of_decide_eq_true htype⟩
  rw [← hrun, ← hbuffer]
  rfl

/-- An IPv4 header of twenty bytes and a TCP header with the `cwr` flag. -/
def firstTcpFragment : List UInt8 :=
  [0x45, 0x00, 0x00, 0x2c, 0x00, 0x00, 0x40, 0x00, 0x40, 0x06, 0xb6, 0xc8, 0xc0, 0x00, 0x02, 0x01,
   0xc0, 0x00, 0x02, 0x02, 0x1f, 0x90, 0xdb, 0xcc, 0x00, 0x00, 0x00, 0x01, 0x00, 0x00, 0x00, 0x01,
   0x50, 0x90, 0xff, 0xff, 0x00, 0x00, 0x00, 0x00, 0x01, 0x02, 0x03, 0x04]

def secondTcpFragment : List UInt8 :=
  [0x45, 0x00, 0x00, 0x2a, 0x00, 0x00, 0x40, 0x00, 0x40, 0x06, 0xb6, 0xca, 0xc0, 0x00, 0x02, 0x01,
   0xc0, 0x00, 0x02, 0x02, 0x1f, 0x90, 0xdb, 0xcc, 0x00, 0x00, 0x00, 0x05, 0x00, 0x00, 0x00, 0x01,
   0x50, 0x10, 0xff, 0xff, 0x00, 0x00, 0x00, 0x00, 0x05, 0x06]

theorem aggregateLaw_iff_tcp :
    AggregateLaw (fun _ => 0) .layer3Ip (parsedPacket firstTcpFragment)
        [parsedPacket secondTcpFragment] ↔
      Combinable .layer3Ip (parsedPacket firstTcpFragment) [parsedPacket secondTcpFragment] := by
  apply aggregateLaw_iff
  have hfirst : IsSegment .layer3Ip (parsedPacket firstTcpFragment) :=
    isSegment_parsedPacket (by decide) ⟨_, rfl, rfl⟩
  have hsecond : IsSegment .layer3Ip (parsedPacket secondTcpFragment) :=
    isSegment_parsedPacket (by decide) ⟨_, rfl, rfl⟩
  refine ⟨?_, hsecond, ⟨by decide +kernel, trivial⟩, ?_⟩
  · simp only [List.forall_mem_cons, List.not_mem_nil, false_imp_iff, forall_true_iff, and_true]
    exact ⟨⟨_, hfirst⟩, _, hsecond⟩
  · have hused : usedHeaders (parsedPacket secondTcpFragment).toPacket =
        [⟨.ipv4, 20, 42, some 0⟩, ⟨.tcp, 20, 22, some 20⟩] := by decide +kernel
    have hstop : packetStop .layer3Ip (parsedPacket secondTcpFragment) +
        extraPayload (parsedPacket firstTcpFragment) [parsedPacket secondTcpFragment] = 46 := by
      decide +kernel
    show FitsUpTo (packetStop .layer3Ip (parsedPacket secondTcpFragment) +
      extraPayload (parsedPacket firstTcpFragment) [parsedPacket secondTcpFragment]) 0
      (usedHeaders (parsedPacket secondTcpFragment).toPacket)
    rw [hused, hstop]
    simp [FitsUpTo]

/-- An IPv4 header and a UDP header whose length is twelve. -/
def udpFragment : List UInt8 :=
  [0x45, 0x00, 0x00, 0x20, 0x00, 0x00, 0x40, 0x00, 0x40, 0x11, 0xb6, 0xc9, 0xc0, 0x00, 0x02, 0x01,
   0xc0, 0x00, 0x02, 0x02, 0x1f, 0x90, 0xdb, 0xcc, 0x00, 0x0c, 0x00, 0x00, 0x01, 0x02, 0x03, 0x04]

/-- The UDP header of an aggregate keeps the length of the last fragment. -/
theorem not_forall_aggregateLaw :
    ¬ ∀ (heap : Memory) (layer : PacketLayer) (head : FullPacket) (next : List FullPacket),
      Fragments layer head next → AggregateLaw heap layer head next := by
  intro h
  have hsegment : IsSegment .layer3Ip (parsedPacket udpFragment) :=
    isSegment_parsedPacket (by decide) ⟨_, rfl, rfl⟩
  have hused : usedHeaders (parsedPacket udpFragment).toPacket =
      [⟨.ipv4, 20, 32, some 0⟩, ⟨.udp, 8, 12, some 20⟩] := by decide +kernel
  have hstop : packetStop .layer3Ip (parsedPacket udpFragment) = 32 := by decide +kernel
  have hextra : extraPayload (parsedPacket udpFragment) [parsedPacket udpFragment] = 4 := by
    decide +kernel
  have hfragments : Fragments .layer3Ip (parsedPacket udpFragment) [parsedPacket udpFragment] := by
    refine ⟨?_, hsegment, ⟨by decide +kernel, trivial⟩, ?_⟩
    · simp only [List.forall_mem_cons, List.not_mem_nil, false_imp_iff, forall_true_iff, and_true]
      exact ⟨⟨_, hsegment⟩, _, hsegment⟩
    · show FitsUpTo (packetStop .layer3Ip (parsedPacket udpFragment) +
        extraPayload (parsedPacket udpFragment) [parsedPacket udpFragment]) 0
        (usedHeaders (parsedPacket udpFragment).toPacket)
      rw [hused, hstop, hextra]
      simp [FitsUpTo]
  have hcounted : CountsTo (parsedPacket udpFragment).buffer
      (packetStop .layer3Ip (parsedPacket udpFragment))
      (packetStop .layer3Ip (parsedPacket udpFragment) +
        extraPayload (parsedPacket udpFragment) [parsedPacket udpFragment]) 0
      (usedHeaders (parsedPacket udpFragment).toPacket) :=
    (hfragments.combinable (h (fun _ => 0) _ _ _ hfragments)).counted
  rw [hused, hstop, hextra] at hcounted
  have hlen : Udp.len (parsedPacket udpFragment).buffer 20 = 12 := by decide +kernel
  simp [CountsTo, hlen] at hcounted

end QoSMos
