import QoSMos.Build.Finish
import QoSMos.Parser.Invariants

/-!
# Segments

A segment is a packet that the parser accepted with TCP or UDP on top. Its headers, which the
grammar describes from the outermost one in, are `Stacked`, and the protocol number of each
names the header behind it.
-/

namespace QoSMos

open LabelledPath

/-- A header of type `t` may be the one that the symbol announces at `p`. -/
def Symbol.Announces (b : Memory) (p : Nat) : Symbol → HeaderType → Prop
  | .ip, t => (t = .ipv4 ∨ t = .ipv6) ∧ VersionAt b p t
  | .proto etherType, t =>
    (etherType = t.ethProto ∨ etherType = ETHERTYPE_MPLS_MC ∧ t = .mpls) ∧
      (t = .ipv4 ∨ t = .ipv6 ∨ t = .mpls) ∧ VersionAt b p t
  | .payload protocol _, t => protocol = t.ipProto ∧ t ≠ .none ∧ t ≠ .mpls
  | .done, t => t = .none

/-- The protocol field of the header `h` at `p` names the header type `next`. A multicast
label stack goes by a number of its own. -/
def Named (b : Memory) (p : Nat) (h : Header) (next : HeaderType) : Prop :=
  match h.type with
  | .ipv4 => Ipv4.protocol b p = next.ipProto
  | .ipv6 => Ipv6.nextHeader b p = next.ipProto
  | .gre => Gre.proto b p = next.ethProto ∨ Gre.proto b p = ETHERTYPE_MPLS_MC ∧ next = .mpls
  | _ => True

def NamedFrom (b : Memory) : Nat → List Header → Prop
  | _, [] => True
  | p, h :: inner => Named b p h (nextType inner) ∧ NamedFrom b (p + h.headerBytes) inner

section Derivation

variable {b : Memory} {e p : Nat} {sym next : Symbol} {t : HeaderType} {h : Header}
  {hs : List Header} {x y : Expected}

theorem HeaderAt.announces (hh : HeaderAt b e sym p h next) : sym.Announces b p h.type := by
  cases hh with
  | ipv4 ha _ | ipv6 ha _ =>
    cases sym with
    | ip => exact ⟨by simp, ha⟩
    | proto n => exact ⟨.inl ha.1, by simp, ha.2⟩
    | payload n len => exact ⟨ha, by simp, by simp⟩
    | done => cases ha
  | mpls ha _ =>
    cases sym with
    | proto n => exact ⟨ha.imp id fun h => ⟨h, rfl⟩, by simp, trivial⟩
    | ip | payload n len | done => cases ha
  | gre _ _ _ | tcp _ _ | udp _ _ | icmpv4 _ | icmpv6 _ => exact ⟨rfl, by simp, by simp⟩

/-- A header that the grammar reads stands in front of the one that it announces. -/
theorem HeaderAt.stands (hh : HeaderAt b e sym p h next)
    (hnext : next.Announces b (p + h.headerBytes) t) : Stands b e p h t := by
  cases hh with
  | ipv4 _ hi =>
    obtain ⟨-, hnone, hmpls⟩ := hnext
    refine ⟨rfl, ?_, by simp, rfl, hi.minimum, hi.lastFragment, hi.firstFragment⟩
    cases t <;> simp_all [HeaderType.carries]
  | ipv6 _ _ =>
    obtain ⟨-, hnone, hmpls⟩ := hnext
    refine ⟨rfl, ?_, by simp, rfl⟩
    cases t <;> simp_all [HeaderType.carries]
  | mpls _ hstack =>
    obtain ⟨hip, hversion⟩ := hnext
    refine ⟨rfl, ?_, fun _ => hversion, _, rfl, hstack⟩
    rcases hip with rfl | rfl <;> rfl
  | gre hversion hrouting _ =>
    obtain ⟨-, htype, hnextVersion⟩ := hnext
    refine ⟨rfl, ?_, fun _ => hnextVersion, hversion, hrouting, rfl⟩
    rcases htype with rfl | rfl | rfl <;> rfl
  | tcp hmin _ => exact ⟨rfl, by rw [hnext]; rfl, by simp, hmin, rfl⟩
  | udp _ _ | icmpv4 _ | icmpv6 _ => exact ⟨rfl, by rw [hnext]; rfl, by simp, rfl⟩

theorem HeaderAt.named (hh : HeaderAt b e sym p h next)
    (hnext : next.Announces b (p + h.headerBytes) t) : Named b p h t := by
  cases hh with
  | ipv4 _ _ | ipv6 _ _ => exact hnext.1
  | gre _ _ _ => exact hnext.1
  | mpls _ _ | tcp _ _ | udp _ _ | icmpv4 _ | icmpv6 _ => exact trivial

/-- What is expected in front of a list of headers announces the first of them. -/
theorem announces_of_path (hp : Path (Next b e) x hs y) (hy : y.1 = .done) :
    x.1.Announces b x.2 (nextType hs) := by
  cases hp with
  | nil =>
    rw [hy]
    rfl
  | cons hn _ => exact hn.1.announces

/-- A packet starts with an IP header or a label stack. -/
theorem layerStart_announces {layer : PacketLayer}
    (hannounces : (layerStart b layer).1.Announces b p t) : t.isIp = true ∨ t = .mpls := by
  cases layer with
  | layer3Ip => exact .inl (by rcases hannounces.1 with rfl | rfl <;> rfl)
  | layer2Ethernet => rcases hannounces.2.1 with rfl | rfl | rfl <;> simp [HeaderType.isIp]

theorem stacked_of_path (hp : Path (Next b e) x hs y) (hy : y.1 = .done) (hle : y.2 ≤ e) :
    Stacked b e x.2 hs := by
  induction hp with
  | nil => exact hle
  | @cons x z y h hs hn hp ih =>
    have hannounces := announces_of_path hp hy
    rw [hn.2] at hannounces
    refine ⟨hn.1.stands hannounces, ?_⟩
    rw [← hn.2]
    exact ih hy hle

theorem named_of_path (hp : Path (Next b e) x hs y) (hy : y.1 = .done) :
    NamedFrom b x.2 hs := by
  induction hp with
  | nil => exact trivial
  | @cons x z y h hs hn hp ih =>
    have hannounces := announces_of_path hp hy
    rw [hn.2] at hannounces
    refine ⟨hn.1.named hannounces, ?_⟩
    rw [← hn.2]
    exact ih hy

/-- A payload that is expected has at most 65535 bytes. -/
def Expected.Short (x : Expected) : Prop :=
  ∀ protocol len, x.1 = .payload protocol len → len ≤ 65535

theorem Next.short (hn : Next b e x h y) : y.Short := by
  obtain ⟨hh, -⟩ := hn
  intro protocol len hy
  rw [hy] at hh
  generalize x.1 = sym at hh
  generalize x.2 = q at hh
  cases hh with
  | ipv4 _ _ =>
    have : Ipv4.totLen b q < 65536 := be16At_lt b (q + 2)
    omega
  | ipv6 _ _ =>
    have : Ipv6.payloadLen b q < 65536 := be16At_lt b (q + 4)
    omega

theorem short_of_path (hp : Path (Next b e) x hs y) (hx : x.Short) : y.Short := by
  induction hp with
  | nil => exact hx
  | cons hn _ ih => exact ih hn.short

theorem HeaderAt.totalBytes_transport (hh : HeaderAt b e sym p h .done)
    (hshort : Expected.Short (sym, p)) : h.headerBytes ≤ h.totalBytes ∧ h.totalBytes ≤ 65535 := by
  generalize hd : Symbol.done = next at hh
  cases hh with
  | ipv4 _ _ | ipv6 _ _ | mpls _ _ | gre _ _ _ => cases hd
  | tcp _ hlen => exact ⟨hlen, hshort _ _ rfl⟩
  | udp hlen _ | icmpv4 hlen | icmpv6 hlen => exact ⟨hlen, hshort _ _ rfl⟩

end Derivation

/-! ## Packets -/

/-- The parser accepted the packet, which starts with this layer, with TCP or UDP on top. The
length of a buffer is kept in 32 bits. -/
def IsSegment (layer : PacketLayer) (packet : FullPacket) : Prop :=
  (∃ bufferBytes inBytes s, bufferBytes < 4294967296 ∧
    runParsePacket packet.buffer bufferBytes inBytes layer = .ok (.ok, s) ∧
      s.packet = packet.toPacket) ∧
    ∃ h ∈ packet.headers.toList, h.type = .tcp ∨ h.type = .udp

/-- What the parser left of a segment: the headers `init` and the transport header `top`. -/
structure Segment (layer : PacketLayer) (packet : FullPacket) (init : List Header) (top : Header) :
    Prop where
  table : Table packet.toPacket (init ++ [top])
  stack : ∃ e, HeaderStack packet.buffer e layer (init ++ [top])
  notTransport : ∀ h ∈ init, h.type.isTransport = false
  topType : top.type = .tcp ∨ top.type = .udp
  ptr : top.ptr = some ((layerStart packet.buffer layer).2 + headerSum init)
  tcp : packet.tcp = if top.type = .tcp then top.ptr else none
  start : packetStart packet.toPacket = .ok (layerStart packet.buffer layer).2
  payload : packetPayload packet.toPacket =
    .ok ((layerStart packet.buffer layer).2 + headerSum (init ++ [top]))
  payloadLen : packetPayloadLen packet.toPacket =
    .ok ((packet.ipBytes : Int) - headerSum (init ++ [top]))
  ipBytes : nextType (init ++ [top]) = .mpls → packet.ipBytes = headerSum (init ++ [top])
  totals : top.headerBytes ≤ top.totalBytes ∧ top.totalBytes ≤ 65535
  size : (layerStart packet.buffer layer).2 + headerSum (init ++ [top]) < 4294967296

theorem IsSegment.segment {layer : PacketLayer} {packet : FullPacket}
    (hseg : IsSegment layer packet) : ∃ init top, Segment layer packet init top := by
  obtain ⟨⟨bufferBytes, inBytes, s, hsize, hrun, hs⟩, t, ht, htype⟩ := hseg
  have hin := le_of_runParsePacket hrun
  obtain ⟨hs', hstack, hpacket, -⟩ := runParsePacket_ok_stack hin hrun
  rw [hs] at hpacket
  obtain ⟨init, top, y, q, rfl, hinitPath, htop, -, hpath, hinit⟩ :=
    exists_last_of_derives hstack.1 (layerStart_ne_done _ layer)
  have htable := startPacket_table packet.buffer bufferBytes layer (used_of_path hpath) hstack.2
  have hposition : y.2 = (layerStart packet.buffer layer).2 + headerSum init :=
    position_of_path hinitPath
  have hptr : top.ptr = some ((layerStart packet.buffer layer).2 + headerSum init) := by
    rw [htop.ptr, hposition]
  have htransports := startPacket_transports packet.buffer bufferBytes layer hinit hptr
  simp only [Packet.transports, List.cons.injEq, and_true] at htransports
  obtain ⟨head, tail, hcons⟩ : ∃ head tail, init ++ [top] = head :: tail :=
    List.exists_cons_of_ne_nil (by simp)
  have hstart := hstack.packetStart_eq bufferBytes
  have hpayload := hstack.packetPayload_eq bufferBytes
  have hpayloadLen := hstack.packetPayloadLen_eq bufferBytes
  rw [← hpacket] at hstart hpayload hpayloadLen htransports htable
  -- A used entry with the type of a transport header is the last one.
  have htopType : top.type = .tcp ∨ top.type = .udp := by
    rw [htable.entries, List.mem_append, List.mem_append, List.mem_replicate] at ht
    rcases ht with (ht | ht) | ⟨-, rfl⟩
    · have := hinit t ht
      rcases htype with htype | htype <;> simp [htype, HeaderType.isTransport] at this
    · rwa [List.mem_singleton.mp ht] at htype
    · rcases htype with htype | htype <;> cases htype
  refine ⟨init, top, htable, ⟨inBytes, hstack⟩, hinit, htopType, hptr, ?_, hstart, hpayload,
    hpayloadLen, fun hmpls => ?_, ?_, ?_⟩
  · rw [htransports.1, hptr]
  · rw [hcons] at hmpls hstack hpacket ⊢
    have hmpls : head.type = .mpls := hmpls
    rw [hpacket, hstack.ipBytes_eq bufferBytes, hmpls]
    rfl
  · have hstart : (layerStart packet.buffer layer).Short := fun protocol len h =>
      absurd h (layerStart_ne_payload _ layer protocol len)
    exact htop.totalBytes_transport (short_of_path hinitPath hstart)
  · have hend : q ≤ inBytes := position_le_of_path hpath (layerStart_fits _ layer) (by simp)
    have hq : q = (layerStart packet.buffer layer).2 + headerSum (init ++ [top]) :=
      position_of_path hpath
    omega

section Segments

variable {layer : PacketLayer} {packet : FullPacket} {init : List Header} {top : Header}

theorem Segment.path (hseg : Segment layer packet init top) :
    ∃ e q, Path (Next packet.buffer e) (layerStart packet.buffer layer) (init ++ [top])
      (.done, q) ∧ q ≤ e := by
  obtain ⟨e, ⟨q, hp⟩, -⟩ := hseg.stack
  exact ⟨e, q, hp, position_le_of_path hp (layerStart_fits _ layer) (by simp)⟩

theorem Segment.stacked (hseg : Segment layer packet init top) :
    ∃ e, Stacked packet.buffer e (layerStart packet.buffer layer).2 (init ++ [top]) := by
  obtain ⟨e, q, hp, hle⟩ := hseg.path
  exact ⟨e, stacked_of_path hp rfl hle⟩

theorem Segment.named (hseg : Segment layer packet init top) :
    NamedFrom packet.buffer (layerStart packet.buffer layer).2 (init ++ [top]) := by
  obtain ⟨e, q, hp, -⟩ := hseg.path
  exact named_of_path hp rfl

theorem Segment.announces (hseg : Segment layer packet init top) :
    (layerStart packet.buffer layer).1.Announces packet.buffer (layerStart packet.buffer layer).2
      (nextType (init ++ [top])) := by
  obtain ⟨e, q, hp, -⟩ := hseg.path
  exact announces_of_path hp rfl

end Segments

end QoSMos
