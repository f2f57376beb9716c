import QoSMos.Build.ChecksumBuilt
import QoSMos.Outbound.Layers

/-!
# The layers of script packets

A packet of `new_tcp_packet` or `new_udp_packet` has two headers. Behind outer headers it has them
where they were moved to, and what was appended in front of them carries other headers.
-/

namespace QoSMos

open Returns

/-- A packet of `new_tcp_packet` or `new_udp_packet`, alone or behind outer headers. -/
def TransportScript (script : FullPacket) : Prop :=
  ∃ inner, IsBuilt inner ∧ Enclosing inner script

/-- What is used of a script packet. -/
structure ScriptShape (script : FullPacket) (outer : List Header) (ip last : Header) (p q : Nat) :
    Prop extends Layers script.toPacket outer ip last p q where
  transport : last.type = .tcp ∨ last.type = .udp
  payloadLen : ∃ len, packetPayloadLen script.toPacket = .ok len ∧ 0 ≤ len
  unchecked : script.tcp = none → script.flags = 0

/-- A packet of the two functions, before it is encapsulated. -/
structure InnerShape (inner : FullPacket) (ip last : Header) (q : Nat) : Prop where
  layers : Layers inner.toPacket [] ip last 0 q
  enclosable : Enclosable inner [ip] last
  behind : q = ip.headerBytes
  transport : last.type = .tcp ∨ last.type = .udp
  doff : last.type = .tcp → TCP_BYTES ≤ Tcp.doff inner.buffer q * 4
  inside : q + (if last.type = .tcp then Tcp.doff inner.buffer q * 4 else UDP_BYTES) ≤ inner.ipBytes
  unchecked : inner.tcp = none → inner.flags = 0

section Inner

variable {inner packet : FullPacket} {ip last : Header} {q : Nat}

theorem BuiltAs.layers {addressFamily : Int} {l4 : HeaderType} {ipB l4B : List UInt8}
    {payload : Nat} (hl4 : l4 = .tcp ∨ l4 = .udp)
    (hb : BuiltAs packet (ipType addressFamily) l4 ipB l4B payload) :
    Layers packet.toPacket [] ⟨ipType addressFamily, ipB.length, packet.ipBytes % 65536, some 0⟩
      ⟨l4, l4B.length, l4B.length + payload, some ipB.length⟩ 0 ipB.length := by
  have hip : (ipType addressFamily).isIp = true := by
    unfold ipType
    split <;> rfl
  have htransport : l4.isTransport = true := by rcases hl4 with rfl | rfl <;> rfl
  refine ⟨hb.table, by simp, rfl, hip, hb.ipv4, hb.ipv6, rfl, htransport, ?_⟩
  rw [Packet.transports, hb.tcp, hb.udp, hb.icmp.1, hb.icmp.2]
  rcases hl4 with rfl | rfl <;> rfl

theorem IsBuilt.innerShape (hbuilt : IsBuilt inner) : ∃ ip last q, InnerShape inner ip last q := by
  obtain ⟨init, last, hi⟩ := hbuilt.enclosable
  have hsplit {g h : Header} (ht : Table inner.toPacket ([] ++ [g, h])) :
      Enclosable inner [g] h := by
    have hentries : init ++ [last] = [g] ++ [h] := hi.table.unique ht
    obtain ⟨rfl, hlast⟩ := List.append_inj' hentries rfl
    obtain rfl := List.singleton_inj.mp hlast
    exact hi
  obtain ⟨heap, args, hok⟩ | ⟨heap, args, hok⟩ := hbuilt
  · have hb := newTcpPacket_built hok
    have hl := hb.built.layers (.inl rfl)
    obtain ⟨hsegment, hend⟩ := hb.segmentAt (newTcpPacket_echoedHeader hok)
    obtain ⟨n, hn, hinside⟩ := hsegment.inside
    obtain rfl := Except.ok.inj (hn.symm.trans hend)
    have hlen : (ipHeader args.addressFamily (UInt16.ofNat inner.ipBytes) args.ipInfo.tos.value
        args.ipInfo.flowLabel args.ipInfo.ttl (UInt8.ofNat IPPROTO_TCP)).length =
        ipHeaderBytes args.addressFamily := length_ipHeader
    refine ⟨_, _, _, hl, hsplit hl.table, rfl, .inl rfl, fun _ => ?_, ?_, fun hnone => ?_⟩
    · rw [hlen]
      exact hsegment.doff
    · rw [if_pos rfl, hlen]
      exact hinside
    · rw [hl.tcp] at hnone
      cases hnone
  · have hb := newUdpPacket_built hok
    have hl := hb.built.layers (.inr rfl)
    have hlength := hb.built.length
    rw [length_udpHeader] at hlength
    refine ⟨_, _, _, hl, hsplit hl.table, rfl, .inr rfl, by simp, ?_,
      fun _ => (newUdpPacket_info hok).2⟩
    rw [if_neg (by simp)]
    omega

theorem InnerShape.alone (hs : InnerShape inner ip last q) :
    ScriptShape inner [] ip last 0 q := by
  have hinside := hs.inside
  refine ⟨hs.layers, hs.transport, ⟨inner.ipBytes - (q + if last.type = .tcp then
    Tcp.doff inner.buffer q * 4 else UDP_BYTES : Nat), ?_, by omega⟩, hs.unchecked⟩
  rw [packetPayloadLen, packetEnd, hs.enclosable.packetStart, hs.layers.packetPayload]
  exact congrArg (fun n : Nat => Except.ok ((n : Int) - _)) (Nat.zero_add _)

end Inner

/-! ## Behind outer headers -/

section Carriers

variable {b b' : Memory} {p : Nat} {hs gs : List Header} {h : Header}
  {packet packet' : FullPacket} {inetPton : InetPton}

theorem Carrier.of_same {g : Header} (hc : Carrier b h) (hsame : SameEntry h g) : Carrier b g := by
  obtain ⟨htype, -, hptr⟩ := hsame
  exact ⟨hptr ▸ hc.ptr, htype ▸ hc.kind, fun hgre q hq =>
    hc.gre (htype ▸ hgre) q (hptr ▸ hq)⟩

/-- A header carries others also where its bytes were kept. -/
theorem Chained.carrier (hc : Chained b p hs) (hsame : SameShape b b' 0 p hs) :
    ∀ h ∈ hs, Carrier b h → Carrier b' h := by
  induction hs generalizing p with
  | nil => simp
  | cons g inner ih =>
    intro h hh hcarrier
    rcases List.mem_cons.mp hh with rfl | hh
    · refine ⟨hcarrier.ptr, hcarrier.kind, fun hgre q hq => ?_⟩
      obtain ⟨hversion, hrouting⟩ := hcarrier.gre hgre q hq
      obtain rfl : p = q := Option.some.inj (hc.1.ptr.symm.trans hq)
      have hlen := hc.1.gre hgre
      have hmin := Gre.minlen_le_len b p
      rw [GRE_MINLEN] at hmin
      have hbyte := hsame.1
      rw [Nat.zero_add, hgre] at hbyte
      have h0 : u8At b' p = u8At b p := u8At_transfer (hbyte 0 (by omega) (.inl rfl))
      have h1 : u8At b' (p + 1) = u8At b (p + 1) := u8At_transfer (hbyte 1 (by omega) (.inr rfl))
      exact ⟨by rwa [Gre.version, h1], by rwa [Gre.hasRouting, h0]⟩
    · exact ih hc.2 hsame.2 h hh hcarrier

/-- What finishing leaves of the entries in front of others. -/
theorem finishedHeaders_append : ∃ front, (∀ h ∈ front, ∃ g ∈ hs, SameEntry g h) ∧
    finishedHeaders (hs ++ gs) = front ++ finishedHeaders gs := by
  induction hs with
  | nil => exact ⟨[], by simp, rfl⟩
  | cons g inner ih =>
    obtain ⟨front, hsame, heq⟩ := ih
    rw [List.cons_append, finishedHeaders_cons, heq]
    refine ⟨_ :: front, fun h hh => ?_, rfl⟩
    rcases List.mem_cons.mp hh with rfl | hh
    · exact ⟨g, List.mem_cons_self, rfl, rfl, rfl⟩
    · obtain ⟨x, hx, hxh⟩ := hsame h hh
      exact ⟨x, List.mem_cons_of_mem _ hx, hxh⟩

theorem Chained.packetStart (hc : Chained b p hs) (ht : Table packet.toPacket hs) (hne : hs ≠ []) :
    packetStart packet.toPacket = .ok p := by
  cases hs with
  | nil => exact absurd rfl hne
  | cons h inner => exact packetStart_of_table ht hc.1.ptr

theorem OuterHeader.append_carrier {o : OuterHeader}
    (hok : o.append inetPton packet = .ok (none, packet')) (ht : Table packet.toPacket hs)
    (hl2 : packet.l2HeaderBytes = 0) :
    Carrier packet'.buffer ⟨o.type, o.bytes, 0, some packet.ipBytes⟩ := by
  refine ⟨⟨_, rfl⟩, (o.append_frame hok ht hl2).encloses.kind, fun hgre q hq => ?_⟩
  obtain rfl := Option.some.inj hq
  cases o with
  | gre header =>
    have hshape := (greHeaderAppend_step hok ht hl2).stands.shape _ le_rfl
    exact ⟨hshape.1, hshape.2.1⟩
  | ipv4 | ipv6 | mpls => cases hgre

/-- The headers that were appended carry others. -/
theorem ChainBuilt.carriers {calls : List OuterHeader} (hc : ChainBuilt packet hs)
    (hcarriers : ∀ h ∈ hs, Carrier packet.buffer h)
    (hok : QoSMos.appendHeaders inetPton packet calls = .ok (.ok packet')) :
    ∃ gs, ChainBuilt packet' gs ∧ ∀ h ∈ gs, Carrier packet'.buffer h := by
  induction calls generalizing packet hs with
  | nil =>
    obtain rfl := Except.ok.inj (Except.ok.inj hok)
    exact ⟨hs, hc, hcarriers⟩
  | cons o rest ih =>
    rw [QoSMos.appendHeaders] at hok
    obtain ⟨⟨status, next⟩, hcall, hok⟩ := bind_eq_ok_iff.mp hok
    cases status with
    | some message => cases hok
    | none =>
      have hframe := o.append_frame hcall hc.table hc.l2HeaderBytes
      refine ih (hc.append hframe) (fun h hh => ?_) hok
      rcases List.mem_append.mp hh with hh | hh
      · have hsum := hc.ipBytes
        refine hc.chained.carrier (.of_eq fun i _ hi => ?_) h hh (hcarriers h hh)
        rw [Nat.zero_add]
        exact hframe.frame i (by omega)
      · rw [List.mem_singleton.mp hh]
        exact OuterHeader.append_carrier hcall hc.table hc.l2HeaderBytes

end Carriers

section Encapsulated

variable {heap : Memory} {outer inner packet script : FullPacket} {os : List Header}
  {ip last ip' last' : Header} {p q d : Nat} {front : List Header}

/-- The last two headers are those of the inner packet, moved. -/
theorem Layers.moved (hl : Layers inner.toPacket [] ip last p q)
    (htable : Table packet.toPacket (front ++ [ip', last']))
    (hcarriers : ∀ h ∈ front, Carrier packet.buffer h)
    (hip : SameEntry (ip.moved d) ip') (hlast : SameEntry (last.moved d) last')
    (hpointers : packet.pointers = inner.pointers.map (offsetPtr d)) :
    Layers packet.toPacket front ip' last' (d + p) (d + q) := by
  have hmoved (c : Prop) [Decidable c] (r : Nat) :
      offsetPtr d (if c then some r else none) = if c then some (d + r) else none := by
    split <;> rfl
  have htype : ip'.type = ip.type := hip.type
  have htype' : last'.type = last.type := hlast.type
  simp only [FullPacket.pointers, List.map_cons, List.map_nil, List.cons.injEq, hl.ipv4, hl.ipv6,
    hl.tcp, hl.udp, hl.icmpv4, hl.icmpv6, hmoved] at hpointers
  obtain ⟨h4, h6, htcp, hudp, hicmp4, hicmp6, -⟩ := hpointers
  refine ⟨htable, hcarriers, ?_, ?_, ?_, ?_, ?_, ?_, ?_⟩
  · rw [hip.ptr, Header.moved, hl.ipPtr]
    rfl
  · rw [htype]
    exact hl.isIp
  · rw [h4, htype]
  · rw [h6, htype]
  · rw [hlast.ptr, Header.moved, hl.lastPtr]
    rfl
  · rw [htype']
    exact hl.isTransport
  · rw [Packet.transports, htcp, hudp, hicmp4, hicmp6, htype']

/-- An encapsulated packet is checked as the inner one is. -/
theorem packetEncapsulate_flags (hok : packetEncapsulate heap outer inner = .ok packet) :
    packet.flags = inner.flags := by
  unfold packetEncapsulate at hok
  obtain ⟨_, -, hok⟩ := bind_eq_ok_iff.mp hok
  obtain ⟨copy, hcopy, hok⟩ := bind_eq_ok_iff.mp hok
  obtain ⟨_, -, hok⟩ := bind_eq_ok_iff.mp hok
  obtain ⟨finished, hfinish, hok⟩ := bind_eq_ok_iff.mp hok
  obtain rfl := pure_eq_ok_iff.mp hok
  obtain ⟨_, -, hcopy⟩ := bind_eq_ok_iff.mp hcopy
  obtain ⟨_, -, hcopy⟩ := bind_eq_ok_iff.mp hcopy
  obtain ⟨_, -, hcopy⟩ := bind_eq_ok_iff.mp hcopy
  obtain rfl := pure_eq_ok_iff.mp hcopy
  obtain ⟨⟨buffer, headers⟩, -, hfinish⟩ := bind_eq_ok_iff.mp hfinish
  obtain rfl := pure_eq_ok_iff.mp hfinish
  rfl

theorem InnerShape.encapsulated (hs : InnerShape inner ip last q) (ho : ChainBuilt outer os)
    (hcarriers : ∀ h ∈ os, Carrier outer.buffer h)
    (hok : packetEncapsulate heap outer inner = .ok packet) :
    ∃ front ip' last', ScriptShape packet front ip' last' outer.ipBytes (outer.ipBytes + q) := by
  have hi := hs.enclosable
  obtain ⟨htable, hfinished, hpointers, -, hipBytes⟩ := packetEncapsulate_chained ho hi hok
  have hchained := @chained_joined heap _ _ _ _ _ ho hi
  have hlayout := hi.layout ho hok
  have hinside := hs.inside
  have hbehind := hs.behind
  have hsum := ho.ipBytes
  simp only [outerHeaders, List.map_cons, List.map_nil, List.append_assoc,
    List.singleton_append] at htable hfinished
  have hchainedFinal := hchained.finished hfinished.kept
  have hstart : packetStart packet.toPacket = .ok 0 := by
    refine hchainedFinal.packetStart htable fun hnil => ?_
    have hlength := congrArg List.length hnil
    rw [length_finishedHeaders] at hlength
    simp at hlength
  obtain ⟨front, hfront, hsplit⟩ := @finishedHeaders_append os
    [ip.moved outer.ipBytes, last.moved outer.ipBytes]
  obtain ⟨ip', last', hip, hlast, hpair⟩ : ∃ ip' last', SameEntry (ip.moved outer.ipBytes) ip' ∧
      SameEntry (last.moved outer.ipBytes) last' ∧
      finishedHeaders [ip.moved outer.ipBytes, last.moved outer.ipBytes] = [ip', last'] := by
    refine ⟨_, _, ?_, ?_, rfl⟩
    · exact ⟨rfl, rfl, rfl⟩
    · exact ⟨rfl, rfl, rfl⟩
  rw [hsplit, hpair] at htable
  have hl : Layers packet.toPacket front ip' last' (outer.ipBytes + 0) (outer.ipBytes + q) := by
    refine hs.layers.moved htable (fun h hh => ?_) hip hlast hpointers
    obtain ⟨g, hg, hsame⟩ := hfront h hh
    have hjoined : Carrier (joinedBytes heap outer inner) g := by
      refine ho.chained.carrier (.of_eq fun i _ hi => ?_) g hg (hcarriers g hg)
      rw [Nat.zero_add]
      exact joinedBytes_outer (by omega)
    exact (hchained.carrier (.of_kept hfinished.kept) g (List.mem_append_left _ hg) hjoined).of_same
      hsame
  have hdoff (htcp : last.type = .tcp) :
      Tcp.doff packet.buffer (outer.ipBytes + q) = Tcp.doff inner.buffer q := by
    have hminimum := hs.doff htcp
    have hsize : TCP_BYTES = 20 := rfl
    rw [if_pos htcp] at hinside
    have hbyte := hlayout.layer4 [ip] last hi.table.usedHeaders_eq (q + 12)
      (by rw [headerSum_cons, headerSum_nil]; omega) (by omega)
    exact congrArg (fun x : UInt8 => x.toNat / 16) hbyte
  have htype : last'.type = last.type := hlast.type
  have hpayload := hl.packetPayload
  rw [htype] at hpayload
  have hinside' : outer.ipBytes + q + (if last.type = .tcp then
      Tcp.doff packet.buffer (outer.ipBytes + q) * 4 else UDP_BYTES) ≤ 0 + packet.ipBytes := by
    split_ifs at hinside ⊢ with htcp
    · rw [hdoff htcp]
      omega
    · omega
  refine ⟨front, ip', last', hl, by rw [htype]; exact hs.transport, ?_, fun hnone => ?_⟩
  · rw [packetPayloadLen, packetEnd, hstart, hpayload]
    exact ⟨_, rfl, Int.sub_nonneg_of_le (Int.ofNat_le.mpr hinside')⟩
  · rw [packetEncapsulate_flags hok]
    refine hs.unchecked ?_
    rw [hl.tcp, htype] at hnone
    rw [hs.layers.tcp]
    split_ifs at hnone ⊢
    rfl

end Encapsulated

/-- Every script packet has its layers in place. -/
theorem TransportScript.shape {script : FullPacket} (hp : TransportScript script) :
    ∃ outer ip last p q, ScriptShape script outer ip last p q := by
  obtain ⟨inner, hbuilt, henclosing⟩ := hp
  obtain ⟨ip, last, q, hs⟩ := hbuilt.innerShape
  cases henclosing with
  | alone => exact ⟨_, _, _, _, _, hs.alone⟩
  | encapsulated houter hok =>
    obtain ⟨os, ho, hcarriers⟩ := (ChainBuilt.packetNew _ _).carriers (by simp) houter
    obtain ⟨front, ip', last', hscript⟩ := hs.encapsulated ho hcarriers hok
    exact ⟨_, _, _, _, _, hscript⟩

end QoSMos
