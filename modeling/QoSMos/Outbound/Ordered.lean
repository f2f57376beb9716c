import QoSMos.Build.EncapsulateLaw
import QoSMos.Flow.TupleLaw
import QoSMos.Outbound.MapPacket

/-!
# Packets with their TCP header in place

In every packet that was parsed or built the fields of the tuple stand in front of the sequence
number, so that setting a tuple leaves the rest of the TCP header and the options alone. A copy of
a packet has its headers and its bytes.
-/

namespace QoSMos

open Returns

/-- The fields of the tuple are the addresses in front of the TCP header and its ports. -/
structure TcpOrdered (packet : Packet) (tcp : Nat) : Prop where
  header : packet.tcp = some tcp
  noIcmp : packet.icmpv4 = none ∧ packet.icmpv6 = none
  fields : ∃ f, packet.tupleFields = some f ∧ f.dstAt + f.family.size ≤ tcp

/-- A TCP header with its options in front of the end of the packet. -/
structure SegmentAt (packet : Packet) (tcp : Nat) : Prop extends TcpOrdered packet tcp where
  doff : TCP_BYTES ≤ Tcp.doff packet.buffer tcp * 4
  inside : ∃ n, packetEnd packet = .ok n ∧ tcp + Tcp.doff packet.buffer tcp * 4 ≤ n

section Ordered

variable {packet packet' : FullPacket} {tcp start q i : Nat} {f : TupleFields} {tuple : Tuple}
  {b b' : Memory} {d n : Nat}

theorem ports_of_tcp {packet : Packet} (htcp : packet.tcp = some tcp)
    (hf : packet.tupleFields = some f) : f.ports = some tcp := by
  unfold Packet.tupleFields headersFields at hf
  rw [htcp] at hf
  split at hf
  · obtain rfl := Option.some.inj hf
    rfl
  · obtain rfl := Option.some.inj hf
    rfl
  · cases hf

theorem TcpOrdered.covers_lt {packet : Packet} (ho : TcpOrdered packet tcp)
    (hf : packet.tupleFields = some f) (hc : f.Covers i) : i < tcp + 4 := by
  obtain ⟨g, hg, hle⟩ := ho.fields
  obtain rfl := Option.some.inj (hf.symm.trans hg)
  rcases hc with hc | ⟨q, hq, hc⟩
  · omega
  · obtain rfl := Option.some.inj (hq.symm.trans (ports_of_tcp ho.header hf))
    omega

/-- Setting a tuple writes nothing behind the ports. -/
theorem TcpOrdered.setPacketTuple (ho : TcpOrdered packet.toPacket tcp) (tuple : Tuple) :
    ∃ b, setPacketTuple packet tuple = .ok { packet with buffer := b } ∧
      ∀ i ≥ tcp + 4, b i = packet.buffer i := by
  obtain ⟨f, hf, -⟩ := ho.fields
  refine ⟨_, setPacketTuple_eq hf ho.noIcmp.1 ho.noIcmp.2, fun i hi => ?_⟩
  refine TupleFields.write_outside fun hc => ?_
  have := ho.covers_lt hf hc
  omega

theorem restorePorts_eq (htcp : packet.tcp = some tcp) (ports : Nat × Nat) :
    ∃ b, restorePorts packet ports = { packet with buffer := b } ∧
      ∀ i ≥ tcp + 4, b i = packet.buffer i := by
  have hport (b : Memory) (p port : Nat) {i : Nat} (hi : p + 2 ≤ i) :
      restorePort b p port i = b i := by
    unfold restorePort
    split
    · exact writeBytes_outside (.inr hi)
    · rfl
  refine ⟨restorePort (restorePort packet.buffer tcp ports.1) (tcp + 2) ports.2, ?_, fun i hi => ?_⟩
  · rw [restorePorts, htcp]
    rfl
  · rw [hport _ _ _ (by omega), hport _ _ _ (by omega)]

/-- The live addresses of an inbound packet leave what is behind the ports. -/
theorem TcpOrdered.setInboundTuple (ho : TcpOrdered packet.toPacket tcp) (socket : Socket) :
    ∃ b, setInboundTuple socket packet = .ok { packet with buffer := b } ∧
      ∀ i ≥ tcp + 4, b i = packet.buffer i := by
  obtain ⟨b, hset, hframe⟩ := ho.setPacketTuple (socketGetInbound socket.live)
  have htcp : ({ packet with buffer := b } : FullPacket).tcp = some tcp := ho.header
  obtain ⟨b', hrestore, hframe'⟩ := restorePorts_eq htcp (presetPorts packet)
  refine ⟨b', ?_, fun i hi => (hframe' i hi).trans (hframe i hi)⟩
  unfold QoSMos.setInboundTuple
  rw [hset]
  exact congrArg Except.ok hrestore

/-- Only the pointers matter. -/
theorem TcpOrdered.moved (ho : TcpOrdered packet.toPacket tcp)
    (hpointers : packet'.pointers = packet.pointers.map (offsetPtr d)) :
    TcpOrdered packet'.toPacket (d + tcp) := by
  obtain ⟨htcp, ⟨h4, h6⟩, f, hf, hle⟩ := ho
  simp only [FullPacket.pointers, List.map_cons, List.map_nil, List.cons.injEq] at hpointers
  obtain ⟨hp4, hp6, hptcp, hpudp, hpicmp4, hpicmp6, -⟩ := hpointers
  refine ⟨by rw [hptcp, htcp]; rfl, ⟨by rw [hpicmp4, h4]; rfl, by rw [hpicmp6, h6]; rfl⟩,
    { f with ip := d + f.ip, ports := some (d + tcp) }, ?_, ?_⟩
  · unfold Packet.tupleFields headersFields at hf ⊢
    rw [hp4, hp6, hptcp, htcp]
    split at hf
    · rename_i hipv4
      obtain rfl := Option.some.inj hf
      rw [hipv4]
      rfl
    · rename_i hipv4 hipv6
      obtain rfl := Option.some.inj hf
      rw [hipv4, hipv6]
      rfl
    · cases hf
  · rw [dstAt_add_size] at hle ⊢
    simp only
    omega

theorem Addressed.tcpOrdered (ha : Addressed packet start f q) (htcp : packet.tcp = some tcp) :
    TcpOrdered packet.toPacket tcp := by
  have hports := ports_of_tcp htcp ha.fields
  rcases ha.transport with ⟨hq, h4, h6, -⟩ | ⟨hnone, -⟩
  · obtain rfl := Option.some.inj (hq.symm.trans hports)
    exact ⟨htcp, ⟨h4, h6⟩, f, ha.fields, ha.behind⟩
  · rw [hports] at hnone
    cases hnone

/-- A packet that the parser accepts with TCP on top has it in place. -/
theorem tcpOrdered_of_runParsePacket {bufferBytes inBytes : Nat} {layer : PacketLayer}
    {s : ParseState} (hle : inBytes ≤ bufferBytes)
    (hrun : runParsePacket b bufferBytes inBytes layer = .ok (.ok, s))
    (htcp : s.packet.tcp = some tcp) : TcpOrdered s.packet tcp := by
  obtain ⟨hs, hstack, hpacket, -⟩ := runParsePacket_ok_stack hle hrun
  have haddressed := @HeaderStack.addressed b inBytes bufferBytes layer hs hstack
  rw [← hpacket] at haddressed
  obtain ⟨start, f, q, ha⟩ := haddressed
  exact ha.tcpOrdered htcp

end Ordered

/-! ## Copies -/

/-- `copy` has the headers of `old` and its bytes up to `n`. -/
structure CopyOf (old copy : FullPacket) (n : Nat) : Prop where
  ends : packetEnd old.toPacket = .ok n
  bytes : ∀ i < n, copy.buffer i = old.buffer i
  bufferBytes : copy.bufferBytes = n
  pointers : copy.pointers = old.pointers
  tables : ∀ hs, Table old.toPacket hs → Table copy.toPacket hs
  ipBytes : copy.ipBytes = old.ipBytes % 4294967296
  checks : copy.flags = old.flags ∧ copy.tosChk = old.tosChk

section Copies

variable {heap : Memory} {old copy packet : FullPacket} {n tcp i : Nat}

theorem packetCopy_copyOf (hok : packetCopy heap old = .ok copy) : ∃ n, CopyOf old copy n := by
  unfold packetCopy packetCopyWithHeadroom at hok
  obtain ⟨n, hend, hok⟩ := bind_eq_ok_iff.mp hok
  obtain ⟨_, -, hok⟩ := bind_eq_ok_iff.mp hok
  obtain ⟨_, -, hok⟩ := bind_eq_ok_iff.mp hok
  obtain rfl := pure_eq_ok_iff.mp hok
  have hend : packetEnd old.toPacket = .ok n := by
    cases hpacketEnd : packetEnd old.toPacket with
    | ok m =>
      rw [hpacketEnd] at hend
      exact congrArg Except.ok (Except.ok.inj hend)
    | error fault =>
      rw [hpacketEnd] at hend
      cases hend
  refine ⟨n, hend, fun i hi => ?_, Nat.zero_add n, ?_, fun hs ht => ?_, ?_, rfl, rfl⟩
  · have hcopied := writeBytes_readBytes heap old.buffer 0 0 hi
    rw [Nat.zero_add] at hcopied
    exact hcopied
  · simp only [FullPacket.pointers, packetDuplicateInfo, offsetPtr_zero]
  · refine Table.of_headersOfList ?_ ht.le ht.used
    exact entries_copied ht
  · simp only [packetDuplicateInfo, u32]
    omega

theorem CopyOf.header (hc : CopyOf old copy n) : copy.tcp = old.tcp := by
  have hpointers := hc.pointers
  simp only [FullPacket.pointers, List.cons.injEq] at hpointers
  exact hpointers.2.2.1

theorem CopyOf.tcpOrdered (hc : CopyOf old copy n) (ho : TcpOrdered old.toPacket tcp) :
    TcpOrdered copy.toPacket tcp := by
  have hmoved : TcpOrdered copy.toPacket (0 + tcp) := by
    refine ho.moved (hc.pointers.trans ?_)
    simp only [FullPacket.pointers, List.map_cons, List.map_nil, offsetPtr_zero]
  rwa [Nat.zero_add] at hmoved

/-- A header in front of the end is copied. -/
theorem CopyOf.doff (hc : CopyOf old copy n) (hs : SegmentAt old.toPacket tcp) :
    Tcp.doff copy.buffer tcp = Tcp.doff old.buffer tcp ∧
      tcp + Tcp.doff old.buffer tcp * 4 ≤ n := by
  obtain ⟨m, hm, hinside⟩ := hs.inside
  obtain rfl := Except.ok.inj (hm.symm.trans hc.ends)
  have hdoff := hs.doff
  have hsize : TCP_BYTES = 20 := rfl
  refine ⟨?_, hinside⟩
  exact congrArg (fun x : UInt8 => x.toNat / 16) (hc.bytes (tcp + 12) (by omega))

end Copies

/-! ## Script packets -/

/-- A packet of `new_tcp_packet`, alone or behind the headers that encapsulate it. -/
inductive TcpScript : FullPacket → Prop
  | alone {heap : Memory} {args : TcpArgs} {packet : FullPacket}
      (hnew : newTcpPacket heap args = .ok (.ok packet)) : TcpScript packet
  | encapsulated {heap heap' heap'' : Memory} {args : TcpArgs} {inetPton : InetPton} {n : Nat}
      {calls : List OuterHeader} {outer inner packet : FullPacket}
      (hnew : newTcpPacket heap args = .ok (.ok inner))
      (houter : appendHeaders inetPton (packetNew heap' n).full calls = .ok (.ok outer))
      (hok : packetEncapsulate heap'' outer inner = .ok packet) : TcpScript packet

section Script

variable {heap : Memory} {packet : FullPacket} {args : TcpArgs}

/-- The TCP header of a packet that was built. -/
theorem TcpBuilt.segmentAt (hb : TcpBuilt args packet) (hecho : packet.echoedHeader = false) :
    SegmentAt packet.toPacket (ipHeaderBytes args.addressFamily) ∧
      packetEnd packet.toPacket = .ok packet.ipBytes := by
  have hlength := hb.built.length
  have hiplen : (ipHeader args.addressFamily (UInt16.ofNat packet.ipBytes) args.ipInfo.tos.value
      args.ipInfo.flowLabel args.ipInfo.ttl (UInt8.ofNat IPPROTO_TCP)).length =
      ipHeaderBytes args.addressFamily := length_ipHeader
  have htcplen : (tcpHeader args (TCP_BYTES + args.optionLength) ++ args.optionBytes).length =
      TCP_BYTES + args.optionLength := by
    rw [List.length_append, length_tcpHeader, hb.options]
  rw [hiplen, htcplen] at hlength
  have hholds : ∀ k < TCP_BYTES + args.optionLength,
      packet.buffer (ipHeaderBytes args.addressFamily + k) =
        (tcpHeader args (TCP_BYTES + args.optionLength) ++ args.optionBytes).getD k 0 := by
    intro k hk
    rw [hb.built.holds _ (by rw [hiplen, htcplen]; omega),
      List.getD_append_right _ _ _ _ (by rw [hiplen]; omega), hiplen, Nat.add_sub_cancel_left]
  have hset := tcpSet_of_holds (b := packet.buffer) (p := ipHeaderBytes args.addressFamily)
    hb.aligned hb.header fun k hk _ _ => hholds k (by rwa [htcplen] at hk)
  have htcp : packet.tcp = some (ipHeaderBytes args.addressFamily) := by
    rw [hb.built.tcp, hiplen]
    rfl
  obtain ⟨start, f, q, ha⟩ := hb.built.addressed length_ipHeader (.inl rfl) hecho
  have hend : packetEnd packet.toPacket = .ok packet.ipBytes := by
    rw [packetEnd, packetStart_of_table hb.built.table rfl]
    exact congrArg Except.ok (Nat.zero_add _)
  refine ⟨⟨ha.tcpOrdered htcp, ?_, _, hend, ?_⟩, hend⟩
  · rw [hset.doff]
    omega
  · rw [hset.doff]
    omega

/-- The TCP header of a script packet. -/
theorem TcpScript.segmentAt (hp : TcpScript packet) : ∃ tcp, SegmentAt packet.toPacket tcp := by
  cases hp with
  | alone hnew =>
    exact ⟨_, ((newTcpPacket_built hnew).segmentAt (newTcpPacket_echoedHeader hnew)).1⟩
  | @encapsulated _ _ _ args _ _ _ outer inner _ hnew houter hok =>
    have hb := newTcpPacket_built hnew
    obtain ⟨hs, hend⟩ := hb.segmentAt (newTcpPacket_echoedHeader hnew)
    have hbuilt : IsBuilt inner := .inl ⟨_, _, hnew⟩
    obtain ⟨os, ho⟩ := (ChainBuilt.packetNew _ _).appendHeaders houter
    obtain ⟨_, _, hinner⟩ := hbuilt.enclosable
    have hl := hinner.layout ho hok
    obtain ⟨init, last, hi⟩ := packetEncapsulate_enclosable houter hbuilt.enclosable hok
    obtain ⟨m, hm, hinside⟩ := hs.inside
    obtain rfl := Except.ok.inj (hm.symm.trans hend)
    have hdoff := hs.doff
    have hsize : TCP_BYTES = 20 := rfl
    have hbyte := hl.layer4 [_] _ hb.built.table.usedHeaders_eq
      (ipHeaderBytes args.addressFamily + 12) (by simp) (by omega)
    have hsame : Tcp.doff packet.buffer (outer.ipBytes + ipHeaderBytes args.addressFamily) =
        Tcp.doff inner.buffer (ipHeaderBytes args.addressFamily) :=
      congrArg (fun x : UInt8 => x.toNat / 16) hbyte
    refine ⟨outer.ipBytes + ipHeaderBytes args.addressFamily,
      ⟨hs.toTcpOrdered.moved hl.pointers, ?_, packet.ipBytes, ?_, ?_⟩⟩
    · rwa [hsame]
    · rw [packetEnd, hi.packetStart]
      exact congrArg Except.ok (Nat.zero_add _)
    · rw [hsame, hl.ipBytes]
      omega

end Script

end QoSMos
