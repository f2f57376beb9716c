import QoSMos.Build.ChecksumLaw

/-!
# The checksums of built packets

The packets of `new_tcp_packet`, `new_udp_packet` and `new_icmp_packet` have their innermost
headers as `checksum_packet` needs them, also behind the outer headers of `packet_encapsulate`,
whose own checksums were filled in when they were finished.

The headers are those of the packet's table: the datagram that an ICMP message quotes is data.
-/

namespace QoSMos

open Returns

/-- A packet of at most 65535 bytes that one of the three functions returned. -/
structure IsNewPacket (packet : FullPacket) : Prop where
  new : (∃ heap args, newTcpPacket heap args = .ok (.ok packet)) ∨
    (∃ heap args, newUdpPacket heap args = .ok (.ok packet)) ∨
    ∃ heap args, newIcmpPacket heap args = .ok (.ok packet)
  size : packet.ipBytes ≤ 65535

/-- `inner` alone, or behind any outer headers. -/
inductive Enclosing (inner : FullPacket) : FullPacket → Prop
  | alone : Enclosing inner inner
  | encapsulated {inetPton : InetPton} {heap heap' : Memory} {n : Nat}
      {calls : List OuterHeader} {outer packet : FullPacket}
      (houter : appendHeaders inetPton (packetNew heap' n).full calls = .ok (.ok outer))
      (hok : packetEncapsulate heap outer inner = .ok packet) : Enclosing inner packet

/-- An IPv4 header that verifies and lies in front of `p`. -/
structure VerifiedBefore (b : Memory) (p : Nat) (h : Header) : Prop where
  verified : ∃ q, h.ptr = some q ∧ q + IPV4_BYTES ≤ p ∧ Ipv4.ihl b q = 5 ∧
    ChecksumVerifies b q IPV4_BYTES

/-- The IPv4 headers of the packet are its innermost header at `p`, and verified ones. -/
structure Verifiable (packet : Packet) (addressFamily : Int) (p : Nat) (l4 : HeaderType)
    (len : Nat) : Prop where
  innermost : Innermost packet addressFamily p l4 len
  outer : ∀ h ∈ usedHeaders packet, h.type = .ipv4 →
    h.ptr = some p ∧ addressFamily = AF_INET ∨ VerifiedBefore packet.buffer p h

section Verifiable

variable {packet later : Packet} {addressFamily : Int} {p len i : Nat} {l4 : HeaderType}
  {b b' : Memory} {h : Header}

theorem VerifiedBefore.congr (hv : VerifiedBefore b p h) (hbytes : ∀ i < p, b' i = b i) :
    VerifiedBefore b' p h := by
  obtain ⟨q, hptr, hend, hihl, hverifies⟩ := hv
  have hsize : IPV4_BYTES = 20 := rfl
  have h0 : u8At b' q = u8At b q := u8At_transfer (hbytes q (by omega))
  refine ⟨q, hptr, hend, ?_, (ChecksumVerifies.congr fun i hi => hbytes _ (by omega)).mpr hverifies⟩
  rwa [Ipv4.ihl, h0]

theorem MayBeWritten.le (hi : Innermost packet addressFamily p l4 len)
    (hw : MayBeWritten packet i) : p ≤ i := by
  unfold MayBeWritten at hw
  rw [hi.ipv4, hi.ipv6, hi.layer4At] at hw
  obtain ⟨q, hq, hle, -⟩ | ⟨q, hq, hle, -⟩ | ⟨q, hq, hle⟩ := hw
  · split at hq
    · obtain rfl := Option.some.inj hq
      omega
    · cases hq
  · split at hq
    · cases hq
    · obtain rfl := Option.some.inj hq
      omega
  · obtain rfl := Option.some.inj hq
    omega

theorem IsChecksumByte.le (hi : Innermost packet addressFamily p l4 len)
    (hc : IsChecksumByte packet i) : p ≤ i := by
  obtain ⟨check, hcheck, hat⟩ := hc
  rw [hi.ipv4, hi.layer4CheckAt] at hcheck
  rcases hcheck with hcheck | hcheck
  · split at hcheck
    · obtain rfl := Option.some.inj hcheck
      simp only [Ipv4.checkAt] at hat
      omega
    · cases hcheck
  · obtain rfl := Option.some.inj hcheck
    omega

/-- After `checksum_packet` all checksums of the packet verify. -/
theorem Verifiable.checksummed (hv : Verifiable packet addressFamily p l4 len)
    (hw : WrittenTo packet later) :
    ∃ checksummed, checksumPacket later = .ok checksummed ∧
      checksummed = { later with buffer := checksummed.buffer } ∧
      (∀ i, checksummed.buffer i ≠ later.buffer i → IsChecksumByte later i) ∧
      ChecksumsVerify checksummed := by
  have hinner := hv.innermost.written hw
  obtain ⟨checksummed, hok, hfilled⟩ := hinner.checksummed
  refine ⟨checksummed, hok, hfilled.rest, hfilled.frame, fun h hh htype => ?_, hfilled.layer4⟩
  have hused : usedHeaders checksummed = usedHeaders packet := by
    rw [hfilled.rest, hw.rest]
    rfl
  have hfront (i : Nat) (hi : i < p) : checksummed.buffer i = packet.buffer i := by
    have hchecked : checksummed.buffer i = later.buffer i := by
      by_contra hne
      have := (hfilled.frame i hne).le hinner
      omega
    have hwritten : later.buffer i = packet.buffer i := by
      by_contra hne
      have := (hw.frame i hne).le hv.innermost
      omega
    exact hchecked.trans hwritten
  rw [hused] at hh
  rcases hv.outer h hh htype with ⟨hptr, hinet⟩ | hbefore
  · exact ⟨p, hptr, hfilled.ipv4 hinet⟩
  · obtain ⟨q, hptr, -, hihl, hverifies⟩ := hbefore.congr hfront
    refine ⟨q, hptr, ?_⟩
    rw [hihl]
    exact (ipv4Checksum_eq_zero_iff _ _ _ (by decide)).mpr hverifies

end Verifiable

/-! ## The packets of the three functions -/

/-- An IP header at the start of the packet and a transport header behind it, which with its
payload is all that the IP header declares. -/
structure InnerDatagram (inner : FullPacket) (addressFamily : Int) (l4 : HeaderType)
    (len total n : Nat) : Prop where
  table : Table inner.toPacket [⟨ipType addressFamily, ipHeaderBytes addressFamily, total, some 0⟩,
    ⟨l4, n, len, some (ipHeaderBytes addressFamily)⟩]
  innermost : Innermost inner.toPacket addressFamily 0 l4 len
  ipBytes : inner.ipBytes = ipHeaderBytes addressFamily + len
  size : inner.ipBytes ≤ 65535
  header : n ≤ len

section New

variable {inner : FullPacket} {addressFamily : Int} {l4 : HeaderType} {len total n : Nat}
  {tos ttl : UInt8} {flowLabel : UInt32} {b : Memory}

/-- What `set_ip_header` declares for a packet of `ipHeaderBytes addressFamily + len` bytes. -/
theorem declares_ipHeader (hfamily : addressFamily = AF_INET ∨ addressFamily = AF_INET6)
    (hbytes : ∀ k < ipHeaderBytes addressFamily, b k = (ipHeader addressFamily
      (UInt16.ofNat (ipHeaderBytes addressFamily + len)) tos flowLabel ttl
      (UInt8.ofNat l4.ipProto)).getD k 0)
    (hsize : ipHeaderBytes addressFamily + len ≤ 65535) : Declares b addressFamily 0 l4 len := by
  have hholds : HoldsExcept b 0 (ipHeader addressFamily
      (UInt16.ofNat (ipHeaderBytes addressFamily + len)) tos flowLabel ttl
      (UInt8.ofNat l4.ipProto)) 10 := by
    intro k hk _ _
    rw [length_ipHeader] at hk
    rw [Nat.zero_add]
    exact hbytes k hk
  have hu16 : (UInt16.ofNat (ipHeaderBytes addressFamily + len)).toNat =
      ipHeaderBytes addressFamily + len := by
    rw [UInt16.toNat_ofNat']
    exact Nat.mod_eq_of_lt (by omega)
  have hproto := toNat_ipProto l4
  rcases hfamily with rfl | rfl
  · have hset := ipv4Set_of_holds hholds
    refine ⟨fun _ => ⟨hset.ihl, ?_, ?_⟩, fun hne => absurd rfl hne⟩
    · rw [hset.totLen, hu16]
      rfl
    · rw [hset.protocol, hproto]
  · have hset := ipv6Set_of_holds hholds (by omega)
    have hbytes6 : ipHeaderBytes AF_INET6 = IPV6_BYTES := rfl
    refine ⟨fun hinet => absurd hinet (by decide), fun _ => ⟨?_, ?_⟩⟩
    · rw [hset.payloadLen, hu16, hbytes6]
      omega
    · rw [hset.nextHeader, hproto]

theorem BuiltAs.innerDatagram {l4B : List UInt8} {payload : Nat}
    (hfamily : addressFamily = AF_INET ∨ addressFamily = AF_INET6) (hl4 : l4 = .tcp ∨ l4 = .udp)
    (hb : BuiltAs inner (ipType addressFamily) l4 (ipHeader addressFamily
      (UInt16.ofNat inner.ipBytes) tos flowLabel ttl (UInt8.ofNat l4.ipProto)) l4B payload)
    (hcheck : l4.checkOffset + 2 ≤ l4B.length) (hsize : inner.ipBytes ≤ 65535) :
    ∃ total, InnerDatagram inner addressFamily l4 (l4B.length + payload) total l4B.length := by
  obtain ⟨hholds, hlength, -, htable, h4, h6, htcp, hudp, hicmp4, hicmp6⟩ := hb
  rw [length_ipHeader] at hholds hlength htable htcp hudp
  rw [Nat.add_assoc] at hlength
  have hbytes : ∀ k < ipHeaderBytes addressFamily, inner.buffer k = (ipHeader addressFamily
      (UInt16.ofNat (ipHeaderBytes addressFamily + (l4B.length + payload))) tos flowLabel ttl
      (UInt8.ofNat l4.ipProto)).getD k 0 := by
    intro k hk
    rw [hholds k (by omega), ← hlength, List.getD_append _ _ _ _ (by rwa [length_ipHeader])]
  have hdeclares := declares_ipHeader hfamily hbytes (hlength ▸ hsize)
  have hinet6 : AF_INET6 ≠ AF_INET := by decide
  have hnot4 : l4 ≠ .icmpv4 := by rcases hl4 with rfl | rfl <;> decide
  have hnot6 : l4 ≠ .icmpv6 := by rcases hl4 with rfl | rfl <;> decide
  refine ⟨_, htable, ⟨?_, ?_, ?_, ?_, ?_, ?_, ?_, hdeclares, ?_, ?_, ?_⟩, hlength, hsize, ?_⟩
  · rcases hfamily with rfl | rfl <;> exact h4
  · rcases hfamily with rfl | rfl <;> exact h6
  · rw [htcp, Nat.zero_add]
  · rw [hudp, Nat.zero_add]
  · rw [hicmp4, if_neg hnot4]
  · rw [hicmp6, if_neg hnot6]
  · exact hl4.imp_right .inl
  · omega
  · exact hlength.ge
  · omega
  · omega

/-- Each packet of the three functions is a datagram of two headers. -/
theorem IsNewPacket.innerDatagram (hnew : IsNewPacket inner) :
    ∃ addressFamily l4 len total n, InnerDatagram inner addressFamily l4 len total n := by
  obtain ⟨⟨heap, args, hok⟩ | ⟨heap, args, hok⟩ | ⟨heap, args, hok⟩, hsize⟩ := hnew
  · have hb := newTcpPacket_built hok
    have hlength : (tcpHeader args (TCP_BYTES + args.optionLength) ++ args.optionBytes).length =
        TCP_BYTES + args.optionLength := by
      rw [List.length_append, length_tcpHeader, hb.options]
    obtain ⟨total, hd⟩ := hb.built.innerDatagram hb.family (.inl rfl)
      (by rw [hlength, HeaderType.checkOffset, TCP_BYTES]; omega) hsize
    exact ⟨_, _, _, total, _, hd⟩
  · have hb := newUdpPacket_built hok
    obtain ⟨total, hd⟩ := hb.built.innerDatagram hb.family (.inr rfl)
      (by rw [length_udpHeader]; decide) hsize
    exact ⟨_, _, _, total, _, hd⟩
  · have hb := newIcmpPacket_built hok
    have hroom := hb.room
    rw [ICMPV4_BYTES] at hroom
    obtain ⟨len, hlen⟩ := Nat.exists_eq_add_of_le (Nat.le_of_add_right_le hroom)
    have hbytes := hb.ipHeader
    rw [hlen] at hbytes
    have hdeclares := declares_ipHeader hb.family hbytes (hlen ▸ hsize)
    have htable := hb.table
    rw [hlen, Nat.add_sub_cancel_left] at htable
    obtain ⟨htcp, hudp⟩ := hb.noPorts
    refine ⟨_, _, len, _, _, htable, ⟨hb.ipv4, hb.ipv6, ?_, ?_, ?_, ?_, .inr (.inr rfl), hdeclares,
      ?_, hlen.ge, by omega⟩, hlen, hsize, by rw [ICMPV4_BYTES]; omega⟩
    · rcases hb.family with hf | hf <;> rw [htcp, hf] <;> rfl
    · rcases hb.family with hf | hf <;> rw [hudp, hf] <;> rfl
    · rw [hb.icmp.icmpv4, Nat.zero_add]
      rcases hb.family with hf | hf <;> rw [hf] <;> rfl
    · rw [hb.icmp.icmpv6, Nat.zero_add]
      rcases hb.family with hf | hf <;> rw [hf] <;> rfl
    · have hcheck : (icmpType args.addressFamily).checkOffset = 2 := by
        unfold icmpType
        split <;> rfl
      rw [hcheck]
      omega

theorem InnerDatagram.verifiable (hd : InnerDatagram inner addressFamily l4 len total n) :
    Verifiable inner.toPacket addressFamily 0 l4 len := by
  refine ⟨hd.innermost, fun h hh htype => ?_⟩
  rw [hd.table.usedHeaders_eq] at hh
  rcases List.mem_pair.mp hh with rfl | rfl
  · refine .inl ⟨rfl, ?_⟩
    simp only [ipType] at htype
    split at htype
    · assumption
    · cases htype
  · obtain hl4 | hl4 | hl4 := hd.innermost.kind
    · cases hl4.symm.trans htype
    · cases hl4.symm.trans htype
    · unfold icmpType at hl4
      split at hl4 <;> cases hl4.symm.trans htype

theorem InnerDatagram.enclosable (hd : InnerDatagram inner addressFamily l4 len total n) :
    Enclosable inner
      [⟨ipType addressFamily, ipHeaderBytes addressFamily, total, some 0⟩]
      ⟨l4, n, len, some (ipHeaderBytes addressFamily)⟩ := by
  have htransport : l4.isTransport = true := by
    obtain rfl | rfl | hl4 := hd.innermost.kind
    · rfl
    · rfl
    · rw [hl4]
      unfold icmpType
      split <;> rfl
  have hinet : ipType addressFamily = .ipv4 → addressFamily = AF_INET := by
    unfold ipType
    split
    · exact fun _ => by assumption
    · exact fun h => by cases h
  have hinet6 : ipType addressFamily = .ipv6 → addressFamily ≠ AF_INET := by
    rintro h rfl
    cases h
  have hdeclares := hd.innermost.declares
  have hsum := hd.ipBytes
  have hheader := hd.header
  have hbytes4 (h : ipType addressFamily = .ipv4) : ipHeaderBytes addressFamily = IPV4_BYTES :=
    if_pos (hinet h)
  have hbytes6 (h : ipType addressFamily = .ipv6) : ipHeaderBytes addressFamily = IPV6_BYTES :=
    if_neg (hinet6 h)
  refine ⟨hd.table, ⟨⟨rfl, fun h => ?_, hbytes6, fun h => ?_⟩, ⟨?_, fun h => ?_, fun h => ?_,
    fun h => ?_⟩, trivial⟩, ?_, htransport, ?_⟩
  · rw [(hdeclares.inet (hinet h)).1]
    exact ⟨(hbytes4 h).ge, by decide⟩
  · simp only [ipType] at h
    split at h <;> cases h
  · rw [Nat.zero_add]
  all_goals try (simp only at h; rw [h] at htransport; cases htransport)
  · intro h hh
    rw [List.mem_singleton.mp hh]
    refine ⟨?_, hbytes4, hbytes6⟩
    simp only [ipType]
    split
    · exact .inl rfl
    · exact .inr (.inl rfl)
  · simp only [List.singleton_append, headerSum_cons, headerSum_nil]
    omega

end New

/-! ## Behind outer headers -/

/-- A chain of appended headers of which the IPv4 headers have no options. -/
structure PlainChain (packet : FullPacket) (hs : List Header) : Prop where
  built : ChainBuilt packet hs
  plain : ∀ h ∈ hs, h.type = .ipv4 → ∀ q, h.ptr = some q → Ipv4.ihl packet.buffer q = 5

section Plain

variable {packet packet' : FullPacket} {hs gs : List Header} {inetPton : InetPton}
  {b b' : Memory} {p : Nat} {h : Header}

theorem OuterHeader.append_ihl {o : OuterHeader}
    (hok : o.append inetPton packet = .ok (none, packet')) (ht : Table packet.toPacket hs)
    (hl2 : packet.l2HeaderBytes = 0) (htype : o.type = .ipv4) :
    Ipv4.ihl packet'.buffer packet.ipBytes = 5 := by
  cases o with
  | ipv4 ipSrc ipDst tos ttl =>
    have hstands := (ipv4HeaderAppend_step hok ht hl2).stands
    have hihl : Ipv4.ihl packet'.buffer packet.ipBytes * 4 = IPV4_BYTES :=
      (hstands.shape _ le_rfl).1
    rw [IPV4_BYTES] at hihl
    omega
  | ipv6 | gre | mpls => cases htype

/-- Where the headers of a chain are. -/
theorem Chained.ptr_lt (hc : Chained b p hs) (hh : h ∈ hs) :
    ∃ q, h.ptr = some q ∧ p ≤ q ∧ q + h.headerBytes ≤ p + headerSum hs := by
  induction hs generalizing p with
  | nil => cases hh
  | cons g inner ih =>
    rw [headerSum_cons]
    rcases List.mem_cons.mp hh with rfl | hh
    · exact ⟨p, hc.1.ptr, le_rfl, by omega⟩
    · obtain ⟨q, hq, hle, hend⟩ := ih hc.2 hh
      exact ⟨q, hq, by omega, by omega⟩

theorem PlainChain.packetNew (heap : Memory) (n : Nat) : PlainChain (packetNew heap n).full [] :=
  ⟨.packetNew heap n, by simp⟩

theorem PlainChain.append {o : OuterHeader} (hc : PlainChain packet hs)
    (hok : o.append inetPton packet = .ok (none, packet')) :
    PlainChain packet' (hs ++ [⟨o.type, o.bytes, 0, some packet.ipBytes⟩]) := by
  have hframe := o.append_frame hok hc.built.table hc.built.l2HeaderBytes
  refine ⟨hc.built.append hframe, fun g hg htype q hq => ?_⟩
  rcases List.mem_append.mp hg with hg | hg
  · obtain ⟨q', hptr, -, hend⟩ := hc.built.chained.ptr_lt hg
    obtain rfl : q' = q := Option.some.inj (hptr.symm.trans hq)
    have hbytes := (hc.built.encloses g hg).ipv4 htype
    rw [hc.built.ipBytes.symm, hbytes, IPV4_BYTES] at hend
    have h0 : u8At packet'.buffer q' = u8At packet.buffer q' :=
      u8At_transfer (hframe.frame q' (by omega))
    rw [Ipv4.ihl, h0]
    exact hc.plain g hg htype q' hq
  · rw [List.mem_singleton] at hg
    subst hg
    obtain rfl := Option.some.inj hq
    exact OuterHeader.append_ihl hok hc.built.table hc.built.l2HeaderBytes htype

theorem PlainChain.appendHeaders {outer : List OuterHeader} (hc : PlainChain packet hs)
    (hok : appendHeaders inetPton packet outer = .ok (.ok packet')) :
    ∃ gs, PlainChain packet' gs := by
  induction outer generalizing packet hs with
  | nil =>
    obtain rfl := Except.ok.inj (Except.ok.inj hok)
    exact ⟨hs, hc⟩
  | cons o rest ih =>
    rw [QoSMos.appendHeaders] at hok
    obtain ⟨⟨status, next⟩, hcall, hok⟩ := bind_eq_ok_iff.mp hok
    cases status with
    | some message => cases hok
    | none => exact ih (hc.append hcall) hok

/-- What finishing leaves of one of the headers. -/
theorem Chained.finishedAt (hc : Chained b p hs) (hk : Kept b b' p hs)
    (hf : Finished b' p (finishedHeaders hs)) (hh : h ∈ hs) {q : Nat} (hq : h.ptr = some q) :
    (∃ g next, SameEntry h g ∧ FinishedFields b' q g next) ∧
      ∀ k < h.headerBytes, ¬ h.type.Rewritten k → b' (q + k) = b (q + k) := by
  induction hs generalizing p with
  | nil => cases hh
  | cons g inner ih =>
    rcases List.mem_cons.mp hh with rfl | hh
    · obtain rfl : p = q := Option.some.inj (hc.1.ptr.symm.trans hq)
      exact ⟨⟨h.withTotal (h.finishedTotal (finishedHeaders inner).head?), _, ⟨rfl, rfl, rfl⟩,
        hf.1⟩, hk.1⟩
    · exact ih hc.2 hk.2 hf.2 hh

theorem FinishedFields.checksumVerifies {next : HeaderType} (hf : FinishedFields b p h next)
    (htype : h.type = .ipv4) : ChecksumVerifies b p (Ipv4.ihl b p * 4) := by
  unfold FinishedFields at hf
  rw [htype] at hf
  exact hf.2.2

theorem Finished.of_append (hf : Finished b p (finishedHeaders (hs ++ gs))) :
    Finished b (p + headerSum hs) (finishedHeaders gs) := by
  induction hs generalizing p with
  | nil => exact hf
  | cons h inner ih =>
    rw [headerSum_cons, ← Nat.add_assoc]
    exact ih hf.2

theorem mem_finishedHeaders (hh : h ∈ finishedHeaders hs) : ∃ g ∈ hs, SameEntry g h := by
  obtain ⟨i, hi, rfl⟩ := List.mem_iff_getElem.mp hh
  have hi' : i < hs.length := length_finishedHeaders ▸ hi
  exact ⟨hs[i], List.getElem_mem hi', sameEntry_finishedHeaders.get hi' hi⟩

end Plain

section Encapsulated

variable {heap : Memory} {outer inner packet : FullPacket} {os : List Header}
  {addressFamily : Int} {l4 : HeaderType} {len total n : Nat}

/-- The pointers to the innermost headers are those of the inner packet, moved. -/
theorem Innermost.moved {d : Nat} (hi : Innermost inner.toPacket addressFamily 0 l4 len)
    (hpointers : packet.pointers = inner.pointers.map (offsetPtr d))
    (hdeclares : Declares packet.buffer addressFamily d l4 len)
    (hroom : ipHeaderBytes addressFamily + len ≤ packet.ipBytes) :
    Innermost packet.toPacket addressFamily d l4 len := by
  simp only [FullPacket.pointers, List.map_cons, List.map_nil, List.cons.injEq, hi.ipv4, hi.ipv6,
    hi.tcp, hi.udp, hi.icmpv4, hi.icmpv6, Nat.zero_add] at hpointers
  obtain ⟨h4, h6, htcp, hudp, hicmp4, hicmp6, -⟩ := hpointers
  have hmoved (c : Prop) [Decidable c] (q : Nat) :
      offsetPtr d (if c then some q else none) = if c then some (d + q) else none := by
    split <;> rfl
  have hmoved' (c : Prop) [Decidable c] (q : Nat) :
      offsetPtr d (if c then none else some q) = if c then none else some (d + q) := by
    split <;> rfl
  rw [hmoved] at h4 htcp hudp hicmp4 hicmp6
  rw [hmoved'] at h6
  exact ⟨h4, h6, htcp, hudp, hicmp4, hicmp6, hi.kind, hdeclares, hi.size, hroom, hi.short⟩

/-- The headers of a packet that was encapsulated. -/
theorem InnerDatagram.encapsulated (hd : InnerDatagram inner addressFamily l4 len total n)
    (ho : PlainChain outer os) (hok : packetEncapsulate heap outer inner = .ok packet) :
    Verifiable packet.toPacket addressFamily outer.ipBytes l4 len := by
  have hi := hd.enclosable
  obtain ⟨htable, hfinished, hpointers, -, hipBytes⟩ :=
    packetEncapsulate_chained ho.built hi hok
  have hchained := @chained_joined heap _ _ _ _ _ ho.built hi
  have hsum := ho.built.ipBytes
  have hlen := hd.ipBytes
  simp only [outerHeaders, List.append_assoc, List.map_cons, List.map_nil, List.cons_append,
    List.nil_append] at htable hfinished hchained
  obtain ⟨-, hkept, hfields⟩ := hfinished
  have hkeptInner := hkept.of_append
  have hfieldsInner := hfields.of_append
  rw [Nat.zero_add, ← hsum] at hkeptInner hfieldsInner
  have hlast (d : Nat) : finishedHeaders [Header.moved d
      ⟨l4, n, len, some (ipHeaderBytes addressFamily)⟩] =
      [Header.moved d ⟨l4, n, len, some (ipHeaderBytes addressFamily)⟩] := by
    have htransport : (Header.moved d
        ⟨l4, n, len, some (ipHeaderBytes addressFamily)⟩).type.isTransport = true := hi.transport
    rw [finishedHeaders_cons, finishedTotal_of_isTransport htransport]
    rfl
  rw [finishedHeaders_cons, hlast] at hfieldsInner
  have hmin := @ipHeaderBytes_le addressFamily
  rw [IPV4_BYTES] at hmin
  have hdeclares : Declares packet.buffer addressFamily outer.ipBytes l4 len := by
    refine ⟨fun hinet => ?_, fun hinet => ?_⟩
    · obtain ⟨hihl, -⟩ := hd.innermost.declares.inet hinet
      have hshort := hd.innermost.declares.inet hinet
      subst hinet
      obtain ⟨htot, hproto, -⟩ : Ipv4.totLen packet.buffer outer.ipBytes =
          (IPV4_BYTES + len) % 65536 ∧ Ipv4.protocol packet.buffer outer.ipBytes = l4.ipProto ∧ _ :=
        hfieldsInner.1
      have hbyte : packet.buffer (outer.ipBytes + 0) =
          joinedBytes heap outer inner (outer.ipBytes + 0) :=
        hkeptInner.1 0 (by show 0 < IPV4_BYTES; decide)
          (by simp [Header.moved, ipType, HeaderType.Rewritten])
      rw [joinedBytes_inner (by omega)] at hbyte
      have h0 : u8At packet.buffer outer.ipBytes = u8At inner.buffer 0 := u8At_transfer hbyte
      refine ⟨by rwa [Ipv4.ihl, h0], ?_, hproto⟩
      have hsize := hd.size
      have hfour : ipHeaderBytes AF_INET = IPV4_BYTES := rfl
      omega
    · obtain ⟨hpayload, hnext⟩ : IPV6_BYTES + Ipv6.payloadLen packet.buffer outer.ipBytes =
          IPV6_BYTES + len ∧ Ipv6.nextHeader packet.buffer outer.ipBytes = l4.ipProto := by
        have hfields6 := hfieldsInner.1
        simp only [FinishedFields, Header.moved, ipType, hinet, if_false,
          type_withTotal] at hfields6
        exact hfields6
      exact ⟨Nat.add_left_cancel hpayload, hnext⟩
  refine ⟨hd.innermost.moved hpointers hdeclares (by omega), fun x hx htype => ?_⟩
  rw [htable.usedHeaders_eq] at hx
  obtain ⟨y, hy, hyx⟩ := mem_finishedHeaders hx
  rw [hyx.type] at htype
  rcases List.mem_append.mp hy with hos | hinner
  · obtain ⟨q, hq, -, hend⟩ := ho.built.chained.ptr_lt hos
    rw [(ho.built.encloses y hos).ipv4 htype, Nat.zero_add, ← hsum] at hend
    obtain ⟨⟨g, next, hg, hfieldsq⟩, hkeptq⟩ := hchained.finishedAt hkept hfields hy hq
    have hverifies := hfieldsq.checksumVerifies (hg.type.trans htype)
    have hbyte : packet.buffer (q + 0) = joinedBytes heap outer inner (q + 0) :=
      hkeptq 0 (by rw [(ho.built.encloses y hos).ipv4 htype]; decide)
        (by simp [htype, HeaderType.Rewritten])
    rw [joinedBytes_outer (by rw [IPV4_BYTES] at hend; omega)] at hbyte
    have h0 : u8At packet.buffer q = u8At outer.buffer q := u8At_transfer hbyte
    have hihl : Ipv4.ihl packet.buffer q = 5 := by
      rw [Ipv4.ihl, h0]
      exact ho.plain y hos htype q hq
    rw [hihl] at hverifies
    exact .inr ⟨q, hyx.ptr.trans hq, hend, hihl, hverifies⟩
  · obtain ⟨z, hz, rfl⟩ : ∃ z ∈ usedHeaders inner.toPacket, Header.moved outer.ipBytes z = y := by
      rw [hd.table.usedHeaders_eq]
      rcases List.mem_pair.mp hinner with rfl | rfl
      · exact ⟨_, List.mem_cons_self, rfl⟩
      · exact ⟨_, List.mem_cons_of_mem _ (List.mem_singleton_self _), rfl⟩
    rcases hd.verifiable.outer z hz htype with ⟨hptr, hinet⟩ | ⟨q, -, hle, -⟩
    · exact .inl ⟨hyx.ptr.trans (congrArg (offsetPtr outer.ipBytes) hptr), hinet⟩
    · rw [IPV4_BYTES] at hle
      omega

/-- For every packet of the three functions, alone or behind outer headers, and whatever was
written where it may be, `checksum_packet` makes every checksum of the packet verify and changes
no byte outside the two innermost checksum fields. -/
theorem checksumPacket_verifies {later : Packet} (hnew : IsNewPacket inner)
    (henclosing : Enclosing inner packet) (hwritten : WrittenTo packet.toPacket later) :
    ∃ checksummed, checksumPacket later = .ok checksummed ∧
      checksummed = { later with buffer := checksummed.buffer } ∧
      (∀ i, checksummed.buffer i ≠ later.buffer i → IsChecksumByte later i) ∧
      ChecksumsVerify checksummed := by
  obtain ⟨addressFamily, l4, len, total, n, hd⟩ := hnew.innerDatagram
  cases henclosing with
  | alone => exact hd.verifiable.checksummed hwritten
  | encapsulated houter hok =>
    obtain ⟨os, ho⟩ := (PlainChain.packetNew _ _).appendHeaders houter
    exact (hd.encapsulated ho hok).checksummed hwritten

/-- An IPv6 SYN behind IPv4, GRE and MPLS, of which the last option byte was written. -/
theorem checksumPacket_verifies_greMpls : ∃ (packet : FullPacket) (later checksummed : Packet),
    later.buffer ≠ packet.buffer ∧ WrittenTo packet.toPacket later ∧
      checksumPacket later = .ok checksummed ∧ ChecksumsVerify checksummed := by
  obtain ⟨outer, inner, packet, houter, hinner, hok, hsize, hbyte, hl4⟩ :
      ∃ outer inner packet,
        appendHeaders (pton "192.0.2.1") (packetNew (fun _ => 0) 256).full greMplsOuter =
          .ok (.ok outer) ∧
        newTcpPacket (fun _ => 0) synArgs = .ok (.ok inner) ∧
        packetEncapsulate (fun _ => 0) outer inner = .ok packet ∧ inner.ipBytes = 67 ∧
        packet.buffer 91 = 180 ∧ layer4At packet.toPacket = some 68 :=
    ⟨_, _, _, rfl, rfl, rfl, rfl, rfl, rfl⟩
  have hwritten : WrittenTo packet.toPacket
      { packet.toPacket with buffer := writeBytes packet.buffer 91 [7] } := by
    refine ⟨rfl, fun i hne => .inr (.inr ⟨68, hl4, ?_⟩)⟩
    by_contra hlt
    exact hne (writeBytes_outside (.inl (by omega)))
  obtain ⟨checksummed, hchecksum, -, -, hverify⟩ := checksumPacket_verifies
    ⟨.inl ⟨_, synArgs, hinner⟩, by omega⟩ (.encapsulated houter hok) hwritten
  refine ⟨packet, _, checksummed, fun heq => ?_, hwritten, hchecksum, hverify⟩
  have hseven : packet.buffer 91 = 7 := (congrFun heq 91).symm
  rw [hbyte] at hseven
  exact absurd hseven (by decide)

end Encapsulated

end QoSMos
