import QoSMos.Build.Finish

/-!
# Moved packets

What the grammar makes of the captured bytes does not depend on where they stand in the buffer:
a derivation holds of the bytes behind any headroom, with the headers moved. The bytes behind
the captured ones do not matter either, since no header is derived from them.
-/

namespace QoSMos

open LabelledPath

/-- The bytes from `p` up to `e` in `b` are those from `q` up to `e'` in `m`. -/
structure SameBytes (b m : Memory) (e e' p q : Nat) : Prop where
  length : p + e' = q + e
  bytes : ∀ k, p + k < e → m (q + k) = b (p + k)

def Expected.moved (d : Nat) (x : Expected) : Expected := (x.1, d + x.2)

/-- The packet `moved` was made of bytes that stand `d` places further. -/
structure MovedPacket (d : Nat) (packet moved : Packet) : Prop where
  ipBytes : moved.ipBytes = packet.ipBytes
  headers : moved.headers = packet.headers.map (Header.moved d)
  ipv4 : moved.ipv4 = offsetPtr d packet.ipv4
  ipv6 : moved.ipv6 = offsetPtr d packet.ipv6
  tcp : moved.tcp = offsetPtr d packet.tcp
  udp : moved.udp = offsetPtr d packet.udp
  icmpv4 : moved.icmpv4 = offsetPtr d packet.icmpv4
  icmpv6 : moved.icmpv6 = offsetPtr d packet.icmpv6

/-! ## The grammar -/

section Grammar

variable {b m : Memory} {d e e' p q n : Nat} {sym next : Symbol} {h : Header} {hs gs : List Header}
  {x y : Expected}

theorem SameBytes.symm (hm : SameBytes b m e e' p q) : SameBytes m b e' e q p := by
  have hlength := hm.length
  exact ⟨hlength.symm, fun k hk => (hm.bytes k (by omega)).symm⟩

/-- The bytes are also the same further on. -/
theorem SameBytes.add (hm : SameBytes b m e e' p q) (n : Nat) :
    SameBytes b m e e' (p + n) (q + n) := by
  have hlength := hm.length
  refine ⟨by omega, fun k hk => ?_⟩
  rw [Nat.add_assoc, Nat.add_assoc]
  exact hm.bytes (n + k) (by omega)

theorem SameBytes.u8At (hm : SameBytes b m e e' p q) (k : Nat) (hk : p + k < e) :
    u8At m (q + k) = u8At b (p + k) :=
  u8At_transfer (hm.bytes k hk)

theorem SameBytes.be16At (hm : SameBytes b m e e' p q) (k : Nat) (hk : p + k + 1 < e) :
    be16At m (q + k) = be16At b (p + k) :=
  be16At_transfer (hm.bytes k (by omega)) (hm.bytes (k + 1) (by omega))

theorem SameBytes.ihl (hm : SameBytes b m e e' p q) (hp : p < e) :
    Ipv4.ihl m q = Ipv4.ihl b p := by
  have h0 : QoSMos.u8At m q = QoSMos.u8At b p := hm.u8At 0 hp
  rw [Ipv4.ihl, Ipv4.ihl, h0]

theorem Symbol.Admits.transfer {t : HeaderType} (ha : sym.Admits b p t)
    (hm : SameBytes b m e e' p q) (hp : p < e) : sym.Admits m q t := by
  have h0 : u8At m q = u8At b p := hm.u8At 0 hp
  have h4 : Ipv4.version m q = Ipv4.version b p := by rw [Ipv4.version, Ipv4.version, h0]
  have h6 : Ipv6.version m q = Ipv6.version b p := h4
  cases sym <;> cases t <;> simp_all [Symbol.Admits]

theorem Ipv4At.transfer (hi : Ipv4At b e p) (hm : SameBytes b m e e' p q) : Ipv4At m e' q := by
  have hlength := hm.length
  have hmin := hi.minimum
  have hheader := hi.header
  have havailable := hi.available
  simp only [IPV4_BYTES] at hmin
  have hihl := hm.ihl (by omega)
  have htot : Ipv4.totLen m q = Ipv4.totLen b p := hm.be16At 2 (by omega)
  have hfrag : Ipv4.fragOff m q = Ipv4.fragOff b p := hm.be16At 6 (by omega)
  refine ⟨?_, ?_, ?_, ?_, ?_, ?_⟩
  · rw [hihl]
    exact hi.minimum
  · rw [hihl, htot]
    exact hheader
  · rw [htot]
    omega
  · rw [hfrag]
    exact hi.lastFragment
  · rw [hfrag]
    exact hi.firstFragment
  · rw [hihl]
    exact (ChecksumVerifies.congr fun i hi => hm.bytes i (by omega)).mpr hi.checksum

theorem LabelStackAt.transfer {k : Nat} (hk : LabelStackAt b e p k)
    (hm : SameBytes b m e e' p q) : LabelStackAt m e' q k := by
  have hlength := hm.length
  have havailable := hk.available
  simp only [MPLS_BYTES] at havailable
  have hentry (i : Nat) (hi : i ≤ k) :
      Mpls.stack m (q + MPLS_BYTES * i) = Mpls.stack b (p + MPLS_BYTES * i) := by
    rw [Mpls.stack, Mpls.stack, be32At_transfer (b := b) (p := p + MPLS_BYTES * i)]
    intro j hj
    simp only [MPLS_BYTES, Nat.add_assoc]
    exact hm.bytes _ (by omega)
  refine ⟨?_, fun i hi => ?_, ?_⟩
  · simp only [MPLS_BYTES]
    omega
  · rw [hentry i (by omega)]
    exact hk.above i hi
  · rw [hentry k le_rfl]
    exact hk.bottom

/-- A header that was captured also stands where its bytes are found. -/
theorem HeaderAt.transfer (hh : HeaderAt b e sym p h next) (hfit : Expected.Fits e (sym, p))
    (hm : SameBytes b m e e' p q) : HeaderAt m e' sym q { h with ptr := some q } next := by
  have hlength := hm.length
  cases hh with
  | ipv4 ha hi =>
    have hmin := hi.minimum
    have hheader := hi.header
    have havailable := hi.available
    simp only [IPV4_BYTES] at hmin
    have hihl := hm.ihl (by omega)
    have htot : Ipv4.totLen m q = Ipv4.totLen b p := hm.be16At 2 (by omega)
    have hproto : Ipv4.protocol m q = Ipv4.protocol b p := hm.u8At 9 (by omega)
    rw [← hihl, ← htot, ← hproto]
    exact .ipv4 (ha.transfer hm (by omega)) (hi.transfer hm)
  | ipv6 ha hi =>
    simp only [IPV6_BYTES] at hi
    have hlen : Ipv6.payloadLen m q = Ipv6.payloadLen b p := hm.be16At 4 (by omega)
    have hnext : Ipv6.nextHeader m q = Ipv6.nextHeader b p := hm.u8At 6 (by omega)
    rw [← hlen, ← hnext]
    refine .ipv6 (ha.transfer hm (by omega)) ?_
    rw [hlen, IPV6_BYTES]
    omega
  | mpls ha hk =>
    have havailable := hk.available
    simp only [MPLS_BYTES] at havailable
    have htotal : e' - q = e - p := by omega
    have hh := HeaderAt.mpls (ha.transfer hm (by omega)) (hk.transfer hm)
    rwa [htotal] at hh
  | gre hversion hrouting hle =>
    have hend := hfit _ _ rfl
    have hmin := Gre.minlen_le_len b p
    simp only [GRE_MINLEN] at hmin
    have h0 : u8At m q = u8At b p := hm.u8At 0 (by omega)
    have h1 : u8At m (q + 1) = u8At b (p + 1) := hm.u8At 1 (by omega)
    have hlen : Gre.len m q = Gre.len b p := by
      simp only [Gre.len, Gre.hasChecksum, Gre.hasRouting, Gre.hasKey, Gre.hasSeq, h0]
      rfl
    have hproto : Gre.proto m q = Gre.proto b p := hm.be16At 2 (by omega)
    rw [← hlen, ← hproto]
    refine .gre ?_ ?_ (by rwa [hlen])
    · rwa [Gre.version, h1]
    · rwa [Gre.hasRouting, h0]
  | tcp hmin hle =>
    have hend := hfit _ _ rfl
    simp only [TCP_BYTES] at hmin
    have h12 : u8At m (q + 12) = u8At b (p + 12) := hm.u8At 12 (by omega)
    have hdoff : Tcp.doff m q = Tcp.doff b p := by rw [Tcp.doff, Tcp.doff, h12]
    rw [← hdoff]
    exact .tcp (by rwa [hdoff]) (by rwa [hdoff])
  | udp hmin hlen =>
    have hend := hfit _ _ rfl
    simp only [UDP_BYTES] at hmin
    have hudp : Udp.len m q = Udp.len b p := hm.be16At 4 (by omega)
    exact .udp hmin (by rwa [hudp])
  | icmpv4 hmin => exact .icmpv4 hmin
  | icmpv6 hmin => exact .icmpv6 hmin

theorem Next.moved (hn : Next b e x h y) (hx : x.Fits e)
    (hm : SameBytes b m e (d + e) x.2 (d + x.2)) :
    Next m (d + e) (x.moved d) (h.moved d) (y.moved d) := by
  have hh := hn.1.transfer hx hm
  have hmoved : ({ h with ptr := some (d + x.2) } : Header) = h.moved d := by
    rw [Header.moved, hn.1.ptr]
    rfl
  rw [hmoved] at hh
  refine ⟨hh, ?_⟩
  show d + y.2 = d + x.2 + h.headerBytes
  rw [hn.2, Nat.add_assoc]

/-- A header behind the headroom is one that was moved there. -/
theorem Next.unmoved {g : Header} {z : Expected} (hn : Next m (d + e) (x.moved d) g z)
    (hx : x.Fits e) (hm : SameBytes b m e (d + e) x.2 (d + x.2)) :
    ∃ h y, Next b e x h y ∧ g = h.moved d ∧ z = y.moved d := by
  have hfit : Expected.Fits (d + e) (x.moved d) := fun protocol len hsym => by
    have := hx protocol len hsym
    show d + x.2 + len ≤ d + e
    omega
  have hh := hn.1.transfer hfit hm.symm
  refine ⟨_, (z.1, x.2 + g.headerBytes), ⟨hh, rfl⟩, ?_, ?_⟩
  · have hptr : g.ptr = some (d + x.2) := hn.1.ptr
    obtain ⟨type, headerBytes, total, ptr⟩ := g
    cases hptr
    rfl
  · refine Prod.ext rfl ?_
    rw [hn.2]
    exact Nat.add_assoc _ _ _

theorem Derives.moved (hd : Derives b e x hs) (hx : x.Fits e)
    (hm : SameBytes b m e (d + e) x.2 (d + x.2)) :
    Derives m (d + e) (x.moved d) (hs.map (Header.moved d)) := by
  obtain ⟨r, hp⟩ := hd
  refine ⟨d + r, ?_⟩
  show Path (Next m (d + e)) (x.moved d) (hs.map (Header.moved d)) (Expected.moved d (.done, r))
  generalize ((Symbol.done, r) : Expected) = y at hp
  induction hp with
  | nil => exact .nil _
  | cons hn _ ih =>
    refine .cons (hn.moved hx hm) (ih (hn.fits hx) ?_)
    rw [hn.2, ← Nat.add_assoc]
    exact hm.add _

/-- The headers behind the headroom are those that were moved there. -/
theorem Derives.unmoved (hd : Derives m (d + e) (x.moved d) gs) (hx : x.Fits e)
    (hm : SameBytes b m e (d + e) x.2 (d + x.2)) :
    ∃ hs, Derives b e x hs ∧ gs = hs.map (Header.moved d) := by
  induction gs generalizing x with
  | nil =>
    obtain ⟨r, hp⟩ := hd
    have hdone : x.1 = .done := (congrArg Prod.fst (Path.nil_iff.mp hp)).symm
    refine ⟨[], ⟨x.2, ?_⟩, rfl⟩
    rw [← hdone]
    exact .nil x
  | cons g gs ih =>
    obtain ⟨r, hp⟩ := hd
    obtain ⟨z, hn, hrest⟩ := Path.cons_iff.mp hp
    obtain ⟨h, y, hn', rfl, rfl⟩ := hn.unmoved hx hm
    have hsame : SameBytes b m e (d + e) y.2 (d + y.2) := by
      rw [hn'.2, ← Nat.add_assoc]
      exact hm.add _
    obtain ⟨hs, ⟨t, ht⟩, rfl⟩ := ih ⟨r, hrest⟩ (hn'.fits hx) hsame
    exact ⟨h :: hs, ⟨t, .cons hn' ht⟩, rfl⟩

end Grammar

/-! ## The packet -/

section Packets

variable {packet moved before movedBefore : Packet} {d : Nat} {h : Header} {hs : List Header}

@[simp] theorem type_moved (d : Nat) (h : Header) : (h.moved d).type = h.type := rfl
@[simp] theorem headerBytes_moved (d : Nat) (h : Header) :
    (h.moved d).headerBytes = h.headerBytes := rfl
@[simp] theorem totalBytes_moved (d : Nat) (h : Header) :
    (h.moved d).totalBytes = h.totalBytes := rfl
@[simp] theorem ptr_moved (d : Nat) (h : Header) : (h.moved d).ptr = offsetPtr d h.ptr := rfl

theorem MovedPacket.count (hm : MovedPacket d packet moved) :
    packetHeaderCount moved = packetHeaderCount packet := by
  unfold packetHeaderCount
  rw [hm.headers, Vector.toList_map, List.findIdx_map]
  rfl

theorem offsetPtr_eq_none {p : Option Nat} : offsetPtr d p = none ↔ p = none := by
  cases p <;> simp [offsetPtr]

theorem MovedPacket.noPrimary (hm : MovedPacket d packet moved) :
    moved.noPrimary ↔ packet.noPrimary := by
  unfold Packet.noPrimary
  rw [hm.ipv4, hm.ipv6, offsetPtr_eq_none, offsetPtr_eq_none]

theorem ite_offsetPtr {c c' : Prop} [Decidable c] [Decidable c'] {p p' q q' : Option Nat}
    (hc : c' ↔ c) (hp : p' = offsetPtr d p) (hq : q' = offsetPtr d q) :
    (if c' then p' else q') = offsetPtr d (if c then p else q) := by
  by_cases h : c
  · rw [if_pos h, if_pos (hc.mpr h), hp]
  · rw [if_neg h, if_neg (mt hc.mp h), hq]

theorem MovedPacket.enter (hm : MovedPacket d packet moved) :
    MovedPacket d (packet.enter h) (moved.enter (h.moved d)) := by
  have hcount : packetHeaderCount (moved.keep (h.moved d)) =
      packetHeaderCount (packet.keep h) := hm.count
  refine ⟨?_, ?_, hm.ipv4, hm.ipv6, ite_offsetPtr Iff.rfl rfl hm.tcp,
    ite_offsetPtr Iff.rfl rfl hm.udp, ite_offsetPtr Iff.rfl rfl hm.icmpv4,
    ite_offsetPtr Iff.rfl rfl hm.icmpv6⟩
  · exact congrArg (· + h.headerBytes) hm.ipBytes
  · show moved.headers.setIfInBounds _ _ = (packet.headers.setIfInBounds _ _).map _
    rw [hcount, hm.headers, Vector.map_setIfInBounds]

theorem MovedPacket.leave (hbefore : MovedPacket d before movedBefore)
    (hm : MovedPacket d packet moved) :
    MovedPacket d (before.leave h packet) (movedBefore.leave (h.moved d) moved) := by
  unfold Packet.leave
  by_cases hor : h.type = .ipv4 ∨ h.type = .ipv6
  · rw [if_pos hor, if_pos (show (h.moved d).type = .ipv4 ∨ (h.moved d).type = .ipv6 from hor)]
    refine ⟨?_, hm.headers, ite_offsetPtr ?_ rfl hm.ipv4, ite_offsetPtr ?_ rfl hm.ipv6, hm.tcp,
      hm.udp, hm.icmpv4, hm.icmpv6⟩
    · simp only [hbefore.ipBytes, hm.ipBytes, totalBytes_moved]
    · rw [type_moved, hm.noPrimary]
    · rw [type_moved, hm.noPrimary]
  · rw [if_neg hor, if_neg (show ¬ ((h.moved d).type = .ipv4 ∨ (h.moved d).type = .ipv6) from hor)]
    exact hm

theorem MovedPacket.afterHeaders (hm : MovedPacket d packet moved) :
    MovedPacket d (packet.afterHeaders hs) (moved.afterHeaders (hs.map (Header.moved d))) := by
  induction hs generalizing packet moved with
  | nil => exact hm
  | cons h hs ih => exact hm.leave (ih hm.enter)

/-- Nothing was parsed yet. -/
theorem MovedPacket.start (b m : Memory) (n k : Nat) (layer layer' : PacketLayer) :
    MovedPacket d (startPacket b n layer) (startPacket m k layer') := by
  refine ⟨rfl, ?_, rfl, rfl, rfl, rfl, rfl, rfl⟩
  show Vector.replicate _ _ = (Vector.replicate _ _).map _
  rw [Vector.map_replicate]
  rfl

end Packets

end QoSMos
