import QoSMos.Parser.Refinement

/-!
# Network headers and tunnels

The specifications of the parsers that call each other. `IpParsers.Good` is what the
others may assume of the two IP parsers: it speaks of the cursors behind which at most
`n - 1` more headers fit the table. The parser of an IP header calls the others only after
it has entered that header, so `parseIpv4` and `parseIpv6` over parsers that are good to
depth `n` are themselves good to depth `n + 1`.
-/

namespace QoSMos

open LabelledPath WeakestPre

variable {b : Memory} {e p k n len : Nat} {sym next : Symbol} {h : Header}
  {s s₁ s₂ s' : ParseState} {r : ParseResult} {ip : IpParsers}

/-- The IP parsers follow the grammar wherever the table has room for fewer than `n` more
headers. Except behind an IPIP payload, the first byte of an IPv4 header was captured. -/
structure IpParsers.Good (ip : IpParsers) (b : Memory) (e n : Nat) : Prop where
  ipv4 : ∀ {sym : Symbol} {p k : Nat} {s : ParseState}, Cursor b e p k s →
    PACKET_MAX_HEADERS < k + n → sym.Admits b p .ipv4 →
    p < e ∨ p = e ∧ (∃ len, sym = .payload IPPROTO_IPIP len) →
    wp (ip.parseIpv4 p e) (Parsed b e (sym, p) k s) s
  ipv6 : ∀ {sym : Symbol} {p k : Nat} {s : ParseState}, Cursor b e p k s →
    PACKET_MAX_HEADERS < k + n → sym.Admits b p .ipv6 →
    wp (ip.parseIpv6 p e) (Parsed b e (sym, p) k s) s

/-- The IPv4 parser is called after the version in the byte at the cursor was read. -/
theorem IpParsers.Good.ipv4_touched (hip : ip.Good b e n) (hn : PACKET_MAX_HEADERS < k + n)
    (hc : Cursor b e p k s) (hin : p + 1 ≤ e) (ha : sym.Admits b p .ipv4) :
    wp (ip.parseIpv4 p e) (Parsed b e (sym, p) k s) (s.touched p 1) :=
  wp_mono (hip.ipv4 hc.touched hn ha (.inl (by omega))) fun _ _ hp => hp.of_touched hin

/-- The IPv6 parser is called after the version in the byte at the cursor was read. -/
theorem IpParsers.Good.ipv6_touched (hip : ip.Good b e n) (hn : PACKET_MAX_HEADERS < k + n)
    (hc : Cursor b e p k s) (hin : p + 1 ≤ e) (ha : sym.Admits b p .ipv6) :
    wp (ip.parseIpv6 p e) (Parsed b e (sym, p) k s) (s.touched p 1) :=
  wp_mono (hip.ipv6 hc.touched hn ha) fun _ _ hp => hp.of_touched hin

theorem Symbol.Admits.ne_done {t : HeaderType} (ha : sym.Admits b p t) : sym ≠ .done := by
  rintro rfl
  cases t <;> exact ha

theorem Ipv4At.minimum_le (hi : Ipv4At b e p) : p + IPV4_BYTES ≤ e := by
  have := hi.minimum
  have := hi.header
  have := hi.available
  omega

/-! ## Network headers by their version -/

theorem parseLayer3Packet_spec (hip : ip.Good b e n) (hn : PACKET_MAX_HEADERS < k + n)
    (hc : Cursor b e p k s) :
    wp (parseLayer3Packet ip p e) (Parsed b e (.ip, p) k s) s := by
  have hbuf := hc.buffer
  have hsize : IPV4_BYTES = 20 ∧ IPV6_BYTES = 40 := ⟨rfl, rfl⟩
  have hversion : u8At b p / 16 = Ipv4.version b p := rfl
  simp only [parseLayer3Packet, wp_bind, wp_ite, wp_bad, wp_loadU8, hbuf, hversion]
  by_cases hshort : e < p + IPV4_BYTES
  · rw [if_pos hshort]
    refine .of_bad (fun h next hh => ?_) (by simp) hc.le (.inr (by simp)) (by simp) (by simp)
    obtain ⟨_, hi⟩ | ⟨_, hi⟩ := hh.ip_inv
    · have := hi.minimum_le
      omega
    · omega
  have hin : p + 1 ≤ e := by omega
  rw [if_neg hshort]
  split_ifs with h4 h6
  · exact hip.ipv4_touched hn hc hin h4
  · exact hip.ipv6_touched hn hc hin h6
  · refine .of_bad (fun h next hh => ?_) (by simp) hc.le (.inr (by simp))
      (by simp [readsInside_touched_of_le hin]) (by simp)
    obtain ⟨hv, _⟩ | ⟨hv, _⟩ := hh.ip_inv
    · exact h4 hv
    · exact h6 hv

/-! ## Label stacks -/

/-- What the loop over the label stack at `p` found: it stopped behind `k + 1` entries at
the bottom of the stack or at the end of the captured bytes, or was cut off. -/
structure LabelsRead (b : Memory) (e p m : Nat) (s : ParseState) (r : Option (Nat × Nat))
    (s' : ParseState) : Prop where
  packet : s'.packet = s.packet
  parsed : s'.parsed = s.parsed
  error : s'.error = s.error
  reads : ReadsInside e s' ↔ ReadsInside e s
  cutOff : r = none → ∀ k, ¬ LabelStackAt b e p k
  stopped : ∀ q m', r = some (q, m') → ∃ k, q = p + MPLS_BYTES * (k + 1) ∧
    m' = m + MPLS_BYTES * (k + 1) ∧ q ≤ e ∧
    (∀ i < k, Mpls.stack b (p + MPLS_BYTES * i) = false) ∧
    (Mpls.stack b (p + MPLS_BYTES * k) = true ∨ q = e)

theorem labelEntry_succ (i : Nat) :
    p + MPLS_BYTES * (i + 1) = p + MPLS_BYTES + MPLS_BYTES * i := by
  rw [Nat.mul_succ, Nat.add_comm (MPLS_BYTES * i), ← Nat.add_assoc]

theorem LabelStackAt.tail (hk : LabelStackAt b e p (k + 1)) :
    LabelStackAt b e (p + MPLS_BYTES) k where
  available := by rw [← labelEntry_succ]; exact hk.available
  above i hi := by rw [← labelEntry_succ]; exact hk.above (i + 1) (by omega)
  bottom := by rw [← labelEntry_succ]; exact hk.bottom

theorem mplsStack_spec (fuel m : Nat) (hpos : 0 < fuel) (hfuel : e < p + fuel)
    (hbuf : s.packet.buffer = b) : wp (mplsStack e fuel p m) (LabelsRead b e p m s) s := by
  have hsize : MPLS_BYTES = 4 := rfl
  induction fuel generalizing p m s with
  | zero => contradiction
  | succ fuel ih =>
    simp only [mplsStack, wp_bind, wp_ite, wp_pure, wp_touch, wp_get,
      ParseState.packet_touched, hbuf]
    split_ifs with hshort hnext
    · refine ⟨rfl, rfl, rfl, Iff.rfl, fun _ k hk => ?_, by simp⟩
      have := hk.available
      rw [labelEntry_succ] at this
      omega
    · obtain ⟨hnot, hroom⟩ := hnext
      have hin : p + 4 ≤ e := by omega
      have hfirst : Mpls.stack b p = false := by simpa using hnot
      refine wp_mono (ih (s := s.touched p 4) (m + MPLS_BYTES) (by omega) (by omega) hbuf)
        fun r s' hr => ⟨hr.packet, hr.parsed, hr.error,
          hr.reads.trans (readsInside_touched_of_le hin), fun hnone k hk => ?_,
          fun q m' hsome => ?_⟩
      · cases k with
        | zero => simpa [hfirst] using hk.bottom
        | succ k => exact hr.cutOff hnone k hk.tail
      · obtain ⟨k, rfl, rfl, hq, habove, hend⟩ := hr.stopped q m' hsome
        refine ⟨k + 1, (labelEntry_succ _).symm, (labelEntry_succ _).symm, hq, ?_, ?_⟩
        · rw [Nat.forall_lt_succ_left]
          refine ⟨hfirst, fun i hi => ?_⟩
          rw [labelEntry_succ]
          exact habove i hi
        · rwa [labelEntry_succ k]
    · have hin : p + 4 ≤ e := by omega
      refine ⟨rfl, rfl, rfl, readsInside_touched_of_le hin, by simp, ?_⟩
      rintro q m' ⟨⟩
      refine ⟨0, by simp, by simp, by omega, by simp, ?_⟩
      by_cases hbottom : Mpls.stack b p = true
      · exact .inl hbottom
      · have hlast : ¬ p + MPLS_BYTES < e := fun hlt => hnext ⟨hbottom, hlt⟩
        exact .inr (by omega)

theorem parseMpls_spec {etherType : Nat} (hip : ip.Good b e n)
    (hn : PACKET_MAX_HEADERS < k + 1 + n) (hc : Cursor b e p k s)
    (ht : etherType = ETHERTYPE_MPLS_UC ∨ etherType = ETHERTYPE_MPLS_MC) :
    wp (parseMpls ip p e) (Parsed b e (.proto etherType, p) k s) s := by
  have hsize : MPLS_BYTES = 4 ∧ IPV4_BYTES = 20 := ⟨rfl, rfl⟩
  have hbad {t : ParseState} (hno : ∀ k, ¬ LabelStackAt b e p k)
      (hreads : ReadsInside e t ↔ ReadsInside e s) (herror : t.error ≠ none) :
      Parsed b e (.proto etherType, p) k s .bad t := by
    refine .of_bad (fun h next hh => ?_) (by simp) hc.le (.inr (by simp)) hreads herror
    obtain ⟨rfl, _⟩ | ⟨rfl, _⟩ | ⟨_, k, hk⟩ := hh.proto_inv
    · simp [ETHERTYPE_IP, ETHERTYPE_MPLS_UC, ETHERTYPE_MPLS_MC] at ht
    · simp [ETHERTYPE_IPV6, ETHERTYPE_MPLS_UC, ETHERTYPE_MPLS_MC] at ht
    · exact hno k hk
  simp only [parseMpls, wp_bind]
  refine wp_mono (mplsStack_spec (e + 1) 0 (by omega) (by omega) hc.buffer) fun r s' hr => ?_
  have hc' : Cursor b e p k s' := hc.keep (h := ⟨.mpls, 0, 0, none⟩) hr.packet
  cases hres : r with
  | none =>
    simp only [wp_bad]
    exact hbad (hr.cutOff hres) (by simpa using hr.reads) (by simp)
  | some found =>
    obtain ⟨q, m⟩ := found
    obtain ⟨l, hq, hm, hle, habove, hend⟩ := hr.stopped q m hres
    rw [Nat.zero_add] at hm
    simp only [wp_bind, wp_assertThat, Int.toNat_sub]
    refine ⟨by omega, ?_⟩
    by_cases hbottom : Mpls.stack b (p + MPLS_BYTES * l) = true
    · have hh : HeaderAt b e (.proto etherType) p
          ⟨.mpls, MPLS_BYTES * (l + 1), e - p, some p⟩ .ip :=
        .mpls ht ⟨by omega, habove, hbottom⟩
      subst hq hm
      have hpe : p ≠ e := by rw [labelEntry_succ] at hle; omega
      refine wp_enter (h := ⟨.mpls, MPLS_BYTES * (l + 1), e - p, some p⟩) hc hh hpe hle hr.packet
        hr.parsed hr.error hr.reads fun u hlt hu => ?_
      simp only [wp_bind, wp_assertThat]
      refine ⟨hle, ?_⟩
      refine wp_mono (parseLayer3Packet_spec hip hn (hc.enter hlt (by simp) hu.packet))
        fun r t ht => ?_
      exact .of_header hh hpe hu ht (by simp [Packet.leave]) rfl rfl rfl
    · have hqe : q = e := hend.resolve_left hbottom
      have hno : ∀ k, ¬ LabelStackAt b e p k := by
        intro j hj
        rcases Nat.lt_trichotomy j l with hlt | rfl | hlt
        · simpa [habove j hlt] using hj.bottom
        · exact hbottom hj.bottom
        · have hbeyond := Nat.mul_le_mul_left MPLS_BYTES (show l + 1 ≤ j from hlt)
          have := hj.available
          rw [Nat.mul_succ] at this
          omega
      rw [hc'.wp_appendHeader _ (by omega)]
      split_ifs with hfull
      · simp only [wp_bad]
        exact hbad hno (by simpa using hr.reads) (by simp)
      · have hover : e < q + IPV4_BYTES := by omega
        simp only [wp_bind, wp_modifyPacket, wp_assertThat, parseLayer3Packet, if_pos hover, wp_bad]
        exact ⟨hle, hbad hno (by simpa using hr.reads) (by simp)⟩

/-! ## Tunnels by their protocol number -/

theorem parseLayer3PacketByProto_spec {etherType : Nat} (hip : ip.Good b e n)
    (hn : PACKET_MAX_HEADERS < k + n) (hc : Cursor b e p k s) :
    wp (parseLayer3PacketByProto ip etherType p e) (Parsed b e (.proto etherType, p) k s) s := by
  have hbuf := hc.buffer
  have hsize : IPV4_BYTES = 20 ∧ IPV6_BYTES = 40 := ⟨rfl, rfl⟩
  have hversion : u8At b p / 16 = Ipv4.version b p := rfl
  have hsame : Ipv6.version b p = Ipv4.version b p := rfl
  have hbad {t : ParseState} (hno : ∀ h next, ¬ HeaderAt b e (.proto etherType) p h next)
      (hreads : ReadsInside e t ↔ ReadsInside e s) (herror : t.error ≠ none) :
      Parsed b e (.proto etherType, p) k s .bad t :=
    .of_bad hno (by simp) hc.le (.inr (by simp)) hreads herror
  simp only [parseLayer3PacketByProto, wp_bind, wp_ite, wp_bad, wp_loadU8, wp_pure, hbuf,
    hversion]
  by_cases h4 : etherType = ETHERTYPE_IP
  · rw [if_pos h4]
    have hinv (h next) (hh : HeaderAt b e (.proto etherType) p h next) :
        Ipv4.version b p = 4 ∧ Ipv4At b e p := by
      simpa +decide [h4] using hh.proto_inv
    by_cases hshort : e < p + IPV4_BYTES
    · rw [if_pos hshort]
      refine hbad (fun h next hh => ?_) (by simp) (by simp)
      have := (hinv h next hh).2.minimum_le
      omega
    have hin : p + 1 ≤ e := by omega
    rw [if_neg hshort]
    split_ifs with hv
    · exact hip.ipv4_touched hn hc hin ⟨h4, hv⟩
    · exact hbad (fun h next hh => hv (hinv h next hh).1)
        (by simp [readsInside_touched_of_le hin]) (by simp)
  rw [if_neg h4]
  by_cases h6 : etherType = ETHERTYPE_IPV6
  · rw [if_pos h6]
    have hinv (h next) (hh : HeaderAt b e (.proto etherType) p h next) :
        Ipv6.version b p = 6 ∧ p + (IPV6_BYTES + Ipv6.payloadLen b p) ≤ e := by
      simpa +decide [h6] using hh.proto_inv
    by_cases hshort : e < p + IPV6_BYTES
    · rw [if_pos hshort]
      refine hbad (fun h next hh => ?_) (by simp) (by simp)
      have := (hinv h next hh).2
      omega
    have hin : p + 1 ≤ e := by omega
    rw [if_neg hshort]
    split_ifs with hv
    · exact hip.ipv6_touched hn hc hin ⟨h6, hv⟩
    · exact hbad (fun h next hh => hv (hinv h next hh).1)
        (by simp [readsInside_touched_of_le hin]) (by simp)
  rw [if_neg h6]
  split_ifs with hm
  · exact parseMpls_spec hip (by omega) hc hm
  · refine .of_stuck (fun h next hh => ?_) (by simp) hc.le (by simp) (by simp) (by simp) (by simp)
    obtain ⟨ht, _⟩ | ⟨ht, _⟩ | ⟨ht, _⟩ := hh.proto_inv
    · exact h4 ht
    · exact h6 ht
    · exact hm ht

theorem parseGre_spec (hip : ip.Good b e n) (hn : PACKET_MAX_HEADERS < k + 1 + n)
    (hc : Cursor b e p k s) (hlen : p + len ≤ e) :
    wp (parseGre ip p len e) (Parsed b e (.payload IPPROTO_GRE len, p) k s) s := by
  obtain rfl := hc.buffer
  have hsize : GRE_MINLEN = 4 := rfl
  have hmin := Gre.minlen_le_len s.packet.buffer p
  have hbad {t : ParseState} (hfit : ¬ (Gre.version s.packet.buffer p = 0 ∧
        Gre.hasRouting s.packet.buffer p = false ∧ Gre.len s.packet.buffer p ≤ len))
      (hreads : ReadsInside e t ↔ ReadsInside e s) (herror : t.error ≠ none) :
      Parsed s.packet.buffer e (.payload IPPROTO_GRE len, p) k s .bad t := by
    refine .of_bad (fun h next hh => hfit ?_) (by simp) hc.le (.inr ?_) hreads herror
    · simpa +decide using hh.payload_inv
    · simp +decide
  simp only [parseGre, greLen, wp_bind, wp_assertThat, wp_ite_iff, wp_bad, wp_touch, wp_get,
    wp_pure, ParseState.packet_touched]
  refine ⟨by omega, ?_⟩
  constructor
  · intro hshort
    apply hbad
    · omega
    · simp
    · simp
  intro hshort
  have hin : p + 2 ≤ e := by omega
  constructor
  · intro hversion
    apply hbad
    · intro hfit
      exact hversion hfit.1
    · simp [readsInside_touched_of_le hin]
    · simp
  intro hversion
  constructor
  · intro hrouting
    apply hbad
    · intro hfit
      simp [hfit.2.1] at hrouting
    · simp [readsInside_touched_of_le hin]
    · simp
  intro hrouting
  have hzero : Gre.version s.packet.buffer p = 0 := by omega
  have hdirect : Gre.hasRouting s.packet.buffer p = false := by simpa using hrouting
  refine ⟨hzero, hdirect, ?_, ?_⟩
  · intro hsmall
    omega
  intro _
  constructor
  · intro hbig
    apply hbad
    · omega
    · simp [readsInside_touched_of_le hin]
    · simp
  intro hbig
  refine ⟨by omega, ?_⟩
  have hh : HeaderAt s.packet.buffer e (.payload IPPROTO_GRE len) p
      ⟨.gre, Gre.len s.packet.buffer p, len, some p⟩ (.proto (Gre.proto s.packet.buffer p)) :=
    .gre hzero hdirect (by omega)
  have hcap : p + Gre.len s.packet.buffer p ≤ e := by omega
  refine wp_enter (h := ⟨.gre, Gre.len s.packet.buffer p, len, some p⟩) hc hh (by omega) hcap rfl
    rfl rfl (by simp [readsInside_touched_of_le hin]) fun u hlt hu => ?_
  have hcu := hc.enter hlt (by simp) hu.packet
  have hproto : p + 2 + 2 ≤ e := by omega
  refine (wp_bind _ _ _ _).mpr ((wp_assertThat _ _ _).mpr ⟨hcap, ?_⟩)
  simp only [wp_bind, wp_loadBe16, hcu.buffer]
  refine wp_mono (parseLayer3PacketByProto_spec hip hn hcu.touched) fun r t ht => ?_
  exact .of_header hh (by omega) (hu.touched hproto) ht (by simp [Packet.leave]) rfl rfl rfl

theorem parseLayer4_spec {protocol : Nat} (hip : ip.Good b e n)
    (hn : PACKET_MAX_HEADERS < k + n) (hc : Cursor b e p k s) (hlen : p + len ≤ e) :
    wp (parseLayer4 ip p protocol len e) (Parsed b e (.payload protocol len, p) k s) s := by
  have hn' : PACKET_MAX_HEADERS < k + 1 + n := by omega
  unfold parseLayer4
  split_ifs with htcp hudp hicmpv4 hicmpv6 hgre hipip hipv6
  · subst htcp
    exact parseTcp_spec hc hlen
  · subst hudp
    exact parseUdp_spec hc hlen
  · subst hicmpv4
    exact parseIcmpv4_spec hc hlen
  · subst hicmpv6
    exact parseIcmpv6_spec hc hlen
  · subst hgre
    exact parseGre_spec hip hn' hc hlen
  · subst hipip
    rcases Nat.lt_or_ge p e with hlt | hge
    · exact hip.ipv4 hc hn rfl (.inl hlt)
    · exact hip.ipv4 hc hn rfl (.inr ⟨by omega, len, rfl⟩)
  · subst hipv6
    exact hip.ipv6 hc hn rfl
  · simp only [wp_pure]
    refine .of_stuck (fun h next hh => ?_) (by simp) hc.le (by simp) (by simp [hipip]) (by simp)
      (by simp)
    simpa [htcp, hudp, hicmpv4, hicmpv6, hgre, hipip, hipv6] using hh.payload_inv

/-! ## IP headers -/

/-- Leaving an IP header, for either of the two pointers to a primary one. -/
theorem wp_leaveIp {before : Packet} {setPtr : Packet → Packet} {Q : Unit → ParseState → Prop}
    (hip : h.type = .ipv4 ∨ h.type = .ipv6)
    (hset : ∀ packet, setPtr packet = { packet with
      ipv4 := if h.type = .ipv4 then h.ptr else packet.ipv4
      ipv6 := if h.type = .ipv6 then h.ptr else packet.ipv6 })
    (hQ : ∀ t, t.packet = before.leave h s.packet → t.parsed = s.parsed →
      t.error = s.error → t.reads = s.reads → Q () t) :
    wp (leaveIp (before.ipBytes == 0) h.totalBytes setPtr) Q s := by
  simp only [leaveIp, wp_bind, wp_modifyPacket]
  refine hQ _ ?_ rfl rfl rfl
  by_cases hnone : s.packet.ipv4 = none ∧ s.packet.ipv6 = none
  · simp only [ParseState.packet_onPacket, Packet.leave, if_pos hip, Packet.noPrimary, hnone,
      hset]
    by_cases hzero : before.ipBytes = 0 <;> simp [hzero]
  · simp only [ParseState.packet_onPacket, Packet.leave, if_pos hip, Packet.noPrimary, hnone]
    by_cases hzero : before.ipBytes = 0 <;> simp [hzero]

theorem parseIpv4_spec (hip : ip.Good b e n) (hn : PACKET_MAX_HEADERS < k + 1 + n)
    (hc : Cursor b e p k s) (ha : sym.Admits b p .ipv4)
    (hstart : p < e ∨ p = e ∧ ∃ len, sym = .payload IPPROTO_IPIP len) :
    wp (parseIpv4 ip p e) (Parsed b e (sym, p) k s) s := by
  have hbuf := hc.buffer
  have hsize : IPV4_BYTES = 20 := rfl
  have hihl : u8At b p % 16 = Ipv4.ihl b p := rfl
  have htot : be16At b (p + 2) = Ipv4.totLen b p := rfl
  have hfrag : be16At b (p + 6) = Ipv4.fragOff b p := rfl
  simp only [parseIpv4, wp_bind, wp_assertThat, wp_ite_iff, wp_bad, wp_get, wp_loadU8,
    wp_loadBe16, wp_touch, ParseState.packet_touched, hbuf, hihl, htot, hfrag]
  refine ⟨Nat.zero_le _, ?_⟩
  rcases hstart with hlt | ⟨rfl, hsym⟩
  · have hbad {t : ParseState} (hno : ¬ Ipv4At b e p)
        (hreads : ReadsInside e t ↔ ReadsInside e s) (herror : t.error ≠ none) :
        Parsed b e (sym, p) k s .bad t :=
      .of_bad (fun h next hh => hno (hh.ipv4_inv ha)) ha.ne_done hc.le (.inl (by omega)) hreads
        herror
    have hin : p + 1 ≤ e := by omega
    constructor
    · intro hmin
      apply hbad
      · intro hi
        have := hi.minimum
        omega
      · simp [readsInside_touched_of_le hin]
      · simp
    intro hmin
    constructor
    · intro hover
      apply hbad
      · intro hi
        have := hi.header
        have := hi.available
        omega
      · simp [readsInside_touched_of_le hin]
      · simp
    intro hover
    have hin2 : p + 2 + 2 ≤ e := by omega
    have hin6 : p + 6 + 2 ≤ e := by omega
    have hin20 : p + Ipv4.ihl b p * 4 ≤ e := by omega
    constructor
    · intro hpayload
      apply hbad
      · intro hi
        have := hi.available
        omega
      · simp [readsInside_touched_of_le, hin, hin2]
      · simp
    intro hpayload
    constructor
    · intro hbigger
      apply hbad
      · intro hi
        have := hi.header
        omega
      · simp [readsInside_touched_of_le, hin, hin2]
      · simp
    intro hbigger
    constructor
    · intro hmore
      apply hbad
      · intro hi
        exact hmore hi.lastFragment
      · simp [readsInside_touched_of_le, hin, hin2, hin6]
      · simp
    intro hmore
    constructor
    · intro hoff
      apply hbad
      · intro hi
        exact hoff hi.firstFragment
      · simp [readsInside_touched_of_le, hin, hin2, hin6]
      · simp
    intro hoff
    have hsum : ipv4Checksum b p (Ipv4.ihl b p * 4) = 0 ↔
        ChecksumVerifies b p (Ipv4.ihl b p * 4) := by
      apply ipv4Checksum_eq_zero_iff
      unfold Ipv4.ihl
      omega
    constructor
    · intro hsum'
      apply hbad
      · intro hi
        exact hsum' (hsum.mpr hi.checksum)
      · simp [readsInside_touched_of_le, hin, hin2, hin6, hin20]
      · simp
    intro hsum'
    have hi : Ipv4At b e p := ⟨by omega, by omega, by omega, not_not.mp hmore, not_not.mp hoff,
      hsum.mp (not_not.mp hsum')⟩
    have hh : HeaderAt b e sym p ⟨.ipv4, Ipv4.ihl b p * 4, Ipv4.totLen b p, some p⟩
        (.payload (Ipv4.protocol b p) (Ipv4.totLen b p - Ipv4.ihl b p * 4)) := .ipv4 ha hi
    refine wp_enter (h := ⟨.ipv4, Ipv4.ihl b p * 4, Ipv4.totLen b p, some p⟩) hc hh (by omega)
      hin20 rfl rfl rfl (by simp [readsInside_touched_of_le, hin, hin2, hin6, hin20])
      fun u hlt hu => ?_
    have hcu := hc.enter hlt (by simp) hu.packet
    have hproto : p + 9 + 1 ≤ e := by omega
    have hlen : ((Ipv4.totLen b p : Nat) : Int) - (Ipv4.ihl b p * 4 : Nat) =
        (Ipv4.totLen b p - Ipv4.ihl b p * 4 : Nat) := by omega
    simp only [wp_bind, wp_assertThat, wp_loadU8, hcu.buffer, hlen]
    refine ⟨by rwa [hbuf], ?_⟩
    refine wp_mono (parseLayer4_spec hip hn hcu.touched (by omega)) fun r t ht => ?_
    refine wp_leaveIp (h := ⟨.ipv4, Ipv4.ihl b p * 4, Ipv4.totLen b p, some p⟩)
      (by simp) (by simp) fun t' hout hparsed herror hreads => ?_
    simp only [wp_pure]
    exact .of_header hh (by omega) (hu.touched hproto) ht hout hparsed herror hreads
  · have hstray (m : String) : Parsed b p (sym, p) k s .bad ((s.touched p 1).failed m) := by
      refine .of_stuck (fun h next hh => ?_) ha.ne_done hc.le (by simp) ?_ (by simp) (by simp)
      · have := (hh.ipv4_inv ha).minimum_le
        omega
      · simp [readsInside_touched, hsym]
    refine ⟨fun _ => hstray _, fun hmin => ⟨fun _ => hstray _, fun hfull => ?_⟩⟩
    omega

theorem parseIpv6_spec (hip : ip.Good b e n) (hn : PACKET_MAX_HEADERS < k + 1 + n)
    (hc : Cursor b e p k s) (ha : sym.Admits b p .ipv6) :
    wp (parseIpv6 ip p e) (Parsed b e (sym, p) k s) s := by
  have hbuf := hc.buffer
  have hsize : IPV6_BYTES = 40 := rfl
  have hfield : be16At b (p + 4) = Ipv6.payloadLen b p := rfl
  have hbad {t : ParseState} (hfit : ¬ p + (IPV6_BYTES + Ipv6.payloadLen b p) ≤ e)
      (hreads : ReadsInside e t ↔ ReadsInside e s) (herror : t.error ≠ none) :
      Parsed b e (sym, p) k s .bad t := by
    refine .of_bad (fun h next hh => hfit (hh.ipv6_inv ha)) ha.ne_done hc.le (.inr ?_) hreads
      herror
    rintro l rfl
    simp [Symbol.Admits, IPPROTO_IPIP, IPPROTO_IPV6] at ha
  simp only [parseIpv6, wp_bind, wp_assertThat, wp_ite_iff, wp_bad, wp_get, wp_loadBe16, hbuf,
    hfield]
  constructor
  · intro hshort
    apply hbad
    · omega
    · simp
    · simp
  intro hshort
  have hin : p + 4 + 2 ≤ e := by omega
  constructor
  · intro hover
    apply hbad
    · omega
    · simp [readsInside_touched_of_le hin]
    · simp
  intro hover
  refine ⟨by omega, ?_⟩
  have hh : HeaderAt b e sym p ⟨.ipv6, IPV6_BYTES, IPV6_BYTES + Ipv6.payloadLen b p, some p⟩
      (.payload (Ipv6.nextHeader b p) (Ipv6.payloadLen b p)) := .ipv6 ha (by omega)
  have hcap : p + IPV6_BYTES ≤ e := by omega
  refine wp_enter (h := ⟨.ipv6, IPV6_BYTES, IPV6_BYTES + Ipv6.payloadLen b p, some p⟩) hc hh
    (by omega) hcap rfl rfl rfl (by simp [readsInside_touched_of_le hin]) fun u hlt hu => ?_
  have hcu := hc.enter hlt (by simp) hu.packet
  have hnext : p + 6 + 1 ≤ e := by omega
  have hlen : ((IPV6_BYTES + Ipv6.payloadLen b p : Nat) : Int) - (IPV6_BYTES : Nat) =
      Ipv6.payloadLen b p := by omega
  simp only [wp_bind, wp_assertThat, wp_loadU8, hcu.buffer, hlen]
  refine ⟨hcap, wp_mono (parseLayer4_spec hip hn hcu.touched (by omega)) fun r t ht => ?_⟩
  refine wp_leaveIp (h := ⟨.ipv6, IPV6_BYTES, IPV6_BYTES + Ipv6.payloadLen b p, some p⟩)
    (by simp) (by simp) fun t' hout hparsed herror hreads => ?_
  simp only [wp_pure]
  exact .of_header hh (by omega) (hu.touched hnext) ht hout hparsed herror hreads

/-- `ipParsers n` is deep enough for `n` more headers. -/
theorem ipParsers_good (b : Memory) (e n : Nat) : (ipParsers n).Good b e n := by
  induction n with
  | zero =>
    constructor <;> intro sym p k s hc hn _
    · exact absurd hc.le (by omega)
    · exact absurd hc.le (by omega)
  | succ n ih =>
    constructor
    · exact fun hc hn ha hstart => parseIpv4_spec ih (by omega) hc ha hstart
    · exact fun hc hn ha => parseIpv6_spec ih (by omega) hc ha

end QoSMos
