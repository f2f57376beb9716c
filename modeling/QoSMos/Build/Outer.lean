import QoSMos.Build.Finish

/-!
# Chains of outer headers

A chain of outer headers is built by one `header_append` call after another. What the calls
leave is an `OuterBuilt` packet: its headers stand behind each other from the first byte on,
well formed but for the fields that are finished later.
-/

namespace QoSMos

open Returns

/-- A call of a `header_append` function. -/
inductive OuterHeader where
  | ipv4 (ipSrc ipDst : String) (tos ttl : UInt8)
  | ipv6 (ipSrc ipDst : String) (tos hopLimit : UInt8)
  | gre (gre : Vector UInt8 16)
  | mpls (mplsStack : MplsStack)

namespace OuterHeader

def type : OuterHeader → HeaderType
  | ipv4 .. => .ipv4
  | ipv6 .. => .ipv6
  | gre _ => .gre
  | mpls _ => .mpls

/-- The bytes that the header takes. -/
def bytes : OuterHeader → Nat
  | ipv4 .. => IPV4_BYTES
  | ipv6 .. => IPV6_BYTES
  | gre header => Gre.len (.ofList header.toList) 0
  | mpls mplsStack => MPLS_BYTES * mplsStack.entries.length

def append (inetPton : InetPton) (packet : FullPacket) : OuterHeader → Except Halt Appended
  | ipv4 ipSrc ipDst tos ttl => ipv4HeaderAppend inetPton packet ipSrc ipDst tos ttl
  | ipv6 ipSrc ipDst tos hopLimit => ipv6HeaderAppend inetPton packet ipSrc ipDst tos hopLimit
  | gre header => greHeaderAppend packet header
  | mpls mplsStack => mplsHeaderAppend packet mplsStack

end OuterHeader

/-- One call after the other, up to the first one that fails. -/
def appendHeaders (inetPton : InetPton) (packet : FullPacket) :
    List OuterHeader → Except Halt (Except String FullPacket)
  | [] => .ok (.ok packet)
  | h :: hs => do
    match ← h.append inetPton packet with
    | (some message, _) => return .error message
    | (none, packet) => appendHeaders inetPton packet hs

/-- `mpls_entry_stack` of an entry in host order. -/
def mplsEntryStack (entry : UInt32) : Bool :=
  (entry.toNat &&& MPLS_STACK_MASK) >>> MPLS_STACK_SHIFT != 0

/-- The last entry of the stack and no other is marked as the bottom. -/
def MplsStack.EndsAtBottom (mplsStack : MplsStack) : Prop :=
  ∃ above bottom, mplsStack.entries = above ++ [bottom] ∧ mplsEntryStack bottom = true ∧
    ∀ entry ∈ above, mplsEntryStack entry = false

/-- A chain of outer headers that a datagram can have. -/
structure LegalOuter (outer : List OuterHeader) : Prop where
  first : ∀ h ∈ outer.head?, h.type = .ipv4 ∨ h.type = .ipv6
  nested : outer.IsChain fun h g => h.type.carries g.type = true
  labels : ∀ mplsStack, .mpls mplsStack ∈ outer → mplsStack.EndsAtBottom

/-- The header `h` is well formed at `p`, wherever the packet will end. -/
structure StandsAlone (b : Memory) (p : Nat) (h : Header) : Prop where
  ptr : h.ptr = some p
  shape : ∀ e, p + h.headerBytes ≤ e → Shape b e p h
  version : VersionAt b p h.type

def StandAlone (b : Memory) : Nat → List Header → Prop
  | _, [] => True
  | p, h :: inner => StandsAlone b p h ∧ StandAlone b (p + h.headerBytes) inner

/-- The packet after the calls for `outer`. -/
structure OuterBuilt (packet : FullPacket) (outer : List OuterHeader) (hs : List Header) :
    Prop where
  table : Table packet.toPacket hs
  l2HeaderBytes : packet.l2HeaderBytes = 0
  ipBytes : packet.ipBytes = headerSum hs
  entries : List.Forall₂ (fun o h => h.type = o.type ∧ h.headerBytes = o.bytes) outer hs
  standing : StandAlone packet.buffer 0 hs

section Words

variable {b : Memory} {p i : Nat}

theorem be32At_writeBytes_be32 (x : UInt32) :
    be32At (writeBytes b p (be32 x.toNat)) p = x.toNat := by
  exact (be32At_writeBytes x.toNat).trans (Nat.mod_eq_of_lt x.toNat_lt)

/-- The words that were written one behind the other. -/
theorem be32At_writeBytes_flatMap {entries : List UInt32} (hi : i < entries.length) :
    be32At (writeBytes b p (entries.flatMap fun entry => be32 entry.toNat))
      (p + MPLS_BYTES * i) = entries[i].toNat := by
  induction entries generalizing b p i with
  | nil => cases hi
  | cons entry rest ih =>
    rw [List.flatMap_cons, ← writeBytes_append]
    cases i with
    | zero =>
      rw [Nat.mul_zero, Nat.add_zero, be32At_transfer (b := writeBytes b p (be32 entry.toNat)),
        be32At_writeBytes_be32]
      · rfl
      · intro k hk
        exact writeBytes_outside (by simp only [length_be32]; omega)
    | succ i =>
      have hshift : p + MPLS_BYTES * (i + 1) = p + (be32 entry.toNat).length + MPLS_BYTES * i := by
        simp only [MPLS_BYTES, length_be32]
        omega
      rw [hshift, ih (by simpa using hi)]
      rfl

end Words

/-! ## One call -/

section Headers

variable {b c : Memory} {p : Nat}

/-- Where the bytes of `set_ipv4_header` are found but for the addresses. -/
theorem standsAlone_ipv4 (b : Memory) (ipBytes : UInt16) (tos ttl protocol : UInt8)
    (hbytes : ∀ k < 12, c (p + k) = setIpv4Header b p ipBytes tos ttl protocol (p + k)) :
    StandsAlone c p ⟨.ipv4, IPV4_BYTES, 0, some p⟩ := by
  generalize hset : setIpv4Header b p ipBytes tos ttl protocol = d at hbytes
  have hholds : HoldsExcept d p (ipv4Header ipBytes tos ttl protocol) 10 := fun k hk _ _ => by
    rw [← hset]
    exact writeBytes_inside hk
  have hipv4 := ipv4Set_of_holds hholds
  have hshape : Shape d (p + IPV4_BYTES) p ⟨.ipv4, IPV4_BYTES, 0, some p⟩ :=
    ⟨by rw [hipv4.ihl]; rfl, le_rfl, by rw [hipv4.fragOff]; rfl, by rw [hipv4.fragOff]; rfl⟩
  refine ⟨rfl, fun e he => hshape.transfer (fun k _ hk => hbytes k ?_) he rfl rfl, ?_⟩
  · simp only [HeaderType.Structural] at hk
    omega
  · have h0 : c p = d p := hbytes 0 (by omega)
    show u8At c p / 16 = 4
    rw [u8At_transfer h0]
    exact hipv4.version

/-- Where the first byte of `set_ipv6_header` is found. -/
theorem standsAlone_ipv6 (b : Memory) (ipBytes : UInt16) (tos : UInt8) (flowLabel : UInt32)
    (ttl protocol : UInt8)
    (hbyte : c p = writeBytes b p (ipv6Header ipBytes tos flowLabel ttl protocol) p) :
    StandsAlone c p ⟨.ipv6, IPV6_BYTES, 0, some p⟩ := by
  have hholds : HoldsExcept (writeBytes b p (ipv6Header ipBytes tos flowLabel ttl protocol)) p
      (ipv6Header ipBytes tos flowLabel ttl protocol) 40 := fun k hk _ _ => writeBytes_inside hk
  refine ⟨rfl, fun _ _ => rfl, ?_⟩
  show u8At c p / 16 = 6
  rw [u8At_transfer hbyte]
  exact (ipv6Set_of_holds hholds (by omega)).version

/-- Where the bytes of a `struct gre` were copied. -/
theorem standsAlone_gre {gre : Memory} (hversion : Gre.version gre 0 = 0)
    (hrouting : Gre.hasRouting gre 0 = false)
    (hbytes : ∀ k < Gre.len gre 0, c (p + k) = gre k) :
    StandsAlone c p ⟨.gre, Gre.len gre 0, 0, some p⟩ := by
  have hshape : Shape gre (Gre.len gre 0) 0 ⟨.gre, Gre.len gre 0, 0, some 0⟩ :=
    ⟨hversion, hrouting, rfl⟩
  refine ⟨rfl, fun e he => hshape.transfer (fun k hk _ => ?_) he rfl rfl, trivial⟩
  rw [Nat.zero_add]
  exact hbytes k hk

/-- Where the entries of a stack were copied. -/
theorem standsAlone_mpls {mplsStack : MplsStack} (hbottom : mplsStack.EndsAtBottom) :
    StandsAlone (writeBytes b p mplsStack.bytes) p
      ⟨.mpls, MPLS_BYTES * mplsStack.entries.length, 0, some p⟩ := by
  obtain ⟨above, bottom, hentries, hlast, habove⟩ := hbottom
  have hlen : mplsStack.entries.length = above.length + 1 := by
    rw [hentries, List.length_append, List.length_singleton]
  have hstack (i : Nat) (hi : i < mplsStack.entries.length) :
      Mpls.stack (writeBytes b p mplsStack.bytes) (p + MPLS_BYTES * i) =
        mplsEntryStack mplsStack.entries[i] := by
    rw [Mpls.stack, MplsStack.bytes, be32At_writeBytes_flatMap hi]
    rfl
  refine ⟨rfl, fun e he => ⟨above.length, by rw [hlen], ?_, fun i hi => ?_, ?_⟩, trivial⟩
  · rw [← hlen]
    exact he
  · rw [hstack i (by omega)]
    simp only [hentries, List.getElem_append_left hi]
    exact habove _ (List.getElem_mem hi)
  · rw [hstack above.length (by omega)]
    simpa [hentries] using hlast

end Headers

/-- A call that adds a header of `n` bytes at the end. -/
structure AppendStep (packet packet' : FullPacket) (t : HeaderType) (n : Nat) : Prop where
  room : packetHeaderCount packet.toPacket < PACKET_MAX_HEADERS
  pushed : packet'.toPacket =
    { packet.toPacket.push ⟨t, n, 0, some packet.ipBytes⟩ with buffer := packet'.buffer }
  frame : ∀ i < packet.ipBytes, packet'.buffer i = packet.buffer i
  stands : StandsAlone packet'.buffer packet.ipBytes ⟨t, n, 0, some packet.ipBytes⟩

section Calls

variable {packet packet' : FullPacket} {hs : List Header} {function : String} {t : HeaderType}
  {n p : Nat} {inetPton : InetPton}

theorem appendHeaderPtr_eq_ok
    (hok : appendHeaderPtr function packet t n = .ok (some (p, packet')))
    (ht : Table packet.toPacket hs) (hl2 : packet.l2HeaderBytes = 0) :
    p = packet.ipBytes ∧ hs.length < PACKET_MAX_HEADERS ∧
      packet' = { packet with
        toPacket := packet.toPacket.push ⟨t, n, 0, some packet.ipBytes⟩ } := by
  have hle := ht.le
  unfold appendHeaderPtr packetAppendHeader at hok
  rw [ht.count] at hok
  by_cases hfull : hs.length = PACKET_MAX_HEADERS
  · simp [hfull] at hok
  by_cases hroom : packet.bufferBytes < packet.ipBytes + n
  · simp [hle, hfull, hroom] at hok
  · have hget (h : Header) : (packet.headers.setIfInBounds hs.length h).toList.getD hs.length
        Header.unused = h := by
      rw [ht.setEntry (by omega)]
      simp
    simp only [hle, hfull, hroom, not_true, if_false, hget, hl2, Nat.zero_add, Header.data] at hok
    obtain ⟨ptr, hptr, hok⟩ := bind_eq_ok_iff.mp hok
    obtain rfl := Except.ok.inj hptr
    obtain ⟨rfl, rfl⟩ := Prod.mk.inj (Option.some.inj (pure_eq_ok_iff.mp hok))
    refine ⟨rfl, by omega, ?_⟩
    simp only [Packet.push, ht.count, hl2]

theorem ipv4HeaderAppend_step {ipSrc ipDst : String} {tos ttl : UInt8}
    (hok : ipv4HeaderAppend inetPton packet ipSrc ipDst tos ttl = .ok (none, packet'))
    (ht : Table packet.toPacket hs) (hl2 : packet.l2HeaderBytes = 0) :
    AppendStep packet packet' .ipv4 IPV4_BYTES := by
  unfold ipv4HeaderAppend at hok
  obtain ⟨result, happend, hok⟩ := bind_eq_ok_iff.mp hok
  obtain _ | ⟨p, pushed⟩ := result
  · cases hok
  obtain ⟨rfl, hlt, rfl⟩ := appendHeaderPtr_eq_ok happend ht hl2
  dsimp only at hok
  cases hsrc : inetPton.inet ipSrc with
  | none =>
    rw [hsrc] at hok
    cases hok
  | some src =>
    rw [hsrc] at hok
    dsimp only at hok
    cases hdst : inetPton.inet ipDst with
    | none =>
      rw [hdst] at hok
      cases hok
    | some dst =>
      rw [hdst] at hok
      obtain ⟨-, rfl⟩ := Prod.mk.inj (pure_eq_ok_iff.mp hok)
      have hsrcLen : src.toList.length = 4 := src.length_toList
      have hdstLen : dst.toList.length = 4 := dst.length_toList
      refine ⟨ht.count ▸ hlt, rfl, fun i hi => ?_,
        standsAlone_ipv4 packet.buffer 0 tos ttl 0 fun k hk => ?_⟩
      · dsimp only
        rw [writeBytes_below hi, writeBytes_below hi]
        exact writeBytes_outside (.inl hi)
      · dsimp only
        rw [writeBytes_outside (by omega), writeBytes_outside (by omega)]
        rfl

theorem ipv6HeaderAppend_step {ipSrc ipDst : String} {tos hopLimit : UInt8}
    (hok : ipv6HeaderAppend inetPton packet ipSrc ipDst tos hopLimit = .ok (none, packet'))
    (ht : Table packet.toPacket hs) (hl2 : packet.l2HeaderBytes = 0) :
    AppendStep packet packet' .ipv6 IPV6_BYTES := by
  unfold ipv6HeaderAppend at hok
  obtain ⟨result, happend, hok⟩ := bind_eq_ok_iff.mp hok
  obtain _ | ⟨p, pushed⟩ := result
  · cases hok
  obtain ⟨rfl, hlt, rfl⟩ := appendHeaderPtr_eq_ok happend ht hl2
  obtain ⟨buffer, hset, hok⟩ := bind_eq_ok_iff.mp hok
  obtain ⟨_, -, hset⟩ := bind_eq_ok_iff.mp hset
  obtain rfl := pure_eq_ok_iff.mp hset
  cases hsrc : inetPton.inet6 ipSrc with
  | none =>
    rw [hsrc] at hok
    cases hok
  | some src =>
    rw [hsrc] at hok
    dsimp only at hok
    cases hdst : inetPton.inet6 ipDst with
    | none =>
      rw [hdst] at hok
      cases hok
    | some dst =>
      rw [hdst] at hok
      obtain ⟨-, rfl⟩ := Prod.mk.inj (pure_eq_ok_iff.mp hok)
      refine ⟨ht.count ▸ hlt, rfl, fun i hi => ?_,
        standsAlone_ipv6 packet.buffer (UInt16.ofNat IPV6_BYTES) tos 0 hopLimit 0 ?_⟩
      · dsimp only
        rw [writeBytes_below hi, writeBytes_below hi]
        exact writeBytes_outside (.inl hi)
      · dsimp only
        rw [writeBytes_outside (by omega), writeBytes_outside (by omega)]
        rfl

theorem greHeaderAppend_step {gre : Vector UInt8 16}
    (hok : greHeaderAppend packet gre = .ok (none, packet'))
    (ht : Table packet.toPacket hs) (hl2 : packet.l2HeaderBytes = 0) :
    AppendStep packet packet' .gre (Gre.len (.ofList gre.toList) 0) := by
  unfold greHeaderAppend at hok
  obtain ⟨len, hlen, hok⟩ := bind_eq_ok_iff.mp hok
  obtain ⟨_, hversion, hlen⟩ := bind_eq_ok_iff.mp hlen
  obtain ⟨_, hrouting, hlen⟩ := bind_eq_ok_iff.mp hlen
  obtain rfl := pure_eq_ok_iff.mp hlen
  have hversion := require_eq_ok_iff.mp hversion
  have hrouting := require_eq_ok_iff.mp hrouting
  obtain ⟨result, happend, hok⟩ := bind_eq_ok_iff.mp hok
  obtain _ | ⟨p, pushed⟩ := result
  · cases hok
  obtain ⟨rfl, hlt, rfl⟩ := appendHeaderPtr_eq_ok happend ht hl2
  obtain ⟨-, rfl⟩ := Prod.mk.inj (pure_eq_ok_iff.mp hok)
  have hsize : gre.toList.length = 16 := gre.length_toList
  have hle : Gre.len (.ofList gre.toList) 0 ≤ 16 := by
    simp only [Gre.len, GRE_MINLEN]
    split_ifs <;> omega
  refine ⟨ht.count ▸ hlt, rfl, fun i hi => writeBytes_outside (.inl hi),
    standsAlone_gre hversion hrouting fun k hk => ?_⟩
  dsimp only
  rw [writeBytes_inside (by rw [List.length_take]; omega), List.getD_eq_getElem?_getD,
    List.getElem?_take_of_lt hk, ← List.getD_eq_getElem?_getD]
  rfl

theorem mplsHeaderAppend_step {mplsStack : MplsStack} (hbottom : mplsStack.EndsAtBottom)
    (hok : mplsHeaderAppend packet mplsStack = .ok (none, packet'))
    (ht : Table packet.toPacket hs) (hl2 : packet.l2HeaderBytes = 0) :
    AppendStep packet packet' .mpls (MPLS_BYTES * mplsStack.entries.length) := by
  unfold mplsHeaderAppend at hok
  rw [Nat.mul_comm] at hok
  obtain ⟨result, happend, hok⟩ := bind_eq_ok_iff.mp hok
  obtain _ | ⟨p, pushed⟩ := result
  · cases hok
  obtain ⟨rfl, hlt, rfl⟩ := appendHeaderPtr_eq_ok happend ht hl2
  obtain ⟨-, rfl⟩ := Prod.mk.inj (pure_eq_ok_iff.mp hok)
  exact ⟨ht.count ▸ hlt, rfl, fun i hi => writeBytes_outside (.inl hi), standsAlone_mpls hbottom⟩

theorem OuterHeader.append_step {h : OuterHeader}
    (hlabels : ∀ mplsStack, h = .mpls mplsStack → mplsStack.EndsAtBottom)
    (hok : h.append inetPton packet = .ok (none, packet'))
    (ht : Table packet.toPacket hs) (hl2 : packet.l2HeaderBytes = 0) :
    AppendStep packet packet' h.type h.bytes := by
  cases h with
  | ipv4 ipSrc ipDst tos ttl => exact ipv4HeaderAppend_step hok ht hl2
  | ipv6 ipSrc ipDst tos hopLimit => exact ipv6HeaderAppend_step hok ht hl2
  | gre header => exact greHeaderAppend_step hok ht hl2
  | mpls mplsStack => exact mplsHeaderAppend_step (hlabels _ rfl) hok ht hl2

end Calls

/-! ## All calls -/

section Chain

variable {b b' : Memory} {p : Nat} {h : Header} {hs gs : List Header} {inetPton : InetPton}
  {packet packet' : FullPacket} {outer done : List OuterHeader}

@[simp] theorem headerSum_nil : headerSum [] = 0 := rfl

@[simp] theorem headerSum_cons : headerSum (h :: hs) = h.headerBytes + headerSum hs := by
  simp [headerSum]

@[simp] theorem headerSum_append : headerSum (hs ++ gs) = headerSum hs + headerSum gs := by
  simp [headerSum]

theorem StandsAlone.congr (hstands : StandsAlone b p h)
    (hbytes : ∀ k < h.headerBytes, b' (p + k) = b (p + k)) : StandsAlone b' p h :=
  ⟨hstands.ptr,
    fun e he => (hstands.shape e he).transfer (fun k hk _ => hbytes k hk) he rfl rfl,
    (hstands.shape _ le_rfl).versionAt (fun k hk _ => hbytes k hk) hstands.version⟩

theorem StandAlone.congr (hstand : StandAlone b p hs)
    (hbytes : ∀ i, p ≤ i → i < p + headerSum hs → b' i = b i) : StandAlone b' p hs := by
  induction hs generalizing p with
  | nil => exact trivial
  | cons h inner ih =>
    rw [headerSum_cons] at hbytes
    refine ⟨hstand.1.congr fun k hk => hbytes _ (by omega) (by omega), ih hstand.2 ?_⟩
    intro i hi hlt
    exact hbytes i (by omega) (by omega)

theorem standAlone_append : StandAlone b p (hs ++ gs) ↔
    StandAlone b p hs ∧ StandAlone b (p + headerSum hs) gs := by
  induction hs generalizing p with
  | nil => simp [StandAlone]
  | cons h inner ih =>
    rw [List.cons_append, StandAlone, StandAlone, ih, headerSum_cons, and_assoc, Nat.add_assoc]

/-- Each header comes from one of the calls. -/
theorem OuterBuilt.exists_call (hb : OuterBuilt packet outer hs) (hh : h ∈ hs) :
    ∃ o : OuterHeader, h.type = o.type ∧ h.headerBytes = o.bytes := by
  obtain ⟨-, -, -, hentries, -⟩ := hb
  induction hentries with
  | nil => cases hh
  | cons hentry _ ih =>
    rcases List.mem_cons.mp hh with rfl | hh
    · exact ⟨_, hentry⟩
    · exact ih hh

theorem OuterBuilt.packetNew (heap : Memory) (n : Nat) : OuterBuilt (packetNew heap n).full [] [] :=
  ⟨Table.packetNew heap n, rfl, rfl, .nil, trivial⟩

/-- A call adds its header to those of the calls before. -/
theorem OuterBuilt.append {o : OuterHeader} (hb : OuterBuilt packet done hs)
    (hlabels : ∀ mplsStack, o = .mpls mplsStack → mplsStack.EndsAtBottom)
    (hok : o.append inetPton packet = .ok (none, packet')) :
    OuterBuilt packet' (done ++ [o]) (hs ++ [⟨o.type, o.bytes, 0, some packet.ipBytes⟩]) := by
  have hstep := OuterHeader.append_step hlabels hok hb.table hb.l2HeaderBytes
  have hroom := hstep.room
  rw [hb.table.count] at hroom
  have hused : o.type ≠ .none := by cases o <;> simp [OuterHeader.type]
  have hpush := hb.table.push (h := ⟨o.type, o.bytes, 0, some packet.ipBytes⟩) hroom hused
  have hsum := hb.ipBytes
  refine ⟨?_, ?_, ?_, ?_, standAlone_append.mpr ⟨?_, ?_⟩⟩
  · rw [hstep.pushed]
    exact ⟨hpush.le, hpush.entries, hpush.used⟩
  · rw [hstep.pushed]
    exact hb.l2HeaderBytes
  · rw [hstep.pushed, headerSum_append, ← hsum]
    rfl
  · exact List.rel_append hb.entries (.cons ⟨rfl, rfl⟩ .nil)
  · exact hb.standing.congr fun i _ hi => hstep.frame i (by omega)
  · rw [Nat.zero_add, ← hsum]
    exact ⟨hstep.stands, trivial⟩

theorem OuterBuilt.appendHeaders (hb : OuterBuilt packet done hs)
    (hlabels : ∀ mplsStack, .mpls mplsStack ∈ outer → mplsStack.EndsAtBottom)
    (hok : appendHeaders inetPton packet outer = .ok (.ok packet')) :
    ∃ gs, OuterBuilt packet' (done ++ outer) (hs ++ gs) := by
  induction outer generalizing packet done hs with
  | nil =>
    obtain rfl := Except.ok.inj (Except.ok.inj hok)
    exact ⟨[], by simpa using hb⟩
  | cons o rest ih =>
    rw [QoSMos.appendHeaders] at hok
    obtain ⟨⟨status, next⟩, hcall, hok⟩ := bind_eq_ok_iff.mp hok
    cases status with
    | some message => cases hok
    | none =>
      have hnext := hb.append (fun mplsStack heq => hlabels _ (heq ▸ List.mem_cons_self)) hcall
      obtain ⟨gs, hgs⟩ := ih hnext (fun mplsStack hm => hlabels _ (List.mem_cons_of_mem _ hm)) hok
      exact ⟨_ :: gs, by simpa using hgs⟩

/-- What the calls for a chain leave of a new packet. -/
theorem appendHeaders_built {heap : Memory} {n : Nat}
    (hlabels : ∀ mplsStack, .mpls mplsStack ∈ outer → mplsStack.EndsAtBottom)
    (hok : appendHeaders inetPton (packetNew heap n).full outer = .ok (.ok packet)) :
    ∃ hs, OuterBuilt packet outer hs := by
  obtain ⟨hs, hb⟩ := (OuterBuilt.packetNew heap n).appendHeaders hlabels hok
  exact ⟨hs, hb⟩

end Chain

end QoSMos
