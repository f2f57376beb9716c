import QoSMos.Build.WireLaw

/-!
# The layout of encapsulated packets

For any chain of outer headers, legal on the wire or not, and any packet behind it,
`packet_encapsulate` puts the headers of both behind each other in a buffer of its own, with
every pointer of the inner packet moved by the bytes of the outer one. What it returns can be
encapsulated again.
-/

namespace QoSMos

open Returns

/-- A header whose finish function counts its bytes and those of what it carries. -/
structure Header.Encloses (h : Header) : Prop where
  kind : h.type = .ipv4 ∨ h.type = .ipv6 ∨ h.type = .gre ∨ h.type = .mpls
  ipv4 : h.type = .ipv4 → h.headerBytes = IPV4_BYTES
  ipv6 : h.type = .ipv6 → h.headerBytes = IPV6_BYTES

/-- The headers `hs` that were appended to a new packet. -/
structure ChainBuilt (packet : FullPacket) (hs : List Header) : Prop where
  table : Table packet.toPacket hs
  l2HeaderBytes : packet.l2HeaderBytes = 0
  ipBytes : packet.ipBytes = headerSum hs
  chained : Chained packet.buffer 0 hs
  encloses : ∀ h ∈ hs, h.Encloses

/-- A packet that can be encapsulated: its headers stand behind each other from the start of
its buffer on, and the last one is a transport header. -/
structure Enclosable (packet : FullPacket) (init : List Header) (last : Header) : Prop where
  table : Table packet.toPacket (init ++ [last])
  chained : Chained packet.buffer 0 (init ++ [last])
  encloses : ∀ h ∈ init, h.Encloses
  transport : last.type.isTransport = true
  inside : headerSum (init ++ [last]) ≤ packet.ipBytes

/-- The memory in which the bytes from `base` on are now those of `b`. -/
def storeBuffer (memory : Memory) (base : Nat) (b : Memory) : Memory := fun a =>
  if a < base then memory a else b (a - base)

/-- The packet is laid out as `outer` and `inner` are, one behind the other. -/
structure EncapsulationLayout (heap : Memory) (outer inner packet : FullPacket) : Prop where
  /-- The entries are those of both packets but for the total lengths. -/
  entries : List.Forall₂ SameEntry (usedHeaders outer.toPacket ++
    (usedHeaders inner.toPacket).map (Header.moved outer.ipBytes)) (usedHeaders packet.toPacket)
  contiguous : (usedHeaders packet.toPacket).IsChain fun h g =>
    ∃ p, h.ptr = some p ∧ g.ptr = some (p + h.headerBytes)
  pointers : packet.pointers = inner.pointers.map (offsetPtr outer.ipBytes)
  nested : (usedHeaders packet.toPacket).IsChain fun h g =>
    h.totalBytes = h.headerBytes + g.totalBytes
  innermost : (usedHeaders packet.toPacket).getLast?.map Header.totalBytes =
    (usedHeaders inner.toPacket).getLast?.map Header.totalBytes
  /-- The transport header and its payload. -/
  layer4 : ∀ init last, usedHeaders inner.toPacket = init ++ [last] →
    ∀ i, headerSum init ≤ i → i < inner.ipBytes →
      packet.buffer (outer.ipBytes + i) = inner.buffer i
  ipBytes : packet.ipBytes = outer.ipBytes + inner.ipBytes
  /-- Where the new buffer is at `base`, nothing outside of it is written. -/
  unchanged : ∀ memory base, (∀ i, memory (base + i) = heap i) →
    ∀ a, a < base ∨ base + packet.bufferBytes ≤ a →
      storeBuffer memory base packet.buffer a = memory a

/-! ## Chains of headers -/

section Chains

variable {b b' : Memory} {p d : Nat} {h g last : Header} {hs gs init : List Header}

theorem Chained.congr (hc : Chained b p hs)
    (hbytes : ∀ i, p ≤ i → i < p + headerSum hs → b' i = b i) : Chained b' p hs := by
  induction hs generalizing p with
  | nil => exact trivial
  | cons h inner ih =>
    rw [headerSum_cons] at hbytes
    refine ⟨hc.1.transfer (fun k hk _ => hbytes _ ?_ ?_) hc.1.ptr rfl rfl, ih hc.2 ?_⟩
    · omega
    · omega
    · intro i hi hlt
      exact hbytes i (by omega) (by omega)

theorem chained_append : Chained b p (hs ++ gs) ↔
    Chained b p hs ∧ Chained b (p + headerSum hs) gs := by
  induction hs generalizing p with
  | nil => simp [Chained]
  | cons h inner ih => simp [Chained, ih, and_assoc, Nat.add_assoc]

/-- Headers also form a chain where they were moved to. -/
theorem Chained.moved (hc : Chained b p hs)
    (hbytes : ∀ i, p ≤ i → i < p + headerSum hs → b' (d + i) = b i) :
    Chained b' (d + p) (hs.map (Header.moved d)) := by
  induction hs generalizing p with
  | nil => exact trivial
  | cons h inner ih =>
    rw [headerSum_cons] at hbytes
    have htail := ih hc.2 fun i hi hlt => hbytes i (by omega) (by omega)
    rw [← Nat.add_assoc] at htail
    refine ⟨hc.1.transfer (fun k hk _ => ?_) ?_ rfl rfl, htail⟩
    · rw [Nat.add_assoc]
      exact hbytes _ (by omega) (by omega)
    · rw [Header.moved, hc.1.ptr]
      rfl

theorem Chained.isChain (hc : Chained b p hs) :
    hs.IsChain fun h g => ∃ q, h.ptr = some q ∧ g.ptr = some (q + h.headerBytes) := by
  induction hs generalizing p with
  | nil => exact .nil
  | cons h inner ih =>
    cases inner with
    | nil => exact .singleton _
    | cons g rest => exact .cons_cons ⟨p, hc.1.ptr, hc.2.1.ptr⟩ (ih hc.2)

/-- Finishing the headers of a chain leaves them one. -/
theorem Chained.finished (hc : Chained b p hs) (hk : Kept b b' p hs) :
    Chained b' p (finishedHeaders hs) := by
  induction hs generalizing p with
  | nil => exact trivial
  | cons h inner ih =>
    exact ⟨hc.1.transfer (fun k hlt hs => hk.1 k hlt hs.not_rewritten) hc.1.ptr rfl rfl,
      ih hc.2 hk.2⟩

@[simp] theorem headerSum_moved : headerSum (hs.map (Header.moved d)) = headerSum hs := by
  simp [headerSum, Function.comp_def, Header.moved]

@[simp] theorem headerSum_finishedHeaders : headerSum (finishedHeaders hs) = headerSum hs := by
  induction hs with
  | nil => rfl
  | cons h inner ih => simp [finishedHeaders_cons, ih]

theorem Header.Encloses.of_same (he : h.Encloses) (hsame : SameEntry h g) : g.Encloses := by
  obtain ⟨htype, hbytes, -⟩ := hsame
  refine ⟨?_, ?_, ?_⟩
  · rw [htype]
    exact he.kind
  · rw [htype, hbytes]
    exact he.ipv4
  · rw [htype, hbytes]
    exact he.ipv6

theorem Header.Encloses.finishedTotal (he : h.Encloses) (g : Header) :
    h.finishedTotal (some g) = h.headerBytes + g.totalBytes := by
  obtain ⟨hkind, h4, h6⟩ := he
  unfold Header.finishedTotal
  rcases hkind with ht | ht | ht | ht <;> simp only [ht, Option.map_some, Option.getD_some]
  · rw [h4 ht]
  · rw [h6 ht]

theorem finishedTotal_of_isTransport (ht : h.type.isTransport = true) (next : Option Header) :
    h.finishedTotal next = h.totalBytes := by
  unfold Header.finishedTotal
  cases htype : h.type <;> simp_all [HeaderType.isTransport]

/-- The entries after the loop, of which the last one is as it was. -/
theorem finishedHeaders_snoc (ht : last.type.isTransport = true) :
    ∃ init', finishedHeaders (init ++ [last]) = init' ++ [last] ∧
      ∀ h ∈ init', ∃ g ∈ init, SameEntry g h := by
  induction init with
  | nil => exact ⟨[], by simp [finishedHeaders, finishedTotal_of_isTransport ht, Header.withTotal],
      by simp⟩
  | cons h init ih =>
    obtain ⟨init', heq, hsame⟩ := ih
    rw [List.cons_append, finishedHeaders_cons, heq]
    refine ⟨_ :: init', rfl, fun x hx => ?_⟩
    rcases List.mem_cons.mp hx with rfl | hx
    · exact ⟨h, List.mem_cons_self, rfl, rfl, rfl⟩
    · obtain ⟨g, hg, hgx⟩ := hsame x hx
      exact ⟨g, List.mem_cons_of_mem _ hg, hgx⟩

/-- Each header counts its own bytes and what the next one counts. -/
theorem isChain_finishedHeaders (he : ∀ h ∈ init, h.Encloses) :
    (finishedHeaders (init ++ [last])).IsChain fun h g =>
      h.totalBytes = h.headerBytes + g.totalBytes := by
  induction init with
  | nil => exact .singleton _
  | cons h init ih =>
    have hrest := ih fun g hg => he g (List.mem_cons_of_mem _ hg)
    obtain ⟨g, rest, hg⟩ : ∃ g rest, finishedHeaders (init ++ [last]) = g :: rest := by
      cases init <;> exact ⟨_, _, rfl⟩
    rw [List.cons_append, finishedHeaders_cons]
    rw [hg] at hrest ⊢
    exact .cons_cons ((he h (by simp)).finishedTotal g) hrest

end Chains

/-! ## The outer packet -/

section Outer

variable {packet packet' : FullPacket} {hs : List Header} {inetPton : InetPton}

/-- A call that adds a header at the end, whatever the header holds. -/
structure AppendFrame (packet packet' : FullPacket) (h : Header) : Prop where
  room : packetHeaderCount packet.toPacket < PACKET_MAX_HEADERS
  pushed : packet'.toPacket = { packet.toPacket.push h with buffer := packet'.buffer }
  frame : ∀ i < packet.ipBytes, packet'.buffer i = packet.buffer i
  finishable : Finishable packet'.buffer packet.ipBytes h
  encloses : h.Encloses

theorem StandsAlone.finishable {b : Memory} {p : Nat} {h : Header} (hstands : StandsAlone b p h) :
    Finishable b p h := by
  obtain ⟨hptr, hshape, -⟩ := hstands
  have hshape := hshape _ le_rfl
  unfold Shape at hshape
  refine ⟨hptr, fun ht => ?_, fun ht => ?_, fun ht => ?_⟩
  · rw [ht] at hshape
    exact ⟨hshape.2.1, hshape.1.symm ▸ hshape.2.1⟩
  · rwa [ht] at hshape
  · rw [ht] at hshape
    exact hshape.2.2

theorem AppendStep.appendFrame {t : HeaderType} {n : Nat} (hstep : AppendStep packet packet' t n)
    (he : (⟨t, n, 0, some packet.ipBytes⟩ : Header).Encloses) :
    AppendFrame packet packet' ⟨t, n, 0, some packet.ipBytes⟩ :=
  ⟨hstep.room, hstep.pushed, hstep.frame, hstep.stands.finishable, he⟩

theorem mplsHeaderAppend_frame {mplsStack : MplsStack}
    (hok : mplsHeaderAppend packet mplsStack = .ok (none, packet'))
    (ht : Table packet.toPacket hs) (hl2 : packet.l2HeaderBytes = 0) :
    AppendFrame packet packet'
      ⟨.mpls, MPLS_BYTES * mplsStack.entries.length, 0, some packet.ipBytes⟩ := by
  unfold mplsHeaderAppend at hok
  rw [Nat.mul_comm] at hok
  obtain ⟨result, happend, hok⟩ := bind_eq_ok_iff.mp hok
  obtain _ | ⟨p, pushed⟩ := result
  · cases hok
  obtain ⟨rfl, hlt, rfl⟩ := appendHeaderPtr_eq_ok happend ht hl2
  obtain ⟨-, rfl⟩ := Prod.mk.inj (pure_eq_ok_iff.mp hok)
  exact ⟨ht.count ▸ hlt, rfl, fun i hi => writeBytes_outside (.inl hi),
    ⟨rfl, by simp, by simp, by simp⟩, ⟨by simp, by simp, by simp⟩⟩

theorem OuterHeader.append_frame {o : OuterHeader}
    (hok : o.append inetPton packet = .ok (none, packet'))
    (ht : Table packet.toPacket hs) (hl2 : packet.l2HeaderBytes = 0) :
    AppendFrame packet packet' ⟨o.type, o.bytes, 0, some packet.ipBytes⟩ := by
  cases o with
  | ipv4 ipSrc ipDst tos ttl =>
    exact (ipv4HeaderAppend_step hok ht hl2).appendFrame ⟨.inl rfl, fun _ => rfl, by simp⟩
  | ipv6 ipSrc ipDst tos hopLimit =>
    exact (ipv6HeaderAppend_step hok ht hl2).appendFrame ⟨.inr (.inl rfl), by simp, fun _ => rfl⟩
  | gre header =>
    exact (greHeaderAppend_step hok ht hl2).appendFrame ⟨by simp, by simp, by simp⟩
  | mpls mplsStack => exact mplsHeaderAppend_frame hok ht hl2

/-- A call adds its header to those of the calls before. -/
theorem ChainBuilt.append {h : Header} (hc : ChainBuilt packet hs)
    (hframe : AppendFrame packet packet' h) : ChainBuilt packet' (hs ++ [h]) := by
  obtain ⟨hroom, hpushed, hbytes, hfin, he⟩ := hframe
  rw [hc.table.count] at hroom
  have hused : h.type ≠ .none := by rcases he.kind with ht | ht | ht | ht <;> simp [ht]
  have hpush := hc.table.push hroom hused
  have hsum := hc.ipBytes
  refine ⟨?_, ?_, ?_, chained_append.mpr ⟨?_, ?_⟩, ?_⟩
  · rw [hpushed]
    exact ⟨hpush.le, hpush.entries, hpush.used⟩
  · rw [hpushed]
    exact hc.l2HeaderBytes
  · rw [hpushed, headerSum_append, ← hsum]
    simp [Packet.push]
  · exact hc.chained.congr fun i _ hi => hbytes i (by omega)
  · rw [Nat.zero_add, ← hsum]
    exact ⟨hfin, trivial⟩
  · intro g hg
    rcases List.mem_append.mp hg with hg | hg
    · exact hc.encloses g hg
    · rwa [List.mem_singleton.mp hg]

theorem ChainBuilt.appendHeaders {outer : List OuterHeader} (hc : ChainBuilt packet hs)
    (hok : appendHeaders inetPton packet outer = .ok (.ok packet')) :
    ∃ gs, ChainBuilt packet' gs := by
  induction outer generalizing packet hs with
  | nil =>
    obtain rfl := Except.ok.inj (Except.ok.inj hok)
    exact ⟨hs, hc⟩
  | cons o rest ih =>
    rw [QoSMos.appendHeaders] at hok
    obtain ⟨⟨status, next⟩, hcall, hok⟩ := bind_eq_ok_iff.mp hok
    cases status with
    | some message => cases hok
    | none => exact ih (hc.append (o.append_frame hcall hc.table hc.l2HeaderBytes)) hok

theorem ChainBuilt.packetNew (heap : Memory) (n : Nat) : ChainBuilt (packetNew heap n).full [] :=
  ⟨Table.packetNew heap n, rfl, rfl, trivial, by simp⟩

end Outer

/-! ## Encapsulation -/

section Layout

variable {heap : Memory} {outer inner packet : FullPacket} {os init : List Header}
  {last : Header}

theorem IsBuilt.enclosable (hbuilt : IsBuilt inner) :
    ∃ init last, Enclosable inner init last := by
  obtain ⟨g, h, hi⟩ := hbuilt.innerBuilt
  refine ⟨[g], h, hi.table, hi.stacked.chained, ?_, ?_, ?_⟩
  · intro x hx
    rw [List.mem_singleton.mp hx]
    have h6 : g.type = .ipv6 → g.headerBytes = IPV6_BYTES :=
      hi.stacked.1.finishable.ipv6
    rcases hi.ip with ⟨h4, hsize, -⟩ | ⟨ht, -⟩
    · exact ⟨.inl h4, fun _ => hsize, h6⟩
    · exact ⟨.inr (.inl ht), by simp [ht], h6⟩
  · rcases hi.transport with ht | ht <;> rw [ht] <;> rfl
  · have := hi.stacked.headerSum_le
    simpa using this

theorem Enclosable.packetStart (hi : Enclosable inner init last) :
    packetStart inner.toPacket = .ok 0 := by
  have hchained := hi.chained
  rw [QoSMos.packetStart, hi.table.entries]
  cases init with
  | nil => simp [hchained.1.ptr]
  | cons h rest => simp [hchained.1.ptr]

/-- What is finished is a chain of the headers of both packets. -/
theorem chained_joined (ho : ChainBuilt outer os) (hi : Enclosable inner init last) :
    Chained (joinedBytes heap outer inner) 0
      (os ++ (init ++ [last]).map (Header.moved outer.ipBytes)) := by
  have hsum := ho.ipBytes
  have hinside := hi.inside
  refine chained_append.mpr ⟨?_, ?_⟩
  · exact ho.chained.congr fun i _ hlt => joinedBytes_outer (by omega)
  · rw [Nat.zero_add, ← hsum]
    exact hi.chained.moved fun i _ hlt => joinedBytes_inner (by omega)

/-- The headers of the result in front of the innermost one. -/
def outerHeaders (os init : List Header) (d : Nat) : List Header :=
  os ++ init.map (Header.moved d)

theorem encloses_outerHeaders (ho : ChainBuilt outer os) (hi : Enclosable inner init last) :
    ∀ h ∈ outerHeaders os init outer.ipBytes, h.Encloses := by
  intro h hh
  rcases List.mem_append.mp hh with hh | hh
  · exact ho.encloses h hh
  · obtain ⟨g, hg, rfl⟩ := List.mem_map.mp hh
    exact ⟨(hi.encloses g hg).kind, (hi.encloses g hg).ipv4, (hi.encloses g hg).ipv6⟩

/-- The table and the bytes of the result. -/
theorem packetEncapsulate_chained (ho : ChainBuilt outer os) (hi : Enclosable inner init last)
    (hok : packetEncapsulate heap outer inner = .ok packet) :
    Table packet.toPacket (finishedHeaders
        (outerHeaders os init outer.ipBytes ++ [last.moved outer.ipBytes])) ∧
      FinishedAs (joinedBytes heap outer inner) packet.buffer 0
        (outerHeaders os init outer.ipBytes ++ [last.moved outer.ipBytes]) ∧
      packet.pointers = inner.pointers.map (offsetPtr outer.ipBytes) ∧
      packet.bufferBytes = outer.ipBytes + inner.ipBytes ∧
      packet.ipBytes = outer.ipBytes + inner.ipBytes := by
  obtain ⟨before, finished, hjoined, hfinish, rfl⟩ :=
    packetEncapsulate_joined ho.table hi.table hi.packetStart hok
  have hchained := @chained_joined heap _ _ _ _ _ ho hi
  rw [← hjoined.buffer] at hchained
  obtain ⟨htable, hbytes, hrest⟩ :=
    packetFinishEncapsulationHeaders_spec hjoined.table hchained hfinish
  rw [hjoined.buffer] at hbytes
  have hlist : os ++ (init ++ [last]).map (Header.moved outer.ipBytes) =
      outerHeaders os init outer.ipBytes ++ [last.moved outer.ipBytes] := by
    simp [outerHeaders]
  rw [hlist] at htable hbytes
  have hpointers := hjoined.pointers
  have hbuffer := hjoined.bufferBytes
  rw [hrest]
  exact ⟨⟨htable.le, htable.entries, htable.used⟩, hbytes, hpointers, hbuffer, rfl⟩

theorem Enclosable.layout (ho : ChainBuilt outer os) (hi : Enclosable inner init last)
    (hok : packetEncapsulate heap outer inner = .ok packet) :
    EncapsulationLayout heap outer inner packet := by
  obtain ⟨htable, hfinished, hpointers, hbuffer, hipBytes⟩ := packetEncapsulate_chained ho hi hok
  have hchained := @chained_joined heap _ _ _ _ _ ho hi
  have hlist : os ++ (init ++ [last]).map (Header.moved outer.ipBytes) =
      outerHeaders os init outer.ipBytes ++ [last.moved outer.ipBytes] := by
    simp [outerHeaders]
  rw [hlist] at hchained
  have hsum := ho.ipBytes
  have hinside := hi.inside
  have htransport : (last.moved outer.ipBytes).type.isTransport = true := hi.transport
  have hkept := hfinished.kept.of_append
  rw [Nat.zero_add] at hkept
  have houterSum : headerSum (outerHeaders os init outer.ipBytes) =
      outer.ipBytes + headerSum init := by
    simp [outerHeaders, hsum]
  rw [houterSum] at hkept
  -- No byte behind the headers in front of the transport header is written.
  have hbehind (i : Nat) (hle : outer.ipBytes + headerSum init ≤ i) :
      packet.buffer i = joinedBytes heap outer inner i := by
    by_cases hlt : i < outer.ipBytes + headerSum init + last.headerBytes
    · have hk := hkept.1 (i - (outer.ipBytes + headerSum init))
        (by show _ < last.headerBytes; omega) (by
          have ht := hi.transport
          simp only [Header.moved]
          cases htype : last.type <;> simp_all [HeaderType.isTransport, HeaderType.Rewritten])
      rwa [Nat.add_sub_cancel' hle] at hk
    · exact hkept.2 i (by show _ + last.headerBytes ≤ i; omega)
  obtain ⟨init', hsnoc, -⟩ := @finishedHeaders_snoc _
    (outerHeaders os init outer.ipBytes) htransport
  refine ⟨?_, ?_, hpointers, ?_, ?_, ?_, hipBytes, ?_⟩
  · rw [ho.table.usedHeaders_eq, hi.table.usedHeaders_eq, htable.usedHeaders_eq, hlist]
    exact sameEntry_finishedHeaders
  · rw [htable.usedHeaders_eq]
    exact (hchained.finished hfinished.kept).isChain
  · rw [htable.usedHeaders_eq]
    exact isChain_finishedHeaders (encloses_outerHeaders ho hi)
  · rw [htable.usedHeaders_eq, hi.table.usedHeaders_eq, hsnoc]
    simp [Header.moved]
  · intro front back hused i hle hlt
    rw [hi.table.usedHeaders_eq] at hused
    obtain ⟨rfl, -⟩ := List.append_inj' hused rfl
    rw [hbehind _ (by omega), joinedBytes_inner hlt]
  · intro memory base hmemory a ha
    unfold storeBuffer
    split
    · rfl
    · rename_i hge
      rw [headerSum_append, headerSum_cons, headerSum_nil] at hinside
      rw [hbehind _ (by omega), joinedBytes_outside (by omega), ← hmemory]
      congr 1
      omega

/-- For every chain of appended headers and every packet that can be encapsulated,
`packet_encapsulate` lays the two out behind each other. -/
theorem packetEncapsulate_layout {inetPton : InetPton} {heap' : Memory} {n : Nat}
    {calls : List OuterHeader}
    (houter : appendHeaders inetPton (packetNew heap' n).full calls = .ok (.ok outer))
    (hinner : ∃ init last, Enclosable inner init last)
    (hok : packetEncapsulate heap outer inner = .ok packet) :
    EncapsulationLayout heap outer inner packet := by
  obtain ⟨os, ho⟩ := (ChainBuilt.packetNew heap' n).appendHeaders houter
  obtain ⟨init, last, hi⟩ := hinner
  exact hi.layout ho hok

theorem packetEncapsulate_layout_greMpls : ∃ outer inner packet,
    appendHeaders (pton "192.0.2.1") (packetNew (fun _ => 0) 256).full greMplsOuter =
      .ok (.ok outer) ∧
    newTcpPacket (fun _ => 0) synArgs = .ok (.ok inner) ∧
    packetEncapsulate (fun _ => 0) outer inner = .ok packet ∧
    EncapsulationLayout (fun _ => 0) outer inner packet := by
  obtain ⟨outer, inner, packet, houter, hinner, hok⟩ : ∃ outer inner packet,
      appendHeaders (pton "192.0.2.1") (packetNew (fun _ => 0) 256).full greMplsOuter =
        .ok (.ok outer) ∧
      newTcpPacket (fun _ => 0) synArgs = .ok (.ok inner) ∧
      packetEncapsulate (fun _ => 0) outer inner = .ok packet := ⟨_, _, _, rfl, rfl, rfl⟩
  have hbuilt : IsBuilt inner := .inl ⟨_, synArgs, hinner⟩
  exact ⟨outer, inner, packet, houter, hinner, hok,
    packetEncapsulate_layout houter hbuilt.enclosable hok⟩

/-- What was encapsulated can be encapsulated again. -/
theorem packetEncapsulate_enclosable {inetPton : InetPton} {heap' : Memory} {n : Nat}
    {calls : List OuterHeader}
    (houter : appendHeaders inetPton (packetNew heap' n).full calls = .ok (.ok outer))
    (hinner : ∃ init last, Enclosable inner init last)
    (hok : packetEncapsulate heap outer inner = .ok packet) :
    ∃ init last, Enclosable packet init last := by
  obtain ⟨os, ho⟩ := (ChainBuilt.packetNew heap' n).appendHeaders houter
  obtain ⟨init, last, hi⟩ := hinner
  obtain ⟨htable, hfinished, -, -, hipBytes⟩ := packetEncapsulate_chained ho hi hok
  have htransport : (last.moved outer.ipBytes).type.isTransport = true := hi.transport
  have hchained := @chained_joined heap _ _ _ _ _ ho hi
  have hlist : os ++ (init ++ [last]).map (Header.moved outer.ipBytes) =
      outerHeaders os init outer.ipBytes ++ [last.moved outer.ipBytes] := by
    simp [outerHeaders]
  rw [hlist] at hchained
  have hfinal := hchained.finished hfinished.kept
  have hsum : headerSum (finishedHeaders
      (outerHeaders os init outer.ipBytes ++ [last.moved outer.ipBytes])) =
      outer.ipBytes + headerSum (init ++ [last]) := by
    rw [headerSum_finishedHeaders, ← hlist, headerSum_append, headerSum_moved, ho.ipBytes]
  obtain ⟨init', hsnoc, hsame⟩ := @finishedHeaders_snoc _
    (outerHeaders os init outer.ipBytes) htransport
  rw [hsnoc] at htable hfinal hsum
  refine ⟨init', _, htable, hfinal, fun h hh => ?_, htransport, ?_⟩
  · obtain ⟨g, hg, hgh⟩ := hsame h hh
    exact (encloses_outerHeaders ho hi g hg).of_same hgh
  · have := hi.inside
    omega

end Layout

end QoSMos
