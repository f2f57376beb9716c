import QoSMos.Outbound.Aggregate
import QoSMos.Outbound.Counted

/-!
# An aggregate before its headers are finished

`Unfinished` is what `aggregate_packets` has built when it comes to finish the headers: the
bytes of the last packet up to its payload, but for what TCP takes from the first one, the
payloads, and a table of grown entries. Growing the entries moves the end up to which they are
counted.
-/

namespace QoSMos

open Returns

section Entries

variable {b b' : Memory} {p : Nat} {h top : Header} {hs init : List Header} {extra e u : Int}

@[simp] theorem type_grown : (h.grown extra).type = h.type := rfl
@[simp] theorem headerBytes_grown : (h.grown extra).headerBytes = h.headerBytes := rfl

theorem sameEntry_grown : List.Forall₂ SameEntry hs (hs.map (Header.grown extra)) := by
  induction hs with
  | nil => exact .nil
  | cons h hs ih => exact .cons ⟨rfl, rfl, rfl⟩ ih

@[simp] theorem map_type_grown :
    (hs.map (Header.grown extra)).map Header.type = hs.map Header.type := by
  rw [List.map_map]
  rfl

@[simp] theorem headerSum_grown : headerSum (hs.map (Header.grown extra)) = headerSum hs := by
  rw [headerSum, headerSum, List.map_map]
  rfl

theorem nextType_grown : nextType (hs.map (Header.grown extra)) = nextType hs := by
  cases hs <;> rfl

theorem countedTotal_cons (hne : hs ≠ []) :
    countedTotal (h :: hs) = h.counted + countedTotal hs := by
  obtain ⟨g, inner, rfl⟩ := List.exists_cons_of_ne_nil hne
  rfl

theorem countedTotal_grown (init : List Header) (hnonneg : 0 ≤ top.totalBytes + extra)
    (hlt : top.totalBytes + extra < 4294967296) :
    (countedTotal ((init ++ [top]).map (Header.grown extra)) : Int) =
      countedTotal (init ++ [top]) + extra := by
  induction init with
  | nil =>
    show ((u32 (top.totalBytes + extra) : Nat) : Int) = top.totalBytes + extra
    rw [u32, Int.emod_eq_of_lt hnonneg hlt]
    omega
  | cons h init ih =>
    rw [List.cons_append, List.map_cons, countedTotal_cons (by simp), countedTotal_cons (by simp)]
    have hcounted : (h.grown extra).counted = h.counted := rfl
    omega

theorem countsTo_grown (hnonneg : 0 ≤ top.totalBytes + extra)
    (hlt : top.totalBytes + extra < 4294967296) :
    CountsTo b (e + extra) u p ((init ++ [top]).map (Header.grown extra)) ↔
      CountsTo b e u p (init ++ [top]) := by
  induction init generalizing p with
  | nil =>
    have hcount := countedTotal_grown [] hnonneg hlt
    simp only [List.nil_append, List.map_cons, List.map_nil, CountsTo, type_grown] at hcount ⊢
    rw [hcount]
    exact and_congr_left' (and_congr_left' (imp_congr_right fun _ => by omega))
  | cons h init ih =>
    have hcount := countedTotal_grown (h :: init) hnonneg hlt
    rw [List.cons_append, List.map_cons] at hcount ⊢
    refine and_congr (and_congr_left' (imp_congr_right fun _ => ?_)) ih
    rw [hcount]
    omega

theorem fitsUpTo_grown : FitsUpTo e p (hs.map (Header.grown extra)) ↔ FitsUpTo e p hs := by
  induction hs generalizing p with
  | nil => exact Iff.rfl
  | cons h hs ih => exact and_congr Iff.rfl ih

/-- Of the bytes, only the length of a UDP header on top matters. -/
theorem countsTo_congr (hinit : ∀ h ∈ init, h.type.isTransport = false)
    (hlen : top.type = .udp →
      Udp.len b' (p + headerSum init) = Udp.len b (p + headerSum init)) :
    CountsTo b' e u p (init ++ [top]) ↔ CountsTo b e u p (init ++ [top]) := by
  induction init generalizing p with
  | nil =>
    refine and_congr_left' (and_congr_right' (imp_congr_right fun hudp => ?_))
    rw [headerSum_nil, Nat.add_zero] at hlen
    rw [hlen hudp]
  | cons h init ih =>
    rw [headerSum_cons, ← Nat.add_assoc] at hlen
    refine and_congr (and_congr_right' (imp_congr_right fun hudp => ?_))
      (ih (fun g hg => hinit g (List.mem_cons_of_mem _ hg)) hlen)
    have hnot := hinit h List.mem_cons_self
    rw [hudp] at hnot
    cases hnot

theorem counted_le {n : Nat} {next : HeaderType} (hstands : Stands b n p h next) :
    h.counted ≤ h.headerBytes := by
  have hshape := hstands.shape
  obtain ⟨type, m, total, ptr⟩ := h
  cases type with
  | ipv4 => exact hshape.2.1
  | _ => exact le_rfl

theorem countedTotal_le {n : Nat} (hstack : Stacked b n p (init ++ [top])) :
    countedTotal (init ++ [top]) ≤ headerSum init + top.totalBytes := by
  induction init generalizing p with
  | nil => simp [countedTotal]
  | cons h init ih =>
    have hle := counted_le hstack.1
    have hrest := ih hstack.2
    rw [List.cons_append, countedTotal_cons (by simp), headerSum_cons]
    omega

/-- The grown entries are counted to less than 65536 bytes behind `n` if the last one is. -/
theorem near_grown {n m : Nat} (hstack : Stacked b m p (init ++ [top]))
    (hnonneg : 0 ≤ top.totalBytes + extra) (hlt : top.totalBytes + extra < 4294967296)
    (hend : ((p + headerSum init : Nat) : Int) + top.totalBytes + extra < n + 65536)
    (htop : top.type.isTransport = true) :
    Near n p ((init ++ [top]).map (Header.grown extra)) := by
  induction init generalizing p with
  | nil =>
    refine ⟨fun h4 => ?_, trivial⟩
    rw [type_grown] at h4
    rw [h4] at htop
    cases htop
  | cons h init ih =>
    have hcount := countedTotal_grown (h :: init) hnonneg hlt
    have hle := countedTotal_le hstack
    rw [headerSum_cons] at hend hle
    have hrest : Near n (p + h.headerBytes) ((init ++ [top]).map (Header.grown extra)) :=
      ih hstack.2 (by omega)
    refine ⟨fun _ => ?_, hrest⟩
    show p + countedTotal ((h :: init ++ [top]).map (Header.grown extra)) < n + 65536
    omega

end Entries

/-! ## The packet -/

/-- The bytes of a header that an aggregate takes from the first packet. -/
def HeaderType.Taken : HeaderType → Nat → Prop
  | .tcp, k => 4 ≤ k ∧ k < 8 ∨ k = 13
  | _, _ => False

/-- From `p` on, the bytes of the headers but the `Changed` ones are those of `b`, and so are
the TCP flags but `cwr`. -/
def FieldsKept (Changed : HeaderType → Nat → Prop) (b b' : Memory) : Nat → List Header → Prop
  | _, [] => True
  | p, h :: inner => ((∀ k < h.headerBytes, ¬ Changed h.type k → b' (p + k) = b (p + k)) ∧
      (h.type = .tcp → u8At b' (p + 13) % 128 = u8At b (p + 13) % 128)) ∧
      FieldsKept Changed b b' (p + h.headerBytes) inner

theorem FieldsKept.of_append {Changed : HeaderType → Nat → Prop} {b b' : Memory} {p : Nat}
    {hs gs : List Header} (hkept : FieldsKept Changed b b' p (hs ++ gs)) :
    FieldsKept Changed b b' (p + headerSum hs) gs := by
  induction hs generalizing p with
  | nil => simpa [headerSum] using hkept
  | cons h inner ih =>
    rw [headerSum_cons, ← Nat.add_assoc]
    exact ih hkept.2

/-- Bytes that were copied up to the headers' end, but for those taken from elsewhere. -/
theorem fieldsKept_taken {b b' : Memory} {p : Nat} {init : List Header} {top : Header}
    (hinit : ∀ h ∈ init, h.type.isTransport = false)
    (hbytes : ∀ i < p + headerSum (init ++ [top]), (∀ k, top.type.Taken k →
      i ≠ p + headerSum init + k) → b' i = b i)
    (hflags : top.type = .tcp → u8At b' (p + headerSum init + 13) % 128 =
      u8At b (p + headerSum init + 13) % 128) :
    FieldsKept HeaderType.Taken b b' p (init ++ [top]) := by
  induction init generalizing p with
  | nil =>
    simp only [List.nil_append, headerSum_cons, headerSum_nil, Nat.add_zero] at hbytes hflags ⊢
    refine ⟨⟨fun k hk hnot => hbytes _ (by omega) fun j hj heq => hnot ?_, hflags⟩, trivial⟩
    rwa [Nat.add_left_cancel heq]
  | cons h init ih =>
    have hnot := hinit h List.mem_cons_self
    simp only [List.cons_append, headerSum_cons, ← Nat.add_assoc] at hbytes hflags ⊢
    refine ⟨⟨fun k hk _ => hbytes _ (by omega) fun j _ => by omega, fun htcp => ?_⟩,
      ih (fun g hg => hinit g (List.mem_cons_of_mem _ hg)) hbytes hflags⟩
    rw [htcp] at hnot
    cases hnot

/-- An aggregate with the given payload, before its headers are finished. -/
structure Unfinished (p : Nat) (init : List Header) (top : Header) (extra : Int)
    (data : List UInt8) (first last before : FullPacket) : Prop where
  table : Table before.toPacket ((init ++ [top]).map (Header.grown extra))
  front : ∀ i < p, before.buffer i = last.buffer i
  fields : FieldsKept HeaderType.Taken last.buffer before.buffer p (init ++ [top])
  sequence : top.type = .tcp → ∃ q, first.tcp = some q ∧
    Tcp.seq before.buffer (p + headerSum init) = Tcp.seq first.buffer q ∧
    Tcp.cwr before.buffer (p + headerSum init) = Tcp.cwr first.buffer q
  data : ∀ i < data.length, before.buffer (p + headerSum (init ++ [top]) + i) = data.getD i 0
  ipBytes : before.ipBytes = u32 (last.ipBytes + extra)
  bufferBytes : before.bufferBytes = u32 ((p + last.ipBytes : Nat) + extra)
  pointers : before.tcp = last.tcp ∧ before.udp = last.udp ∧ before.icmpv4 = last.icmpv4 ∧
    before.icmpv6 = last.icmpv6

section Packets

variable {heap : Memory} {layer : PacketLayer} {head last packet : FullPacket}
  {next : List FullPacket} {init : List Header} {top : Header} {size : Int}

theorem Segment.top_isTransport (hseg : Segment layer packet init top) :
    top.type.isTransport = true := by
  rcases hseg.topType with ht | ht <;> rw [ht] <;> rfl

theorem Segment.top_shape (hseg : Segment layer packet init top) :
    ∃ e, Shape packet.buffer e ((layerStart packet.buffer layer).2 + headerSum init) top := by
  obtain ⟨e, hstack⟩ := hseg.stacked
  exact ⟨e, hstack.of_append.1.shape⟩

theorem Segment.tcp_bytes (hseg : Segment layer packet init top) (htcp : top.type = .tcp) :
    TCP_BYTES ≤ top.headerBytes ∧
      Tcp.doff packet.buffer ((layerStart packet.buffer layer).2 + headerSum init) * 4 =
        top.headerBytes := by
  obtain ⟨e, hshape⟩ := hseg.top_shape
  unfold Shape at hshape
  rwa [htcp] at hshape

theorem headerSum_concat : headerSum (init ++ [top]) = headerSum init + top.headerBytes := by
  rw [headerSum_append, headerSum_cons, headerSum_nil, Nat.add_zero]

theorem growHeaders_replicate {b : Memory} {tcp : Option Nat} {extra : Int} (k : Nat) :
    growHeaders b tcp head extra (List.replicate k Header.unused) =
      .ok (b, List.replicate k Header.unused) := by
  cases k <;> rfl

/-- What the loop over the headers does to a whole table. -/
theorem growHeaders_spec (b : Memory) (extra : Int) (k : Nat) {tcp : Option Nat} {q : Nat}
    (hinit : ∀ h ∈ init, h.type.isTransport = false)
    (hused : ∀ h ∈ init ++ [top], h.type ≠ .none) (htcp : top.type = .tcp → tcp = some q)
    (hfirst : top.type = .tcp → ∃ q', head.tcp = some q') :
    ∃ b', growHeaders b tcp head extra (init ++ [top] ++ List.replicate k Header.unused) =
        .ok (b', (init ++ [top]).map (Header.grown extra) ++ List.replicate k Header.unused) ∧
      (top.type = .tcp → ∃ q', head.tcp = some q' ∧ SequenceCopied b b' q head.buffer q') ∧
      (top.type ≠ .tcp → b' = b) := by
  have hinitUsed : ∀ h ∈ init, h.type ≠ .none := fun h hh =>
    hused h (List.mem_append_left _ hh)
  have htopUsed : top.type ≠ .none := hused top (by simp)
  have hall {b' : Memory}
      (hturn : growHeaders b tcp head extra (top :: List.replicate k Header.unused) =
        .ok (b', top.grown extra :: List.replicate k Header.unused)) :
      growHeaders b tcp head extra (init ++ [top] ++ List.replicate k Header.unused) =
        .ok (b', (init ++ [top]).map (Header.grown extra) ++ List.replicate k Header.unused) := by
    rw [List.append_assoc, List.singleton_append, growHeaders_init hinit hinitUsed hturn]
    simp
  by_cases htype : top.type = .tcp
  · obtain ⟨q', hq'⟩ := hfirst htype
    obtain rfl := htcp htype
    obtain ⟨b', hcopy, hspec⟩ := copySequence_spec (b := b) (q := q) hq'
    refine ⟨b', hall ?_, fun _ => ⟨q', hq', hspec⟩, fun h => absurd htype h⟩
    rw [growHeaders, if_neg htopUsed, if_pos htype]
    simp only [bind, Except.bind, hcopy, growHeaders_replicate]
    rfl
  · refine ⟨b, hall ?_, fun h => absurd h htype, fun _ => rfl⟩
    rw [growHeaders, if_neg htopUsed, if_neg htype]
    simp only [bind, Except.bind, growHeaders_replicate]
    rfl

/-- Only the bytes of the sequence number and the flags may change. -/
theorem grown_outside {b b' : Memory} {q i : Nat}
    (hsequence : top.type = .tcp → ∃ q', head.tcp = some q' ∧
      SequenceCopied b b' q head.buffer q')
    (hsame : top.type ≠ .tcp → b' = b) (hnot : ∀ k, top.type.Taken k → i ≠ q + k) :
    b' i = b i := by
  by_cases htype : top.type = .tcp
  · obtain ⟨q', -, hseq⟩ := hsequence htype
    rw [htype] at hnot
    refine hseq.frame i (fun k hk => ?_) (hnot 13 (.inr rfl))
    rw [Nat.add_assoc]
    exact hnot (4 + k) (.inl (by omega))
  · rw [hsame htype]

/-- The bytes that are taken lie within the header. -/
theorem Segment.taken_lt {k : Nat} (hseg : Segment layer packet init top)
    (h : top.type.Taken k) : k < top.headerBytes := by
  rcases hseg.topType with htype | htype
  · have hmin : 20 ≤ top.headerBytes := (hseg.tcp_bytes htype).1
    rw [htype] at h
    simp only [HeaderType.Taken] at h
    omega
  · rw [htype] at h
    cases h

/-- Without a negative payload length, the packet is built up to the finishing of its headers. -/
theorem exists_unfinished (hlast : Segment layer last init top)
    (hsegs : ∀ packet ∈ head :: next, ∃ layer init top, Segment layer packet init top)
    (hnonneg : ∀ packet ∈ head :: next, 0 ≤ payloadBytes packet)
    (hfirst : top.type = .tcp → ∃ q, head.tcp = some q) :
    ∃ before, aggregatePackets heap head next last size =
        packetFinishEncapsulationHeaders before ∧
      Unfinished (layerStart last.buffer layer).2 init top (size - payloadBytes last)
        ((head :: next).flatMap payloadData) head last before := by
  have hlen : packetPayloadLen last.toPacket = .ok (payloadBytes last) := by
    unfold payloadBytes
    rw [hlast.payloadLen]
  have hend : packetEnd last.toPacket =
      .ok ((layerStart last.buffer layer).2 + last.ipBytes) := by
    rw [packetEnd, hlast.start]
    rfl
  generalize hp : (layerStart last.buffer layer).2 = p at hend ⊢
  generalize hdata : (head :: next).flatMap payloadData = data
  generalize hextra : size - payloadBytes last = extra
  generalize hn : p + headerSum (init ++ [top]) = n
  have hsum : headerSum (init ++ [top]) = headerSum init + top.headerBytes := headerSum_concat
  have hpayloadAt : packetPayload last.toPacket = .ok n := by rw [hlast.payload, hp, hn]
  generalize hc : writeBytes (writeBytes heap 0 (readBytes last.buffer 0 n)) n data = c
  have hcopy : copyPayloads (writeBytes heap 0 (readBytes last.buffer 0 n)) n (head :: next) =
      .ok c := by
    rw [copyPayloads_eq_ok_iff hsegs, hdata]
    exact ⟨hnonneg, hc.symm⟩
  have hlast' : ∀ i < n, c i = last.buffer i := by
    intro i hi
    rw [← hc, writeBytes_outside (.inl hi), ← Nat.zero_add i, writeBytes_readBytes _ _ _ _ hi]
  have hpayload : ∀ i < data.length, c (n + i) = data.getD i 0 := by
    intro i hi
    rw [← hc]
    exact writeBytes_inside hi
  have hentries : (packetCopyHeaders (packetNew c (u32 ((p + last.ipBytes : Nat) + extra)))
      last.toPacket 0).headers.toList = init ++ [top] ++
        List.replicate (PACKET_MAX_HEADERS - (init ++ [top]).length) Header.unused := by
    have hle := hlast.table.le
    rw [entries_copied hlast.table, toList_headersOfList]
    rw [List.length_append, List.length_replicate]
    omega
  have htcp : top.type = .tcp → offsetPtr 0 last.tcp = some (p + headerSum init) := by
    intro htype
    rw [offsetPtr_zero, hlast.tcp, if_pos htype, hlast.ptr, hp]
  obtain ⟨m, hgrow, hsequence, hsame⟩ := growHeaders_spec c extra
    (PACKET_MAX_HEADERS - (init ++ [top]).length) hlast.notTransport hlast.table.used htcp hfirst
  rw [← hentries] at hgrow
  refine ⟨{ packetDuplicateInfo (packetNew c (u32 ((p + last.ipBytes : Nat) + extra))).full last 0
      extra with
    buffer := m
    headers := headersOfList ((init ++ [top]).map (Header.grown extra) ++
      List.replicate (PACKET_MAX_HEADERS - (init ++ [top]).length) Header.unused) }, ?_, ?_⟩
  · rw [← hextra] at hgrow ⊢
    unfold aggregatePackets
    dsimp only
    rw [hlen, hpayloadAt, hend]
    refine (bind_of_ok rfl).trans ?_
    refine (bind_of_ok rfl).trans ?_
    refine (bind_of_ok rfl).trans ?_
    dsimp only [packetNew, Packet.full]
    refine (bind_of_ok hcopy).trans ?_
    refine (bind_of_ok hgrow).trans ?_
    rfl
  · have hused : ∀ h ∈ (init ++ [top]).map (Header.grown extra), h.type ≠ .none := by
      intro h hh
      obtain ⟨g, hg, rfl⟩ := List.mem_map.mp hh
      exact hlast.table.used g hg
    have hbytes : ∀ i < n, (∀ k, top.type.Taken k → i ≠ p + headerSum init + k) →
        m i = last.buffer i := by
      intro i hi hnot
      exact (grown_outside hsequence hsame hnot).trans (hlast' i hi)
    refine ⟨?_, fun i hi => ?_, ?_, ?_, ?_, rfl, rfl, ?_⟩
    · apply Table.of_headersOfList _ _ hused
      · rw [List.length_map]
      · rw [List.length_map]
        exact hlast.table.le
    · exact hbytes i (by omega) fun k hk => by omega
    · apply fieldsKept_taken hlast.notTransport
      · rw [hn]
        exact hbytes
      · intro htype
        obtain ⟨q', -, hseq⟩ := hsequence htype
        have hmin : 20 ≤ top.headerBytes := (hlast.tcp_bytes htype).1
        have hflag : c (p + headerSum init + 13) = last.buffer (p + headerSum init + 13) :=
          hlast' _ (by omega)
        refine hseq.flags.trans ?_
        rw [u8At, hflag, u8At]
    · intro htype
      obtain ⟨q', hq', hseq⟩ := hsequence htype
      exact ⟨q', hq', hseq.seq, hseq.cwr⟩
    · intro i hi
      rw [hn]
      refine (grown_outside hsequence hsame fun k hk => ?_).trans (hpayload i hi)
      have hlt := hlast.taken_lt hk
      omega
    · exact ⟨offsetPtr_zero _, offsetPtr_zero _, offsetPtr_zero _, offsetPtr_zero _⟩

/-- If `aggregate_packets` returns, no payload length was negative. -/
theorem payloads_of_returned
    (hsegs : ∀ packet ∈ head :: next, ∃ layer init top, Segment layer packet init top)
    (hok : aggregatePackets heap head next last size = .ok packet) :
    ∀ packet ∈ head :: next, 0 ≤ payloadBytes packet := by
  unfold aggregatePackets at hok
  dsimp only at hok
  obtain ⟨_, -, hok⟩ := bind_eq_ok_iff.mp hok
  obtain ⟨_, -, hok⟩ := bind_eq_ok_iff.mp hok
  obtain ⟨_, -, hok⟩ := bind_eq_ok_iff.mp hok
  obtain ⟨_, hcopy, -⟩ := bind_eq_ok_iff.mp hok
  exact ((copyPayloads_eq_ok_iff hsegs).mp hcopy).1

end Packets

end QoSMos
