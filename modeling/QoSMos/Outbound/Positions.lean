import QoSMos.Options.Edges
import QoSMos.Outbound.PacketEvent
import QoSMos.Outbound.Verdict

/-!
# Sequence numbers of the script and of the kernel

A sequence number of a live packet counts from the initial one of its sender. So does a sequence
number of the script, except that on packets with SYN it counts from zero. Numbers of the two spaces
have the same position if they are equally far from where they count from. Mapping a packet in
either direction keeps the positions of its sequence number, of its acknowledgment number and of the
edges of its SACK blocks.
-/

namespace QoSMos

open Returns

/-! ## Positions -/

/-- The initial sequence number of a stream, in the script and live. -/
structure Origin where
  script : Nat
  live : Nat
  deriving DecidableEq, Repr

/-- A number of the script and a live one stand for the same byte of the stream. -/
def Origin.SamePosition (o : Origin) (syn : Bool) (script live : Nat) : Prop :=
  UInt32.ofNat script - (if syn then UInt32.ofNat o.script else 0) =
    UInt32.ofNat live - UInt32.ofNat o.live

/-- What is to be added to a number of the script. -/
def Origin.offset (o : Origin) (syn : Bool) : UInt32 :=
  UInt32.ofNat o.live - if syn then UInt32.ofNat o.script else 0

/-- The stream that the socket sends. -/
def Socket.localOrigin (socket : Socket) : Origin := ⟨socket.script.localIsn, socket.live.localIsn⟩

/-- The stream that it receives. -/
def Socket.remoteOrigin (socket : Socket) : Origin :=
  ⟨socket.script.remoteIsn, socket.live.remoteIsn⟩

/-- The sender of an inbound packet chooses one initial sequence number for both spaces. -/
def Socket.Aligned (socket : Socket) : Prop := socket.script.remoteIsn = socket.live.remoteIsn

/-- The TCP header of the script at `s` and the live one at `l` are of the same segment: `sent` is
the stream of the sender and `acked` the other one. -/
structure SameSegment (sent acked : Origin) (script : Memory) (s : Nat) (live : Memory) (l : Nat) :
    Prop where
  syn : Tcp.syn script s = Tcp.syn live l
  ack : Tcp.ack script s = Tcp.ack live l
  seq : sent.SamePosition (Tcp.syn live l) (Tcp.seq script s) (Tcp.seq live l)
  ackSeq : Tcp.ack live l = true →
    acked.SamePosition (Tcp.syn live l) (Tcp.ackSeq script s) (Tcp.ackSeq live l)

/-- And so are the edges of the SACK blocks in their options. -/
def SameEdges (acked : Origin) (syn : Bool) (options : List Nat) (script live : Memory) : Prop :=
  ∀ p, EdgeAt live options p → acked.SamePosition syn (be32At script p) (be32At live p)

/-- The packets have the same segment in their TCP headers at `tcp`, and the same options. -/
structure Translated (sent acked : Origin) (script live : FullPacket) (tcp : Nat) : Prop where
  segment : SameSegment sent acked script.buffer tcp live.buffer tcp
  options : ∃ options, OptionsAt script.toPacket tcp options ∧ OptionsAt live.toPacket tcp options ∧
    SameOptions script.buffer live.buffer options ∧
    SameEdges acked (Tcp.syn live.buffer tcp) options script.buffer live.buffer

section Offsets

variable {o : Origin} {syn : Bool} {script live x y : Nat} {socket : Socket}

theorem Origin.samePosition_iff :
    o.SamePosition syn script live ↔
      UInt32.ofNat live = UInt32.ofNat script + o.offset syn := by
  unfold Origin.SamePosition Origin.offset
  constructor
  · intro h
    grind
  · intro h
    grind

theorem Origin.samePosition_iff_neg :
    o.SamePosition syn script live ↔
      UInt32.ofNat script = UInt32.ofNat live + -o.offset syn := by
  rw [Origin.samePosition_iff]
  constructor
  · intro h
    grind
  · intro h
    grind

theorem ofNat_add_mod : UInt32.ofNat ((x + y) % 4294967296) = UInt32.ofNat x + UInt32.ofNat y := by
  rw [← UInt32.ofNat_add]
  exact UInt32.ofNat_mod_size

theorem ofNat_u32 (z : Int) : UInt32.ofNat (u32 z) = UInt32.ofInt z := rfl

theorem ofInt_natCast : UInt32.ofInt (x : Int) = UInt32.ofNat x :=
  UInt32.ofNat_mod_size

theorem ofNat_u32_neg : UInt32.ofNat (u32 (-(x : Int))) = -UInt32.ofNat x := by
  rw [ofNat_u32, UInt32.ofInt_neg, ofInt_natCast]

theorem ofNat_u32_sub : UInt32.ofNat (u32 ((x : Int) - y)) = UInt32.ofNat x - UInt32.ofNat y := by
  rw [ofNat_u32, Int.sub_eq_add_neg, UInt32.ofInt_add, UInt32.ofInt_neg, ofInt_natCast,
    ofInt_natCast, UInt32.sub_eq_add_neg]

theorem localSeqScriptToLiveOffset_eq :
    UInt32.ofNat (localSeqScriptToLiveOffset socket syn) = socket.localOrigin.offset syn := by
  unfold localSeqScriptToLiveOffset Origin.offset
  cases syn with
  | true => exact ofNat_u32_sub
  | false => exact (UInt32.sub_zero _).symm

theorem remoteSeqScriptToLiveOffset_eq (ha : socket.Aligned) :
    UInt32.ofNat (remoteSeqScriptToLiveOffset socket syn) = socket.remoteOrigin.offset syn := by
  unfold remoteSeqScriptToLiveOffset Origin.offset Socket.remoteOrigin
  cases syn with
  | true =>
    have hsame : socket.script.remoteIsn = socket.live.remoteIsn := ha
    rw [hsame]
    exact (UInt32.sub_self _).symm
  | false => exact (UInt32.sub_zero _).symm

end Offsets

/-! ## Edges of SACK blocks -/

section Edges

variable {b b' c d : Memory} {e p o bufferBytes ackOffset n tcp : Nat} {packet packet' : FullPacket}

theorem EdgesMoved.of_not_sack {k : UInt32} (h : u8At b o ≠ TCPOPT_SACK) :
    EdgesMoved k [o] b b := by
  refine ⟨?_, fun _ _ => rfl⟩
  rintro p ⟨o', ho', hsack, -⟩
  obtain rfl := List.mem_singleton.mp ho'
  exact absurd hsack h

/-- Only the offset modulo 2^32 matters. -/
theorem offsetWords_ofNat :
    offsetWords ackOffset p n b = offsetWords (UInt32.ofNat ackOffset).toNat p n b := by
  induction n generalizing p b with
  | zero => rfl
  | succ n ih =>
    have hword (x : Nat) :
        (x + (UInt32.ofNat ackOffset).toNat) % 4294967296 = (x + ackOffset) % 4294967296 := by
      rw [UInt32.toNat_ofNat']
      omega
    rw [offsetWords, offsetWords, hword, ih]

/-- A visit that returns has moved the edges of the option. -/
theorem offsetSackOption_edges (hok : offsetSackOption bufferBytes ackOffset o b = .ok c) :
    EdgesMoved (UInt32.ofNat ackOffset) [o] b c := by
  by_cases hsack : u8At b o = TCPOPT_SACK
  · unfold offsetSackOption at hok
    simp only [if_pos hsack] at hok
    split at hok
    · obtain ⟨numBlocks, hblocks, hok⟩ := bind_eq_ok_iff.mp hok
      have hwhole : WholeBlocks (u8At b (o + 1)) := by
        by_contra hnot
        obtain ⟨message, hmessage⟩ := numSackBlocks_of_not_whole hnot
        cases hmessage.symm.trans hblocks
      obtain rfl := Except.ok.inj ((numSackBlocks_of_whole hwhole).symm.trans hblocks)
      split at hok
      · rename_i hroom
        have hbytes := blocks_bytes hwhole
        have hwire := wireLength_of_sack hsack
        obtain ⟨c', hvisit, hmoved⟩ := @offsetSackOption_moved b o bufferBytes
          (UInt32.ofNat ackOffset) (by omega) fun _ => hwhole
        have hlong := hwhole.1
        unfold offsetSackOption at hvisit
        simp only [if_pos hsack] at hvisit
        rw [if_pos (by omega), numSackBlocks_of_whole hwhole, Returns.bind_of_ok rfl,
          if_pos (by omega)] at hvisit
        rw [← pure_eq_ok_iff.mp hok, offsetWords_ofNat, pure_eq_ok_iff.mp hvisit]
        exact hmoved
      · cases hok
    · cases hok
  · unfold offsetSackOption at hok
    simp only [if_neg hsack] at hok
    rw [← Except.ok.inj hok]
    exact .of_not_sack hsack

theorem tcpOptionsNext_eq_ok {next : Nat} (hlt : p < e) (hok : tcpOptionsNext b p e = .ok next) :
    ¬ Malformed b e p ∧ next = p + wireLength b p := by
  by_cases hmalformed : Malformed b e p
  · obtain ⟨message, hmessage⟩ := tcpOptionsNext_of_malformed hmalformed
    cases hmessage.symm.trans hok
  · exact ⟨hmalformed, Except.ok.inj (hok.symm.trans (tcpOptionsNext_of_formed hlt hmalformed))⟩

/-- The run: a loop that returns has found well-formed options and moved their edges. -/
theorem visitOptions_edges (hle : p ≤ e) (hn : e - p ≤ n)
    (hok : visitOptions id (offsetSackOption bufferBytes ackOffset) e n p b = .ok d) :
    ∃ options, Tiles b e p options e ∧ EdgesMoved (UInt32.ofNat ackOffset) options b d := by
  induction n generalizing b p with
  | zero =>
    obtain rfl : p = e := by omega
    obtain rfl := Except.ok.inj hok
    exact ⟨[], .nil p, .none⟩
  | succ n ih =>
    rw [visitOptions] at hok
    by_cases hlt : p < e
    · rw [if_pos hlt] at hok
      obtain ⟨c, hvisit, hok⟩ := bind_eq_ok_iff.mp hok
      obtain ⟨next, hnext, hok⟩ := bind_eq_ok_iff.mp hok
      have hfirst := offsetSackOption_edges hvisit
      obtain ⟨hformed', rfl⟩ := tcpOptionsNext_eq_ok hlt hnext
      -- what the iterator reads of the option was not moved
      have hstart (i : Nat) (hi : i < 2) : b (p + i) = c (p + i) := by
        refine (hfirst.outside _ fun o ho _ => .inl ?_).symm
        obtain rfl := List.mem_singleton.mp ho
        omega
      obtain ⟨hformed, hwire⟩ := formed_congr hformed' fun i hi _ => hstart i hi
      have hsame : wireLength c p = wireLength b p := hwire.symm
      have hpos := wireLength_pos hformed
      have hinside := wireLength_le hlt hformed
      rw [id, hsame] at hok
      obtain ⟨options, htiles, hrest⟩ := ih hinside (by omega) hok
      have hbehind (i : Nat) (hi : p + wireLength b p ≤ i) : b i = c i := by
        refine (hfirst.outside i fun o ho _ => .inr ?_).symm
        obtain rfl := List.mem_singleton.mp ho
        exact hi
      have hall : Tiles b e p (p :: options) e := by
        refine .cons hlt hformed (htiles.congr fun o ho i _ _ => ?_)
        have := (htiles.mem ho).2.1
        exact hbehind _ (by omega)
      exact ⟨_, hall, hfirst.cons hall hrest⟩
    · obtain rfl : p = e := by omega
      rw [if_neg hlt] at hok
      obtain rfl := Except.ok.inj hok
      exact ⟨[], .nil p, .none⟩

/-- A pass that returns has found well-formed options and moved their edges. -/
theorem offsetSackBlocks_edges (htcp : packet.tcp = some tcp)
    (hok : offsetSackBlocks packet ackOffset = .ok packet') :
    ∃ options b, packet' = { packet with buffer := b } ∧
      OptionsAt packet.toPacket tcp options ∧
        EdgesMoved (UInt32.ofNat ackOffset) options packet.buffer b := by
  unfold offsetSackBlocks at hok
  obtain ⟨b, hloop, hok⟩ := bind_eq_ok_iff.mp hok
  unfold forTcpOptions at hloop
  simp only [htcp, packetPayload_of_tcp htcp, ofFault, halting, bind_of_ok rfl] at hloop
  obtain ⟨_, hrequire, hloop⟩ := bind_eq_ok_iff.mp hloop
  have hle : tcp + TCP_BYTES ≤ tcp + Tcp.doff packet.buffer tcp * 4 := by
    by_contra hnot
    simp [require, hnot] at hrequire
  obtain ⟨options, htiles, hmoved⟩ := visitOptions_edges hle le_rfl hloop
  exact ⟨options, b, (pure_eq_ok_iff.mp hok).symm, ⟨htcp, by omega, htiles⟩, hmoved⟩

/-- A loop that ends without an error leaves what it returns. -/
theorem visitOptions_of_leaveOptions {σ : Type} {buffer : σ → Memory} {visit : Nat → σ → Status σ}
    {s t : σ} (h : leaveOptions buffer visit e n p s = (t, .ok ())) :
    visitOptions buffer visit e n p s = .ok t := by
  induction n generalizing p s with
  | zero =>
    obtain rfl := congrArg Prod.fst h
    rfl
  | succ n ih =>
    rw [leaveOptions] at h
    rw [visitOptions]
    by_cases hlt : p < e
    · rw [if_pos hlt] at h ⊢
      cases hvisit : visit p s with
      | error failure =>
        rw [hvisit] at h
        cases congrArg Prod.snd h
      | ok s' =>
        rw [hvisit] at h
        cases hnext : tcpOptionsNext (buffer s') p e with
        | error failure =>
          simp only [hnext] at h
          cases congrArg Prod.snd h
        | ok next =>
          simp only [hnext] at h
          rw [bind_of_ok rfl, hnext, bind_of_ok rfl]
          exact ih h
    · rw [if_neg hlt] at h ⊢
      obtain rfl := congrArg Prod.fst h
      rfl

theorem offsetSackBlocks_of_leave (h : leaveSackBlocks packet ackOffset = (packet', .ok ())) :
    offsetSackBlocks packet ackOffset = .ok packet' := by
  unfold leaveSackBlocks at h
  unfold offsetSackBlocks forTcpOptions
  cases htcp : packet.tcp with
  | none =>
    simp only [htcp] at h
    cases congrArg Prod.snd h
  | some tcp =>
    simp only [htcp, packetPayload_of_tcp htcp] at h ⊢
    split at h
    · rename_i hle
      obtain ⟨b, hb⟩ : ∃ b, leaveOptions id (offsetSackOption packet.bufferBytes ackOffset)
          (tcp + Tcp.doff packet.buffer tcp * 4)
          (tcp + Tcp.doff packet.buffer tcp * 4 - (tcp + TCP_BYTES)) (tcp + TCP_BYTES)
          packet.buffer = (b, .ok ()) := ⟨_, Prod.ext rfl (Prod.mk.inj h).2⟩
      rw [hb] at h
      have hloop := visitOptions_of_leaveOptions hb
      rw [ofFault, halting, bind_of_ok rfl, require_ok hle, halting, bind_of_ok rfl, hloop]
      exact congrArg Except.ok (congrArg Prod.fst h)
    · rename_i hle
      have hrequire := congrArg Prod.snd h
      simp [require, hle, halting] at hrequire

end Edges

/-! ## Headers with their options -/

/-- The bytes that a translation looks at: the numbers and the flags of the header, the kinds and
lengths of the options, and the edges. -/
def LookedAt (b : Memory) (options : List Nat) (tcp i : Nat) : Prop :=
  tcp + 4 ≤ i ∧ i < tcp + 14 ∨
    (∃ o ∈ options, ∃ k < 2, k < wireLength b o ∧ i = o + k) ∨
    ∃ p, EdgeAt b options p ∧ p ≤ i ∧ i < p + 4

/-- `b'` is `b` with the sequence number of the header at `tcp` raised by one offset, and the
acknowledgment number and the edges by another one. -/
structure Shifted (seqOffset ackOffset : UInt32) (options : List Nat) (tcp : Nat)
    (b b' : Memory) : Prop where
  doff : b' (tcp + 12) = b (tcp + 12)
  flags : b' (tcp + 13) = b (tcp + 13)
  starts : SameStarts b b' options
  seq : UInt32.ofNat (Tcp.seq b' tcp) = UInt32.ofNat (Tcp.seq b tcp) + seqOffset
  ackSeq : Tcp.ack b tcp = true →
    UInt32.ofNat (Tcp.ackSeq b' tcp) = UInt32.ofNat (Tcp.ackSeq b tcp) + ackOffset
  edges : ∀ p, EdgeAt b options p →
    UInt32.ofNat (be32At b' p) = UInt32.ofNat (be32At b p) + ackOffset

section Shifts

variable {b b' c c' : Memory} {e r tcp : Nat} {options : List Nat} {seqOffset ackOffset : UInt32}
  {packet packet' : FullPacket} {x y : Nat}

/-- Only the bytes that are looked at matter. -/
theorem Shifted.congr (h : Shifted seqOffset ackOffset options tcp b b')
    (htiles : Tiles b e (tcp + TCP_BYTES) options r)
    (hleft : ∀ i, LookedAt b options tcp i → c i = b i)
    (hright : ∀ i, LookedAt b options tcp i → c' i = b' i) :
    Shifted seqOffset ackOffset options tcp c c' := by
  have hheader (k : Nat) (hk : 4 ≤ k ∧ k < 14) : LookedAt b options tcp (tcp + k) :=
    .inl (by omega)
  have hword (d d' : Memory) (hd : ∀ i, LookedAt b options tcp i → d i = d' i) (k : Nat)
      (hk : 4 ≤ k ∧ k < 11) : be32At d (tcp + k) = be32At d' (tcp + k) := by
    apply be32At_transfer
    intro j hj
    rw [Nat.add_assoc]
    exact hd _ (hheader (k + j) (by omega))
  have hcStarts : SameStarts b c options := fun o ho i hi hlt =>
    hleft _ (.inr (.inl ⟨o, ho, i, hi, hlt, rfl⟩))
  have hsame := htiles.sameOptions hcStarts
  have hack : Tcp.ack c tcp = Tcp.ack b tcp :=
    congrArg (fun x : UInt8 => x.toNat.testBit 4) (hleft _ (hheader 13 (by omega)))
  refine ⟨?_, ?_, fun o ho i hi hlt => ?_, ?_, fun hacked => ?_, fun p hp => ?_⟩
  · rw [hright _ (hheader 12 (by omega)), hleft _ (hheader 12 (by omega))]
    exact h.doff
  · rw [hright _ (hheader 13 (by omega)), hleft _ (hheader 13 (by omega))]
    exact h.flags
  · rw [(hsame o ho).2] at hlt
    have hlooked : LookedAt b options tcp (o + i) := .inr (.inl ⟨o, ho, i, hi, hlt, rfl⟩)
    rw [hright _ hlooked, hleft _ hlooked]
    exact h.starts o ho i hi hlt
  · rw [Tcp.seq, Tcp.seq, hword c' b' hright 4 (by omega), hword c b hleft 4 (by omega)]
    exact h.seq
  · rw [Tcp.ackSeq, Tcp.ackSeq, hword c' b' hright 8 (by omega), hword c b hleft 8 (by omega)]
    exact h.ackSeq (hack ▸ hacked)
  · rw [hsame.edgeAt] at hp
    have hedge (k : Nat) (hk : k < 4) : LookedAt b options tcp (p + k) :=
      .inr (.inr ⟨p, hp, by omega, by omega⟩)
    have hnew : be32At c' p = be32At b' p := be32At_transfer fun k hk => hright _ (hedge k hk)
    have hold : be32At c p = be32At b p := be32At_transfer fun k hk => hleft _ (hedge k hk)
    rw [hnew, hold]
    exact h.edges p hp

theorem offsetSeq_seq : UInt32.ofNat (Tcp.seq (offsetSeq b tcp x) tcp) =
    UInt32.ofNat (Tcp.seq b tcp) + UInt32.ofNat x := by
  rw [Tcp.seq, offsetSeq, be32At_writeBytes, Nat.mod_mod]
  exact ofNat_add_mod

theorem offsetAckSeq_ackSeq (hack : Tcp.ack b tcp = true) :
    UInt32.ofNat (Tcp.ackSeq (offsetAckSeq b tcp x) tcp) =
      UInt32.ofNat (Tcp.ackSeq b tcp) + UInt32.ofNat x := by
  rw [Tcp.ackSeq, offsetAckSeq, if_pos hack, be32At_writeBytes, Nat.mod_mod]
  exact ofNat_add_mod

/-- The two numbers of a header and a pass over its options. -/
theorem shifted_of_pass (htcp : packet.tcp = some tcp)
    (hok : offsetSackBlocks { packet with
      buffer := offsetAckSeq (offsetSeq packet.buffer tcp x) tcp y } y = .ok packet') :
    ∃ options b, packet' = { packet with buffer := b } ∧ OptionsAt packet.toPacket tcp options ∧
      Shifted (UInt32.ofNat x) (UInt32.ofNat y) options tcp packet.buffer b := by
  have hsize : TCP_BYTES = 20 := rfl
  generalize hc : offsetAckSeq (offsetSeq packet.buffer tcp x) tcp y = c at hok
  have hframe (i : Nat) (hi : i < tcp + 4 ∨ tcp + 12 ≤ i) : c i = packet.buffer i := by
    rw [← hc, offsetAckSeq_frame (by omega), offsetSeq_frame (by omega)]
  obtain ⟨options, b, rfl, harea, hmoved⟩ := @offsetSackBlocks_edges y tcp
    { packet with buffer := c } packet' htcp hok
  have htiles := harea.tiles
  have hbefore (i : Nat) (hi : i < tcp + TCP_BYTES) : b i = c i := by
    refine hmoved.outside i fun o ho _ => .inl ?_
    have := htiles.mem ho
    omega
  have hoption (i : Nat) (hi : tcp + 12 ≤ i) : packet.buffer i = c i :=
    (hframe i (by omega)).symm
  have hstarts : SameStarts c packet.buffer options := fun o ho i _ _ => by
    have := htiles.mem ho
    exact hoption _ (by omega)
  have hsame := htiles.sameOptions hstarts
  have hwords (k : Nat) (hk : k ≤ 16) : be32At b (tcp + k) = be32At c (tcp + k) :=
    be32At_transfer fun j hj => hbefore _ (by omega)
  refine ⟨options, b, rfl, ?_, ?_, ?_, fun o ho i hi hlt => ?_, ?_, fun hack => ?_, fun p hp => ?_⟩
  · exact harea.congr rfl (hoption (tcp + 12) (by omega)) hstarts
  · exact (hbefore _ (by omega)).trans (hframe _ (by omega))
  · exact (hbefore _ (by omega)).trans (hframe _ (by omega))
  · have hmem := htiles.mem ho
    exact (hmoved.sameStarts htiles o ho i hi ((hsame o ho).2 ▸ hlt)).trans (hframe _ (by omega))
  · rw [Tcp.seq, hwords 4 (by omega), ← offsetSeq_seq, ← hc, Tcp.seq]
    congr 1
    exact be32At_transfer fun k hk => offsetAckSeq_frame (by omega)
  · rw [Tcp.ackSeq, hwords 8 (by omega), ← hc]
    refine (offsetAckSeq_ackSeq ?_).trans ?_
    · rw [← hack, Tcp.ack, Tcp.ack]
      exact congrArg (fun x : UInt8 => x.toNat.testBit 4) (offsetSeq_frame (by omega))
    · congr 2
      exact be32At_transfer fun k hk => offsetSeq_frame (by omega)
  · rw [hsame.edgeAt] at hp
    have hle := edgeAt_front htiles hp
    have hold : be32At c p = be32At packet.buffer p :=
      be32At_transfer fun k hk => hframe _ (by omega)
    rw [hmoved.edge p hp, hold, ofNat_add_mod, UInt32.ofNat_toNat]

/-- A shift from the script to live values. -/
theorem Shifted.inbound {sent acked : Origin} {script live : FullPacket}
    (h : Shifted (sent.offset (Tcp.syn script.buffer tcp))
      (acked.offset (Tcp.syn script.buffer tcp)) options tcp script.buffer live.buffer)
    (htcp : live.tcp = script.tcp) (harea : OptionsAt script.toPacket tcp options) :
    Translated sent acked script live tcp := by
  have hsyn : Tcp.syn script.buffer tcp = Tcp.syn live.buffer tcp :=
    congrArg (fun x : UInt8 => x.toNat.testBit 1) h.flags.symm
  have hack : Tcp.ack script.buffer tcp = Tcp.ack live.buffer tcp :=
    congrArg (fun x : UInt8 => x.toNat.testBit 4) h.flags.symm
  have hsame := harea.tiles.sameOptions h.starts
  refine ⟨⟨hsyn, hack, ?_, fun hacked => ?_⟩,
    options, harea, harea.congr htcp h.doff h.starts, hsame, fun p hp => ?_⟩
  · exact Origin.samePosition_iff.mpr (hsyn ▸ h.seq)
  · exact Origin.samePosition_iff.mpr (hsyn ▸ h.ackSeq (hack ▸ hacked))
  · exact Origin.samePosition_iff.mpr (hsyn ▸ h.edges p (hsame.edgeAt.mp hp))

/-- A shift from live values to the script. -/
theorem Shifted.outbound {sent acked : Origin} {script live : FullPacket}
    (h : Shifted (-sent.offset (Tcp.syn live.buffer tcp)) (-acked.offset (Tcp.syn live.buffer tcp))
      options tcp live.buffer script.buffer) (htcp : script.tcp = live.tcp)
    (harea : OptionsAt live.toPacket tcp options) : Translated sent acked script live tcp := by
  have hsame := harea.tiles.sameOptions h.starts
  refine ⟨⟨?_, ?_, Origin.samePosition_iff_neg.mpr h.seq, fun hacked => ?_⟩,
    options, harea.congr htcp h.doff h.starts, harea, fun o ho => ?_, fun p hp => ?_⟩
  · exact congrArg (fun x : UInt8 => x.toNat.testBit 1) h.flags
  · exact congrArg (fun x : UInt8 => x.toNat.testBit 4) h.flags
  · exact Origin.samePosition_iff_neg.mpr (h.ackSeq hacked)
  · exact ⟨(hsame o ho).1.symm, (hsame o ho).2.symm⟩
  · exact Origin.samePosition_iff_neg.mpr (h.edges p hp)

end Shifts

/-! ## Mapping a packet -/

section Maps

variable {hashKey : UInt32 → UInt32} {config : TsConfig} {socket : Socket}
  {packet packet' live mapped : FullPacket} {tcp : Nat} {options : List Nat}

/-- A sniffed packet and what is compared with the script. -/
theorem tcpConvertSeqNumber_translated (ha : socket.Aligned) (htcp : live.tcp = some tcp)
    (hok : tcpConvertSeqNumber socket live = .ok packet) :
    Translated socket.localOrigin socket.remoteOrigin packet live tcp := by
  unfold tcpConvertSeqNumber at hok
  simp only [htcp] at hok
  unfold convertSeqNumbers at hok
  obtain ⟨options, b, rfl, harea, hshifted⟩ := shifted_of_pass htcp hok
  refine Shifted.outbound ?_ rfl harea
  rw [localSeqLiveToScriptOffset, ofNat_u32_neg, localSeqScriptToLiveOffset_eq,
    remoteSeqLiveToScriptOffset, ofNat_u32_neg, remoteSeqScriptToLiveOffset_eq ha] at hshifted
  exact hshifted

/-- The echo reply is in no byte that a translation looks at. -/
theorem lookedAt_not_tsEcr {b : Memory} {e r o i : Nat}
    (htiles : Tiles b e (tcp + TCP_BYTES) options r) (ho : o ∈ options)
    (hkind : u8At b o = TCPOPT_TIMESTAMP) (hi : LookedAt b options tcp i) :
    i < o + 6 ∨ o + 10 ≤ i := by
  have hsize : TCP_BYTES = 20 := rfl
  have hmem := htiles.mem ho
  have hwire := wireLength_of_timestamp hmem.1 hkind
  have hten : TCPOLEN_TIMESTAMP = 10 := rfl
  rcases hi with hi | ⟨o', ho', k, hk, hlt, rfl⟩ | ⟨p, ⟨o', ho', hsack, j, rfl, hlast⟩, hle, hlt⟩
  · omega
  · rcases htiles.apart ho ho' with rfl | h | h <;> omega
  · rcases htiles.apart ho ho' with rfl | h | h
    · cases hkind.symm.trans hsack
    · omega
    · omega

/-- At most the echo reply is written. -/
theorem remapTsEcr_ok (hok : remapTsEcr hashKey config socket live tcp = (mapped, .ok ())) :
    ∃ b, mapped = { live with buffer := b } ∧
      ∀ i, (∀ p, live.tcpTsEcr = some p → i < p ∨ p + 4 ≤ i) → b i = live.buffer i := by
  unfold remapTsEcr at hok
  split at hok
  · rename_i p hack hfound
    split at hok
    · obtain rfl := congrArg Prod.fst hok
      exact ⟨_, rfl, fun i hi => writeBytes_outside (hi p hfound)⟩
    · cases congrArg Prod.snd hok
  · obtain rfl := congrArg Prod.fst hok
    exact ⟨_, rfl, fun i _ => rfl⟩

/-- The numbers of an inbound packet are shifted, and its echo reply is mapped. -/
theorem mapInboundTcpPacket_shifted {live : FullPacket} (htcp : live.tcp = some tcp)
    (hok : mapInboundTcpPacket hashKey config socket live tcp = (mapped, .ok ())) :
    ∃ options b last, mapped = { live.withTimestamp last with buffer := b } ∧
      OptionsAt live.toPacket tcp options ∧
      Shifted (UInt32.ofNat (remoteSeqScriptToLiveOffset socket (Tcp.syn live.buffer tcp)))
        (UInt32.ofNat (localSeqScriptToLiveOffset socket (Tcp.syn live.buffer tcp)))
        options tcp live.buffer b := by
  unfold mapInboundTcpPacket at hok
  dsimp only at hok
  split at hok
  · cases congrArg Prod.snd hok
  · rename_i moved hleave
    obtain ⟨options, c, rfl, harea, hshifted⟩ :=
      shifted_of_pass htcp (offsetSackBlocks_of_leave hleave)
    have hareaMoved : OptionsAt ({ live with buffer := c } : FullPacket).toPacket tcp options :=
      harea.congr rfl hshifted.doff hshifted.starts
    rw [findTcpTimestamp_of_options hareaMoved] at hok
    obtain ⟨b, rfl, hframe⟩ := remapTsEcr_ok hok
    refine ⟨options, b, lastTimestamp c options, rfl, harea, ?_⟩
    refine hshifted.congr harea.tiles (fun i _ => rfl) fun i hi => hframe i fun p hp => ?_
    obtain ⟨o, hlast, rfl⟩ : ∃ o, lastTimestamp c options = some o ∧ o + 6 = p := by
      cases hlast : lastTimestamp c options with
      | none => simp [FullPacket.withTimestamp, foundAt, hlast] at hp
      | some o => exact ⟨o, rfl, by simpa [FullPacket.withTimestamp, foundAt, hlast] using hp⟩
    have ho : o ∈ options := (hareaMoved.last hlast).1
    have hkind : u8At c o = TCPOPT_TIMESTAMP := by simpa using List.find?_some hlast
    have hsame := harea.tiles.sameOptions hshifted.starts
    exact lookedAt_not_tsEcr harea.tiles ho ((hsame o ho).1.symm.trans hkind) hi

/-- A byte that is looked at is one of the header and its options. -/
theorem LookedAt.range {b : Memory} {e i : Nat} (h : LookedAt b options tcp i)
    (htiles : Tiles b e (tcp + TCP_BYTES) options e) : tcp + 4 ≤ i ∧ i < e ∧ i ≠ tcp + 16 ∧
      i ≠ tcp + 17 := by
  have hsize : TCP_BYTES = 20 := rfl
  have hle := htiles.le
  rcases h with h | ⟨o, ho, k, hk, hlt, rfl⟩ | ⟨p, ⟨o, ho, hsack, j, rfl, hlast⟩, hge, hlt⟩
  · omega
  · have := htiles.mem ho
    omega
  · have := htiles.mem ho
    omega

/-- The options and the shift of a packet are those of one with the same header and options. -/
theorem Shifted.of_same {seqOffset ackOffset : UInt32} {b' : Memory} (packet' : FullPacket)
    (h : Shifted seqOffset ackOffset options tcp packet.buffer b')
    (harea : OptionsAt packet.toPacket tcp options) (htcp : packet'.tcp = packet.tcp)
    (hsame : ∀ i, tcp + 4 ≤ i → i < tcp + Tcp.doff packet.buffer tcp * 4 →
      packet'.buffer i = packet.buffer i) :
    OptionsAt packet'.toPacket tcp options ∧
      Shifted seqOffset ackOffset options tcp packet'.buffer b' := by
  refine ⟨harea.same htcp fun i hle hlt => hsame i (by omega) hlt, ?_⟩
  exact h.congr harea.tiles
    (fun i hi => hsame i (hi.range harea.tiles).1 (hi.range harea.tiles).2.1) fun i _ => rfl

theorem syn_of_same {b b' : Memory} (h : b' (tcp + 13) = b (tcp + 13)) :
    Tcp.syn b' tcp = Tcp.syn b tcp :=
  congrArg (fun x : UInt8 => x.toNat.testBit 1) h

/-- What an inbound packet becomes: the script's numbers plus the offsets of the socket. -/
theorem mapInboundPacket_shifted (ho : TcpOrdered live.toPacket tcp)
    (hok : mapInboundPacket hashKey config socket live = (mapped, .ok ())) :
    ∃ options b last, mapped = { live.withTimestamp last with buffer := b } ∧
      OptionsAt live.toPacket tcp options ∧
      Shifted (UInt32.ofNat (remoteSeqScriptToLiveOffset socket (Tcp.syn live.buffer tcp)))
        (UInt32.ofNat (localSeqScriptToLiveOffset socket (Tcp.syn live.buffer tcp)))
        options tcp live.buffer b := by
  obtain ⟨b, hset, hframe⟩ := ho.setInboundTuple socket
  rw [mapInboundPacket_of_tcp hset ho.noIcmp.1 ho.noIcmp.2 ho.header] at hok
  have htcp : ({ live with buffer := b } : FullPacket).tcp = some tcp := ho.header
  obtain ⟨options, c, last, hmapped, harea, hshifted⟩ := mapInboundTcpPacket_shifted htcp hok
  have hsyn : Tcp.syn b tcp = Tcp.syn live.buffer tcp := syn_of_same (hframe _ (by omega))
  obtain ⟨hareaLive, hall⟩ := hshifted.of_same live harea rfl
    fun i hle _ => (hframe i hle).symm
  simp only [hsyn] at hall
  exact ⟨options, c, last, hmapped, hareaLive, hall⟩

/-- The checksums are in front of the TCP header and in one of its fields. -/
theorem checksumPacket_ok {old new : Packet} (ho : TcpOrdered old tcp)
    (hok : checksumPacket old = .ok new) : ∃ b, new = { old with buffer := b } ∧
      ∀ i, tcp ≤ i → i ≠ tcp + 16 → i ≠ tcp + 17 → b i = old.buffer i := by
  obtain ⟨f, hf, hbehind⟩ := ho.fields
  obtain ⟨buffer, _, _, _, _, ipv4, ipv6, tcpAt, _, _, _⟩ := old
  obtain rfl : tcpAt = some tcp := ho.header
  cases ipv4 with
  | some ipv4 =>
    obtain rfl := Option.some.inj hf
    have hfront : ipv4 + 20 ≤ tcp := hbehind
    obtain ⟨_, -, hok⟩ := bind_eq_ok_iff.mp hok
    obtain ⟨_, -, hok⟩ := bind_eq_ok_iff.mp hok
    refine ⟨_, (pure_eq_ok_iff.mp hok).symm, fun i hi h16 h17 => ?_⟩
    have hcheck : Ipv4.checkAt ipv4 = ipv4 + 10 := rfl
    exact (fillChecksum_outside h16 h17).trans (fillChecksum_outside (by omega) (by omega))
  | none =>
    cases ipv6 with
    | some ipv6 =>
      obtain ⟨_, -, hok⟩ := bind_eq_ok_iff.mp hok
      obtain ⟨_, -, hok⟩ := bind_eq_ok_iff.mp hok
      exact ⟨_, (pure_eq_ok_iff.mp hok).symm, fun i _ h16 h17 => fillChecksum_outside h16 h17⟩
    | none => cases hok

theorem sendLiveIpPacket_ok (ho : TcpOrdered packet.toPacket tcp)
    (hok : sendLiveIpPacket packet = .ok live) : ∃ b, live = { packet with buffer := b } ∧
      ∀ i, tcp ≤ i → i ≠ tcp + 16 → i ≠ tcp + 17 → b i = packet.buffer i := by
  unfold sendLiveIpPacket at hok
  obtain ⟨_, -, hok⟩ := bind_eq_ok_iff.mp hok
  obtain ⟨_, -, hok⟩ := bind_eq_ok_iff.mp hok
  obtain ⟨_, -, hok⟩ := bind_eq_ok_iff.mp hok
  obtain ⟨sent, hsum, hok⟩ := bind_eq_ok_iff.mp hok
  obtain ⟨b, rfl, hframe⟩ := checksumPacket_ok ho hsum
  exact ⟨b, (pure_eq_ok_iff.mp hok).symm, hframe⟩

/-- A TCP packet of the script and what is injected for it. -/
theorem inbound_translated {heap : Memory} {copy sent : FullPacket} (ha : socket.Aligned)
    (hscript : TcpScript packet) (htcp : packet.tcp = some tcp)
    (hcopy : packetCopy heap packet = .ok copy)
    (hmap : mapInboundPacket hashKey config socket copy = (mapped, .ok ()))
    (hsend : sendLiveIpPacket mapped = .ok sent) :
    sent.tcp = some tcp ∧
      Translated socket.remoteOrigin socket.localOrigin packet sent tcp := by
  obtain ⟨tcp', hsegment⟩ := hscript.segmentAt
  obtain rfl : tcp' = tcp := Option.some.inj (hsegment.header.symm.trans htcp)
  obtain ⟨n, hcopyOf⟩ := packetCopy_copyOf hcopy
  obtain ⟨hdoff, hinside⟩ := hcopyOf.doff hsegment
  have hordered := hcopyOf.tcpOrdered hsegment.toTcpOrdered
  obtain ⟨options, b, last, rfl, hareaCopy, hshifted⟩ := mapInboundPacket_shifted hordered hmap
  have hsame (i : Nat) (hlt : i < tcp' + Tcp.doff copy.buffer tcp' * 4) :
      packet.buffer i = copy.buffer i := (hcopyOf.bytes i (by omega)).symm
  obtain ⟨harea, hall⟩ := hshifted.of_same packet hareaCopy hcopyOf.header.symm
    fun i _ hlt => hsame i hlt
  have hsize : TCP_BYTES = 20 := rfl
  have hmin := hareaCopy.doff
  rw [syn_of_same (hsame (tcp' + 13) (by omega)).symm, remoteSeqScriptToLiveOffset_eq ha,
    localSeqScriptToLiveOffset_eq] at hall
  have hmapped : TcpOrdered ({ copy.withTimestamp last with buffer := b } : FullPacket).toPacket
      tcp' := ⟨hordered.header, hordered.noIcmp, hordered.fields⟩
  obtain ⟨d, rfl, hsums⟩ := sendLiveIpPacket_ok hmapped hsend
  refine ⟨hordered.header, Shifted.inbound ?_ (hordered.header.trans htcp.symm) harea⟩
  refine hall.congr harea.tiles (fun i _ => rfl) fun i hi => ?_
  obtain ⟨hle, -, h16, h17⟩ := hi.range harea.tiles
  exact hsums i (by omega) h16 h17

end Maps

end QoSMos
