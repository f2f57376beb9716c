import QoSMos.Options.Search

/-!
# Moving SACK blocks back and forth

On well-formed options `offset_sack_blocks` moves the edges of all SACK blocks by the same offset
and leaves every other byte. Since this determines the bytes of the packet, the passes over one
packet compose as their offsets do.
-/

namespace QoSMos

open Returns

/-- An edge of a SACK block stands at `p`. -/
def EdgeAt (b : Memory) (options : List Nat) (p : Nat) : Prop :=
  ∃ o ∈ options, u8At b o = TCPOPT_SACK ∧ ∃ j, p = o + 2 + 4 * j ∧ p + 4 ≤ o + wireLength b o

/-- `b'` is `b` with the edges of its SACK blocks moved by `k`. -/
structure EdgesMoved (k : UInt32) (options : List Nat) (b b' : Memory) : Prop where
  edge : ∀ p, EdgeAt b options p → be32At b' p = (be32At b p + k.toNat) % 4294967296
  outside : ∀ i, OutsideSacks b options i → b' i = b i

section Words

variable {b b' : Memory} {p q ackOffset n j k : Nat}

/-- A word determines its bytes. -/
theorem byte_of_be32At (h : be32At b' p = be32At b p) (hk : k < 4) : b' (p + k) = b (p + k) := by
  have hlt (c : Memory) (i : Nat) : u8At c i < 256 := u8At_lt c i
  have hbyte : u8At b' (p + k) = u8At b (p + k) := by
    have := hlt b p
    have := hlt b (p + 1)
    have := hlt b (p + 2)
    have := hlt b (p + 3)
    have := hlt b' p
    have := hlt b' (p + 1)
    have := hlt b' (p + 2)
    have := hlt b' (p + 3)
    simp only [be32At, be16At, Nat.add_assoc, Nat.reduceAdd] at h
    obtain rfl | rfl | rfl | rfl : k = 0 ∨ k = 1 ∨ k = 2 ∨ k = 3 := by omega
    · simp only [Nat.add_zero]
      omega
    all_goals omega
  exact UInt8.toNat_inj.mp hbyte

/-- Every one of the words is moved, whatever stands in the others. -/
theorem offsetWords_word (hj : j < n) :
    be32At (offsetWords ackOffset p n b) (p + 4 * j) =
      (be32At b (p + 4 * j) + ackOffset) % 4294967296 := by
  induction n generalizing b p j with
  | zero => omega
  | succ n ih =>
    cases j with
    | zero =>
      have hfirst : ∀ k < 4, offsetWords ackOffset p (n + 1) b (p + k) =
          writeBytes b p (be32 ((be32At b p + ackOffset) % 4294967296)) (p + k) := by
        intro k hk
        rw [offsetWords]
        exact offsetWords_before (by omega)
      simp only [Nat.mul_zero, Nat.add_zero]
      rw [be32At_transfer hfirst, be32At_writeBytes, Nat.mod_mod]
    | succ j =>
      have hnext : p + 4 * (j + 1) = p + 4 + 4 * j := by omega
      have hrest := @ih (writeBytes b p (be32 ((be32At b p + ackOffset) % 4294967296))) (p + 4) j
        (by omega)
      rw [hnext, offsetWords, hrest, be32At_transfer]
      intro k hk
      apply writeBytes_outside
      simp only [length_be32]
      omega

end Words

section Moved

variable {b b' c d : Memory} {e p r o bufferBytes n : Nat} {options : List Nat} {k k' : UInt32}

/-- A visit moves the edges of the option. -/
theorem offsetSackOption_moved (hroom : o + wireLength b o ≤ bufferBytes)
    (hwhole : u8At b o = TCPOPT_SACK → WholeBlocks (u8At b (o + 1))) :
    ∃ b', offsetSackOption bufferBytes k.toNat o b = .ok b' ∧ EdgesMoved k [o] b b' := by
  obtain ⟨b', hvisit, hframe⟩ := @offsetSackOption_of_whole b o bufferBytes k.toNat hroom hwhole
  refine ⟨b', hvisit, ?_, fun i hi => hframe i (hi o List.mem_cons_self)⟩
  rintro p ⟨o', ho', hsack, j, rfl, hlast⟩
  obtain rfl := List.mem_singleton.mp ho'
  have hbytes := blocks_bytes (hwhole hsack)
  have hwire := wireLength_of_sack hsack
  have hsize : SACK_BLOCK_BYTES = 8 := rfl
  unfold offsetSackOption at hvisit
  dsimp only at hvisit
  have hlong := (hwhole hsack).1
  rw [if_pos hsack, if_pos (by omega), numSackBlocks_of_whole (hwhole hsack),
    Returns.bind_of_ok rfl, if_pos (by omega)] at hvisit
  rw [← pure_eq_ok_iff.mp hvisit]
  rw [hsize] at hbytes ⊢
  exact offsetWords_word (by omega)

/-- The iterator and `num_sack_blocks` see the same of these options. -/
def SameOptions (b b' : Memory) (options : List Nat) : Prop :=
  ∀ o ∈ options, u8At b' o = u8At b o ∧ wireLength b' o = wireLength b o

theorem Tiles.sameOptions (h : Tiles b e p options r) (hsame : SameStarts b b' options) :
    SameOptions b b' options := by
  intro o ho
  have hformed := (h.mem ho).1
  have hkind : b' o = b o := hsame o ho 0 (by omega) (wireLength_pos hformed)
  exact ⟨congrArg UInt8.toNat hkind, (formed_congr hformed (hsame o ho)).2⟩

theorem SameOptions.edgeAt (h : SameOptions b b' options) :
    EdgeAt b' options p ↔ EdgeAt b options p := by
  unfold EdgeAt
  constructor
  · rintro ⟨o, ho, hsack, j, hp, hlast⟩
    rw [(h o ho).1] at hsack
    rw [(h o ho).2] at hlast
    exact ⟨o, ho, hsack, j, hp, hlast⟩
  · rintro ⟨o, ho, hsack, j, hp, hlast⟩
    rw [← (h o ho).1] at hsack
    rw [← (h o ho).2] at hlast
    exact ⟨o, ho, hsack, j, hp, hlast⟩

theorem SameOptions.outsideSacks (h : SameOptions b b' options) {i : Nat} :
    OutsideSacks b' options i ↔ OutsideSacks b options i := by
  unfold OutsideSacks
  refine forall₂_congr fun o ho => ?_
  rw [(h o ho).1, (h o ho).2]

/-- The first two bytes of an option are in front of its edges. -/
theorem EdgesMoved.sameStarts (hm : EdgesMoved k options b b') (h : Tiles b e p options r) :
    SameStarts b b' options := by
  intro o ho i hi _
  exact hm.outside _ (h.outsideSacks ho (.inl hi))

/-- An edge is no byte of another option. -/
theorem edgeAt_front (h : Tiles b e p options r) {q : Nat} (hq : EdgeAt b options q) :
    p + 2 ≤ q := by
  obtain ⟨o, ho, -, j, rfl, -⟩ := hq
  have := (h.mem ho).2.1
  omega

/-- The step: moving the edges of the first option and then those of the others. -/
theorem EdgesMoved.cons (h : Tiles b e p (p :: options) r) (hfirst : EdgesMoved k [p] b c)
    (hrest : EdgesMoved k options c d) : EdgesMoved k (p :: options) b d := by
  cases h with
  | cons hlt hformed htiles =>
    -- nothing behind the first option has changed, and nothing of it changes later
    have hbehind : ∀ i, p + wireLength b p ≤ i → c i = b i := by
      intro i hi
      apply hfirst.outside
      intro o ho _
      obtain rfl := List.mem_singleton.mp ho
      exact .inr hi
    have hstarts : SameStarts b c options := by
      intro o ho i _ _
      have := (htiles.mem ho).2.1
      exact hbehind _ (by omega)
    have hsame := htiles.sameOptions hstarts
    have hfront : ∀ i, i < p + wireLength b p → d i = c i := by
      intro i hi
      apply hrest.outside
      rw [hsame.outsideSacks]
      intro o ho _
      have := (htiles.mem ho).2.1
      exact .inl (by omega)
    refine ⟨?_, fun i hi => ?_⟩
    · rintro q ⟨o, ho, hsack, j, hq, hlast⟩
      rcases List.mem_cons.mp ho with rfl | ho
      · have hedge : EdgeAt b [o] q := ⟨o, List.mem_singleton_self o, hsack, j, hq, hlast⟩
        rw [be32At_transfer fun k hk => hfront (q + k) (by omega)]
        exact hfirst.edge q hedge
      · have hedge : EdgeAt b options q := ⟨o, ho, hsack, j, hq, hlast⟩
        have hle := edgeAt_front htiles hedge
        rw [hrest.edge q (hsame.edgeAt.mpr hedge),
          be32At_transfer fun k _ => hbehind (q + k) (by omega)]
    · by_cases hi' : i < p + wireLength b p
      · rw [hfront i hi']
        apply hfirst.outside
        intro o ho
        obtain rfl := List.mem_singleton.mp ho
        exact hi o List.mem_cons_self
      · rw [← hbehind i (by omega)]
        apply hrest.outside
        rw [hsame.outsideSacks]
        exact fun o ho => hi o (List.mem_cons_of_mem p ho)

theorem EdgesMoved.none : EdgesMoved k [] b b := by
  refine ⟨?_, fun _ _ => rfl⟩
  rintro p ⟨o, ho, -⟩
  cases ho

/-- The run: the loop moves the edges of all options. -/
theorem Tiles.offsetSacks (h : Tiles b e p options e) (hroom : e ≤ bufferBytes)
    (hwhole : SacksWhole b options) (hn : e - p ≤ n) :
    ∃ d, visitOptions id (offsetSackOption bufferBytes k.toNat) e n p b = .ok d ∧
      EdgesMoved k options b d := by
  induction n generalizing b p options with
  | zero =>
    cases h with
    | nil => exact ⟨b, rfl, .none⟩
    | cons hlt => omega
  | succ n ih =>
    cases h with
    | nil =>
      refine ⟨b, ?_, .none⟩
      rw [visitOptions, if_neg (lt_irrefl _)]
    | @cons _ _ rest hlt hformed htiles =>
      have hall : Tiles b e p (p :: rest) e := .cons hlt hformed htiles
      have hpos := wireLength_pos hformed
      have hinside := wireLength_le hlt hformed
      obtain ⟨c, hvisit, hfirst⟩ := @offsetSackOption_moved b p bufferBytes k (by omega)
        (hwhole p List.mem_cons_self)
      have hstarts : SameStarts b c (p :: rest) := by
        intro o ho i hi hlen
        apply hfirst.outside
        intro o' ho' hsack
        obtain rfl := List.mem_singleton.mp ho'
        rcases List.mem_cons.mp ho with rfl | ho
        · exact .inl (by omega)
        · exact .inr (by have := (htiles.mem ho).2.1; omega)
      have hsame := hall.sameOptions hstarts
      have hrestStarts : SameStarts b c rest := fun o ho => hstarts o (List.mem_cons_of_mem p ho)
      have hformed' := (formed_congr hformed (hstarts p List.mem_cons_self)).1
      have hnext : tcpOptionsNext (id c) p e = .ok (p + wireLength b p) := by
        rw [← (hsame p List.mem_cons_self).2]
        exact tcpOptionsNext_of_formed hlt hformed'
      have hwhole' : SacksWhole c rest := by
        intro o ho hsack
        have hoption := hsame o (List.mem_cons_of_mem p ho)
        rw [hoption.1] at hsack
        have hwire := hoption.2
        rw [wireLength_of_sack hsack, wireLength_of_sack (hoption.1.trans hsack)] at hwire
        rw [hwire]
        exact hwhole o (List.mem_cons_of_mem p ho) hsack
      obtain ⟨d, hloop, hmoved⟩ := ih (htiles.congr hrestStarts) hwhole' (by omega)
      refine ⟨d, ?_, hfirst.cons hall hmoved⟩
      rw [visitOptions, if_pos hlt, hvisit, Returns.bind_of_ok rfl, hnext, Returns.bind_of_ok rfl,
        hloop]

end Moved

/-! ## Passes -/

section Passes

variable {b c d : Memory} {e p r tcp : Nat} {options : List Nat} {k k' : UInt32}
  {packet : FullPacket}

/-- Every byte is an edge's, or one that stays. -/
theorem EdgesMoved.unique (hwhole : SacksWhole b options)
    (hc : EdgesMoved k options b c) (hd : EdgesMoved k options b d) : c = d := by
  funext i
  by_cases hi : OutsideSacks b options i
  · rw [hc.outside i hi, hd.outside i hi]
  · unfold OutsideSacks at hi
    push Not at hi
    obtain ⟨o, ho, hsack, hle, hlt⟩ := hi
    have hwire := wireLength_of_sack hsack
    obtain ⟨hlong, hblocks⟩ := hwhole o ho hsack
    rw [← hwire] at hlong hblocks
    simp only [SACK_BLOCK_BYTES] at hblocks
    have hedge : EdgeAt b options (o + 2 + 4 * ((i - o - 2) / 4)) :=
      ⟨o, ho, hsack, _, rfl, by omega⟩
    have hword := (hc.edge _ hedge).trans (hd.edge _ hedge).symm
    have hbyte := byte_of_be32At hword (by omega : (i - o - 2) % 4 < 4)
    have hplace : o + 2 + 4 * ((i - o - 2) / 4) + (i - o - 2) % 4 = i := by omega
    rwa [hplace] at hbyte

theorem EdgesMoved.zero (b : Memory) (options : List Nat) : EdgesMoved 0 options b b := by
  refine ⟨fun p _ => ?_, fun _ _ => rfl⟩
  exact (Nat.mod_eq_of_lt (be32At_lt b p)).symm

/-- Moving twice moves by the sum. -/
theorem EdgesMoved.trans (h : Tiles b e p options r) (hfirst : EdgesMoved k options b c)
    (hsecond : EdgesMoved k' options c d) : EdgesMoved (k + k') options b d := by
  have hsame := h.sameOptions (hfirst.sameStarts h)
  refine ⟨fun q hq => ?_, fun i hi => ?_⟩
  · have hword := hsecond.edge q (hsame.edgeAt.mpr hq)
    rw [hfirst.edge q hq] at hword
    rw [hword, UInt32.toNat_add]
    omega
  · rw [hsecond.outside i (hsame.outsideSacks.mpr hi), hfirst.outside i hi]

/-- A TCP packet with well-formed options inside its buffer and whole SACK blocks. -/
structure SackPacket (packet : FullPacket) (tcp : Nat) (options : List Nat) : Prop where
  area : OptionsAt packet.toPacket tcp options
  sacks : SacksWhole packet.buffer options
  room : tcp + Tcp.doff packet.buffer tcp * 4 ≤ packet.bufferBytes

theorem offsetSackBlocks_moved (h : SackPacket packet tcp options) (k : UInt32) :
    ∃ b, offsetSackBlocks packet k.toNat = .ok { packet with buffer := b } ∧
      EdgesMoved k options packet.buffer b := by
  have hdoff := h.area.doff
  obtain ⟨b, hloop, hmoved⟩ := @Tiles.offsetSacks packet.buffer _ _ _ _ options k h.area.tiles
    h.room h.sacks le_rfl
  refine ⟨b, ?_, hmoved⟩
  have hrequire : tcp + TCP_BYTES ≤ tcp + Tcp.doff packet.buffer tcp * 4 := by omega
  unfold offsetSackBlocks forTcpOptions
  simp only [h.area.header, packetPayload_of_tcp h.area.header]
  rw [ofFault, halting, Returns.bind_of_ok rfl, require_ok hrequire, halting,
    Returns.bind_of_ok rfl, hloop]
  rfl

/-- The options stay well formed. -/
theorem EdgesMoved.sackPacket (h : SackPacket packet tcp options) {b : Memory}
    (hmoved : EdgesMoved k options packet.buffer b) :
    SackPacket { packet with buffer := b } tcp options := by
  have hstarts := hmoved.sameStarts h.area.tiles
  have hsame := h.area.tiles.sameOptions hstarts
  have hsize : TCP_BYTES = 20 := rfl
  have hdoff : b (tcp + 12) = packet.buffer (tcp + 12) := by
    apply hmoved.outside
    intro o ho _
    have := (h.area.tiles.mem ho).2.1
    exact .inl (by omega)
  refine ⟨h.area.congr rfl hdoff hstarts, fun o ho hsack => ?_, ?_⟩
  · have hlength := (hsame o ho).2
    rw [(hsame o ho).1] at hsack
    rw [wireLength_of_sack hsack, wireLength_of_sack ((hsame o ho).1.trans hsack)] at hlength
    show WholeBlocks (u8At b (o + 1))
    rw [hlength]
    exact h.sacks o ho hsack
  · have hlength : Tcp.doff b tcp = Tcp.doff packet.buffer tcp :=
      congrArg (fun x : UInt8 => x.toNat / 16) hdoff
    show tcp + Tcp.doff b tcp * 4 ≤ packet.bufferBytes
    rw [hlength]
    exact h.room

theorem offsetSackBlocks_add (h : SackPacket packet tcp options) (k k' : UInt32) :
    (offsetSackBlocks packet k.toNat >>= fun moved => offsetSackBlocks moved k'.toNat) =
      offsetSackBlocks packet (k + k').toNat := by
  obtain ⟨b, hfirst, hmoved⟩ := offsetSackBlocks_moved h k
  obtain ⟨c, hsecond, hmoved'⟩ := offsetSackBlocks_moved (hmoved.sackPacket h) k'
  obtain ⟨d, hboth, hsum⟩ := offsetSackBlocks_moved h (k + k')
  have hcd : c = d := (hmoved.trans h.area.tiles hmoved').unique h.sacks hsum
  rw [hfirst, Returns.bind_of_ok rfl, hsecond, hboth, hcd]

theorem offsetSackBlocks_zero (h : SackPacket packet tcp options) :
    offsetSackBlocks packet (0 : UInt32).toNat = .ok packet := by
  obtain ⟨b, hpass, hmoved⟩ := offsetSackBlocks_moved h 0
  rw [hpass, hmoved.unique h.sacks (.zero packet.buffer options)]

/-- On well-formed options a pass moves the edges of the SACK blocks and nothing else, the pass
with the opposite offset restores the packet, and passes compose to that with the sum. -/
theorem offsetSackBlocks_action (h : SackPacket packet tcp options) :
    (∀ k : UInt32, ∃ b, offsetSackBlocks packet k.toNat = .ok { packet with buffer := b } ∧
      EdgesMoved k options packet.buffer b ∧
      offsetSackBlocks { packet with buffer := b } (-k).toNat = .ok packet) ∧
    ∀ k k' : UInt32,
      (offsetSackBlocks packet k.toNat >>= fun moved => offsetSackBlocks moved k'.toNat) =
        offsetSackBlocks packet (k + k').toNat := by
  refine ⟨fun k => ?_, offsetSackBlocks_add h⟩
  obtain ⟨b, hpass, hmoved⟩ := offsetSackBlocks_moved h k
  refine ⟨b, hpass, hmoved, ?_⟩
  have hback := offsetSackBlocks_add h k (-k)
  rw [hpass, Returns.bind_of_ok rfl, UInt32.add_right_neg, offsetSackBlocks_zero h] at hback
  exact hback

end Passes

/-- An ACK with two bytes of padding and a SACK block. -/
def sackArgs : TcpArgs :=
  let options := [1, 1, 5, 10, 0, 0, 0, 1, 0, 0, 0x03, 0xe9]
  { synArgs with
    flags := ".".toList
    tcpOptions := some ⟨.ofFn fun i => options.getD i 0, 12⟩ }

/-- Both edges wrap around and back. -/
theorem offsetSackBlocks_action_back : ∃ packet moved : FullPacket,
    newTcpPacket (fun _ => 0) sackArgs = .ok (.ok packet) ∧
      offsetSackBlocks packet (4294967294 : UInt32).toNat = .ok moved ∧
      offsetSackBlocks moved (-4294967294 : UInt32).toNat = .ok packet := by
  obtain ⟨packet, hnew, htcp, hdoff, hroom, hfirst, hsecond, hthird, hkinds, hlength⟩ :
      ∃ packet : FullPacket, newTcpPacket (fun _ => 0) sackArgs = .ok (.ok packet) ∧
        packet.tcp = some 40 ∧ Tcp.doff packet.buffer 40 = 8 ∧ 72 ≤ packet.bufferBytes ∧
        tcpOptionsNext packet.buffer 60 72 = .ok 61 ∧
        tcpOptionsNext packet.buffer 61 72 = .ok 62 ∧
        tcpOptionsNext packet.buffer 62 72 = .ok 72 ∧
        [60, 61, 62].map (u8At packet.buffer) = [1, 1, 5] ∧ u8At packet.buffer 63 = 10 :=
    ⟨_, rfl, rfl, rfl, by decide, rfl, rfl, rfl, rfl, rfl⟩
  simp only [List.map_cons, List.map_nil, List.cons.injEq, and_true] at hkinds
  obtain ⟨h60, h61, -⟩ := hkinds
  have hend : 40 + Tcp.doff packet.buffer 40 * 4 = 72 := by rw [hdoff]
  have htiles : Tiles packet.buffer 72 60 [60, 61, 62] 72 :=
    .of_next (by decide) hfirst
      (.of_next (by decide) hsecond (.of_next (by decide) hthird (.nil 72)))
  have hwhole : SacksWhole packet.buffer [60, 61, 62] := by
    simp [SacksWhole, h60, h61, hlength, TCPOPT_SACK, WholeBlocks, SACK_BLOCK_BYTES]
  have hpacket : SackPacket packet 40 [60, 61, 62] :=
    ⟨⟨htcp, by rw [hdoff]; decide, by rw [hend]; exact htiles⟩, hwhole, by rw [hend]; exact hroom⟩
  obtain ⟨b, hpass, -, hback⟩ := (offsetSackBlocks_action hpacket).1 4294967294
  exact ⟨packet, _, hnew, hpass, hback⟩

end QoSMos
