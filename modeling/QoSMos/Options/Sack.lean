import QoSMos.Options.Loop

/-!
# SACK blocks at the end of the options

`offset_sack_blocks` takes the length byte and the blocks of an option as they are. So a SACK
option that the iterator would refuse makes it read, and add to, bytes behind the option area.
-/

namespace QoSMos

open Returns

/-- The body of the loop of `offset_sack_blocks`, with the bytes that it reads and writes. -/
def traceSackOption (ackOffset option : Nat) (b : Memory) : Access Memory := do
  Traced.touch [option]
  if u8At b option = TCPOPT_SACK then
    Traced.touch [option + 1]
    let numBlocks ← Traced.lift (numSackBlocks (u8At b (option + 1)))
    Traced.touch (List.range' (option + 2) (SACK_BLOCK_BYTES * numBlocks))
    return offsetWords ackOffset (option + 2) (2 * numBlocks) b
  else return b

/-- `offset_sack_blocks` in a memory that has no end -/
def traceSackBlocks (packet : Packet) (ackOffset : Nat) : Access Packet := do
  let b ← traceTcpOptions id (traceSackOption ackOffset) packet packet.buffer
  return { packet with buffer := b }

/-- `num_sack_blocks` accepts the length. -/
def WholeBlocks (length : Nat) : Prop := 2 < length ∧ (length - 2) % SACK_BLOCK_BYTES = 0

/-- The length byte of a SACK option at `q` and the blocks that it announces are in front of
`e`. -/
def SackFits (b : Memory) (e q : Nat) : Prop :=
  u8At b q = TCPOPT_SACK →
    q + 1 < e ∧ (WholeBlocks (u8At b (q + 1)) → q + u8At b (q + 1) ≤ e)

/-- No SACK option is cut off by the end of the area: neither the first malformed option nor any
in front of it, as far as `num_sack_blocks` lets the loop get. -/
def SacksFit (b : Memory) (e start : Nat) : Prop :=
  ∀ visited q, Tiles b e start visited q → q < e →
    (∀ o ∈ visited, u8At b o = TCPOPT_SACK → WholeBlocks (u8At b (o + 1))) → SackFits b e q

section Sack

variable {b b' : Memory} {e start p q ackOffset option n length : Nat} {visited : List Nat}
  {good : Failure → Prop}

theorem numSackBlocks_of_whole (h : WholeBlocks length) :
    numSackBlocks length = .ok ((length - 2) / SACK_BLOCK_BYTES) := by
  unfold numSackBlocks
  rw [check_ok h.1, check_ok h.2]
  rfl

theorem numSackBlocks_of_not_whole (h : ¬ WholeBlocks length) :
    ∃ message, numSackBlocks length = .error (.error message) := by
  unfold numSackBlocks
  by_cases hlong : 2 < length
  · rw [check_ok hlong, check_error fun hwhole => h ⟨hlong, hwhole⟩]
    exact ⟨_, rfl⟩
  · rw [check_error hlong]
    exact ⟨_, rfl⟩

/-- The bytes of the blocks that a length announces -/
theorem blocks_bytes (h : WholeBlocks length) :
    2 + SACK_BLOCK_BYTES * ((length - 2) / SACK_BLOCK_BYTES) = length := by
  have := h.1
  have := Nat.div_add_mod (length - 2) SACK_BLOCK_BYTES
  rw [h.2] at this
  omega

theorem offsetWords_behind {i : Nat} (hi : p + 4 * n ≤ i) :
    offsetWords ackOffset p n b i = b i := by
  induction n generalizing b p with
  | zero => rfl
  | succ n ih =>
    rw [offsetWords, ih (by omega), writeBytes_outside]
    right
    simp only [length_be32]
    omega

/-- Where a visit of an option gets to, and what it leaves. -/
theorem traceSackOption_result (b : Memory) (option : Nat) :
    (traceSackOption ackOffset option b).result =
      if u8At b option = TCPOPT_SACK then
        numSackBlocks (u8At b (option + 1)) >>= fun numBlocks =>
          .ok (offsetWords ackOffset (option + 2) (2 * numBlocks) b)
      else .ok b := by
  unfold traceSackOption
  by_cases hsack : u8At b option = TCPOPT_SACK
  · rw [if_pos hsack, if_pos hsack]
    cases numSackBlocks (u8At b (option + 1)) <;> rfl
  · rw [if_neg hsack, if_neg hsack]
    rfl

/-- A visit returns unless the length of a SACK option is bad, and changes nothing but its
blocks. -/
theorem traceSackOption_ok (h : u8At b option = TCPOPT_SACK → WholeBlocks (u8At b (option + 1))) :
    ∃ b', (traceSackOption ackOffset option b).result = .ok b' ∧
      ∀ i, i < option + 2 ∨ u8At b option = TCPOPT_SACK ∧ option + u8At b (option + 1) ≤ i ∨
        u8At b option ≠ TCPOPT_SACK → b' i = b i := by
  rw [traceSackOption_result]
  by_cases hsack : u8At b option = TCPOPT_SACK
  · have hbytes := blocks_bytes (h hsack)
    rw [if_pos hsack, numSackBlocks_of_whole (h hsack)]
    refine ⟨_, rfl, fun i hi => ?_⟩
    rcases hi with hi | ⟨-, hi⟩ | hne
    · exact offsetWords_before hi
    · refine offsetWords_behind ?_
      have : SACK_BLOCK_BYTES = 8 := rfl
      rw [this] at *
      omega
    · exact absurd hsack hne
  · rw [if_neg hsack]
    exact ⟨b, rfl, fun i _ => rfl⟩

theorem traceSackOption_within_iff (hstart : start ≤ q) (hlt : q < e) :
    (traceSackOption ackOffset q b).Within (fun c => start ≤ c ∧ c < e) ↔ SackFits b e q := by
  unfold traceSackOption SackFits
  by_cases hsack : u8At b q = TCPOPT_SACK
  · simp only [if_pos hsack, Traced.within_bind, Traced.within_touch, Traced.within_lift,
      Traced.within_pure, List.mem_singleton, List.mem_range'_1, Traced.result_lift, forall_eq,
      implies_true, and_true]
    by_cases hwhole : WholeBlocks (u8At b (q + 1))
    · have hbytes := blocks_bytes hwhole
      have hlong := hwhole.1
      simp only [numSackBlocks_of_whole hwhole, hwhole, hsack, Traced.result_touch,
        Except.ok.injEq, forall_eq', forall_const, true_and]
      constructor
      · rintro ⟨-, hlength, hblocks⟩
        have hend := hblocks (q + u8At b (q + 1) - 1) (by omega)
        omega
      · intro hinside
        refine ⟨by omega, by omega, fun c hc => by omega⟩
    · obtain ⟨message, hmessage⟩ := numSackBlocks_of_not_whole hwhole
      simp [hmessage, hwhole, hsack]
      omega
  · simp only [if_neg hsack, Traced.within_bind, Traced.within_touch, Traced.within_pure,
      List.mem_singleton, implies_true, and_true]
    simp [hsack]
    omega

/-- The iterator looks at the first two bytes of an option. -/
theorem malformed_congr (h0 : u8At b' q = u8At b q) (h1 : u8At b' (q + 1) = u8At b (q + 1)) :
    Malformed b' e q ↔ Malformed b e q := by
  simp only [Malformed, h0, h1]

theorem wireLength_congr (h0 : u8At b' q = u8At b q) (h1 : u8At b' (q + 1) = u8At b (q + 1)) :
    wireLength b' q = wireLength b q := by
  simp only [wireLength, h0, h1]

theorem wireLength_of_sack (h : u8At b q = TCPOPT_SACK) : wireLength b q = u8At b (q + 1) := by
  unfold wireLength
  rw [if_neg (by rw [h]; decide)]

/-- A visit changes neither what the iterator sees of the option nor what is behind it. -/
theorem traceSackOption_keeps
    (h : u8At b p = TCPOPT_SACK → WholeBlocks (u8At b (p + 1))) :
    ∃ b', (traceSackOption ackOffset p b).result = .ok b' ∧
      u8At b' p = u8At b p ∧ u8At b' (p + 1) = u8At b (p + 1) ∧
        ∀ i ≥ p + wireLength b p, b' i = b i := by
  obtain ⟨b', hvisit, hframe⟩ := @traceSackOption_ok b ackOffset p h
  refine ⟨b', hvisit, congrArg UInt8.toNat (hframe p (by omega)),
    congrArg UInt8.toNat (hframe (p + 1) (by omega)), fun i hi => ?_⟩
  by_cases hsack : u8At b p = TCPOPT_SACK
  · rw [wireLength_of_sack hsack] at hi
    exact hframe i (.inr (.inl ⟨hsack, hi⟩))
  · exact hframe i (.inr (.inr hsack))

/-- A visit that returns had whole blocks, if it was one of a SACK option. -/
theorem whole_of_traceSackOption (h : (traceSackOption ackOffset p b).result = .ok b')
    (hsack : u8At b p = TCPOPT_SACK) : WholeBlocks (u8At b (p + 1)) := by
  by_contra hnot
  obtain ⟨message, hmessage⟩ := numSackBlocks_of_not_whole hnot
  rw [traceSackOption_result, if_pos hsack, hmessage] at h
  cases h

/-- The memory has the bytes of `b` from `p` on. -/
def SameFrom (b : Memory) (p : Nat) (b' : Memory) : Prop := ∀ i ≥ p, b' i = b i

theorem SameFrom.u8At {i : Nat} (h : SameFrom b p b') (hi : p ≤ i) : u8At b' i = u8At b i :=
  congrArg UInt8.toNat (h i hi)

/-- The options in front of one that the loop reaches are well formed and have whole blocks, and
behind them nothing has changed. -/
theorem Reached.tiles {t : Memory}
    (h : Reached id (traceSackOption ackOffset) e p b' q t) (hsame : SameFrom b p b') :
    SameFrom b q t ∧ ∃ visited, Tiles b e p visited q ∧
      ∀ o ∈ visited, u8At b o = TCPOPT_SACK → WholeBlocks (u8At b (o + 1)) := by
  induction h with
  | refl p s => exact ⟨hsame, [], .nil p, by simp⟩
  | @head p q s s' t hlt hvisit hformed hrest ih =>
    have h0 := hsame.u8At (le_refl p)
    have h1 := hsame.u8At (Nat.le_succ p)
    have hwhole := @whole_of_traceSackOption s s' p ackOffset hvisit
    obtain ⟨s'', hvisit', hkind, hlength, hbehind⟩ := @traceSackOption_keeps s p ackOffset hwhole
    obtain rfl := Except.ok.inj (hvisit.symm.trans hvisit')
    rw [id, malformed_congr (hkind.trans h0) (hlength.trans h1)] at hformed
    have hwire := wireLength_congr (hkind.trans h0) (hlength.trans h1)
    have hwire' := wireLength_congr h0 h1
    rw [id, hwire] at ih
    rw [hwire'] at hbehind
    have hpos := wireLength_pos hformed
    obtain ⟨hrestSame, visited, htiles, hvisited⟩ := ih fun i hi => by
      rw [hbehind i hi]
      exact hsame i (by omega)
    refine ⟨hrestSame, p :: visited, .cons hlt hformed htiles, fun o ho hsack => ?_⟩
    rcases List.mem_cons.mp ho with rfl | ho
    · rw [← h0] at hsack
      rw [← h1]
      exact hwhole hsack
    · exact hvisited o ho hsack

/-- And the loop reaches every option behind such ones. -/
theorem Tiles.reached (h : Tiles b e p visited q)
    (hwhole : ∀ o ∈ visited, u8At b o = TCPOPT_SACK → WholeBlocks (u8At b (o + 1)))
    (hsame : SameFrom b p b') : ∃ t, Reached id (traceSackOption ackOffset) e p b' q t := by
  induction h generalizing b' with
  | nil p => exact ⟨b', .refl p b'⟩
  | @cons p r options hlt hformed hrest ih =>
    have h0 := hsame.u8At (le_refl p)
    have h1 := hsame.u8At (Nat.le_succ p)
    obtain ⟨b'', hvisit, hkind, hlength, hbehind⟩ := @traceSackOption_keeps b' p ackOffset
      (by rw [h0, h1]; exact hwhole p (by simp))
    have hwire := wireLength_congr (hkind.trans h0) (hlength.trans h1)
    rw [wireLength_congr h0 h1] at hbehind
    obtain ⟨t, hreached⟩ := @ih b'' (fun o ho => hwhole o (List.mem_cons_of_mem _ ho))
      fun i hi => by
        have hpos := wireLength_pos hformed
        rw [hbehind i hi]
        exact hsame i (by omega)
    refine ⟨t, .head hlt hvisit ?_ ?_⟩
    · rwa [id, malformed_congr (hkind.trans h0) (hlength.trans h1)]
    · rwa [id, hwire]

end Sack

/-! ## The law -/

/-- Where `offset_sack_blocks` returns in a buffer, it does the same in a memory without an end. -/
theorem traceSackBlocks_result {packet packet' : FullPacket} {ackOffset : Nat}
    (hok : offsetSackBlocks packet ackOffset = .ok packet') :
    (traceSackBlocks packet.toPacket ackOffset).result = .ok packet'.toPacket := by
  obtain ⟨b, hloop, hpacket⟩ := bind_eq_ok_iff.mp hok
  obtain rfl := pure_eq_ok_iff.mp hpacket
  have htraced : forTcpOptions id
      (fun option s => (traceSackOption ackOffset option s).result)
      packet.toPacket packet.buffer = .ok b := by
    refine forTcpOptions_mono (fun option s s' hvisit => ?_) hloop
    unfold offsetSackOption at hvisit
    rw [traceSackOption_result]
    split_ifs at hvisit ⊢ with hsack hlength
    · obtain ⟨numBlocks, hblocks, hvisit⟩ := bind_eq_ok_iff.mp hvisit
      split_ifs at hvisit
      rwa [bind_of_ok hblocks]
    · exact hvisit
  unfold traceSackBlocks
  rw [Traced.result_bind, traceTcpOptions_result, bind_of_ok htraced]
  rfl

/-- On a packet that the parser has accepted with TCP on top, `offset_sack_blocks` stays in the
option area if and only if no SACK option is cut off by its end. -/
theorem traceSackBlocks_within_iff {b : Memory} {bufferBytes inBytes tcp : Nat}
    {layer : PacketLayer} {s : ParseState}
    (hrun : runParsePacket b bufferBytes inBytes layer = .ok (.ok, s))
    (htcp : s.packet.tcp = some tcp) (ackOffset : Nat) :
    (traceSackBlocks s.packet ackOffset).Within (fun c => tcp + TCP_BYTES ≤ c ∧
        c < tcp + Tcp.doff s.packet.buffer tcp * 4) ↔
      SacksFit s.packet.buffer (tcp + Tcp.doff s.packet.buffer tcp * 4) (tcp + TCP_BYTES) := by
  have hdoff := (accepted_tcp hrun htcp).1
  have hloop := @traceTcpOptions_safe_iff Memory id (traceSackOption ackOffset) s.packet.buffer
    (fun _ => True) (fun _ => trivial) s.packet tcp htcp hdoff
  obtain ⟨e, he⟩ : ∃ e, e = tcp + Tcp.doff s.packet.buffer tcp * 4 := ⟨_, rfl⟩
  rw [← he] at hloop ⊢
  simp only [Access.Safe, implies_true, and_true] at hloop
  unfold traceSackBlocks
  rw [Traced.within_bind]
  simp only [Traced.within_pure, implies_true, and_true]
  rw [hloop]
  constructor
  · intro hall visited q htiles hlt hwhole
    obtain ⟨t, hreached⟩ := @Tiles.reached _ s.packet.buffer _ _ _ ackOffset _ htiles hwhole
      fun i _ => rfl
    have hsame := (hreached.tiles fun i _ => rfl).1
    have hfits := (traceSackOption_within_iff htiles.le hlt).mp (hall q t hreached hlt)
    unfold SackFits at hfits ⊢
    rwa [hsame.u8At le_rfl, hsame.u8At (Nat.le_succ q)] at hfits
  · intro hall q t hreached hlt
    obtain ⟨hsame, visited, htiles, hwhole⟩ := hreached.tiles fun i _ => rfl
    have hfits := hall visited q htiles hlt hwhole
    refine (traceSackOption_within_iff htiles.le hlt).mpr ?_
    unfold SackFits at hfits ⊢
    rwa [hsame.u8At le_rfl, hsame.u8At (Nat.le_succ q)]

theorem traceSackBlocks_within_iff_cut :
    ∃ s, runParsePacket (.ofList (optionsPacket #v[5, 10, 0, 0])) 44 44 .layer3Ip = .ok (.ok, s) ∧
      ((traceSackBlocks s.packet 1).Within (fun c => 20 + TCP_BYTES ≤ c ∧
          c < 20 + Tcp.doff s.packet.buffer 20 * 4) ↔
        SacksFit s.packet.buffer (20 + Tcp.doff s.packet.buffer 20 * 4) (20 + TCP_BYTES)) :=
  ⟨_, rfl, @traceSackBlocks_within_iff (.ofList (optionsPacket #v[5, 10, 0, 0])) 44 44 20 .layer3Ip
    _ rfl rfl 1⟩

/-- An edge of the block behind the last four bytes is read, and written. -/
theorem not_traceSackBlocks_within :
    ¬ ∀ (b : Memory) (bufferBytes inBytes tcp : Nat) (layer : PacketLayer) (s : ParseState),
      runParsePacket b bufferBytes inBytes layer = .ok (.ok, s) → s.packet.tcp = some tcp →
        ∀ ackOffset, (traceSackBlocks s.packet ackOffset).Within fun c =>
          tcp + TCP_BYTES ≤ c ∧ c < tcp + Tcp.doff s.packet.buffer tcp * 4 := by
  intro h
  have hwithin := h (.ofList (optionsPacket #v[5, 10, 0, 0])) 44 44 20 .layer3Ip _ rfl rfl 1 44
  exact absurd (hwithin (by decide +kernel)) (by decide +kernel)

end QoSMos
