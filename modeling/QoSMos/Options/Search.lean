import Mathlib.Data.List.Find
import QoSMos.Options.Sack
import QoSMos.Outbound.MapPacket

/-!
# Loops over well-formed options

On an option area that is covered by well-formed options a loop visits all of them in order.
`find_tcp_timestamp` finds the last timestamp, and `offset_sack_blocks` leaves everything but the
blocks of SACK options as it is.
-/

namespace QoSMos

open Returns

/-- Well-formed options at these places cover the option area behind the header at `tcp`. -/
structure OptionsAt (packet : Packet) (tcp : Nat) (options : List Nat) : Prop where
  header : packet.tcp = some tcp
  doff : TCP_BYTES ≤ Tcp.doff packet.buffer tcp * 4
  tiles : Tiles packet.buffer (tcp + Tcp.doff packet.buffer tcp * 4) (tcp + TCP_BYTES) options
    (tcp + Tcp.doff packet.buffer tcp * 4)

/-- The last timestamp option among these. -/
def lastTimestamp (b : Memory) (options : List Nat) : Option Nat :=
  options.reverse.find? fun o => u8At b o = TCPOPT_TIMESTAMP

/-- Every SACK option has whole blocks. -/
def SacksWhole (b : Memory) (options : List Nat) : Prop :=
  ∀ o ∈ options, u8At b o = TCPOPT_SACK → WholeBlocks (u8At b (o + 1))

/-- No byte of a SACK block -/
def OutsideSacks (b : Memory) (options : List Nat) (i : Nat) : Prop :=
  ∀ o ∈ options, u8At b o = TCPOPT_SACK → i < o + 2 ∨ o + wireLength b o ≤ i

section Tiles

variable {b b' : Memory} {e p r o o' i : Nat} {options : List Nat}

/-- The iterator looks at the second byte of an option only if there is one. -/
theorem formed_congr (hformed : ¬ Malformed b e o)
    (hsame : ∀ i < 2, i < wireLength b o → b' (o + i) = b (o + i)) :
    ¬ Malformed b' e o ∧ wireLength b' o = wireLength b o := by
  have hpos := wireLength_pos hformed
  have h0 : u8At b' o = u8At b o := congrArg UInt8.toNat (hsame 0 (by omega) hpos)
  by_cases hsingle : u8At b o ∈ singleByteKinds
  · refine ⟨?_, ?_⟩
    · rw [Malformed, h0]
      rintro (hunknown | ⟨hmulti, -⟩)
      · exact hunknown (.inl hsingle)
      · exact hmulti hsingle
    · rw [wireLength, wireLength, h0, if_pos hsingle, if_pos hsingle]
  · have hlong : 2 ≤ u8At b (o + 1) := by
      by_contra hshort
      exact hformed (.inr ⟨hsingle, .inr (.inl (by omega))⟩)
    have hwire : wireLength b o = u8At b (o + 1) := if_neg hsingle
    have h1 : u8At b' (o + 1) = u8At b (o + 1) :=
      congrArg UInt8.toNat (hsame 1 (by omega) (by omega))
    exact ⟨mt (malformed_congr h0 h1).mp hformed, wireLength_congr h0 h1⟩

/-- The first two bytes of every option are as in `b`. -/
def SameStarts (b b' : Memory) (options : List Nat) : Prop :=
  ∀ o ∈ options, ∀ i < 2, i < wireLength b o → b' (o + i) = b (o + i)

/-- The iterator sees the same options while they start with the same bytes. -/
theorem Tiles.congr (h : Tiles b e p options r) (hsame : SameStarts b b' options) :
    Tiles b' e p options r := by
  induction h with
  | nil p => exact .nil p
  | @cons p r options hlt hformed hrest ih =>
    obtain ⟨hformed', hwire⟩ := formed_congr hformed (hsame p List.mem_cons_self)
    refine .cons hlt hformed' ?_
    rw [hwire]
    exact ih fun o ho => hsame o (List.mem_cons_of_mem _ ho)

/-- An option that the iterator accepts is the first one of a tiling. -/
theorem Tiles.of_next (hlt : o < e) (hnext : tcpOptionsNext b o e = .ok p)
    (hrest : Tiles b e p options r) : Tiles b e o (o :: options) r := by
  obtain ⟨hformed, rfl⟩ := (readTcpOptionsNext_ok_iff hlt).mp
    (readTcpOptionsNext_result.trans hnext)
  exact .cons hlt hformed hrest

/-- There is one way to cover an area. -/
theorem Tiles.unique {options' : List Nat} (h : Tiles b e p options r) (hr : r = e)
    (h' : Tiles b e p options' r) : options = options' := by
  induction h generalizing options' with
  | nil p =>
    cases h' with
    | nil => rfl
    | cons hlt => omega
  | cons hlt hformed hrest ih =>
    cases h' with
    | nil => omega
    | cons hlt' hformed' hrest' => rw [ih hr hrest']

/-- Two options are the same or do not overlap. -/
theorem Tiles.apart (h : Tiles b e p options r) (ho : o ∈ options) (ho' : o' ∈ options) :
    o = o' ∨ o + wireLength b o ≤ o' ∨ o' + wireLength b o' ≤ o := by
  induction h with
  | nil p => cases ho
  | cons hlt hformed hrest ih =>
    rcases List.mem_cons.mp ho with hp | ho <;> rcases List.mem_cons.mp ho' with hp' | ho'
    · exact .inl (hp.trans hp'.symm)
    · exact .inr (.inl (hp ▸ (hrest.mem ho').2.1))
    · exact .inr (.inr (hp' ▸ (hrest.mem ho).2.1))
    · exact ih ho ho'

/-- The first two bytes of an option are in no SACK block, and neither are those of an option of
another kind. -/
theorem Tiles.outsideSacks (h : Tiles b e p options r) (ho : o ∈ options)
    (hi : i < 2 ∨ u8At b o ≠ TCPOPT_SACK ∧ i < wireLength b o) :
    OutsideSacks b options (o + i) := by
  intro o' ho' hsack
  have hpos := wireLength_pos (h.mem ho).1
  rcases h.apart ho ho' with rfl | hlt | hlt
  · rcases hi with hi | ⟨hne, -⟩
    · exact .inl (by omega)
    · exact absurd hsack hne
  · exact .inl (by omega)
  · exact .inr (by omega)

theorem wireLength_of_timestamp (hformed : ¬ Malformed b e o)
    (hkind : u8At b o = TCPOPT_TIMESTAMP) : wireLength b o = TCPOLEN_TIMESTAMP := by
  have hmulti : u8At b o ∉ singleByteKinds := by
    rw [hkind]
    decide
  have hfixed : (u8At b o, TCPOLEN_TIMESTAMP) ∈ fixedLengths := by
    rw [hkind]
    decide
  unfold wireLength
  rw [if_neg hmulti]
  by_contra hne
  exact hformed (.inr ⟨hmulti, .inr (.inr (.inr ⟨_, hfixed, hne⟩))⟩)

end Tiles

/-! ## The iterator -/

section Iterated

variable {b : Memory} {e p r tcp fuel : Nat} {options : List Nat} {packet : Packet}

theorem Tiles.add_length_le (h : Tiles b e p options r) : p + options.length ≤ r := by
  induction h with
  | nil p => rfl
  | cons hlt hformed hrest ih =>
    have hpos := wireLength_pos hformed
    rw [List.length_cons]
    omega

/-- The calls of the iterator visit the options that cover the area. -/
theorem Tiles.iterateOptions_eq (h : Tiles b e p options r) (hr : r = e)
    (hfuel : options.length < fuel) :
    (iterateOptions b e fuel (.at e p)).result = .ok (options, none) := by
  induction h generalizing fuel with
  | nil p =>
    subst hr
    obtain ⟨fuel, rfl⟩ := Nat.exists_eq_add_one_of_ne_zero (by omega : fuel ≠ 0)
    exact iterateOptions_end
  | cons hlt hformed hrest ih =>
    obtain ⟨fuel, rfl⟩ := Nat.exists_eq_add_one_of_ne_zero (by omega : fuel ≠ 0)
    rw [List.length_cons] at hfuel
    exact iterateOptions_of_formed hlt hformed (ih hr (by omega))

theorem runIterator_of_options (h : OptionsAt packet tcp options)
    (hfuel : Tcp.doff packet.buffer tcp * 4 - TCP_BYTES < fuel) :
    (runIterator fuel packet).result = .ok (options, none) := by
  have hlength := h.tiles.add_length_le
  unfold runIterator
  rw [tcpOptionsBegin_eq h.header h.doff]
  exact h.tiles.iterateOptions_eq rfl (by omega)

end Iterated

/-! ## Visits that only read -/

section Pure

variable {σ : Type} {b : Memory} {e p r n : Nat} {options : List Nat} {step : σ → Nat → σ}
  {s s' : σ} {packet packet' : FullPacket} {tcp : Nat}

/-- A loop that only reads folds over the options. -/
theorem Tiles.visitOptions_eq (h : Tiles b e p options r) (hr : r = e) (hn : e - p ≤ n) :
    visitOptions (fun _ => b) (fun o s => .ok (step s o)) e n p s =
      .ok (options.foldl step s) := by
  induction h generalizing n s with
  | nil p =>
    subst hr
    cases n with
    | zero => rfl
    | succ n =>
      rw [visitOptions, if_neg (lt_irrefl _)]
      rfl
  | @cons p r options hlt hformed hrest ih =>
    subst hr
    have hpos := wireLength_pos hformed
    obtain ⟨n, rfl⟩ := Nat.exists_eq_add_one_of_ne_zero (by omega : n ≠ 0)
    rw [visitOptions, if_pos hlt, Returns.bind_of_ok rfl, tcpOptionsNext_of_formed hlt hformed,
      Returns.bind_of_ok rfl]
    exact ih rfl (by omega)

/-- And it comes to an end only behind well-formed ones. -/
theorem tiles_of_visitOptions (hle : p ≤ e) (hn : e - p ≤ n)
    (hok : visitOptions (fun _ => b) (fun o s => .ok (step s o)) e n p s = .ok s') :
    ∃ options, Tiles b e p options e := by
  induction n generalizing p s with
  | zero =>
    obtain rfl : p = e := by omega
    exact ⟨[], .nil p⟩
  | succ n ih =>
    rw [visitOptions] at hok
    by_cases hlt : p < e
    · rw [if_pos hlt, Returns.bind_of_ok rfl] at hok
      obtain ⟨next, hnext, hok⟩ := bind_eq_ok_iff.mp hok
      obtain ⟨hformed, hwire⟩ := (readTcpOptionsNext_ok_iff hlt).mp
        (readTcpOptionsNext_result.trans hnext)
      have hpos := wireLength_pos hformed
      have hinside := wireLength_le hlt hformed
      obtain ⟨options, htiles⟩ := ih (by omega) (by omega) hok
      exact ⟨p :: options, htiles.of_next hlt hnext⟩
    · obtain rfl : p = e := by omega
      exact ⟨[], .nil p⟩

/-- What `find_tcp_timestamp` has found behind some options. -/
def foundAt (last : Option Nat) : Option Nat × Option Nat := (last.map (· + 2), last.map (· + 6))

theorem foldl_timestamp (options : List Nat) :
    options.foldl (fun found o => if u8At b o = TCPOPT_TIMESTAMP then (some (o + 2), some (o + 6))
      else found) (none, none) = foundAt (lastTimestamp b options) := by
  induction options using List.reverseRecOn with
  | nil => rfl
  | append_singleton options o ih =>
    rw [List.foldl_concat, ih]
    by_cases hkind : u8At b o = TCPOPT_TIMESTAMP <;> simp [hkind, foundAt, lastTimestamp]

/-- A packet with the timestamp that was found. -/
def FullPacket.withTimestamp (packet : FullPacket) (last : Option Nat) : FullPacket :=
  { packet with tcpTsVal := (foundAt last).1, tcpTsEcr := (foundAt last).2 }

theorem findTcpTimestamp_visit : (fun (option : Nat) (found : Option Nat × Option Nat) =>
    if u8At b option = TCPOPT_TIMESTAMP then
      (.ok (some (option + 2), some (option + 6)) : Status (Option Nat × Option Nat))
    else .ok found) =
    fun option found => .ok (if u8At b option = TCPOPT_TIMESTAMP then
      (some (option + 2), some (option + 6)) else found) := by
  funext option found
  split <;> rfl

theorem findTcpTimestamp_of_options {options : List Nat}
    (h : OptionsAt packet.toPacket tcp options) :
    findTcpTimestamp packet = .ok (packet.withTimestamp (lastTimestamp packet.buffer options)) := by
  have hpayload : packetPayload packet.toPacket =
      .ok (tcp + Tcp.doff packet.buffer tcp * 4) := by rw [packetPayload, h.header]
  have hdoff := h.doff
  unfold findTcpTimestamp forTcpOptions
  simp only [h.header, hpayload, findTcpTimestamp_visit]
  have hrequire : tcp + TCP_BYTES ≤ tcp + Tcp.doff packet.buffer tcp * 4 := by omega
  rw [ofFault, halting, Returns.bind_of_ok rfl, require_ok hrequire, halting,
    Returns.bind_of_ok rfl, h.tiles.visitOptions_eq rfl le_rfl, foldl_timestamp]
  rfl

/-- `find_tcp_timestamp` returns if the options are well formed, and only then. -/
theorem findTcpTimestamp_eq_ok_iff : findTcpTimestamp packet = .ok packet' ↔
    ∃ tcp options, OptionsAt packet.toPacket tcp options ∧
      packet' = packet.withTimestamp (lastTimestamp packet.buffer options) := by
  constructor
  · intro hok
    obtain ⟨tcp, options, h⟩ : ∃ tcp options, OptionsAt packet.toPacket tcp options := by
      unfold findTcpTimestamp forTcpOptions at hok
      cases htcp : packet.tcp with
      | none =>
        simp only [htcp] at hok
        cases hok
      | some tcp =>
        have hpayload : packetPayload packet.toPacket =
            .ok (tcp + Tcp.doff packet.buffer tcp * 4) := by rw [packetPayload, htcp]
        simp only [htcp, hpayload, findTcpTimestamp_visit] at hok
        obtain ⟨found, hloop, -⟩ := bind_eq_ok_iff.mp hok
        rw [ofFault, halting, Returns.bind_of_ok rfl] at hloop
        obtain ⟨_, hrequire, hloop⟩ := bind_eq_ok_iff.mp hloop
        have hle : tcp + TCP_BYTES ≤ tcp + Tcp.doff packet.buffer tcp * 4 :=
          require_eq_ok_iff.mp (halting_eq_ok_iff.mp hrequire)
        obtain ⟨options, htiles⟩ := tiles_of_visitOptions hle le_rfl hloop
        exact ⟨tcp, options, htcp, by omega, htiles⟩
    refine ⟨tcp, options, h, ?_⟩
    exact Except.ok.inj (hok.symm.trans (findTcpTimestamp_of_options h))
  · rintro ⟨tcp, options, h, rfl⟩
    exact findTcpTimestamp_of_options h

end Pure

/-! ## SACK blocks -/

section Sacks

variable {b b' : Memory} {e p r o bufferBytes ackOffset n tcp : Nat} {options : List Nat}
  {packet : FullPacket}

/-- A visit of a well-formed option inside the buffer changes nothing but blocks. -/
theorem offsetSackOption_of_whole (hroom : o + wireLength b o ≤ bufferBytes)
    (hwhole : u8At b o = TCPOPT_SACK → WholeBlocks (u8At b (o + 1))) :
    ∃ b', offsetSackOption bufferBytes ackOffset o b = .ok b' ∧
      ∀ i, (u8At b o = TCPOPT_SACK → i < o + 2 ∨ o + wireLength b o ≤ i) → b' i = b i := by
  unfold offsetSackOption
  dsimp only
  by_cases hsack : u8At b o = TCPOPT_SACK
  · have hbytes := blocks_bytes (hwhole hsack)
    have hwire := wireLength_of_sack hsack
    have hlong := (hwhole hsack).1
    rw [if_pos hsack, if_pos (by omega), numSackBlocks_of_whole (hwhole hsack),
      Returns.bind_of_ok rfl, if_pos (by omega)]
    refine ⟨_, rfl, fun i hi => ?_⟩
    rcases hi hsack with hi | hi
    · exact offsetWords_before hi
    · have hsize : SACK_BLOCK_BYTES = 8 := rfl
      rw [hsize] at hbytes
      exact offsetWords_behind (by rw [hsize]; omega)
  · rw [if_neg hsack]
    exact ⟨b, rfl, fun i _ => rfl⟩

/-- The loop over well-formed options leaves everything but the blocks. -/
theorem Tiles.leaveOptions_eq (h : Tiles b e p options r) (hr : r = e) (hroom : e ≤ bufferBytes)
    (hwhole : SacksWhole b options) (hsame : SameFrom b p b') (hn : e - p ≤ n) :
    ∃ b'', leaveOptions id (offsetSackOption bufferBytes ackOffset) e n p b' = (b'', .ok ()) ∧
      ∀ i, OutsideSacks b options i → b'' i = b' i := by
  induction h generalizing n b' with
  | nil p =>
    subst hr
    refine ⟨b', ?_, fun i _ => rfl⟩
    cases n with
    | zero => rfl
    | succ n => rw [leaveOptions, if_neg (lt_irrefl _)]
  | @cons p r options hlt hformed hrest ih =>
    obtain rfl := hr.symm
    have hpos := wireLength_pos hformed
    have hinside := wireLength_le hlt hformed
    have h0 := hsame.u8At (le_refl p)
    have h1 := hsame.u8At (Nat.le_succ p)
    have hwire := wireLength_congr h0 h1
    obtain ⟨n, rfl⟩ := Nat.exists_eq_add_one_of_ne_zero (by omega : n ≠ 0)
    have hwhole' : u8At b' p = TCPOPT_SACK → WholeBlocks (u8At b' (p + 1)) := by
      rw [h0, h1]
      exact hwhole p List.mem_cons_self
    obtain ⟨c, hvisit, hframe⟩ := @offsetSackOption_of_whole b' p bufferBytes ackOffset
      (by rw [hwire]; omega) hwhole'
    rw [h0, hwire] at hframe
    have hc0 : u8At c p = u8At b p :=
      (congrArg UInt8.toNat (hframe p fun _ => .inl (by omega))).trans h0
    have hc1 : u8At c (p + 1) = u8At b (p + 1) :=
      (congrArg UInt8.toNat (hframe (p + 1) fun _ => .inl (by omega))).trans h1
    have hnext : tcpOptionsNext (id c) p e = .ok (p + wireLength b p) := by
      rw [← wireLength_congr hc0 hc1]
      exact tcpOptionsNext_of_formed hlt (mt (malformed_congr hc0 hc1).mp hformed)
    have hbehind : SameFrom b (p + wireLength b p) c := fun i hi =>
      (hframe i fun _ => .inr hi).trans (hsame i (by omega))
    obtain ⟨d, hloop, hrestFrame⟩ := @ih c n rfl
      (fun o ho => hwhole o (List.mem_cons_of_mem _ ho)) hbehind (by omega)
    refine ⟨d, ?_, fun i hi => ?_⟩
    · rw [leaveOptions, if_pos hlt]
      simp only [hvisit, hnext, hloop]
    · rw [hrestFrame i fun o ho => hi o (List.mem_cons_of_mem _ ho)]
      exact hframe i (hi p List.mem_cons_self)

/-- `offset_sack_blocks` returns and writes only blocks. -/
theorem leaveSackBlocks_of_options (h : OptionsAt packet.toPacket tcp options)
    (hwhole : SacksWhole packet.buffer options)
    (hroom : tcp + Tcp.doff packet.buffer tcp * 4 ≤ packet.bufferBytes) :
    ∃ b, leaveSackBlocks packet ackOffset = ({ packet with buffer := b }, .ok ()) ∧
      ∀ i, OutsideSacks packet.buffer options i → b i = packet.buffer i := by
  have hdoff := h.doff
  obtain ⟨b, hloop, hframe⟩ := @Tiles.leaveOptions_eq packet.buffer packet.buffer _ _ _
    packet.bufferBytes ackOffset _ options h.tiles rfl hroom hwhole (fun i _ => rfl) le_rfl
  refine ⟨b, ?_, hframe⟩
  unfold leaveSackBlocks
  simp only [h.header, packetPayload_of_tcp h.header, hloop]
  rw [if_pos (by omega)]

/-- The options stay while they start with the same bytes and the header has its length. -/
theorem OptionsAt.congr {packet packet' : Packet} (h : OptionsAt packet tcp options)
    (hheader : packet'.tcp = packet.tcp)
    (hdoff : packet'.buffer (tcp + 12) = packet.buffer (tcp + 12))
    (hsame : SameStarts packet.buffer packet'.buffer options) :
    OptionsAt packet' tcp options := by
  have hlength : Tcp.doff packet'.buffer tcp = Tcp.doff packet.buffer tcp :=
    congrArg (fun x : UInt8 => x.toNat / 16) hdoff
  refine ⟨hheader.trans h.header, ?_, ?_⟩
  · rw [hlength]
    exact h.doff
  · rw [hlength]
    exact h.tiles.congr hsame

/-- So they do while the bytes of the area stay. -/
theorem OptionsAt.same {packet packet' : Packet} (h : OptionsAt packet tcp options)
    (hheader : packet'.tcp = packet.tcp)
    (hsame : ∀ i, tcp + 12 ≤ i → i < tcp + Tcp.doff packet.buffer tcp * 4 →
      packet'.buffer i = packet.buffer i) : OptionsAt packet' tcp options := by
  have hdoff := h.doff
  have hsize : TCP_BYTES = 20 := rfl
  refine h.congr hheader (hsame _ le_rfl (by omega)) fun o ho i _ hi => ?_
  have := h.tiles.mem ho
  exact hsame _ (by omega) (by omega)

theorem lastTimestamp_congr (hsame : ∀ o ∈ options, b' o = b o) :
    lastTimestamp b' options = lastTimestamp b options := by
  refine List.find?_congr fun o ho => ?_
  rw [u8At, u8At, hsame o (List.mem_reverse.mp ho)]

/-- The only timestamp is the last one. -/
theorem lastTimestamp_of_unique (ho : o ∈ options) (hkind : u8At b o = TCPOPT_TIMESTAMP)
    (hone : ∀ o' ∈ options, u8At b o' = TCPOPT_TIMESTAMP → o' = o) :
    lastTimestamp b options = some o := by
  cases hfind : lastTimestamp b options with
  | none =>
    have hnone := List.find?_eq_none.mp hfind o (List.mem_reverse.mpr ho)
    exact absurd hkind (by simpa using hnone)
  | some o' =>
    have hkind' : u8At b o' = TCPOPT_TIMESTAMP := by simpa using List.find?_some hfind
    rw [hone o' (List.mem_reverse.mp (List.mem_of_find?_eq_some hfind)) hkind']

end Sacks

end QoSMos
