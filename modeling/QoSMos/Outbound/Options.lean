import QoSMos.Outbound.Verify

/-!
# TCP options

The iterator of `tcp_options_iterator.c` and the two loops over the options of a packet that
`run_packet.c` has. A loop looks at an option before the iterator checks its length.
-/

namespace QoSMos

open Returns

def TCPOPT_EOL : Nat := 0
def TCPOPT_NOP : Nat := 1
def TCPOPT_MAXSEG : Nat := 2
def TCPOLEN_MAXSEG : Nat := 4
def TCPOPT_WINDOW : Nat := 3
def TCPOLEN_WINDOW : Nat := 3
def TCPOPT_SACK_PERMITTED : Nat := 4
def TCPOLEN_SACK_PERMITTED : Nat := 2
def TCPOPT_SACK : Nat := 5
def TCPOPT_TIMESTAMP : Nat := 8
def TCPOLEN_TIMESTAMP : Nat := 10
def TCPOPT_MD5SIG : Nat := 19
def TCPOPT_FASTOPEN : Nat := 34
def TCPOPT_EXP : Nat := 254

/-- `sizeof(struct sack_block)` -/
def SACK_BLOCK_BYTES : Nat := 8

/-- `get_expected_tcp_option_length`: zero for an option of variable length. -/
def getExpectedTcpOptionLength (kind : Nat) : Status Nat :=
  if kind = TCPOPT_EOL ∨ kind = TCPOPT_NOP then .ok 1
  else if kind = TCPOPT_MAXSEG then .ok TCPOLEN_MAXSEG
  else if kind = TCPOPT_WINDOW then .ok TCPOLEN_WINDOW
  else if kind = TCPOPT_SACK_PERMITTED then .ok TCPOLEN_SACK_PERMITTED
  else if kind = TCPOPT_TIMESTAMP then .ok TCPOLEN_TIMESTAMP
  else if kind = TCPOPT_SACK ∨ kind = TCPOPT_MD5SIG ∨ kind = TCPOPT_FASTOPEN ∨
      kind = TCPOPT_EXP then .ok 0
  else .error (.error s!"unexpected TCP option kind: {kind}")

/-- `get_tcp_option_length` -/
def getTcpOptionLength (b : Memory) (option optionsEnd expectedLength : Nat) : Status Nat := do
  check (option + 1 < optionsEnd) "TCP option length byte extends too far"
  let length := u8At b (option + 1)
  check (2 ≤ length) "TCP option with length byte is too short"
  check (option + length ≤ optionsEnd) "TCP option data extends too far"
  check (expectedLength = 0 ∨ length = expectedLength)
    s!"bad TCP option length: was {length} but expected {expectedLength}"
  return length

/-- The part of `tcp_options_next` that finds the length of an option. -/
def tcpOptionLength (b : Memory) (option optionsEnd : Nat) : Status Nat := do
  let expectedLength ← getExpectedTcpOptionLength (u8At b option)
  if expectedLength = 1 then return 1
  else getTcpOptionLength b option optionsEnd expectedLength

/-- `tcp_options_next`: the option behind this one. -/
def tcpOptionsNext (b : Memory) (option optionsEnd : Nat) : Status Nat := do
  let function := "tcp_options_next"
  let length ← tcpOptionLength b option optionsEnd
  halting (require (0 < length) function "length > 0")
  halting (require (option + length ≤ optionsEnd) function
    "iter->current_option <= iter->options_end")
  return option + length

/-- A loop over the options from `option` on, which `visit` may change. An option has at least
one byte, so that there are at most as many options as bytes. -/
def visitOptions {σ : Type} (buffer : σ → Memory) (visit : Nat → σ → Status σ)
    (optionsEnd : Nat) : Nat → Nat → σ → Status σ
  | 0, _, s => .ok s
  | n + 1, option, s =>
    if option < optionsEnd then do
      let s ← visit option s
      let next ← tcpOptionsNext (buffer s) option optionsEnd
      visitOptions buffer visit optionsEnd n next s
    else .ok s

/-- `tcp_options_begin` and the loop that follows it. -/
def forTcpOptions {σ : Type} (buffer : σ → Memory) (visit : Nat → σ → Status σ)
    (packet : Packet) (s : σ) : Status σ :=
  match packet.tcp with
  | none => .error (.halt (.fault (.assertionFailed "packet_tcp_options" "packet->tcp")))
  | some tcp => do
    let options := tcp + TCP_BYTES
    let optionsEnd ← halting (ofFault (packetPayload packet))
    halting (require (options ≤ optionsEnd) "get_current_option"
      "iter->current_option <= iter->options_end")
    visitOptions buffer visit optionsEnd (optionsEnd - options) options s

/-! ## SACK blocks -/

/-- `num_sack_blocks` -/
def numSackBlocks (optLen : Nat) : Status Nat := do
  check (2 < optLen) "TCP SACK option too short"
  check ((optLen - 2) % SACK_BLOCK_BYTES = 0) "TCP SACK option not a multiple of SACK block size"
  return (optLen - 2) / SACK_BLOCK_BYTES

/-- Add `ackOffset` to the `n` words from `p` on, the edges of SACK blocks. -/
def offsetWords (ackOffset : Nat) (p : Nat) : Nat → Memory → Memory
  | 0, b => b
  | n + 1, b =>
    offsetWords ackOffset (p + 4) n (writeBytes b p (be32 ((be32At b p + ackOffset) % 4294967296)))

/-- The body of the loop of `offset_sack_blocks`. The length byte and the blocks may lie behind
the buffer. -/
def offsetSackOption (bufferBytes ackOffset option : Nat) (b : Memory) : Status Memory :=
  let function := "offset_sack_blocks"
  if u8At b option = TCPOPT_SACK then
    if option + 1 < bufferBytes then do
      let numBlocks ← numSackBlocks (u8At b (option + 1))
      if option + 2 + SACK_BLOCK_BYTES * numBlocks ≤ bufferBytes then
        return offsetWords ackOffset (option + 2) (2 * numBlocks) b
      else .error (.halt (.undefined function "option->data.sack.block[i]"))
    else .error (.halt (.undefined function "option->length"))
  else .ok b

/-- `offset_sack_blocks` -/
def offsetSackBlocks (packet : FullPacket) (ackOffset : Nat) : Status FullPacket := do
  let b ← forTcpOptions id (offsetSackOption packet.bufferBytes ackOffset) packet.toPacket
    packet.buffer
  return { packet with buffer := b }

/-! ## Timestamps -/

/-- `find_tcp_timestamp` -/
def findTcpTimestamp (packet : FullPacket) : Status FullPacket := do
  let visit (option : Nat) (found : Option Nat × Option Nat) : Status (Option Nat × Option Nat) :=
    if u8At packet.buffer option = TCPOPT_TIMESTAMP then .ok (some (option + 2), some (option + 6))
    else .ok found
  let (tcpTsVal, tcpTsEcr) ← forTcpOptions (fun _ => packet.buffer) visit packet.toPacket
    (none, none)
  return { packet with tcpTsVal, tcpTsEcr }

/-! ## What the loops keep -/

section Frame

variable {σ : Type} {buffer : σ → Memory} {visit : Nat → σ → Status σ} {packet packet' : FullPacket}
  {b b' : Memory} {ackOffset bufferBytes option optionsEnd next n p : Nat} {s s' : σ}

theorem tcpOptionsNext_le (hok : tcpOptionsNext b option optionsEnd = .ok next) :
    option ≤ next := by
  unfold tcpOptionsNext at hok
  obtain ⟨_, -, hok⟩ := bind_eq_ok_iff.mp hok
  obtain ⟨_, -, hok⟩ := bind_eq_ok_iff.mp hok
  obtain ⟨_, -, hok⟩ := bind_eq_ok_iff.mp hok
  have := pure_eq_ok_iff.mp hok
  omega

/-- The invariant rule of a loop: what every visit of an option from `start` on keeps. -/
theorem visitOptions_invariant {start : Nat} (inv : σ → Prop)
    (hvisit : ∀ option s s', start ≤ option → inv s → visit option s = .ok s' → inv s')
    (hle : start ≤ option) (hs : inv s)
    (hok : visitOptions buffer visit optionsEnd n option s = .ok s') : inv s' := by
  induction n generalizing option s with
  | zero =>
    rw [visitOptions] at hok
    exact Except.ok.inj hok ▸ hs
  | succ n ih =>
    rw [visitOptions] at hok
    split at hok
    · obtain ⟨s₁, hone, hok⟩ := bind_eq_ok_iff.mp hok
      obtain ⟨next, hnext, hok⟩ := bind_eq_ok_iff.mp hok
      exact ih (hle.trans (tcpOptionsNext_le hnext)) (hvisit option s s₁ hle hs hone) hok
    · exact Except.ok.inj hok ▸ hs

theorem offsetWords_before {i : Nat} (hi : i < p) : offsetWords ackOffset p n b i = b i := by
  induction n generalizing b p with
  | zero => rfl
  | succ n ih => rw [offsetWords, ih (by omega), writeBytes_outside (.inl hi)]

theorem offsetSackOption_before (hok : offsetSackOption bufferBytes ackOffset option b = .ok b')
    {i : Nat} (hi : i < option) : b' i = b i := by
  unfold offsetSackOption at hok
  dsimp only at hok
  split at hok
  · split at hok
    · obtain ⟨numBlocks, -, hok⟩ := bind_eq_ok_iff.mp hok
      split at hok
      · rw [← pure_eq_ok_iff.mp hok, offsetWords_before (by omega)]
      · cases hok
    · cases hok
  · rw [Except.ok.inj hok]

/-- The bytes in front of the options stay as they are. -/
theorem offsetSackBlocks_spec {tcp : Nat} (htcp : packet.tcp = some tcp)
    (hok : offsetSackBlocks packet ackOffset = .ok packet') :
    ∃ b, packet' = { packet with buffer := b } ∧ ∀ i < tcp + TCP_BYTES, b i = packet.buffer i := by
  unfold offsetSackBlocks at hok
  obtain ⟨b, hloop, hok⟩ := bind_eq_ok_iff.mp hok
  refine ⟨b, (pure_eq_ok_iff.mp hok).symm, ?_⟩
  unfold forTcpOptions at hloop
  rw [htcp] at hloop
  obtain ⟨optionsEnd, -, hloop⟩ := bind_eq_ok_iff.mp hloop
  obtain ⟨_, -, hloop⟩ := bind_eq_ok_iff.mp hloop
  refine visitOptions_invariant (fun b => ∀ i < tcp + TCP_BYTES, b i = packet.buffer i) ?_ le_rfl
    (fun i _ => rfl) hloop
  intro option s s' hle hs hvisit i hi
  rw [offsetSackOption_before hvisit (by omega), hs i hi]

end Frame

end QoSMos
