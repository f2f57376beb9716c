import QoSMos.Build.Encapsulate
import QoSMos.Lib.Returns

/-!
# Comparing an outbound packet with another one

The verifiers of `run_packet.c` compare a packet that was sniffed with the packet of the
script, or, where `strict` is false, with the fragment sniffed before it. The first difference
ends the comparison with the message that the source prints.
-/

namespace QoSMos

open Returns

/-- How a function that returns a status ends without `STATUS_OK`. -/
inductive Failure where
  | error (message : String)
  | halt (halt : Halt)
  deriving DecidableEq, Repr

abbrev Status := Except Failure

/-- A function that has no error of its own, where one that has calls it. -/
def halting {α : Type} : Except Halt α → Status α
  | .ok a => .ok a
  | .error halt => .error (.halt halt)

def check (c : Prop) [Decidable c] (message : String) : Status Unit :=
  if c then .ok () else .error (.error message)

/-- `header_types[type].name` -/
def HeaderType.name : HeaderType → String
  | .none => "NONE"
  | .ipv4 => "IPV4"
  | .ipv6 => "IPV6"
  | .gre => "GRE"
  | .mpls => "MPLS"
  | .tcp => "TCP"
  | .udp => "UDP"
  | .icmpv4 => "ICMPV4"
  | .icmpv6 => "ICMPV6"

/-- `printf`'s `%x` -/
def hex (x : Nat) : String := String.ofList (Nat.toDigits 16 x)

/-- `check_field` -/
def checkField (name : String) (expected actual : Nat) : Status Unit :=
  check (actual = expected) (s!"live packet field {name}: " ++
    s!"expected: {expected} (0x{hex expected}) vs actual: {actual} (0x{hex actual})")

/-! ## Fields that several headers have -/

def IP_ECN_MASK : Nat := 3
def IP_ECN_ECT1 : Nat := 1
def IP_ECN_ECT0 : Nat := 2

/-- The member of `enum ip_ecn_t` that stands for either kind of ECT. -/
def ECN_ECT01 : Nat := 4

/-- `verify_outbound_live_tos` -/
def verifyOutboundLiveTos (tosChk : TosCheck) (actualTosByte scriptTosByte : Nat) :
    Status Unit :=
  match tosChk with
  | .ecn =>
    let actualEcnBits := actualTosByte &&& IP_ECN_MASK
    if scriptTosByte = ECN_ECT01 then
      check (actualEcnBits = IP_ECN_ECT0 ∨ actualEcnBits = IP_ECN_ECT1)
        ("live packet field ip_ecn: " ++
          s!"expected: 0x1 or 0x2 vs actual: 0x{hex actualEcnBits}")
    else checkField "ip_ecn" scriptTosByte actualEcnBits
  | .tos => checkField "tos" scriptTosByte actualTosByte
  | .none => .ok ()

/-- `verify_outbound_live_ttl_or_hl` -/
def verifyOutboundLiveTtlOrHl (actualTtlByte scriptTtlByte : Nat) : Status Unit :=
  if scriptTtlByte ≠ TTL_CHECK_NONE.toNat then checkField "ttl" scriptTtlByte actualTtlByte
  else .ok ()

/-- `packet_tcp_options_len` -/
def packetTcpOptionsLen (packet : Packet) : Except Halt Int :=
  match packet.tcp with
  | some tcp => .ok (Tcp.doff packet.buffer tcp * 4 - TCP_BYTES)
  | none => .error (.fault (.assertionFailed "packet_tcp_options_len" "packet->tcp"))

/-- `tcp_options_allowance` -/
def tcpOptionsAllowance (actual script : FullPacket) : Except Halt Int :=
  if script.flags &&& FLAG_OPTIONS_NOCHECK ≠ 0 then packetTcpOptionsLen actual.toPacket
  else .ok 0

/-- The table entry of a layer. -/
def Packet.headerAt (packet : Packet) (layer : Nat) : Header :=
  packet.headers.toList.getD layer Header.unused

/-- `headers[layer].h` where the verifier `function` dereferences it. -/
def layerPtr (function : String) (packet : FullPacket) (layer : Nat) : Status Nat :=
  halting ((packet.headerAt layer).data function)

/-! ## One verifier a header -/

abbrev Verifier := FullPacket → FullPacket → Nat → Bool → Status Unit

/-- `verify_ipv4` -/
def verifyIpv4 : Verifier := fun actual script layer strict => do
  let function := "verify_ipv4"
  let a ← layerPtr function actual layer
  let s ← layerPtr function script layer
  let (b, c) := (actual.buffer, script.buffer)
  checkField "ipv4_version" (Ipv4.version c s) (Ipv4.version b a)
  checkField "ipv4_protocol" (Ipv4.protocol c s) (Ipv4.protocol b a)
  checkField "ipv4_header_length" (Ipv4.ihl c s) (Ipv4.ihl b a)
  if strict then
    let allowance ← halting (tcpOptionsAllowance actual script)
    checkField "ipv4_total_length" (u32 (Ipv4.totLen c s + allowance)) (Ipv4.totLen b a)
  verifyOutboundLiveTos script.tosChk (Ipv4.tos b a) (Ipv4.tos c s)
  verifyOutboundLiveTtlOrHl (Ipv4.ttl b a) (Ipv4.ttl c s)

/-- `verify_ipv6` -/
def verifyIpv6 : Verifier := fun actual script layer strict => do
  let function := "verify_ipv6"
  let a ← layerPtr function actual layer
  let s ← layerPtr function script layer
  let (b, c) := (actual.buffer, script.buffer)
  checkField "ipv6_version" (Ipv6.version c s) (Ipv6.version b a)
  if strict then
    let allowance ← halting (tcpOptionsAllowance actual script)
    checkField "ipv6_payload_len" (u32 (Ipv6.payloadLen c s + allowance)) (Ipv6.payloadLen b a)
  checkField "ipv6_next_header" (Ipv6.nextHeader c s) (Ipv6.nextHeader b a)
  verifyOutboundLiveTos script.tosChk (Ipv6.tosByte b a) (Ipv6.tosByte c s)
  verifyOutboundLiveTtlOrHl (Ipv6.hopLimit b a) (Ipv6.hopLimit c s)

/-- The flags that `verify_tcp` compares before the reserved bits: the field's name, its bit,
and whether it is left out unless `strict`. -/
def tcpFlagChecks : List (String × (Memory → Nat → Bool) × Bool) :=
  [("tcp_fin", Tcp.fin, true), ("tcp_syn", Tcp.syn, false), ("tcp_rst", Tcp.rst, false),
    ("tcp_psh", Tcp.psh, true), ("tcp_ack", Tcp.ack, false), ("tcp_urg", Tcp.urg, false),
    ("tcp_ece", Tcp.ece, false), ("tcp_cwr", Tcp.cwr, true)]

def verifyTcpFlags (b c : Memory) (a s : Nat) (strict : Bool) :
    List (String × (Memory → Nat → Bool) × Bool) → Status Unit
  | [] => .ok ()
  | (name, flag, onlyStrict) :: checks => do
    if strict ∨ ¬ onlyStrict then checkField name (flag c s).toNat (flag b a).toNat
    verifyTcpFlags b c a s strict checks

/-- `verify_tcp`: a fragment is expected to start where the one before it ends. -/
def verifyTcp : Verifier := fun actual script layer strict => do
  let function := "verify_tcp"
  let a ← layerPtr function actual layer
  let s ← layerPtr function script layer
  let (b, c) := (actual.buffer, script.buffer)
  let scriptPayloadLen ← halting (ofFault (packetPayloadLen script.toPacket))
  let allowance ← halting (tcpOptionsAllowance actual script)
  checkField "tcp_data_offset" (u32 (Tcp.doff c s + allowance / 4)) (Tcp.doff b a)
  verifyTcpFlags b c a s strict tcpFlagChecks
  checkField "tcp_reserved_bits" (Tcp.res1 c s) (Tcp.res1 b a)
  let scriptSeq := if strict then Tcp.seq c s else u32 (Tcp.seq c s + scriptPayloadLen)
  checkField "tcp_seq" scriptSeq (Tcp.seq b a)
  checkField "tcp_ack_seq" (Tcp.ackSeq c s) (Tcp.ackSeq b a)
  if script.flags &&& FLAG_WIN_NOCHECK = 0 then
    checkField "tcp_window" (Tcp.window c s) (Tcp.window b a)
  checkField "tcp_urg_ptr" (Tcp.urgPtr c s) (Tcp.urgPtr b a)

/-- `verify_udp` -/
def verifyUdp : Verifier := fun actual script layer strict => do
  let function := "verify_udp"
  let a ← layerPtr function actual layer
  let s ← layerPtr function script layer
  if strict then
    checkField "udp_len" (Udp.len script.buffer s) (Udp.len actual.buffer a)

def Gre.flags (b : Memory) (p : Nat) : Nat := be16At b p

/-- `gre->be16[i]` -/
def Gre.be16 (b : Memory) (p i : Nat) : Nat := be16At b (p + 4 + 2 * i)

/-- `gre->be32[i]` -/
def Gre.be32 (b : Memory) (p i : Nat) : Nat := be32At b (p + 4 + 4 * i)

/-- `verify_gre`; `i` counts the optional words in front of the one compared. -/
def verifyGre : Verifier := fun actual script layer _ => do
  let function := "verify_gre"
  let a ← layerPtr function actual layer
  let s ← layerPtr function script layer
  let (b, c) := (actual.buffer, script.buffer)
  let scriptLen ← halting (greLenAt c s)
  let actualLen ← halting (greLenAt b a)
  checkField "gre_len" scriptLen actualLen
  check (Gre.flags c s = Gre.flags b a) "mismatch in GRE flags"
  check (Gre.proto c s = Gre.proto b a) "mismatch in GRE proto"
  let hasSum := Gre.hasChecksum c s || Gre.hasRouting c s
  if hasSum then
    check (Gre.be16 c s 0 = Gre.be16 b a 0) "mismatch in GRE sum"
    check (Gre.be16 c s 1 = Gre.be16 b a 1) "mismatch in GRE off"
  let i := hasSum.toNat
  if Gre.hasKey c s then
    check (Gre.be32 c s i = Gre.be32 b a i) "mismatch in GRE key"
  let i := i + (Gre.hasKey c s).toNat
  if Gre.hasSeq c s then
    check (Gre.be32 c s i = Gre.be32 b a i) "mismatch in GRE seq"

/-- The loop of `verify_mpls`, with `k` entries left to compare from entry `i` on. -/
def verifyMplsEntries (b c : Memory) (a s i : Nat) : Nat → Status Unit
  | 0 => .ok ()
  | k + 1 => do
    check (readBytes b (a + MPLS_BYTES * i) MPLS_BYTES =
      readBytes c (s + MPLS_BYTES * i) MPLS_BYTES) s!"mismatch in MPLS label {i}"
    verifyMplsEntries b c a s (i + 1) k

/-- `verify_mpls` -/
def verifyMpls : Verifier := fun actual script layer _ => do
  let function := "verify_mpls"
  let scriptBytes := (script.headerAt layer).headerBytes
  check (scriptBytes = (actual.headerAt layer).headerBytes) "mismatch in MPLS label stack depth"
  let a ← layerPtr function actual layer
  let s ← layerPtr function script layer
  verifyMplsEntries actual.buffer script.buffer a s 0 (scriptBytes / MPLS_BYTES)

/-- The common body of `verify_icmpv4` and `verify_icmpv6`. -/
def verifyIcmp (function : String) : Verifier := fun actual script layer _ => do
  let a ← layerPtr function actual layer
  let s ← layerPtr function script layer
  checkField "icmp_type" (u8At script.buffer s) (u8At actual.buffer a)
  checkField "icmp_code" (u8At script.buffer (s + 1)) (u8At actual.buffer (a + 1))

def verifyIcmpv4 : Verifier := verifyIcmp "verify_icmpv4"
def verifyIcmpv6 : Verifier := verifyIcmp "verify_icmpv6"

/-- `verify_header` -/
def verifyHeader : Verifier := fun actual script layer strict => do
  let actualType := (actual.headerAt layer).type
  let type := (script.headerAt layer).type
  if type ≠ actualType then
    halting (headerTypeInfo type)
    halting (headerTypeInfo actualType)
    .error (.error (s!"live packet header layer {layer}: " ++
      s!"expected: {type.name} header vs actual: {actualType.name} header"))
  else
    match type with
    | .none => .error (.halt (.fault (.assertionFailed "verify_header" "type > HEADER_NONE")))
    | .ipv4 => verifyIpv4 actual script layer strict
    | .ipv6 => verifyIpv6 actual script layer strict
    | .gre => verifyGre actual script layer strict
    | .mpls => verifyMpls actual script layer strict
    | .tcp => verifyTcp actual script layer strict
    | .udp => verifyUdp actual script layer strict
    | .icmpv4 => verifyIcmpv4 actual script layer strict
    | .icmpv6 => verifyIcmpv6 actual script layer strict

/-- The loop of `verify_outbound_live_headers` over the script's entries from `layer` on. -/
def verifyLayers (actual script : FullPacket) (strict : Bool) (layer : Nat) :
    List Header → Status Unit
  | [] => .ok ()
  | header :: headers =>
    if header.type = .none then .ok ()
    else do
      verifyHeader actual script layer strict
      verifyLayers actual script strict (layer + 1) headers

/-- `verify_outbound_live_headers` -/
def verifyOutboundLiveHeaders (actual script : FullPacket) (strict : Bool) : Status Unit := do
  let function := "verify_outbound_live_headers"
  let actualHeaders := packetHeaderCount actual.toPacket
  let scriptHeaders := packetHeaderCount script.toPacket
  halting (require (actual.ipv4 ≠ none ∨ actual.ipv6 ≠ none) function
    "(actual_packet->ipv4 != NULL) || (actual_packet->ipv6 != NULL)")
  halting (require (actual.tcp ≠ none ∨ actual.udp ≠ none ∨ actual.icmpv4 ≠ none ∨
      actual.icmpv6 ≠ none) function
    ("(actual_packet->tcp != NULL) || (actual_packet->udp != NULL) || " ++
      "(actual_packet->icmpv4 != NULL) || (actual_packet->icmpv6 != NULL)"))
  let what := if strict then "live" else "aggregate candidate"
  check (actualHeaders = scriptHeaders) (s!"{what} packet header layers: " ++
    s!"expected: {scriptHeaders} headers vs actual: {actualHeaders} headers")
  verifyLayers actual script strict 0 script.headers.toList

/-- `verify_packet_fragments` -/
def verifyPacketFragments (currentFragment previousFragment : FullPacket)
    (currentPayload sniffedPayload expectedTotalPayload : Int) : Status Unit := do
  verifyOutboundLiveHeaders currentFragment previousFragment false
  if currentPayload < expectedTotalPayload - sniffedPayload then
    let previousPayload ← halting (ofFault (packetPayloadLen previousFragment.toPacket))
    check (currentPayload = previousPayload)
      (s!"fragment payload: expected {previousPayload} bytes vs " ++
        s!"actual {currentPayload} bytes; " ++
        s!"total payload: expected {expectedTotalPayload} bytes vs " ++
        s!"actual {currentPayload + sniffedPayload} bytes")

/-! ## What a comparison without an error has found -/

section Passed

variable {actual script : FullPacket} {strict : Bool} {layer : Nat} {hs gs rest : List Header}

theorem halting_eq_ok_iff {α : Type} {x : Except Halt α} {a : α} :
    halting x = .ok a ↔ x = .ok a := by
  cases x <;> simp [halting]

theorem check_eq_ok_iff {c : Prop} [Decidable c] {message : String} :
    check c message = .ok () ↔ c := by
  by_cases hc : c <;> simp [check, hc]

theorem checkField_eq_ok_iff {name : String} {expected found : Nat} :
    checkField name expected found = .ok () ↔ found = expected :=
  check_eq_ok_iff

theorem Table.headerAt {packet : Packet} (ht : Table packet hs) {i : Nat} (hi : i < hs.length) :
    packet.headerAt i = hs[i] := by
  rw [Packet.headerAt, ht.entries, List.getD_append _ _ _ _ hi, List.getD_eq_getElem]

/-- The headers of a layer have one type. -/
theorem verifyHeader_ok (hok : verifyHeader actual script layer strict = .ok ()) :
    (actual.headerAt layer).type = (script.headerAt layer).type ∧
      ((script.headerAt layer).type = .tcp → verifyTcp actual script layer strict = .ok ()) := by
  unfold verifyHeader at hok
  dsimp only at hok
  split at hok
  · obtain ⟨_, -, hok⟩ := bind_eq_ok_iff.mp hok
    obtain ⟨_, -, hok⟩ := bind_eq_ok_iff.mp hok
    cases hok
  · rename_i htype
    refine ⟨(not_not.mp htype).symm, fun htcp => ?_⟩
    rw [htcp] at hok
    exact hok

/-- The loop has compared every layer of the script. -/
theorem verifyLayers_ok (hused : ∀ h ∈ gs, h.type ≠ .none)
    (hok : verifyLayers actual script strict layer (gs ++ rest) = .ok ()) :
    ∀ i < gs.length, verifyHeader actual script (layer + i) strict = .ok () := by
  induction gs generalizing layer with
  | nil => simp
  | cons g gs ih =>
    rw [List.cons_append, verifyLayers, if_neg (hused g List.mem_cons_self)] at hok
    obtain ⟨_, hfirst, hok⟩ := bind_eq_ok_iff.mp hok
    intro i hi
    cases i with
    | zero => exact hfirst
    | succ i =>
      have hnext := ih (fun h hh => hused h (List.mem_cons_of_mem _ hh)) hok i
        (by simpa using hi)
      rwa [Nat.add_right_comm] at hnext

theorem verifyOutboundLiveHeaders_ok (ha : Table actual.toPacket hs)
    (ht : Table script.toPacket gs)
    (hok : verifyOutboundLiveHeaders actual script strict = .ok ()) :
    hs.length = gs.length ∧
      ∀ i < gs.length, verifyHeader actual script i strict = .ok () := by
  unfold verifyOutboundLiveHeaders at hok
  dsimp only at hok
  obtain ⟨_, -, hok⟩ := bind_eq_ok_iff.mp hok
  obtain ⟨_, -, hok⟩ := bind_eq_ok_iff.mp hok
  obtain ⟨_, hcount, hok⟩ := bind_eq_ok_iff.mp hok
  have hcount := check_eq_ok_iff.mp hcount
  rw [ha.count, ht.count] at hcount
  refine ⟨hcount, fun i hi => ?_⟩
  rw [ht.entries] at hok
  have hheader := verifyLayers_ok ht.used hok i hi
  rwa [Nat.zero_add] at hheader

/-- Packets whose headers were compared have the same header types. -/
theorem verifyOutboundLiveHeaders_types (ha : Table actual.toPacket hs)
    (ht : Table script.toPacket gs)
    (hok : verifyOutboundLiveHeaders actual script strict = .ok ()) :
    hs.map Header.type = gs.map Header.type := by
  obtain ⟨hlen, hheaders⟩ := verifyOutboundLiveHeaders_ok ha ht hok
  apply List.ext_getElem (by simpa using hlen)
  intro i hi hi'
  rw [List.length_map] at hi hi'
  have htype := (verifyHeader_ok (hheaders i hi')).1
  rw [ha.headerAt hi, ht.headerAt hi'] at htype
  simpa using htype

/-- Fragments that were compared follow each other without a gap. -/
theorem verifyTcp_seq {tcp tcp' : Nat} {len : Int} (ha : (actual.headerAt layer).ptr = some tcp)
    (hs : (script.headerAt layer).ptr = some tcp')
    (hlen : packetPayloadLen script.toPacket = .ok len)
    (hok : verifyTcp actual script layer false = .ok ()) :
    Tcp.seq actual.buffer tcp = u32 (Tcp.seq script.buffer tcp' + len) := by
  unfold verifyTcp at hok
  dsimp only at hok
  obtain ⟨a, haptr, hok⟩ := bind_eq_ok_iff.mp hok
  obtain ⟨s, hsptr, hok⟩ := bind_eq_ok_iff.mp hok
  have haptr := halting_eq_ok_iff.mp haptr
  have hsptr := halting_eq_ok_iff.mp hsptr
  rw [Header.data, ha] at haptr
  rw [Header.data, hs] at hsptr
  obtain rfl := Except.ok.inj haptr
  obtain rfl := Except.ok.inj hsptr
  obtain ⟨payloadLen, hpayload, hok⟩ := bind_eq_ok_iff.mp hok
  have hpayload := halting_eq_ok_iff.mp hpayload
  rw [hlen] at hpayload
  obtain rfl := Except.ok.inj hpayload
  obtain ⟨_, -, hok⟩ := bind_eq_ok_iff.mp hok
  obtain ⟨_, -, hok⟩ := bind_eq_ok_iff.mp hok
  obtain ⟨_, -, hok⟩ := bind_eq_ok_iff.mp hok
  obtain ⟨_, -, hok⟩ := bind_eq_ok_iff.mp hok
  obtain ⟨_, hseq, -⟩ := bind_eq_ok_iff.mp hok
  exact checkField_eq_ok_iff.mp hseq

/-- What is found of a fragment and the one before it. -/
theorem verifyPacketFragments_ok {current previous sniffed expected : Int}
    (hlen : packetPayloadLen script.toPacket = .ok previous)
    (hok : verifyPacketFragments actual script current sniffed expected = .ok ()) :
    verifyOutboundLiveHeaders actual script false = .ok () ∧
      (current < expected - sniffed → current = previous) := by
  unfold verifyPacketFragments at hok
  obtain ⟨_, hheaders, hok⟩ := bind_eq_ok_iff.mp hok
  refine ⟨hheaders, fun hlt => ?_⟩
  rw [if_pos hlt] at hok
  obtain ⟨_, hprevious, hok⟩ := bind_eq_ok_iff.mp hok
  have hprevious := halting_eq_ok_iff.mp hprevious
  rw [hlen] at hprevious
  obtain rfl := Except.ok.inj hprevious
  exact check_eq_ok_iff.mp hok

end Passed

end QoSMos
