import QoSMos.Build.RoundTrip
import QoSMos.Dump.Program

/-!
# TCP flags as text

The characters that `new_tcp_packet` accepts, those that it turns into bits and those that
`tcp_packet_to_string` prints are three lists. The first has a character that is not in the
others.
-/

namespace QoSMos

open Returns

/-- The eight flag bits, `fin` first. -/
def tcpFlags (b : Memory) (tcp : Nat) : List Bool :=
  [Tcp.fin b tcp, Tcp.syn b tcp, Tcp.rst b tcp, Tcp.psh b tcp, Tcp.ack b tcp, Tcp.urg b tcp,
    Tcp.ece b tcp, Tcp.cwr b tcp]

/-- The flags that are printed for a packet. -/
def printedFlags (packet : FullPacket) : List Char :=
  match packet.tcp with
  | some tcp => tcpFlagsToString packet.buffer tcp
  | none => []

def setFlags (packet : FullPacket) : List Bool :=
  match packet.tcp with
  | some tcp => tcpFlags packet.buffer tcp
  | none => []

/-- A packet shows the flags of the string it was built from, and a packet that is built from what
it shows has the same bits. -/
structure FlagsRoundTrip (args : TcpArgs) (packet : FullPacket) : Prop where
  printed : ∀ c, c ∈ printedFlags packet ↔ c ∈ args.flags
  rebuilt : ∀ heap, ∃ packet',
    newTcpPacket heap { args with flags := printedFlags packet } = .ok (.ok packet') ∧
      setFlags packet' = setFlags packet

/-- The characters that are turned into bits, `fin` first. -/
def flagChars : List Char := "FSRP.UEW".toList

section Print

variable {ipToString : IpToString} {packet : FullPacket} {tcp : Nat} {format : DumpFormat}
  {dumped : Dumped}

/-- The flags are printed behind the endpoints and in front of the sequence numbers. -/
theorem tcpPacketToString_flags
    (hok : tcpPacketToString ipToString packet tcp format = .ok dumped) :
    ∃ endpoints payloadLen rest, endpointsToString ipToString packet format = .ok endpoints ∧
      dumped.text = endpoints ++ String.ofList (tcpFlagsToString packet.buffer tcp) ++
        tcpNumbersToString packet tcp payloadLen ++ rest := by
  obtain ⟨endpoints, hendpoints, hok⟩ := bind_eq_ok_iff.mp hok
  obtain ⟨payloadLen, -, hok⟩ := bind_eq_ok_iff.mp hok
  obtain ⟨options, -, hok⟩ := bind_eq_ok_iff.mp hok
  obtain ⟨buffer, -, hok⟩ := bind_eq_ok_iff.mp hok
  obtain rfl := pure_eq_ok_iff.mp hok
  exact ⟨endpoints, payloadLen, options.text ++ buffer, hendpoints, String.append_assoc⟩

end Print

section Characters

variable {b : Memory} {tcp : Nat} {f : Char → Bool}

theorem tcpFlagsToString_eq : tcpFlagsToString b tcp =
    ((flagChars.zip (tcpFlags b tcp)).filter Prod.snd).map Prod.fst := by
  unfold tcpFlagsToString tcpFlags
  generalize Tcp.fin b tcp = fin
  generalize Tcp.syn b tcp = syn
  generalize Tcp.rst b tcp = rst
  generalize Tcp.psh b tcp = psh
  generalize Tcp.ack b tcp = ack
  generalize Tcp.urg b tcp = urg
  generalize Tcp.ece b tcp = ece
  generalize Tcp.cwr b tcp = cwr
  revert fin syn rst psh ack urg ece cwr
  decide

theorem filter_zip_map {cs : List Char} :
    ((cs.zip (cs.map f)).filter Prod.snd).map Prod.fst = cs.filter f := by
  induction cs with
  | nil => rfl
  | cons c cs ih => cases hc : f c <;> simp [hc, ih]

/-- Printed are the characters whose bits are set. -/
theorem tcpFlagsToString_of_flags (h : tcpFlags b tcp = flagChars.map f) :
    tcpFlagsToString b tcp = flagChars.filter f := by
  rw [tcpFlagsToString_eq, h, filter_zip_map]

theorem isTcpFlagsSpecValid_iff {flags : List Char} :
    isTcpFlagsSpecValid flags = .ok () ↔ ∀ c ∈ flags, c ∈ validTcpFlags := by
  unfold isTcpFlagsSpecValid
  cases h : flags.find? fun s => !validTcpFlags.contains s with
  | none => simpa using h
  | some c =>
    have hmem := List.mem_of_find?_eq_some h
    have hbad := List.find?_some h
    simp only [reduceCtorEq, false_iff]
    intro hall
    simp [hall c hmem] at hbad

/-- The one character that has no bit. -/
theorem mem_validTcpFlags {c : Char} : c ∈ validTcpFlags ↔ c ∈ flagChars ∨ c = 'C' := by
  have hvalid : validTcpFlags = ['F', 'S', 'R', 'P', '.', 'E', 'W', 'C', 'U'] := rfl
  have hchars : flagChars = ['F', 'S', 'R', 'P', '.', 'U', 'E', 'W'] := rfl
  rw [hvalid, hchars]
  simp only [List.mem_cons, List.not_mem_nil, or_false]
  tauto

end Characters

/-! ## Packets that differ in their bytes -/

section Buffer

variable {packet packet' : FullPacket} {b : Memory} {function : String} {t : HeaderType}
  {headerBytes total : Nat} {addressFamily : Int} {ipBytes : UInt16} {tos ttl protocol : UInt8}
  {flowLabel : UInt32}

theorem appendHeaderTotal_buffer
    (hok : appendHeaderTotal function packet t headerBytes total = .ok packet') :
    appendHeaderTotal function { packet with buffer := b } t headerBytes total =
      .ok { packet' with buffer := b } := by
  unfold appendHeaderTotal packetAppendHeader at hok ⊢
  have hcount : packetHeaderCount { packet.toPacket with buffer := b } =
    packetHeaderCount packet.toPacket := rfl
  dsimp only at hok ⊢
  rw [hcount]
  by_cases hmax : packetHeaderCount packet.toPacket ≤ PACKET_MAX_HEADERS
  · by_cases hfull : packetHeaderCount packet.toPacket = PACKET_MAX_HEADERS
    · simp [hfull] at hok
    · by_cases hroom : packet.bufferBytes < packet.ipBytes + headerBytes
      · simp [hmax, hfull, hroom] at hok
      · simp only [hmax, hfull, hroom, not_true, if_false] at hok ⊢
        rw [← Except.ok.inj hok]
        rfl
  · simp [hmax] at hok

theorem setPacketIpHeader_buffer
    (hok : setPacketIpHeader packet addressFamily ipBytes tos flowLabel ttl protocol =
      .ok packet') :
    ∃ b', setPacketIpHeader { packet with buffer := b } addressFamily ipBytes tos flowLabel ttl
      protocol = .ok { packet' with buffer := b' } := by
  unfold setPacketIpHeader at hok ⊢
  split_ifs at hok ⊢ with hinet hinet6
  · obtain ⟨_, hnone, hok⟩ := bind_eq_ok_iff.mp hok
    obtain ⟨middle, happend, hok⟩ := bind_eq_ok_iff.mp hok
    obtain rfl := pure_eq_ok_iff.mp hok
    have happend' := appendHeaderTotal_buffer (b := b) happend
    exact ⟨_, bind_eq_ok_iff.mpr ⟨_, hnone, bind_eq_ok_iff.mpr ⟨_, happend', rfl⟩⟩⟩
  · obtain ⟨_, hnone, hok⟩ := bind_eq_ok_iff.mp hok
    obtain ⟨middle, happend, hok⟩ := bind_eq_ok_iff.mp hok
    obtain ⟨buffer, hset, hok⟩ := bind_eq_ok_iff.mp hok
    obtain ⟨_, hlarge, -⟩ := bind_eq_ok_iff.mp hset
    obtain rfl := pure_eq_ok_iff.mp hok
    have happend' := appendHeaderTotal_buffer (b := b) happend
    exact ⟨_, bind_eq_ok_iff.mpr ⟨_, hnone, bind_eq_ok_iff.mpr ⟨_, happend',
      bind_eq_ok_iff.mpr ⟨_, bind_eq_ok_iff.mpr ⟨_, hlarge, rfl⟩, rfl⟩⟩⟩⟩

end Buffer

section Rebuilt

variable {heap : Memory} {args : TcpArgs} {packet : FullPacket} {flags : List Char}

/-- Whether a packet is built does not depend on the flags, where they are valid. -/
theorem newTcpPacket_flags (heap' : Memory) (hok : newTcpPacket heap args = .ok (.ok packet))
    (hvalid : isTcpFlagsSpecValid flags = .ok ()) :
    ∃ packet', newTcpPacket heap' { args with flags := flags } = .ok (.ok packet') := by
  obtain ⟨hfamily, haligned, hheader, hsize, -, hwindow, withIp, withTcp, start, hset, happend,
    hstart, -⟩ := newTcpPacket_eq_ok_iff.mp hok
  obtain ⟨b, hset'⟩ : ∃ b, setPacketIpHeader
      (clearPacket heap' args.packetBytes args.direction args.ipInfo.tos.check) args.addressFamily
      (UInt16.ofNat args.packetBytes) args.ipInfo.tos.value args.ipInfo.flowLabel args.ipInfo.ttl
      (UInt8.ofNat IPPROTO_TCP) = .ok { withIp with buffer := b } := setPacketIpHeader_buffer hset
  have happend' := appendHeaderTotal_buffer (b := b) happend
  exact ⟨_, newTcpPacket_eq_ok_iff.mpr ⟨hfamily, haligned, hheader, hsize, hvalid, hwindow, _, _,
    start, hset', happend', hstart, rfl⟩⟩

/-- The TCP header stands behind the IP header. -/
theorem TcpBuilt.tcp (hb : TcpBuilt args packet) :
    packet.tcp = some (ipHeaderBytes args.addressFamily) := by
  rw [hb.built.tcp, if_pos rfl, length_ipHeader]

theorem TcpBuilt.tcpSet (hb : TcpBuilt args packet) :
    TcpSet packet.buffer (ipHeaderBytes args.addressFamily) args := by
  have hholds : HoldsExcept packet.buffer (ipHeaderBytes args.addressFamily)
      (tcpHeader args (TCP_BYTES + args.optionLength) ++ args.optionBytes) 16 := by
    intro k hk _ _
    have hbyte := hb.built.holds (ipHeaderBytes args.addressFamily + k)
    rw [length_ipHeader, List.getD_append_right _ _ _ _ (by rw [length_ipHeader]; omega),
      length_ipHeader, Nat.add_sub_cancel_left] at hbyte
    exact hbyte (by omega)
  exact tcpSet_of_holds hb.aligned hb.header hholds

theorem TcpBuilt.setFlags_eq (hb : TcpBuilt args packet) :
    setFlags packet = flagChars.map args.flags.contains := by
  rw [setFlags, hb.tcp]
  exact hb.tcpSet.flags

/-- Printed are the flags that have a bit. -/
theorem TcpBuilt.printedFlags_eq (hb : TcpBuilt args packet) :
    printedFlags packet = flagChars.filter args.flags.contains := by
  rw [printedFlags, hb.tcp]
  exact tcpFlagsToString_of_flags hb.tcpSet.flags

/-- A packet that is built from the printed flags has the same bits. -/
theorem newTcpPacket_rebuilt (heap' : Memory) (hok : newTcpPacket heap args = .ok (.ok packet)) :
    ∃ packet', newTcpPacket heap' { args with flags := printedFlags packet } =
      .ok (.ok packet') ∧ setFlags packet' = setFlags packet := by
  have hb := newTcpPacket_built hok
  have hprinted : ∀ c ∈ printedFlags packet, c ∈ validTcpFlags := by
    rw [hb.printedFlags_eq]
    exact fun c hc => mem_validTcpFlags.mpr (.inl (List.mem_filter.mp hc).1)
  obtain ⟨packet', hok'⟩ := newTcpPacket_flags heap' hok (isTcpFlagsSpecValid_iff.mpr hprinted)
  refine ⟨packet', hok', ?_⟩
  rw [(newTcpPacket_built hok').setFlags_eq, hb.setFlags_eq, hb.printedFlags_eq]
  refine List.map_congr_left fun c hc => ?_
  rw [Bool.eq_iff_iff, List.contains_iff_mem, List.contains_iff_mem, List.mem_filter,
    List.contains_iff_mem]
  exact and_iff_right hc

/-- The printed flags are those of the string, and give the same bits, if and only if there is no
`C` in the string. -/
theorem flagsRoundTrip_iff (hok : newTcpPacket heap args = .ok (.ok packet)) :
    FlagsRoundTrip args packet ↔ 'C' ∉ args.flags := by
  have hb := newTcpPacket_built hok
  have hvalid := isTcpFlagsSpecValid_iff.mp hb.flags
  constructor
  · intro h hmem
    have hprinted := (h.printed 'C').mpr hmem
    rw [hb.printedFlags_eq] at hprinted
    exact absurd (List.mem_filter.mp hprinted).1 (by decide)
  · intro hC
    refine ⟨fun c => ?_, fun heap' => newTcpPacket_rebuilt heap' hok⟩
    rw [hb.printedFlags_eq, List.mem_filter, List.contains_iff_mem]
    refine ⟨And.right, fun hmem => ⟨?_, hmem⟩⟩
    refine (mem_validTcpFlags.mp (hvalid c hmem)).resolve_right ?_
    rintro rfl
    exact hC hmem

theorem flagsRoundTrip_syn : ∃ packet, newTcpPacket (fun _ => 0) synArgs = .ok (.ok packet) ∧
    FlagsRoundTrip synArgs packet := by
  obtain ⟨packet, hok⟩ : ∃ packet, newTcpPacket (fun _ => 0) synArgs = .ok (.ok packet) := ⟨_, rfl⟩
  exact ⟨packet, hok, (flagsRoundTrip_iff hok).mpr (by decide)⟩

/-- A `C` is taken and has no bit. -/
theorem not_flagsRoundTrip : ¬ ∀ (heap : Memory) (args : TcpArgs) (packet : FullPacket),
    newTcpPacket heap args = .ok (.ok packet) → FlagsRoundTrip args packet := by
  intro h
  obtain ⟨packet, hok⟩ : ∃ packet,
    newTcpPacket (fun _ => 0) { synArgs with flags := "SC".toList } = .ok (.ok packet) := ⟨_, rfl⟩
  have hprinted := ((h _ _ _ hok).printed 'C').mpr (by decide)
  rw [(newTcpPacket_built hok).printedFlags_eq] at hprinted
  exact absurd hprinted (by decide)

end Rebuilt

end QoSMos
