import QoSMos.Dump.Flags
import QoSMos.Options.Search

/-!
# Lists of TCP options

`tcp_options_append` puts the bytes of an option behind those of the others. What was appended is
what the iterator finds in a packet of `new_tcp_packet`, and an option for which there is no room
changes nothing.
-/

namespace QoSMos

open Returns

/-- `struct tcp_option`, of which `length` bytes go on the wire. `data` is the union of the
option's values. -/
structure TcpOption where
  kind : UInt8
  length : UInt8
  data : Vector UInt8 (MAX_TCP_OPTION_BYTES - TCPOLEN_FASTOPEN_BASE)
  deriving DecidableEq, Repr

/-- The bytes of the structure. -/
def TcpOption.bytes (option : TcpOption) : List UInt8 :=
  option.kind :: option.length :: option.data.toList

/-- The bytes of the option in its wire format. -/
def TcpOption.wire (option : TcpOption) : List UInt8 := option.bytes.take option.length.toNat

/-- `tcp_options_new` -/
def tcpOptionsNew : TcpOptions := ⟨Vector.replicate _ 0, 0⟩

/-- `tcp_option_new` -/
def tcpOptionNew (kind length : UInt8) : TcpOption := ⟨kind, length, Vector.replicate _ 0⟩

/-- `STATUS_OK` or `STATUS_ERR` -/
inductive AppendStatus where
  | statusOk | statusErr
  deriving DecidableEq, Repr

/-- `tcp_options_append`, and the list behind it. -/
def tcpOptionsAppend (options : TcpOptions) (option : TcpOption) :
    Except Halt (AppendStatus × TcpOptions) :=
  if options.length.toNat + option.length.toNat > MAX_TCP_OPTION_BYTES then
    .ok (.statusErr, options)
  else do
    let data := writeBytes (.ofList options.data.toList) options.length.toNat
      (option.bytes.take option.length.toNat)
    let options : TcpOptions := ⟨.ofFn fun i => data i, options.length + option.length⟩
    require (options.length.toNat ≤ MAX_TCP_OPTION_BYTES) "tcp_options_append"
      "options->length <= sizeof(options->data)"
    return (.statusOk, options)

/-- Append options one behind the other until a call returns `STATUS_ERR`. -/
def appendOptions (options : TcpOptions) : List TcpOption → Except Halt (AppendStatus × TcpOptions)
  | [] => .ok (.statusOk, options)
  | option :: rest => do
    match ← tcpOptionsAppend options option with
    | (.statusOk, options) => appendOptions options rest
    | (.statusErr, options) => return (.statusErr, options)

/-- An option of a supported kind with a length that this kind has. -/
def TcpOption.Legal (option : TcpOption) : Prop :=
  option.kind.toNat ∈ singleByteKinds ∧ option.length.toNat = 1 ∨
    (option.kind.toNat, option.length.toNat) ∈ fixedLengths ∨
      option.kind.toNat ∈ variableKinds ∧ 2 ≤ option.length.toNat ∧
        option.length.toNat ≤ MAX_TCP_OPTION_BYTES

/-- The length of a list of options in its wire format. -/
def totalBytes (options : List TcpOption) : Nat :=
  (options.map fun option => option.length.toNat).sum

/-- The list consists of these bytes. -/
structure TcpOptions.Holds (options : TcpOptions) (bytes : List UInt8) : Prop where
  length : options.length.toNat = bytes.length
  data : options.data.toList.take bytes.length = bytes

section Append

variable {options : TcpOptions} {option : TcpOption} {bytes : List UInt8} {n k : Nat}

@[simp] theorem TcpOption.length_bytes : option.bytes.length = MAX_TCP_OPTION_BYTES := by
  have hdata : option.data.toList.length = 38 := option.data.length_toList
  simp only [TcpOption.bytes, List.length_cons, hdata]
  rfl

theorem TcpOption.length_wire (h : option.length.toNat ≤ MAX_TCP_OPTION_BYTES) :
    option.wire.length = option.length.toNat := by
  simp [TcpOption.wire, h]

theorem TcpOption.Legal.length_le (h : option.Legal) :
    option.length.toNat ≤ MAX_TCP_OPTION_BYTES := by
  have hforty : MAX_TCP_OPTION_BYTES = 40 := rfl
  rcases h with ⟨-, h⟩ | h | ⟨-, -, h⟩
  · omega
  · simp only [fixedLengths, List.mem_cons, Prod.mk.injEq, List.not_mem_nil, or_false,
      TCPOLEN_MAXSEG, TCPOLEN_WINDOW, TCPOLEN_SACK_PERMITTED, TCPOLEN_TIMESTAMP] at h
    omega
  · exact h

theorem take_eq_readBytes {l : List UInt8} (hk : k ≤ l.length) :
    l.take k = readBytes (.ofList l) 0 k := by
  apply List.ext_getElem
  · simp [hk]
  · intro i hi _
    simp only [List.length_take, lt_inf_iff] at hi
    simp [readBytes, Memory.ofList, List.getElem_take, hi.2]

theorem take_ofFn (f : Memory) (hk : k ≤ n) :
    (Vector.ofFn fun i : Fin n => f i).toList.take k = readBytes f 0 k := by
  apply List.ext_getElem
  · simp [hk]
  · intro i _ _
    simp [readBytes, List.getElem_take]

/-- The step: an option that fits stands behind the others. -/
theorem TcpOptions.Holds.append (h : options.Holds bytes)
    (hfits : options.length.toNat + option.length.toNat ≤ MAX_TCP_OPTION_BYTES) :
    ∃ appended, tcpOptionsAppend options option = .ok (.statusOk, appended) ∧
      appended.Holds (bytes ++ option.wire) := by
  have hforty : MAX_TCP_OPTION_BYTES = 40 := rfl
  have hsize : options.data.toList.length = 40 := options.data.length_toList
  have hwire : option.wire.length = option.length.toNat := TcpOption.length_wire (by omega)
  have hsum : (options.length + option.length).toNat =
      options.length.toNat + option.length.toNat := by
    rw [UInt8.toNat_add]
    omega
  refine ⟨⟨.ofFn fun i => writeBytes (.ofList options.data.toList) options.length.toNat
    option.wire i, options.length + option.length⟩, ?_, ?_, ?_⟩
  · unfold tcpOptionsAppend
    rw [if_neg (by omega)]
    dsimp only
    rw [require_ok (by rw [hsum]; exact hfits)]
    rfl
  · simp only [List.length_append, hwire, ← h.length]
    exact hsum
  · have hlength := h.length
    rw [take_ofFn _ (by simp only [List.length_append, hwire]; exact hlength ▸ hfits),
      List.length_append, readBytes_append, Nat.zero_add]
    refine congrArg₂ (· ++ ·) ?_ ?_
    · calc readBytes _ 0 bytes.length = readBytes (.ofList options.data.toList) 0 bytes.length := by
            apply readBytes_congr
            intro i hi
            apply writeBytes_outside
            omega
        _ = options.data.toList.take bytes.length := (take_eq_readBytes (by omega)).symm
        _ = bytes := h.data
    · rw [hlength]
      exact readBytes_writeBytes

/-- And one that does not fit is refused. -/
theorem tcpOptionsAppend_full
    (hfull : MAX_TCP_OPTION_BYTES < options.length.toNat + option.length.toNat) :
    tcpOptionsAppend options option = .ok (.statusErr, options) := if_pos hfull

theorem tcpOptionsNew_holds : tcpOptionsNew.Holds [] := ⟨rfl, rfl⟩

/-- The run: options that fit stand one behind the other. -/
theorem TcpOptions.Holds.appendOptions {list : List TcpOption} (h : options.Holds bytes)
    (hfits : options.length.toNat + totalBytes list ≤ MAX_TCP_OPTION_BYTES) :
    ∃ appended, QoSMos.appendOptions options list = .ok (.statusOk, appended) ∧
      appended.Holds (bytes ++ list.flatMap TcpOption.wire) := by
  induction list generalizing options bytes with
  | nil => exact ⟨options, rfl, by simpa using h⟩
  | cons option rest ih =>
    simp only [totalBytes, List.map_cons, List.sum_cons] at hfits
    obtain ⟨appended, hcall, hholds⟩ := @TcpOptions.Holds.append options option bytes h (by omega)
    have hwire : option.wire.length = option.length.toNat := TcpOption.length_wire (by omega)
    obtain ⟨whole, hrest, hwhole⟩ := ih hholds (by
      rw [hholds.length, List.length_append, hwire, ← h.length]
      unfold totalBytes
      omega)
    refine ⟨whole, ?_, by simpa using hwhole⟩
    rw [QoSMos.appendOptions, hcall, Returns.bind_of_ok rfl]
    exact hrest

end Append

/-! ## What the iterator finds -/

section Found

variable {b : Memory} {e p : Nat} {option : TcpOption}

/-- The first bytes of a legal option on the wire. -/
theorem TcpOption.Legal.starts (h : option.Legal)
    (hread : readBytes b p option.length.toNat = option.wire) :
    0 < option.length.toNat ∧ u8At b p = option.kind.toNat ∧
      (option.kind.toNat ∉ singleByteKinds → 2 ≤ option.length.toNat ∧
        u8At b (p + 1) = option.length.toNat) := by
  have hbyte (k : Nat) (hk : k < option.length.toNat) : b (p + k) = option.bytes.getD k 0 := by
    have hget := getD_readBytes (b := b) (p := p) hk
    rw [hread, TcpOption.wire] at hget
    rw [← hget]
    simp [List.getD, hk]
  have htwo : option.kind.toNat ∉ singleByteKinds → 2 ≤ option.length.toNat := by
    intro hmulti
    rcases h with ⟨hsingle, -⟩ | h | ⟨-, h, -⟩
    · exact absurd hsingle hmulti
    · simp only [fixedLengths, List.mem_cons, Prod.mk.injEq, List.not_mem_nil, or_false,
        TCPOLEN_MAXSEG, TCPOLEN_WINDOW, TCPOLEN_SACK_PERMITTED, TCPOLEN_TIMESTAMP] at h
      omega
    · exact h
  have hpos : 0 < option.length.toNat := by
    by_cases hsingle : option.kind.toNat ∈ singleByteKinds
    · rcases h with ⟨-, h⟩ | h | ⟨-, h, -⟩
      · omega
      · simp only [fixedLengths, List.mem_cons, Prod.mk.injEq, List.not_mem_nil, or_false,
          TCPOLEN_MAXSEG, TCPOLEN_WINDOW, TCPOLEN_SACK_PERMITTED, TCPOLEN_TIMESTAMP] at h
        omega
      · omega
    · have := htwo hsingle
      omega
  refine ⟨hpos, congrArg UInt8.toNat (hbyte 0 hpos), fun hmulti => ⟨htwo hmulti, ?_⟩⟩
  exact congrArg UInt8.toNat (hbyte 1 (htwo hmulti))

/-- The kinds of one byte have no other length, and those of fixed length only this one. -/
theorem TcpOption.Legal.kind (h : option.Legal) :
    (option.kind.toNat ∈ singleByteKinds → option.length.toNat = 1) ∧
      Known option.kind.toNat ∧
      ∀ length, (option.kind.toNat, length) ∈ fixedLengths → option.length.toNat = length := by
  unfold TcpOption.Legal Known at *
  generalize option.kind.toNat = kind at *
  generalize option.length.toNat = length at *
  simp only [singleByteKinds, fixedLengths, variableKinds, List.map_cons, List.map_nil,
    List.mem_cons, Prod.mk.injEq, List.not_mem_nil, or_false, TCPOPT_EOL, TCPOPT_NOP,
    TCPOPT_MAXSEG, TCPOPT_WINDOW, TCPOPT_SACK_PERMITTED, TCPOPT_TIMESTAMP, TCPOPT_SACK,
    TCPOPT_MD5SIG, TCPOPT_FASTOPEN, TCPOPT_EXP, TCPOLEN_MAXSEG, TCPOLEN_WINDOW,
    TCPOLEN_SACK_PERMITTED, TCPOLEN_TIMESTAMP] at *
  refine ⟨?_, ?_, ?_⟩
  · omega
  · omega
  · intro length' h'
    omega

/-- The iterator takes a legal option with its length. -/
theorem TcpOption.Legal.formed (h : option.Legal)
    (hread : readBytes b p option.length.toNat = option.wire)
    (hroom : p + option.length.toNat ≤ e) :
    ¬ Malformed b e p ∧ wireLength b p = option.length.toNat := by
  obtain ⟨hpos, hkind, hmulti⟩ := h.starts hread
  obtain ⟨hone, hknown, hfixed⟩ := h.kind
  rw [Malformed, wireLength, hkind]
  by_cases hsingle : option.kind.toNat ∈ singleByteKinds
  · rw [if_pos hsingle, hone hsingle]
    exact ⟨by simp [hsingle, hknown], rfl⟩
  · obtain ⟨htwo, hlength⟩ := hmulti hsingle
    rw [if_neg hsingle, hlength]
    refine ⟨?_, rfl⟩
    rintro (hunknown | ⟨-, hbyte | hshort | hinside | ⟨length, hmem, hne⟩⟩)
    · exact hunknown hknown
    · omega
    · omega
    · omega
    · exact hne (hfixed length hmem)

/-- So the options of a list cover the area that holds it. -/
theorem tiles_of_wires {list : List TcpOption} (hlegal : ∀ option ∈ list, option.Legal)
    (hread : readBytes b p (totalBytes list) = list.flatMap TcpOption.wire)
    (he : e = p + totalBytes list) :
    ∃ visited, Tiles b e p visited e ∧
      List.Forall₂ (fun o option => readBytes b o (wireLength b o) = option.wire) visited list := by
  induction list generalizing p with
  | nil =>
    obtain rfl : e = p := by simpa [totalBytes] using he
    exact ⟨[], .nil e, .nil⟩
  | cons option rest ih =>
    have hfirst := hlegal option List.mem_cons_self
    have htotal : totalBytes (option :: rest) = option.length.toNat + totalBytes rest := by
      simp [totalBytes]
    have hlength := TcpOption.length_wire hfirst.length_le
    rw [htotal, readBytes_append, List.flatMap_cons] at hread
    obtain ⟨hhead, htail⟩ := List.append_inj hread (by rw [length_readBytes, hlength])
    obtain ⟨hformed, hwire⟩ := hfirst.formed hhead (e := e) (by omega)
    obtain ⟨hpos, -⟩ := hfirst.starts hhead
    obtain ⟨visited, htiles, hall⟩ := ih (fun o ho => hlegal o (List.mem_cons_of_mem _ ho)) htail
      (by omega)
    refine ⟨p :: visited, .cons (by omega) hformed (hwire ▸ htiles), .cons ?_ hall⟩
    rw [hwire, hhead]

end Found

section Packets

variable {heap : Memory} {args : TcpArgs} {packet : FullPacket} {options : TcpOptions}
  {list : List TcpOption} {bytes : List UInt8} {hs : List Header}

/-- A new packet has the bytes of its options behind the header. -/
theorem TcpBuilt.readOptions (hb : TcpBuilt args packet) :
    readBytes packet.buffer (ipHeaderBytes args.addressFamily + TCP_BYTES) args.optionLength =
      args.optionBytes := by
  apply List.ext_getElem
  · rw [length_readBytes, hb.options]
  · intro i hi hi'
    rw [length_readBytes] at hi
    have hbyte := hb.built.holds (ipHeaderBytes args.addressFamily + TCP_BYTES + i) (by
      simp only [length_ipHeader, List.length_append, length_tcpHeader, hb.options]
      omega)
    rw [List.getD_append_right _ _ _ _ (by rw [length_ipHeader]; omega), length_ipHeader,
      List.getD_append_right _ _ _ _ (by rw [length_tcpHeader]; omega), length_tcpHeader] at hbyte
    have hplace : ipHeaderBytes args.addressFamily + TCP_BYTES + i -
        ipHeaderBytes args.addressFamily - TCP_BYTES = i := by omega
    rw [hplace, List.getD_eq_getElem _ _ hi'] at hbyte
    simpa [readBytes] using hbyte

theorem TcpOptions.Holds.optionLength (hholds : options.Holds (list.flatMap TcpOption.wire))
    (hargs : args.tcpOptions = some options) (hlegal : ∀ option ∈ list, option.Legal) :
    args.optionLength = totalBytes list := by
  have htotal : (list.flatMap TcpOption.wire).length = totalBytes list := by
    rw [List.length_flatMap, totalBytes]
    refine congrArg List.sum (List.map_congr_left fun option ho => ?_)
    exact TcpOption.length_wire (hlegal option ho).length_le
  rw [TcpArgs.optionLength, hargs]
  exact hholds.length.trans htotal

/-- The options of the list are those of the packet. -/
theorem TcpBuilt.optionsAt (hb : TcpBuilt args packet) (hargs : args.tcpOptions = some options)
    (hholds : options.Holds (list.flatMap TcpOption.wire))
    (hlegal : ∀ option ∈ list, option.Legal) :
    ∃ visited, OptionsAt packet.toPacket (ipHeaderBytes args.addressFamily) visited ∧
      List.Forall₂ (fun o option => readBytes packet.buffer o (wireLength packet.buffer o) =
        option.wire) visited list := by
  have hset := hb.tcpSet
  have hlength := hholds.optionLength hargs hlegal
  have hbytes : args.optionBytes = list.flatMap TcpOption.wire := by
    have hdata := hholds.data
    rw [← hholds.length] at hdata
    rw [TcpArgs.optionBytes, hargs]
    exact hdata
  have hread := hb.readOptions
  rw [hbytes, hlength] at hread
  obtain ⟨visited, htiles, hall⟩ := tiles_of_wires hlegal hread rfl
  have haligned := hb.aligned
  have hend : Tcp.doff packet.buffer (ipHeaderBytes args.addressFamily) * 4 =
      TCP_BYTES + totalBytes list := by
    have hdoff := hset.doff
    omega
  refine ⟨visited, ⟨hb.tcp, ?_, ?_⟩, hall⟩
  · omega
  · rw [hend, ← Nat.add_assoc]
    exact htiles

theorem appendHeaderTotal_of_room {function : String} {t : HeaderType} {headerBytes total : Nat}
    (ht : Table packet.toPacket hs) (hfree : hs.length < PACKET_MAX_HEADERS)
    (hroom : packet.ipBytes + headerBytes ≤ packet.bufferBytes) :
    ∃ packet', appendHeaderTotal function packet t headerBytes total = .ok packet' := by
  unfold appendHeaderTotal packetAppendHeader
  rw [ht.count, if_neg (not_not.mpr ht.le), if_neg hfree.ne, if_neg (not_lt.mpr hroom)]
  exact ⟨_, rfl⟩

/-- The arguments besides the options are such that there is a packet. -/
structure TcpArgs.Acceptable (args : TcpArgs) : Prop where
  family : args.addressFamily = AF_INET ∨ args.addressFamily = AF_INET6
  size : args.packetBytes ≤ MAX_TCP_DATAGRAM_BYTES
  sixteenBits : args.addressFamily = AF_INET6 → args.packetBytes < 65536
  flags : isTcpFlagsSpecValid args.flags = .ok ()
  window : ¬ (args.window = -1 ∧ args.direction = .inbound)

theorem setPacketIpHeader_of_room {addressFamily : Int} {n : Nat} {direction : Direction}
    {tosChk : TosCheck} {tos ttl protocol : UInt8} {flowLabel : UInt32}
    (hfamily : addressFamily = AF_INET ∨ addressFamily = AF_INET6)
    (hroom : ipHeaderBytes addressFamily ≤ n) (hn : addressFamily = AF_INET6 → n < 65536) :
    ∃ withIp, setPacketIpHeader (clearPacket heap n direction tosChk) addressFamily
      (UInt16.ofNat n) tos flowLabel ttl protocol = .ok withIp := by
  have hfresh : Table (clearPacket heap n direction tosChk).toPacket [] := Table.packetNew _ _
  have hnone : (clearPacket heap n direction tosChk).ipv4 = none ∧
      (clearPacket heap n direction tosChk).ipv6 = none := ⟨rfl, rfl⟩
  unfold setPacketIpHeader
  rcases hfamily with rfl | rfl
  · obtain ⟨withIp, happend⟩ := @appendHeaderTotal_of_room
      { clearPacket heap n direction tosChk with ipv4 := some 0 } [] "set_packet_ip_header" .ipv4
      IPV4_BYTES (UInt16.ofNat n).toNat ⟨hfresh.le, hfresh.entries, hfresh.used⟩ (by decide)
      ((Nat.zero_add _).trans_le hroom)
    rw [if_pos rfl]
    dsimp only at happend ⊢
    rw [require_ok hnone.2, Returns.bind_of_ok rfl, happend]
    exact ⟨_, rfl⟩
  · obtain ⟨withIp, happend⟩ := @appendHeaderTotal_of_room
      { clearPacket heap n direction tosChk with ipv6 := some 0 } [] "set_packet_ip_header" .ipv6
      IPV6_BYTES (UInt16.ofNat n).toNat ⟨hfresh.le, hfresh.entries, hfresh.used⟩ (by decide)
      ((Nat.zero_add _).trans_le hroom)
    have hlong : (UInt16.ofNat n).toNat ≥ IPV6_BYTES := by
      have hlt := hn rfl
      have hu16 : (UInt16.ofNat n).toNat = n := by
        rw [UInt16.toNat_ofNat']
        omega
      rw [hu16]
      exact hroom
    rw [if_neg (by decide), if_pos rfl]
    dsimp only at happend ⊢
    rw [require_ok hnone.1, Returns.bind_of_ok rfl, happend, Returns.bind_of_ok rfl, setIpv6Header,
      require_ok hlong]
    exact ⟨_, rfl⟩

/-- `new_tcp_packet` returns a packet if the options can be part of a header. -/
theorem newTcpPacket_accepts (hargs : args.Acceptable) (haligned : args.optionLength % 4 = 0)
    (hheader : TCP_BYTES + args.optionLength ≤ MAX_TCP_HEADER_BYTES) :
    ∃ packet, newTcpPacket heap args = .ok (.ok packet) := by
  obtain ⟨hfamily, hsize, hsixteen, hflags, hwindow⟩ := hargs
  have hroom : ipHeaderBytes args.addressFamily ≤ args.packetBytes := by
    unfold TcpArgs.packetBytes
    omega
  have hfresh : Table (clearPacket heap args.packetBytes args.direction
      args.ipInfo.tos.check).toPacket [] := Table.packetNew _ _
  have hip : ipType args.addressFamily ≠ .none := by
    unfold ipType
    split <;> simp
  obtain ⟨withIp, hset⟩ := @setPacketIpHeader_of_room heap args.addressFamily args.packetBytes
    args.direction args.ipInfo.tos.check args.ipInfo.tos.value args.ipInfo.ttl
    (UInt8.ofNat IPPROTO_TCP) args.ipInfo.flowLabel hfamily hroom hsixteen
  have hwith := setPacketIpHeader_eq_ok hfresh rfl rfl rfl rfl hset
  generalize hbytes : ipHeader args.addressFamily (UInt16.ofNat args.packetBytes)
    args.ipInfo.tos.value args.ipInfo.flowLabel args.ipInfo.ttl (UInt8.ofNat IPPROTO_TCP) = bytes
    at hwith
  have hlength : bytes.length = ipHeaderBytes args.addressFamily := by
    rw [← hbytes, length_ipHeader]
  have hone := hfresh.push (h := ⟨ipType args.addressFamily, bytes.length,
    (UInt16.ofNat args.packetBytes).toNat, some 0⟩) (by decide) hip
  have htable : Table withIp.toPacket [⟨ipType args.addressFamily, bytes.length,
      (UInt16.ofNat args.packetBytes).toNat, some 0⟩] := by
    rw [hwith]
    exact ⟨hone.le, hone.entries, hone.used⟩
  have hspace : withIp.ipBytes + (TCP_BYTES + args.optionLength) ≤ withIp.bufferBytes := by
    rw [hwith]
    show 0 + bytes.length + (TCP_BYTES + args.optionLength) ≤ args.packetBytes
    unfold TcpArgs.packetBytes
    omega
  obtain ⟨withTcp, happend⟩ := @appendHeaderTotal_of_room withIp _ "new_tcp_packet" .tcp
    (TCP_BYTES + args.optionLength)
    (TCP_BYTES + args.optionLength + args.tcpPayloadBytes.toNat) htable
    (by show 1 < 6; decide) hspace
  have hstart : ipStart withTcp.toPacket = .ok 0 := by
    rw [appendHeaderTotal_eq_ok happend htable (by rw [hwith]; rfl) rfl, hwith, ipStart]
    rcases hfamily with h | h <;> rw [h] <;> rfl
  exact ⟨_, newTcpPacket_eq_ok_iff.mpr ⟨hfamily, haligned, hheader, hsize, hflags, hwindow, withIp,
    withTcp, 0, hset, happend, hstart, rfl⟩⟩

end Packets

/-- Options that were appended to a new list come back, in order and byte by byte, from the
iterator over a packet that was made with the list; and an option without room is refused. -/
theorem tcpOptions_roundTrip :
    (∀ list : List TcpOption, (∀ option ∈ list, option.Legal) → totalBytes list % 4 = 0 →
      totalBytes list ≤ MAX_TCP_OPTION_BYTES →
      ∃ options, appendOptions tcpOptionsNew list = .ok (.statusOk, options) ∧
        ∀ heap args, args.tcpOptions = some options →
          (args.Acceptable → ∃ packet, newTcpPacket heap args = .ok (.ok packet)) ∧
          ∀ packet, newTcpPacket heap args = .ok (.ok packet) →
            ∃ visited, (∀ fuel > MAX_TCP_OPTION_BYTES,
                (runIterator fuel packet.toPacket).result = .ok (visited, none)) ∧
              List.Forall₂ (fun o option =>
                readBytes packet.buffer o (wireLength packet.buffer o) = option.wire)
                visited list) ∧
    ∀ options option, MAX_TCP_OPTION_BYTES < options.length.toNat + option.length.toNat →
      tcpOptionsAppend options option = .ok (.statusErr, options) := by
  refine ⟨fun list hlegal haligned hfits => ?_, fun options option => tcpOptionsAppend_full⟩
  have hzero : tcpOptionsNew.length.toNat + totalBytes list ≤ MAX_TCP_OPTION_BYTES :=
    (Nat.zero_add _).trans_le hfits
  obtain ⟨options, hcalls, hholds⟩ := tcpOptionsNew_holds.appendOptions hzero
  rw [List.nil_append] at hholds
  refine ⟨options, hcalls, fun heap args hargs => ⟨fun hacceptable => ?_, fun packet hnew => ?_⟩⟩
  · have hlength := hholds.optionLength hargs hlegal
    apply newTcpPacket_accepts hacceptable
    · omega
    · rw [hlength]
      exact Nat.add_le_add_left hfits TCP_BYTES
  · have hb := newTcpPacket_built hnew
    obtain ⟨visited, harea, hall⟩ := hb.optionsAt hargs hholds hlegal
    refine ⟨visited, fun fuel hfuel => runIterator_of_options harea ?_, hall⟩
    have hdoff := hb.tcpSet.doff
    have hlength := hholds.optionLength hargs hlegal
    omega

/-- A segment size, padding and a window scale. -/
def synOptions : List TcpOption :=
  [{ tcpOptionNew 2 4 with data := .ofFn fun i => [5, 0xb4].getD i 0 }, tcpOptionNew 1 1,
    { tcpOptionNew 3 3 with data := .ofFn fun i => [7].getD i 0 }]

theorem tcpOptions_roundTrip_syn : ∃ (packet : FullPacket) (visited : List Nat),
    (runIterator 41 packet.toPacket).result = .ok (visited, none) ∧
      List.Forall₂ (fun o option =>
        readBytes packet.buffer o (wireLength packet.buffer o) = option.wire)
        visited synOptions := by
  have hlegal : ∀ option ∈ synOptions, option.Legal := by
    unfold TcpOption.Legal
    decide
  obtain ⟨options, hcalls, hbuilt⟩ := tcpOptions_roundTrip.1 synOptions hlegal rfl (by decide)
  obtain rfl : _ = options := congrArg Prod.snd (Except.ok.inj ((rfl : _ = _).symm.trans hcalls))
  obtain ⟨haccepts, hround⟩ := hbuilt (fun _ => 0) { synArgs with tcpOptions := some _ } rfl
  obtain ⟨packet, hnew⟩ := haccepts ⟨.inr rfl, by decide, fun _ => by decide, rfl, by decide⟩
  obtain ⟨visited, hvisits, hall⟩ := hround packet hnew
  exact ⟨packet, visited, hvisits 41 (by decide), hall⟩

end QoSMos
