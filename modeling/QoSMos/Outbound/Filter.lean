import QoSMos.Address.Word
import QoSMos.Lib.PacketFilter
import QoSMos.Packet.Crc32c

/-!
# The filter of the packet socket

`packet_socket_set_filter` of `packet_socket_linux.c` writes the addresses of the client into one of
two programs, so that only frames of the client are sniffed. `SO_ATTACH_FILTER` is assumed to
succeed, as the process ends otherwise.
-/

namespace QoSMos

open PacketFilter

/-! ## The programs -/

/-- `bpf_ipv4_src`: `ether src 11:22:33:44:55:66 and ip src 1.2.3.4` -/
def bpfIpv4Src : List SockFilter :=
  [⟨0x20, 0, 0, 0x00000008⟩,
   ⟨0x15, 0, 7, 0x33445566⟩,
   ⟨0x28, 0, 0, 0x00000006⟩,
   ⟨0x15, 0, 5, 0x00001122⟩,
   ⟨0x28, 0, 0, 0x0000000c⟩,
   ⟨0x15, 0, 3, 0x00000800⟩,
   ⟨0x20, 0, 0, 0x0000001a⟩,
   ⟨0x15, 0, 1, 0x01020304⟩,
   ⟨0x6, 0, 0, 0x0000ffff⟩,
   ⟨0x6, 0, 0, 0x00000000⟩]

/-- `bpf_ipv6_src`: `ether src 11:22:33:44:55:66 and ip6 src 1:2:3:4:5:6:7:8` -/
def bpfIpv6Src : List SockFilter :=
  [⟨0x20, 0, 0, 0x00000008⟩,
   ⟨0x15, 0, 13, 0x33445566⟩,
   ⟨0x28, 0, 0, 0x00000006⟩,
   ⟨0x15, 0, 11, 0x00001122⟩,
   ⟨0x28, 0, 0, 0x0000000c⟩,
   ⟨0x15, 0, 9, 0x000086dd⟩,
   ⟨0x20, 0, 0, 0x00000016⟩,
   ⟨0x15, 0, 7, 0x00010002⟩,
   ⟨0x20, 0, 0, 0x0000001a⟩,
   ⟨0x15, 0, 5, 0x00030004⟩,
   ⟨0x20, 0, 0, 0x0000001e⟩,
   ⟨0x15, 0, 3, 0x00050006⟩,
   ⟨0x20, 0, 0, 0x00000022⟩,
   ⟨0x15, 0, 1, 0x00070008⟩,
   ⟨0x6, 0, 0, 0x0000ffff⟩,
   ⟨0x6, 0, 0, 0x00000000⟩]

/-- `filter[i].k = k` -/
def setK (filter : List SockFilter) (i : Nat) (k : UInt32) : List SockFilter :=
  filter.modify i fun instr => { instr with k := k }

/-- `packet_socket_set_filter`, with the program that it attaches. The shift of `client_ether[2]`
may reach the sign bit of an `int`; compilers take it as that of an unsigned number. -/
def packetSocketSetFilter (clientEther : Fin 6 → UInt8) (clientLiveIp : IpAddress) :
    List SockFilter :=
  let filter := match clientLiveIp.addressFamily with
    | .inet => setK bpfIpv4Src 7 (clientLiveIp.word 0)
    | .inet6 => setK (setK (setK (setK bpfIpv6Src 7 (clientLiveIp.word 0)) 9 (clientLiveIp.word 1))
        11 (clientLiveIp.word 2)) 13 (clientLiveIp.word 3)
  let filter := setK filter 1 (((clientEther 2).toUInt32 <<< 24) |||
    ((clientEther 3).toUInt32 <<< 16) ||| ((clientEther 4).toUInt32 <<< 8) |||
    (clientEther 5).toUInt32)
  setK filter 3 (((clientEther 0).toUInt32 <<< 8) ||| (clientEther 1).toUInt32)

/-! ## The frames of the client -/

def AddressFamily.etherType : AddressFamily → Nat
  | .inet => ETHERTYPE_IP
  | .inet6 => ETHERTYPE_IPV6

/-- The offset of the source address in a frame. -/
def AddressFamily.sourceOffset : AddressFamily → Nat
  | .inet => ETHER_HEADER_BYTES + 12
  | .inet6 => ETHER_HEADER_BYTES + 8

/-- The Ethernet source, the Ethernet type and the IP source of a frame are those of the client. -/
structure FromClient (clientEther : Fin 6 → UInt8) (clientLiveIp : IpAddress)
    (frame : List UInt8) : Prop where
  etherSource : field frame 6 6 = List.ofFn clientEther
  etherType : field frame 12 2 = be16 clientLiveIp.addressFamily.etherType
  ipSource : field frame clientLiveIp.addressFamily.sourceOffset clientLiveIp.octets.length =
    clientLiveIp.octets

/-- The fields of a frame in the order in which the programs look at them. -/
def clientChecks (clientEther : Fin 6 → UInt8) (clientLiveIp : IpAddress) : List Check :=
  [⟨8, [clientEther 2, clientEther 3, clientEther 4, clientEther 5]⟩,
   ⟨6, [clientEther 0, clientEther 1]⟩,
   ⟨12, be16 clientLiveIp.addressFamily.etherType⟩] ++
  match clientLiveIp.addressFamily with
  | .inet => [⟨0x1a, field clientLiveIp.bytes 0 4⟩]
  | .inet6 => [⟨0x16, field clientLiveIp.bytes 0 4⟩, ⟨0x1a, field clientLiveIp.bytes 4 4⟩,
      ⟨0x1e, field clientLiveIp.bytes 8 4⟩, ⟨0x22, field clientLiveIp.bytes 12 4⟩]

section Filter

variable {clientEther : Fin 6 → UInt8} {clientLiveIp ip : IpAddress} {frame bytes : List UInt8}
  {p : Nat}

theorem field_eq_readBytes {n : Nat} (h : p + n ≤ bytes.length) :
    field bytes p n = readBytes (.ofList bytes) p n := by
  apply List.ext_getElem
  · rw [field, List.length_take, List.length_drop, length_readBytes]
    omega
  · intro i hi hi'
    rw [length_readBytes] at hi'
    have hinside : p + i < bytes.length := by omega
    simp [field, readBytes, Memory.ofList, hinside]

theorem IpAddress.toNat_word {i : Nat} (h : 4 * i + 4 ≤ ip.bytes.length) :
    (ip.word i).toNat = bigEndian (field ip.bytes (4 * i) 4) := by
  have hfour : field ip.bytes (4 * i) 4 =
      [Memory.ofList ip.bytes (4 * i), Memory.ofList ip.bytes (4 * i + 1),
        Memory.ofList ip.bytes (4 * i + 2), Memory.ofList ip.bytes (4 * i + 2 + 1)] :=
    field_eq_readBytes h
  rw [IpAddress.word, UInt32.toNat_ofNat_of_lt' (be32At_lt _ _), hfour, bigEndian_four,
    be32At, be16At, be16At, u8At, u8At, u8At, u8At]
  omega

theorem toNat_ofTwoBytes (byte0 byte1 : UInt8) :
    ((byte0.toUInt32 <<< 8) ||| byte1.toUInt32).toNat = bigEndian [byte0, byte1] := by
  have hword := toNat_ofBytes 0 0 byte0 byte1
  have hzero : (0 : UInt8).toUInt32 <<< 24 ||| (0 : UInt8).toUInt32 <<< 16 = 0 := by decide
  rw [hzero, UInt32.zero_or] at hword
  rw [hword, bigEndian_two]
  simp

theorem toNat_ofFourBytes (byte0 byte1 byte2 byte3 : UInt8) :
    ((byte0.toUInt32 <<< 24) ||| (byte1.toUInt32 <<< 16) ||| (byte2.toUInt32 <<< 8) |||
      byte3.toUInt32).toNat = bigEndian [byte0, byte1, byte2, byte3] := by
  rw [toNat_ofBytes, bigEndian_four]

/-- Both programs check the fields one after the other. -/
theorem decode_packetSocketSetFilter (hip : clientLiveIp.bytes.length = 16) :
    (packetSocketSetFilter clientEther clientLiveIp).mapM SockFilter.decode =
      some (compile 0xffff (clientChecks clientEther clientLiveIp)) := by
  obtain ⟨family, bytes⟩ := clientLiveIp
  have hlength (p : Nat) (hp : p + 4 ≤ 16) : (field bytes p 4).length = 4 := by
    rw [field_eq_readBytes (hp.trans hip.ge), length_readBytes]
  have hword (i : Nat) (hi : 4 * i + 4 ≤ 16) :
      ((IpAddress.mk family bytes).word i).toNat = bigEndian (field bytes (4 * i) 4) :=
    IpAddress.toNat_word (hi.trans hip.ge)
  have hlow := toNat_ofFourBytes (clientEther 2) (clientEther 3) (clientEther 4) (clientEther 5)
  have hhigh := toNat_ofTwoBytes (clientEther 0) (clientEther 1)
  cases family with
  | inet =>
    simp only [clientChecks, compile, List.cons_append, List.nil_append, List.length_cons,
      List.length_nil, hlength 0, ← hlow, ← hhigh, Nat.reduceLeDiff, Nat.reduceAdd]
    rw [← hword 0 (by omega)]
    rfl
  | inet6 =>
    simp only [clientChecks, compile, List.cons_append, List.nil_append, List.length_cons,
      List.length_nil, hlength 0, hlength 4, hlength 8, hlength 12, ← hlow, ← hhigh,
      Nat.reduceLeDiff, Nat.reduceAdd]
    rw [← hword 0 (by omega), ← hword 1 (by omega), ← hword 2 (by omega), ← hword 3 (by omega)]
    rfl

theorem field_ofFn_iff : field frame 6 6 = List.ofFn clientEther ↔
    field frame 8 4 = [clientEther 2, clientEther 3, clientEther 4, clientEther 5] ∧
      field frame 6 2 = [clientEther 0, clientEther 1] := by
  have hofFn : List.ofFn clientEther = [clientEther 0, clientEther 1] ++
      [clientEther 2, clientEther 3, clientEther 4, clientEther 5] := rfl
  rw [hofFn, and_comm]
  exact field_append_iff [clientEther 0, clientEther 1]
    [clientEther 2, clientEther 3, clientEther 4, clientEther 5]

theorem length_field_of_le {n : Nat} (h : p + n ≤ bytes.length) : (field bytes p n).length = n := by
  rw [field_eq_readBytes h, length_readBytes]

/-- The bytes of an IPv6 address are checked word by word. -/
theorem field_words_iff {offset : Nat} (hbytes : bytes.length = 16) :
    field frame offset bytes.length = bytes ↔
      field frame offset 4 = field bytes 0 4 ∧ field frame (offset + 4) 4 = field bytes 4 4 ∧
        field frame (offset + 8) 4 = field bytes 8 4 ∧
          field frame (offset + 12) 4 = field bytes 12 4 := by
  have hwords : field bytes 0 4 ++ (field bytes 4 4 ++ (field bytes 8 4 ++ field bytes 12 4)) =
      bytes := by
    calc _ = field bytes 0 (4 + (4 + (4 + 4))) := by
          rw [field_add, field_add, field_add]
      _ = bytes := List.take_of_length_le hbytes.le
  have hlength (p : Nat) (hp : p + 4 ≤ 16) : (field bytes p 4).length = 4 :=
    length_field_of_le (hp.trans hbytes.ge)
  conv_lhs => rw [← hwords]
  rw [field_append_iff, field_append_iff, field_append_iff, hlength 0 (by omega),
    hlength 4 (by omega), hlength 8 (by omega), hlength 12 (by omega)]

/-- All checks hold of the frames of the client, and of no others. -/
theorem forall_clientChecks_iff (hip : clientLiveIp.WellFormed) :
    (∀ c ∈ clientChecks clientEther clientLiveIp, c.Holds frame) ↔
      FromClient clientEther clientLiveIp frame := by
  obtain ⟨family, bytes⟩ := clientLiveIp
  have hbytes : bytes.length = 16 := hip.1
  have hlength (p : Nat) (hp : p + 4 ≤ 16) : (field bytes p 4).length = 4 :=
    length_field_of_le (hp.trans hbytes.ge)
  have hfields : FromClient clientEther ⟨family, bytes⟩ frame ↔
      field frame 6 6 = List.ofFn clientEther ∧ field frame 12 2 = be16 family.etherType ∧
        field frame family.sourceOffset (IpAddress.octets ⟨family, bytes⟩).length =
          IpAddress.octets ⟨family, bytes⟩ :=
    ⟨fun h => ⟨h.etherSource, h.etherType, h.ipSource⟩, fun h => ⟨h.1, h.2.1, h.2.2⟩⟩
  rw [hfields, field_ofFn_iff]
  cases family with
  | inet =>
    have hsource : field frame 26 (field bytes 0 4).length = field bytes 0 4 ↔
        field frame (AddressFamily.sourceOffset .inet) (IpAddress.octets ⟨.inet, bytes⟩).length =
          IpAddress.octets ⟨.inet, bytes⟩ := Iff.rfl
    rw [← hsource]
    simp [clientChecks, Check.Holds, be16, and_assoc]
  | inet6 =>
    have hsource : field frame (AddressFamily.sourceOffset .inet6)
          (IpAddress.octets ⟨.inet6, bytes⟩).length = IpAddress.octets ⟨.inet6, bytes⟩ ↔
        field frame 22 4 = field bytes 0 4 ∧ field frame 26 4 = field bytes 4 4 ∧
          field frame 30 4 = field bytes 8 4 ∧ field frame 34 4 = field bytes 12 4 := by
      have hoctets : IpAddress.octets ⟨.inet6, bytes⟩ = bytes := List.take_of_length_le hbytes.le
      rw [hoctets]
      exact field_words_iff hbytes
    rw [hsource]
    simp [clientChecks, Check.Holds, be16, and_assoc, hlength]

theorem clientChecks_bytes_ne_nil (hip : clientLiveIp.WellFormed) :
    ∀ c ∈ clientChecks clientEther clientLiveIp, c.bytes ≠ [] := by
  have hfour (p : Nat) (hp : p + 4 ≤ 16) : field clientLiveIp.bytes p 4 ≠ [] := by
    apply List.ne_nil_of_length_pos
    rw [length_field_of_le (hp.trans hip.1.ge)]
    omega
  intro c hc
  cases hfamily : clientLiveIp.addressFamily with
  | inet =>
    simp only [clientChecks, hfamily, List.cons_append, List.nil_append, List.mem_cons,
      List.not_mem_nil, or_false] at hc
    grind [be16]
  | inet6 =>
    simp only [clientChecks, hfamily, List.cons_append, List.nil_append, List.mem_cons,
      List.not_mem_nil, or_false] at hc
    grind [be16]

/-- The installed program accepts the frames of the client, and no others. -/
theorem packetSocketSetFilter_accepts_iff (hip : clientLiveIp.WellFormed) :
    accepts (packetSocketSetFilter clientEther clientLiveIp) frame = true ↔
      FromClient clientEther clientLiveIp frame := by
  rw [accepts, decode_packetSocketSetFilter hip.1, decide_eq_true_iff,
    run_compile (by decide) (clientChecks_bytes_ne_nil hip), forall_clientChecks_iff hip]

/-- A frame that ends with the source address. -/
theorem packetSocketSetFilter_accepts_short :
    FromClient (List.get [0x82, 0x22, 0x33, 0x44, 0x55, 0x66])
      ⟨.inet, [192, 168, 0, 7] ++ List.replicate 12 0⟩
      (List.replicate 6 0xff ++ [0x82, 0x22, 0x33, 0x44, 0x55, 0x66, 8, 0] ++ List.replicate 12 1 ++
        [192, 168, 0, 7]) :=
  (packetSocketSetFilter_accepts_iff ⟨rfl, fun _ => rfl⟩).mp (by decide)

end Filter

end QoSMos
