import QoSMos.Build.Layout
import QoSMos.Build.Program

/-!
# Encapsulating packets

`packet_encapsulate` with the functions that append outer headers to a packet and the ones
that finish a header once it is known what it carries.

`header_append` functions leave the packet to their caller also where they fail, so they
return it next to the message. `inet_pton` is a parameter.
-/

namespace QoSMos

/-- `inet_pton`: the bytes of an address, or `none` where it does not return 1. -/
structure InetPton where
  inet : String → Option (Vector UInt8 4)
  inet6 : String → Option (Vector UInt8 16)

/-- The pointer of a header, where it is dereferenced. -/
def Header.data (header : Header) (function : String) : Except Halt Nat :=
  match header.ptr with
  | some p => .ok p
  | none => .error (.undefined function "header->h.ptr")

/-- `gre_len` of the header at `gre`. -/
def greLenAt (b : Memory) (gre : Nat) : Except Halt Nat := do
  require (Gre.version b gre = 0) "gre_len" "gre->version == 0"
  require (Gre.hasRouting b gre = false) "gre_len" "!gre->has_routing"
  return Gre.len b gre

/-! ## Appending outer headers -/

def MPLS_STACK_MAX_ENTRIES : Nat := 6

/-- `struct mpls_stack`, its entries in host order. -/
structure MplsStack where
  entries : List UInt32
  le : entries.length ≤ MPLS_STACK_MAX_ENTRIES

/-- `mpls_stack_new` -/
def mplsStackNew : MplsStack := ⟨[], Nat.zero_le _⟩

/-- `mpls_stack_append`, `none` being `STATUS_ERR`. -/
def mplsStackAppend (stack : MplsStack) (mpls : UInt32) : Option MplsStack :=
  if h : stack.entries.length ≥ MPLS_STACK_MAX_ENTRIES then none
  else some ⟨stack.entries ++ [mpls], List.length_append.trans_le (Nat.lt_of_not_ge h)⟩

/-- The bytes of the entries on the wire. -/
def MplsStack.bytes (stack : MplsStack) : List UInt8 :=
  stack.entries.flatMap fun entry => be32 entry.toNat

/-- A call of `packet_append_header`, with the pointer of the new header. -/
def appendHeaderPtr (function : String) (packet : FullPacket) (headerType : HeaderType)
    (headerBytes : Nat) : Except Halt (Option (Nat × FullPacket)) :=
  match packetAppendHeader packet.toPacket headerType headerBytes with
  | .error fault => .error (.fault fault)
  | .ok none => .ok none
  | .ok (some (header, appended)) => do
    let ptr ← (appended.headers.toList.getD header Header.unused).data function
    return some (ptr, { packet with toPacket := appended })

/-- What a `header_append` function returns: `STATUS_OK` or an error message, and the packet. -/
abbrev Appended := Option String × FullPacket

/-- `ipv4_header_append` -/
def ipv4HeaderAppend (inetPton : InetPton) (packet : FullPacket) (ipSrc ipDst : String)
    (tos ttl : UInt8) : Except Halt Appended := do
  match ← appendHeaderPtr "ipv4_header_append" packet .ipv4 IPV4_BYTES with
  | none => return (some "too many headers", packet)
  | some (ipv4, packet) =>
    let packet := { packet with buffer := setIpv4Header packet.buffer ipv4 0 tos ttl 0 }
    match inetPton.inet ipSrc with
    | none => return (some s!"bad IPv4 src address: '{ipSrc}'\n", packet)
    | some src =>
      let packet := { packet with buffer := writeBytes packet.buffer (ipv4 + 12) src.toList }
      match inetPton.inet ipDst with
      | none => return (some s!"bad IPv4 dst address: '{ipDst}'\n", packet)
      | some dst =>
        return (none, { packet with buffer := writeBytes packet.buffer (ipv4 + 16) dst.toList })

/-- `ipv6_header_append` -/
def ipv6HeaderAppend (inetPton : InetPton) (packet : FullPacket) (ipSrc ipDst : String)
    (tos hopLimit : UInt8) : Except Halt Appended := do
  match ← appendHeaderPtr "ipv6_header_append" packet .ipv6 IPV6_BYTES with
  | none => return (some "too many headers", packet)
  | some (ipv6, packet) =>
    let buffer ← setIpv6Header packet.buffer ipv6 (UInt16.ofNat IPV6_BYTES) tos 0 hopLimit 0
    match inetPton.inet6 ipSrc with
    | none =>
      return (some s!"bad IPv6 src address: '{ipSrc}'\n", { packet with buffer := buffer })
    | some src =>
      let buffer := writeBytes buffer (ipv6 + 8) src.toList
      match inetPton.inet6 ipDst with
      | none =>
        return (some s!"bad IPv6 dst address: '{ipDst}'\n", { packet with buffer := buffer })
      | some dst =>
        return (none, { packet with buffer := writeBytes buffer (ipv6 + 24) dst.toList })

/-- `gre_header_append` of the 16 bytes of a `struct gre`. -/
def greHeaderAppend (packet : FullPacket) (gre : Vector UInt8 16) : Except Halt Appended := do
  let len ← greLenAt (.ofList gre.toList) 0
  match ← appendHeaderPtr "gre_header_append" packet .gre len with
  | none => return (some "too many headers", packet)
  | some (ptr, packet) =>
    return (none, { packet with buffer := writeBytes packet.buffer ptr (gre.toList.take len) })

/-- `mpls_header_append` -/
def mplsHeaderAppend (packet : FullPacket) (mplsStack : MplsStack) : Except Halt Appended := do
  let mplsBytes := mplsStack.entries.length * MPLS_BYTES
  match ← appendHeaderPtr "mpls_header_append" packet .mpls mplsBytes with
  | none => return (some "too many headers", packet)
  | some (ptr, packet) =>
    return (none, { packet with buffer := writeBytes packet.buffer ptr mplsStack.bytes })

/-! ## Finishing headers -/

/-- `header_type_info(header_type)`, after which a field of the table entry is read. -/
def headerTypeInfo (headerType : HeaderType) : Except Halt Unit :=
  require (headerType ≠ .none) "header_type_info" "header_type > HEADER_NONE"

/-- `next_inner` where it is dereferenced. -/
def nextInnerData (nextInner : Option Header) (function : String) : Except Halt Header :=
  match nextInner with
  | some next => .ok next
  | none => .error (.undefined function "next_inner->total_bytes")

/-- `ipv4_header_finish`: `tot_len` takes the low 16 bits of `ip_bytes`. -/
def ipv4HeaderFinish (b : Memory) (header : Header) (nextInner : Option Header) :
    Except Halt (Memory × Header) := do
  let function := "ipv4_header_finish"
  let ipv4 ← header.data function
  let next ← nextInnerData nextInner function
  let ipBytes := IPV4_BYTES + next.totalBytes
  let b := writeBytes b (ipv4 + 2) (be16 ipBytes)
  headerTypeInfo next.type
  let b := writeBytes b (ipv4 + 9) [UInt8.ofNat next.type.ipProto]
  let b := fillChecksum b (Ipv4.checkAt ipv4) fun b =>
    ipv4Checksum b ipv4 (Ipv4.ihl b ipv4 * 4)
  return (b, { header with totalBytes := ipBytes })

/-- `ipv6_header_finish` -/
def ipv6HeaderFinish (b : Memory) (header : Header) (nextInner : Option Header) :
    Except Halt (Memory × Header) := do
  let function := "ipv6_header_finish"
  let ipv6 ← header.data function
  let next ← nextInnerData nextInner function
  let ipBytes := IPV6_BYTES + next.totalBytes
  require (next.totalBytes ≤ 0xffff) function "next_inner->total_bytes <= 0xffff"
  let b := writeBytes b (ipv6 + 4) (be16 next.totalBytes)
  headerTypeInfo next.type
  let b := writeBytes b (ipv6 + 6) [UInt8.ofNat next.type.ipProto]
  return (b, { header with totalBytes := ipBytes })

/-- `gre_header_finish` -/
def greHeaderFinish (b : Memory) (header : Header) (nextInner : Option Header) :
    Except Halt (Memory × Header) := do
  let function := "gre_header_finish"
  let gre ← header.data function
  let len ← greLenAt b gre
  let next ← nextInnerData nextInner function
  let greBytes := len + next.totalBytes
  headerTypeInfo next.type
  let b := writeBytes b (gre + 2) (be16 next.type.ethProto)
  return (b, { header with totalBytes := greBytes })

/-- `mpls_header_finish` -/
def mplsHeaderFinish (b : Memory) (header : Header) (nextInner : Option Header) :
    Except Halt (Memory × Header) := do
  let next ← nextInnerData nextInner "mpls_header_finish"
  let mplsBytes := header.headerBytes + next.totalBytes
  return (b, { header with totalBytes := mplsBytes })

/-- A turn of the loop below: it skips an unused entry, and `header_types[type].finish` is
`NULL` for the transport headers. -/
def Header.finish (b : Memory) (header : Header) (nextInner : Option Header) :
    Except Halt (Memory × Header) :=
  match header.type with
  | .ipv4 => ipv4HeaderFinish b header nextInner
  | .ipv6 => ipv6HeaderFinish b header nextInner
  | .gre => greHeaderFinish b header nextInner
  | .mpls => mplsHeaderFinish b header nextInner
  | .none | .tcp | .udp | .icmpv4 | .icmpv6 => .ok (b, header)

/-- The loop of `packet_finish_encapsulation_headers` over the entries from `headers` on. It
starts with the last one, and `next` is the entry behind the one at hand, used or not. -/
def finishHeaders (b : Memory) : List Header → Except Halt (Memory × List Header)
  | [] => .ok (b, [])
  | header :: inner => do
    let (b, inner) ← finishHeaders b inner
    let (b, header) ← header.finish b inner.head?
    return (b, header :: inner)

/-- An array of table entries from a list of them. -/
def headersOfList (headers : List Header) : Vector Header PACKET_MAX_HEADERS :=
  .ofFn fun i => headers.getD i Header.unused

/-- `packet_finish_encapsulation_headers` -/
def packetFinishEncapsulationHeaders (packet : FullPacket) : Except Halt FullPacket := do
  let (buffer, headers) ← finishHeaders packet.buffer packet.headers.toList
  return { packet with buffer := buffer, headers := headersOfList headers }

/-! ## Copies -/

/-- `offset_ptr`, for a new base that is `headroom` bytes into the new buffer. -/
def offsetPtr (headroom : Nat) (ptr : Option Nat) : Option Nat := ptr.map (headroom + ·)

theorem offsetPtr_zero (ptr : Option Nat) : offsetPtr 0 ptr = ptr := by
  cases ptr <;> simp [offsetPtr]

/-- A header of another packet whose bytes were copied behind `headroom`. -/
def Header.moved (headroom : Nat) (h : Header) : Header :=
  { h with ptr := offsetPtr headroom h.ptr }

/-- `packet_copy_headers`: the used entries of the old table over those of the new one. -/
def packetCopyHeaders (packet oldPacket : Packet) (bytesHeadroom : Nat) : Packet :=
  let copied := (oldPacket.headers.toList.take (packetHeaderCount oldPacket)).map
    (Header.moved bytesHeadroom)
  { packet with headers := headersOfList (copied ++ packet.headers.toList.drop copied.length) }

/-- A number that is stored in an unsigned 32-bit field. -/
def u32 (x : Int) : Nat := (x % 4294967296).toNat

/-- `packet_duplicate_info` -/
def packetDuplicateInfo (packet oldPacket : FullPacket) (bytesHeadroom : Nat)
    (extraPayload : Int) : FullPacket where
  toPacket :=
    { packetCopyHeaders packet.toPacket oldPacket.toPacket bytesHeadroom with
      ipBytes := u32 (oldPacket.ipBytes + extraPayload)
      ipv4 := offsetPtr bytesHeadroom oldPacket.ipv4
      ipv6 := offsetPtr bytesHeadroom oldPacket.ipv6
      tcp := offsetPtr bytesHeadroom oldPacket.tcp
      udp := offsetPtr bytesHeadroom oldPacket.udp
      icmpv4 := offsetPtr bytesHeadroom oldPacket.icmpv4
      icmpv6 := offsetPtr bytesHeadroom oldPacket.icmpv6 }
  direction := oldPacket.direction
  flags := oldPacket.flags
  tosChk := oldPacket.tosChk
  timeUsecs := oldPacket.timeUsecs
  tcpTsVal := offsetPtr bytesHeadroom oldPacket.tcpTsVal
  tcpTsEcr := offsetPtr bytesHeadroom oldPacket.tcpTsEcr
  echoedHeader := oldPacket.echoedHeader

/-- A function of the parser's packet in one that can also stop otherwise. -/
def ofFault {α : Type} : Except Fault α → Except Halt α
  | .ok a => .ok a
  | .error fault => .error (.fault fault)

/-- `packet_copy_with_headroom`; `heap` are the bytes that `malloc` returned. -/
def packetCopyWithHeadroom (heap : Memory) (oldPacket : FullPacket) (bytesHeadroom : Nat) :
    Except Halt FullPacket := do
  let function := "packet_copy_with_headroom"
  let bytesUsed ← ofFault (packetEnd oldPacket.toPacket)
  require (bytesUsed ≥ 0) function "bytes_used >= 0"
  require (bytesUsed ≤ 128 * 1024) function "bytes_used <= 128*1024"
  let packet := (packetNew heap (bytesHeadroom + bytesUsed)).full
  let buffer := writeBytes packet.buffer bytesHeadroom (readBytes oldPacket.buffer 0 bytesUsed)
  return packetDuplicateInfo { packet with buffer := buffer } oldPacket bytesHeadroom 0

/-- `packet_encapsulate` -/
def packetEncapsulate (heap : Memory) (outer inner : FullPacket) : Except Halt FullPacket := do
  let function := "packet_encapsulate"
  let outerHeaders := packetHeaderCount outer.toPacket
  let innerHeaders := packetHeaderCount inner.toPacket
  require (outerHeaders + innerHeaders ≤ PACKET_MAX_HEADERS) function
    "outer_headers + inner_headers <= PACKET_MAX_HEADERS"
  let packet ← packetCopyWithHeadroom heap inner outer.ipBytes
  let buffer := writeBytes packet.buffer 0 (readBytes outer.buffer 0 outer.ipBytes)
  -- The entries below `outerHeaders` keep what they held until they are overwritten.
  let entries := packet.headers.toList
  let headers := headersOfList (entries.take outerHeaders ++ entries.take innerHeaders ++
    entries.drop (outerHeaders + innerHeaders))
  let moved := { packet with buffer := buffer, headers := headers }
  let packet := { moved with toPacket := packetCopyHeaders moved.toPacket outer.toPacket 0 }
  require (packetHeaderCount packet.toPacket = outerHeaders + innerHeaders) function
    "packet_header_count(packet) == outer_headers + inner_headers"
  let packet ← packetFinishEncapsulationHeaders packet
  return { packet with ipBytes := outer.ipBytes + inner.ipBytes }

end QoSMos
