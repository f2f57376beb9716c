import QoSMos.Packet.Checksum
import QoSMos.Packet.Header

/-!
# The packet parser

`packet_parser.c` as programs over a packet under construction. `p`, `headerStart` and
`layer4Start` are cursors into the buffer and `packetEnd` is the offset beyond the
captured bytes; `layer4_bytes` is a signed difference of lengths, as in the source.

Every cycle of the recursion goes through `parse_ipv4` or `parse_ipv6`, so the other
parsers take these two as an argument and `ipParsers` ties the knot to a given depth.
The state also keeps two logs that no branch looks at: the offsets read so far, and the
cursor at which each header of the table was parsed. `DEBUG_LOGGING` is 0, so the debug
output of the source is not part of the program.
-/

namespace QoSMos

/-- `enum packet_parse_result_t` -/
inductive ParseResult where
  | ok | bad | unknownL4
  deriving DecidableEq, Repr

/-- `enum packet_layer_t` -/
inductive PacketLayer where
  | layer3Ip | layer2Ethernet
  deriving DecidableEq, Repr

structure ParseState where
  packet : Packet
  /-- `*error` -/
  error : Option String
  reads : List Nat
  parsed : List (HeaderType × Option Nat)

abbrev Parser := StateT ParseState (Except Fault)

/-! ## Primitive steps -/

/-- `assert(expression)` -/
def assertThat (c : Prop) [Decidable c] (function expression : String) : Parser Unit :=
  if c then pure () else throw (.assertionFailed function expression)

/-- Note that the `n` bytes from `p` on are read. -/
def touch (p n : Nat) : Parser Unit :=
  modify fun s => { s with reads := s.reads ++ List.range' p n }

def loadU8 (p : Nat) : Parser Nat := do
  touch p 1
  return u8At (← get).packet.buffer p

def loadBe16 (p : Nat) : Parser Nat := do
  touch p 2
  return be16At (← get).packet.buffer p

def modifyPacket (f : Packet → Packet) : Parser Unit :=
  modify fun s => { s with packet := f s.packet }

/-- `asprintf(error, ...); return PACKET_BAD;` -/
def bad (message : String) : Parser ParseResult := do
  modify fun s => { s with error := some message }
  return .bad

/-- A call of `packet_append_header` by the parser of the header at `headerStart`. -/
def appendHeader (headerType : HeaderType) (headerBytes headerStart : Nat) :
    Parser (Option Nat) := do
  match packetAppendHeader (← get).packet headerType headerBytes with
  | .error fault => throw fault
  | .ok none => return none
  | .ok (some (i, packet)) =>
    modify fun s =>
      { s with packet := packet, parsed := s.parsed ++ [(headerType, some headerStart)] }
    return some i

/-! ## Transport headers -/

def parseTcp (layer4Start : Nat) (layer4Bytes : Int) (packetEnd : Nat) :
    Parser ParseResult := do
  let p := layer4Start
  assertThat (layer4Bytes ≥ 0) "parse_tcp" "layer4_bytes >= 0"
  if layer4Bytes < TCP_BYTES then bad "Truncated TCP header"
  else
    modifyPacket fun packet => { packet with tcp := some p }
    -- `doff` is a bit field of the 16-bit word at offset 12
    touch (p + 12) 2
    let tcpHeaderLen := Tcp.doff (← get).packet.buffer p * 4
    if tcpHeaderLen < TCP_BYTES then bad "TCP data offset too small"
    else if tcpHeaderLen > layer4Bytes then bad "TCP data offset too big"
    else
      match ← appendHeader .tcp tcpHeaderLen p with
      | none => bad "Too many nested headers at TCP header"
      | some tcpHeader =>
        modifyPacket (·.setTotalBytes tcpHeader layer4Bytes.toNat)
        assertThat (p + layer4Bytes ≤ packetEnd) "parse_tcp" "p <= packet_end"
        return .ok

def parseUdp (layer4Start : Nat) (layer4Bytes : Int) (packetEnd : Nat) :
    Parser ParseResult := do
  let p := layer4Start
  assertThat (layer4Bytes ≥ 0) "parse_udp" "layer4_bytes >= 0"
  if layer4Bytes < UDP_BYTES then bad "Truncated UDP header"
  else
    modifyPacket fun packet => { packet with udp := some p }
    let udpLen ← loadBe16 (p + 4)
    let udpHeaderLen := UDP_BYTES
    if udpLen < udpHeaderLen then bad "UDP datagram length too small for UDP header"
    else if udpLen < layer4Bytes then bad "UDP datagram length too small"
    else if udpLen > layer4Bytes then bad "UDP datagram length too big"
    else
      match ← appendHeader .udp udpHeaderLen p with
      | none => bad "Too many nested headers at UDP header"
      | some udpHeader =>
        modifyPacket (·.setTotalBytes udpHeader layer4Bytes.toNat)
        assertThat (p + layer4Bytes ≤ packetEnd) "parse_udp" "p <= packet_end"
        return .ok

/-- The common body of `parse_icmpv4` and `parse_icmpv6`. -/
def parseIcmp (function truncated : String) (headerType : HeaderType) (icmpLen : Nat)
    (setPtr : Nat → Packet → Packet) (layer4Start : Nat) (layer4Bytes : Int)
    (packetEnd : Nat) : Parser ParseResult := do
  let p := layer4Start
  assertThat (layer4Bytes ≥ 0) function "layer4_bytes >= 0"
  if layer4Bytes < icmpLen then bad truncated
  else
    modifyPacket (setPtr p)
    match ← appendHeader headerType icmpLen p with
    | none => bad "Too many nested headers at ICMP header"
    | some icmpHeader =>
      modifyPacket (·.setTotalBytes icmpHeader layer4Bytes.toNat)
      assertThat (p + layer4Bytes ≤ packetEnd) function "p <= packet_end"
      return .ok

def parseIcmpv4 : Nat → Int → Nat → Parser ParseResult :=
  parseIcmp "parse_icmpv4" "Truncated ICMPv4 header" .icmpv4 ICMPV4_BYTES
    fun p packet => { packet with icmpv4 := some p }

def parseIcmpv6 : Nat → Int → Nat → Parser ParseResult :=
  parseIcmp "parse_icmpv6" "Truncated ICMPv6 header" .icmpv6 ICMPV6_BYTES
    fun p packet => { packet with icmpv6 := some p }

/-! ## Network headers and tunnels -/

/-- The two parsers that call each other through all the others. -/
structure IpParsers where
  parseIpv4 : Nat → Nat → Parser ParseResult
  parseIpv6 : Nat → Nat → Parser ParseResult

def parseLayer3Packet (ip : IpParsers) (headerStart packetEnd : Nat) :
    Parser ParseResult := do
  let p := headerStart
  if packetEnd < p + IPV4_BYTES then bad "IP header overflows packet"
  else
    let version := (← loadU8 p) / 16
    if version = 4 then ip.parseIpv4 p packetEnd
    else if version = 6 then ip.parseIpv6 p packetEnd
    else bad "Unsupported IP version"

/-- The loop over the label stack: the cursor and the byte count behind the stack, or
`none` if an entry overflows the packet. -/
def mplsStack (packetEnd : Nat) : Nat → Nat → Nat → Parser (Option (Nat × Nat))
  | 0, _, _ => throw .outOfFuel
  | fuel + 1, p, mplsHeaderBytes => do
    if packetEnd < p + MPLS_BYTES then return none
    else
      touch p 4
      let isStackBottom := Mpls.stack (← get).packet.buffer p
      if ¬ isStackBottom ∧ p + MPLS_BYTES < packetEnd then
        mplsStack packetEnd fuel (p + MPLS_BYTES) (mplsHeaderBytes + MPLS_BYTES)
      else return some (p + MPLS_BYTES, mplsHeaderBytes + MPLS_BYTES)

def parseMpls (ip : IpParsers) (headerStart packetEnd : Nat) : Parser ParseResult := do
  let mplsTotalBytes : Int := packetEnd - headerStart
  -- every round moves the cursor, so this many rounds are enough
  match ← mplsStack packetEnd (packetEnd + 1) headerStart 0 with
  | none => bad "MPLS stack entry overflows packet"
  | some (p, mplsHeaderBytes) =>
    assertThat (mplsHeaderBytes ≤ mplsTotalBytes) "parse_mpls"
      "mpls_header_bytes <= mpls_total_bytes"
    match ← appendHeader .mpls mplsHeaderBytes headerStart with
    | none => bad "Too many nested headers at MPLS header"
    | some mplsHeader =>
      modifyPacket (·.setTotalBytes mplsHeader mplsTotalBytes.toNat)
      assertThat (p ≤ packetEnd) "parse_mpls" "p <= packet_end"
      parseLayer3Packet ip p packetEnd

def parseLayer3PacketByProto (ip : IpParsers) (proto headerStart packetEnd : Nat) :
    Parser ParseResult := do
  let p := headerStart
  if proto = ETHERTYPE_IP then
    if packetEnd < p + IPV4_BYTES then bad "IPv4 header overflows packet"
    else
      let version := (← loadU8 p) / 16
      if version = 4 then ip.parseIpv4 p packetEnd
      else bad s!"Bad IP version ({version}) for ETHERTYPE_IP"
  else if proto = ETHERTYPE_IPV6 then
    if packetEnd < p + IPV6_BYTES then bad "IPv6 header overflows packet"
    else
      let version := (← loadU8 p) / 16
      if version = 6 then ip.parseIpv6 p packetEnd
      else bad "Bad IP version for ETHERTYPE_IPV6"
  else if proto = ETHERTYPE_MPLS_UC ∨ proto = ETHERTYPE_MPLS_MC then
    parseMpls ip p packetEnd
  else return .unknownL4

/-- `gre_len`, with its own two assertions. -/
def greLen (gre : Nat) : Parser Nat := do
  touch gre 2
  let b := (← get).packet.buffer
  assertThat (Gre.version b gre = 0) "gre_len" "gre->version == 0"
  assertThat (Gre.hasRouting b gre = false) "gre_len" "!gre->has_routing"
  return Gre.len b gre

def parseGre (ip : IpParsers) (layer4Start : Nat) (layer4Bytes : Int) (packetEnd : Nat) :
    Parser ParseResult := do
  let p := layer4Start
  assertThat (layer4Bytes ≥ 0) "parse_gre" "layer4_bytes >= 0"
  if layer4Bytes < GRE_MINLEN then bad "Truncated GRE header"
  else
    -- the flags are bit fields of the first 16-bit word
    touch p 2
    let b := (← get).packet.buffer
    if Gre.version b p ≠ 0 then bad "GRE header has unsupported version number"
    else if Gre.hasRouting b p then bad "GRE header has unsupported routing info"
    else
      let greHeaderLen ← greLen p
      if greHeaderLen < GRE_MINLEN then bad "GRE header length too small for GRE header"
      else if greHeaderLen > layer4Bytes then bad "GRE header length too big"
      else
        assertThat (p + layer4Bytes ≤ packetEnd) "parse_gre" "p + layer4_bytes <= packet_end"
        match ← appendHeader .gre greHeaderLen p with
        | none => bad "Too many nested headers at GRE header"
        | some greHeader =>
          modifyPacket (·.setTotalBytes greHeader layer4Bytes.toNat)
          assertThat (p + greHeaderLen ≤ packetEnd) "parse_gre" "p <= packet_end"
          let proto ← loadBe16 (p + 2)
          parseLayer3PacketByProto ip proto (p + greHeaderLen) packetEnd

def parseLayer4 (ip : IpParsers) (layer4Start layer4Protocol : Nat) (layer4Bytes : Int)
    (packetEnd : Nat) : Parser ParseResult :=
  if layer4Protocol = IPPROTO_TCP then parseTcp layer4Start layer4Bytes packetEnd
  else if layer4Protocol = IPPROTO_UDP then parseUdp layer4Start layer4Bytes packetEnd
  else if layer4Protocol = IPPROTO_ICMP then parseIcmpv4 layer4Start layer4Bytes packetEnd
  else if layer4Protocol = IPPROTO_ICMPV6 then parseIcmpv6 layer4Start layer4Bytes packetEnd
  else if layer4Protocol = IPPROTO_GRE then parseGre ip layer4Start layer4Bytes packetEnd
  -- the length of the enclosing payload is not passed on from here
  else if layer4Protocol = IPPROTO_IPIP then ip.parseIpv4 layer4Start packetEnd
  else if layer4Protocol = IPPROTO_IPV6 then ip.parseIpv6 layer4Start packetEnd
  else return .unknownL4

/-- What `parse_ipv4` and `parse_ipv6` do after the headers inside are parsed: set the
primary IP header if no inner one was set, and the packet length if they are outermost. -/
def leaveIp (isOuter : Bool) (ipTotalBytes : Nat) (setPtr : Packet → Packet) :
    Parser Unit := do
  modifyPacket fun packet =>
    if packet.ipv4 = none ∧ packet.ipv6 = none then setPtr packet else packet
  modifyPacket fun packet => if isOuter then { packet with ipBytes := ipTotalBytes } else packet

def parseIpv4 (ip : IpParsers) (headerStart packetEnd : Nat) : Parser ParseResult := do
  let p := headerStart
  let isOuter := (← get).packet.ipBytes == 0
  let ipHeaderBytes := (← loadU8 p) % 16 * 4
  assertThat (ipHeaderBytes ≥ 0) "parse_ipv4" "ip_header_bytes >= 0"
  if ipHeaderBytes < IPV4_BYTES then bad "IP header too short"
  else if packetEnd < p + ipHeaderBytes then bad "Full IP header overflows packet"
  else
    let ipTotalBytes ← loadBe16 (p + 2)
    if packetEnd < p + ipTotalBytes then bad "IP payload overflows packet"
    else if ipHeaderBytes > ipTotalBytes then bad "IP header bigger than datagram"
    else
      let fragOff ← loadBe16 (p + 6)
      if fragOff &&& IP_MF ≠ 0 then bad "More fragments remaining"
      else if fragOff &&& IP_OFFMASK ≠ 0 then bad "Non-zero fragment offset"
      else
        touch p ipHeaderBytes
        let checksum := ipv4Checksum (← get).packet.buffer p ipHeaderBytes
        if checksum ≠ 0 then bad "Bad IP checksum"
        else
          match ← appendHeader .ipv4 ipHeaderBytes p with
          | none => bad "Too many nested headers at IPv4 header"
          | some ipHeader =>
            modifyPacket (·.setTotalBytes ipHeader ipTotalBytes)
            assertThat (p + ipHeaderBytes ≤ packetEnd) "parse_ipv4" "p <= packet_end"
            let layer4Bytes : Int := ipTotalBytes - ipHeaderBytes
            let layer4Protocol ← loadU8 (p + 9)
            let result ← parseLayer4 ip (p + ipHeaderBytes) layer4Protocol layer4Bytes packetEnd
            leaveIp isOuter ipTotalBytes fun packet => { packet with ipv4 := some p }
            return result

def parseIpv6 (ip : IpParsers) (headerStart packetEnd : Nat) : Parser ParseResult := do
  let p := headerStart
  let isOuter := (← get).packet.ipBytes == 0
  let ipHeaderBytes := IPV6_BYTES
  if packetEnd < p + ipHeaderBytes then bad "IPv6 header overflows packet"
  else
    let payloadLen ← loadBe16 (p + 4)
    let ipTotalBytes := ipHeaderBytes + payloadLen
    if packetEnd < p + ipTotalBytes then bad "IPv6 payload overflows packet"
    else
      assertThat (ipHeaderBytes ≤ ipTotalBytes) "parse_ipv6" "ip_header_bytes <= ip_total_bytes"
      match ← appendHeader .ipv6 ipHeaderBytes p with
      | none => bad "Too many nested headers at IPv6 header"
      | some ipHeader =>
        modifyPacket (·.setTotalBytes ipHeader ipTotalBytes)
        assertThat (p + ipHeaderBytes ≤ packetEnd) "parse_ipv6" "p <= packet_end"
        let layer4Bytes : Int := ipTotalBytes - ipHeaderBytes
        let layer4Protocol ← loadU8 (p + 6)
        let result ← parseLayer4 ip (p + ipHeaderBytes) layer4Protocol layer4Bytes packetEnd
        leaveIp isOuter ipTotalBytes fun packet => { packet with ipv6 := some p }
        return result

/-- `parse_ipv4` and `parse_ipv6`, calling each other up to `n` IP headers deep. -/
def ipParsers : Nat → IpParsers
  | 0 => ⟨fun _ _ => throw .outOfFuel, fun _ _ => throw .outOfFuel⟩
  | n + 1 => ⟨parseIpv4 (ipParsers n), parseIpv6 (ipParsers n)⟩

/-! ## Whole packets -/

def parseLayer2Packet (ip : IpParsers) (headerStart packetEnd : Nat) :
    Parser ParseResult := do
  let p := headerStart
  if packetEnd < p + ETHER_HEADER_BYTES then bad "Ethernet header overflows packet"
  else
    modifyPacket fun packet => { packet with l2HeaderBytes := ETHER_HEADER_BYTES }
    let etherType ← loadBe16 (p + 12)
    parseLayer3PacketByProto ip etherType (p + ETHER_HEADER_BYTES) packetEnd

/-- `printf`'s `%0<width>x` -/
def hexDigits (width n : Nat) : String :=
  let digits := Nat.toDigits 16 n
  String.ofList (List.replicate (width - digits.length) '0' ++ digits)

/-- `hex_dump`: sixteen bytes to a line, each line headed by its offset. -/
def hexDump (buffer : Memory) (bytes : Nat) : String :=
  let dumpByte := fun i =>
    let offset := if i % 16 = 0 then s!"0x{hexDigits 4 i}: " else ""
    let newline := if i % 16 = 0 ∧ i > 0 then "\n" else ""
    newline ++ offset ++ hexDigits 2 (u8At buffer i) ++ " "
  String.join ((List.range bytes).map dumpByte) ++ "\n"

/-- The switch on `layer` in `parse_packet`. -/
def parseLayer (ip : IpParsers) (layer : PacketLayer) (headerStart packetEnd : Nat) :
    Parser ParseResult :=
  match layer with
  | .layer2Ethernet => parseLayer2Packet ip headerStart packetEnd
  | .layer3Ip => parseLayer3Packet ip headerStart packetEnd

/-- `parse_packet`. More than `PACKET_MAX_HEADERS` nested headers do not fit the table,
which bounds the depth of the recursion. -/
def parsePacket (inBytes : Nat) (layer : PacketLayer) : Parser ParseResult := do
  assertThat (inBytes ≤ (← get).packet.bufferBytes) "parse_packet"
    "in_bytes <= packet->buffer_bytes"
  let ip := ipParsers (PACKET_MAX_HEADERS + 1)
  let headerStart := 0
  let packetEnd := inBytes
  let result ← parseLayer ip layer headerStart packetEnd
  if result ≠ .bad then return result
  else
    touch 0 inBytes
    let s ← get
    let message := s.error.getD "(null)"
    let hex := hexDump s.packet.buffer inBytes
    modify fun s =>
      { s with error := some s!"{message}: packet of {inBytes} bytes:\n{hex}" }
    return .bad

/-- The state in which a caller of `parse_packet` starts it on a fresh packet. -/
def freshState (buffer : Memory) (bufferBytes : Nat) : ParseState where
  packet := packetNew buffer bufferBytes
  error := none
  reads := []
  parsed := []

/-- `parse_packet` on a packet from `packet_new` whose buffer holds `buffer`. -/
def runParsePacket (buffer : Memory) (bufferBytes inBytes : Nat) (layer : PacketLayer) :
    Except Fault (ParseResult × ParseState) :=
  (parsePacket inBytes layer).run (freshState buffer bufferBytes)

end QoSMos
