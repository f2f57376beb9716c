import Mathlib.Data.Vector.Basic
import QoSMos.Packet.Bytes

/-!
# Packets and their header table

`struct packet` with the table `headers[PACKET_MAX_HEADERS]` that the parser and the
packet builders fill from the outermost header inwards. `packetAppendHeader` finds the
place of the new entry in the running sum `ip_bytes` and not in a cursor of its caller.
`Table packet hs` says that the array holds the entries `hs` and then only unused ones.
-/

namespace QoSMos

/-- How a program stops short of returning: `die`, called by a failed `assert`. The
second fault belongs to the model's recursion bounds and is proved not to occur. -/
inductive Fault where
  | assertionFailed (function expression : String)
  | outOfFuel
  | undefined (function operation : String)
  deriving DecidableEq, Repr

/-- `enum header_t` -/
inductive HeaderType where
  | none | ipv4 | ipv6 | gre | mpls | tcp | udp | icmpv4 | icmpv6
  deriving DecidableEq, Repr

/-- `struct header`: the pointer is an offset in the packet's buffer. -/
structure Header where
  type : HeaderType
  headerBytes : Nat
  totalBytes : Nat
  ptr : Option Nat
  deriving DecidableEq, Repr

/-- A table entry as `calloc` leaves it. -/
def Header.unused : Header := ⟨.none, 0, 0, none⟩

def PACKET_MAX_HEADERS : Nat := 6

/-- `struct packet`, with `buffer` covering the bytes in and around the data buffer. -/
structure Packet where
  buffer : Memory
  bufferBytes : Nat
  l2HeaderBytes : Nat
  ipBytes : Nat
  headers : Vector Header PACKET_MAX_HEADERS
  ipv4 : Option Nat
  ipv6 : Option Nat
  tcp : Option Nat
  udp : Option Nat
  icmpv4 : Option Nat
  icmpv6 : Option Nat

/-- `packet_new`, for a buffer that then holds `buffer`. -/
def packetNew (buffer : Memory) (bufferBytes : Nat) : Packet where
  buffer := buffer
  bufferBytes := bufferBytes
  l2HeaderBytes := 0
  ipBytes := 0
  headers := Vector.replicate PACKET_MAX_HEADERS Header.unused
  ipv4 := none
  ipv6 := none
  tcp := none
  udp := none
  icmpv4 := none
  icmpv6 := none

/-- `packet_header_count`: the index of the first unused entry, or the array's size. -/
def packetHeaderCount (packet : Packet) : Nat :=
  packet.headers.toList.findIdx fun h => h.type == .none

/-- `packet_append_header`: the index of the new entry, whose `total_bytes` is still to
be filled in, or `none` when the table or the buffer is full. -/
def packetAppendHeader (packet : Packet) (headerType : HeaderType) (headerBytes : Nat) :
    Except Fault (Option (Nat × Packet)) :=
  let numHeaders := packetHeaderCount packet
  if ¬ numHeaders ≤ PACKET_MAX_HEADERS then
    .error (.assertionFailed "packet_append_header" "num_headers <= PACKET_MAX_HEADERS")
  else if numHeaders = PACKET_MAX_HEADERS then .ok none
  else if packet.bufferBytes < packet.ipBytes + headerBytes then .ok none
  else
    let packetBytes := packet.l2HeaderBytes + packet.ipBytes
    let header : Header := ⟨headerType, headerBytes, 0, some packetBytes⟩
    .ok (some (numHeaders,
      { packet with
        headers := packet.headers.setIfInBounds numHeaders header
        ipBytes := packet.ipBytes + headerBytes }))

/-- `header->total_bytes = total` for the entry at index `i`. -/
def Packet.setTotalBytes (packet : Packet) (i total : Nat) : Packet :=
  let header := packet.headers.toList.getD i Header.unused
  { packet with headers := packet.headers.setIfInBounds i { header with totalBytes := total } }

/-! ## Ends of a packet -/

/-- `packet_start`: the first byte of the outermost header in the table. -/
def packetStart (packet : Packet) : Except Fault Nat :=
  match (packet.headers.toList.getD 0 Header.unused).ptr with
  | some start => .ok start
  | none => .error (.assertionFailed "packet_start" "start != NULL")

/-- `packet_end`: the byte beyond the end of the packet. -/
def packetEnd (packet : Packet) : Except Fault Nat := do
  return (← packetStart packet) + packet.ipBytes

/-- `packet_payload`: the first byte after the transport header. -/
def packetPayload (packet : Packet) : Except Fault Nat :=
  match packet.tcp, packet.udp, packet.icmpv4, packet.icmpv6 with
  | some tcp, _, _, _ => .ok (tcp + Tcp.doff packet.buffer tcp * 4)
  | none, some udp, _, _ => .ok (udp + UDP_BYTES)
  | none, none, some icmpv4, _ => .ok (icmpv4 + ICMPV4_BYTES)
  | none, none, none, some icmpv6 => .ok (icmpv6 + ICMPV6_BYTES)
  | none, none, none, none =>
    .error (.assertionFailed "packet_payload" "!no valid payload; not TCP or UDP or ICMP!?")

theorem packetPayload_of_tcp {packet : Packet} {tcp : Nat} (htcp : packet.tcp = some tcp) :
    packetPayload packet = .ok (tcp + Tcp.doff packet.buffer tcp * 4) := by
  rw [packetPayload, htcp]

/-- `packet_payload_len`, a difference of two pointers. -/
def packetPayloadLen (packet : Packet) : Except Fault Int := do
  return ((← packetEnd packet) : Int) - (← packetPayload packet)

/-! ## The table as a list -/

/-- The array holds the entries `hs`, all in use, and after them only unused ones. -/
structure Table (packet : Packet) (hs : List Header) : Prop where
  le : hs.length ≤ PACKET_MAX_HEADERS
  entries : packet.headers.toList =
    hs ++ List.replicate (PACKET_MAX_HEADERS - hs.length) Header.unused
  used : ∀ h ∈ hs, h.type ≠ .none

namespace Table

variable {packet : Packet} {hs : List Header}

theorem packetNew (b : Memory) (n : Nat) : Table (packetNew b n) [] := by
  refine ⟨by simp, ?_, by simp⟩
  simp [QoSMos.packetNew]

theorem count (h : Table packet hs) : packetHeaderCount packet = hs.length := by
  unfold packetHeaderCount
  rw [h.entries, List.findIdx_append,
    List.findIdx_eq_length_of_false fun x hx => by simpa using h.used x hx]
  have hle := h.le
  by_cases hfull : hs.length = PACKET_MAX_HEADERS
  · simp [hfull]
  · obtain ⟨k, hk⟩ : ∃ k, PACKET_MAX_HEADERS - hs.length = k + 1 :=
      ⟨PACKET_MAX_HEADERS - hs.length - 1, by omega⟩
    simp [hk, List.replicate_succ, List.findIdx_cons, Header.unused]

theorem setEntry (h : Table packet hs) (hlt : hs.length < PACKET_MAX_HEADERS) (x : Header) :
    (packet.headers.setIfInBounds hs.length x).toList =
      (hs ++ [x]) ++ List.replicate (PACKET_MAX_HEADERS - (hs ++ [x]).length) Header.unused := by
  obtain ⟨k, hk⟩ : ∃ k, PACKET_MAX_HEADERS - hs.length = k + 1 :=
    ⟨PACKET_MAX_HEADERS - hs.length - 1, by omega⟩
  have hk' : PACKET_MAX_HEADERS - (hs.length + 1) = k := by omega
  rw [Vector.toList_setIfInBounds, h.entries]
  simp [hk, hk', List.replicate_succ]

/-- The table is determined by the array. -/
theorem unique {gs : List Header} (h : Table packet hs) (g : Table packet gs) : hs = gs := by
  have hlen : hs.length = gs.length := by rw [← h.count, ← g.count]
  have := h.entries.symm.trans g.entries
  exact (List.append_inj this hlen).1

end Table

end QoSMos
