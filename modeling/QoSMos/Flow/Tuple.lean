import Mathlib.Data.List.OfFn
import QoSMos.Packet.Header

/-!
# Flow tuples and keys

The 4-tuple of a packet, from `socket.h` and `ip_address.c`, and the string that keys the
flow table. What a compiler or the C library decides is collected in `Platform`, but for what
is left of a dead array: that is up to each call.
-/

namespace QoSMos

inductive AddressFamily where
  | inet | inet6
  deriving DecidableEq, Repr

/-- `struct ip_address`, with the bytes of its union. -/
structure IpAddress where
  addressFamily : AddressFamily
  bytes : List UInt8
  deriving DecidableEq, Repr

/-- `struct endpoint`, with the port in host order. -/
structure Endpoint where
  ip : IpAddress
  port : Nat
  deriving DecidableEq, Repr

/-- `struct tuple` -/
structure Tuple where
  src : Endpoint
  dst : Endpoint
  deriving DecidableEq, Repr

/-- `ip_from_ipv4` of the address at `p`. -/
def ipFromIpv4 (b : Memory) (p : Nat) : IpAddress :=
  ⟨.inet, List.ofFn (fun i : Fin 4 => b (p + i)) ++ List.replicate 12 0⟩

/-- `ip_from_ipv6` of the address at `p`. -/
def ipFromIpv6 (b : Memory) (p : Nat) : IpAddress :=
  ⟨.inet6, List.ofFn fun i : Fin 16 => b (p + i)⟩

def Ipv4.srcIp (b : Memory) (p : Nat) : IpAddress := ipFromIpv4 b (p + 12)
def Ipv4.dstIp (b : Memory) (p : Nat) : IpAddress := ipFromIpv4 b (p + 16)
def Ipv6.srcIp (b : Memory) (p : Nat) : IpAddress := ipFromIpv6 b (p + 8)
def Ipv6.dstIp (b : Memory) (p : Nat) : IpAddress := ipFromIpv6 b (p + 24)

/-- The port fields of a TCP or UDP header, which stand at the same offsets. -/
def Ports.src (b : Memory) (p : Nat) : Nat := be16At b p
def Ports.dst (b : Memory) (p : Nat) : Nat := be16At b (p + 2)

/-- `get_packet_tuple` -/
def getPacketTuple (packet : Packet) : Except Fault Tuple := do
  let b := packet.buffer
  let (src, dst) ← match packet.ipv4, packet.ipv6 with
    | some ipv4, _ => .ok (Ipv4.srcIp b ipv4, Ipv4.dstIp b ipv4)
    | none, some ipv6 => .ok (Ipv6.srcIp b ipv6, Ipv6.dstIp b ipv6)
    | none, none => .error (.assertionFailed "get_packet_tuple" "!\"bad IP version in packet\"")
  let (srcPort, dstPort) := match packet.tcp, packet.udp with
    | some tcp, _ => (Ports.src b tcp, Ports.dst b tcp)
    | none, some udp => (Ports.src b udp, Ports.dst b udp)
    | none, none => (0, 0)
  return ⟨⟨src, srcPort⟩, ⟨dst, dstPort⟩⟩

/-- `reverse_tuple` -/
def reverseTuple (srcTuple : Tuple) : Tuple :=
  ⟨⟨srcTuple.dst.ip, srcTuple.dst.port⟩, ⟨srcTuple.src.ip, srcTuple.src.port⟩⟩

/-- The two sizes of pointers among the platforms of the library. -/
inductive DataModel where
  | ilp32 | lp64
  deriving DecidableEq, Repr

def DataModel.pointerBytes : DataModel → Nat
  | .ilp32 => 4
  | .lp64 => 8

/-- What the source leaves to its platform. -/
structure Platform where
  dataModel : DataModel
  /-- `inet_ntop` -/
  inetNtop : IpAddress → String

/-- What the caller finds behind a pointer to a local array of the function it called, by the text
that was printed there. Nothing is promised of it, and there need not be a string at all. -/
abbrev Leftover := String → Option String

/-- The text that `get_flow_tuples` and `get_oppos_flow_tuples` print. -/
def tupleToString (platform : Platform) (tuple : Tuple) : String :=
  s!"{platform.inetNtop tuple.src.ip}:{tuple.src.port} > " ++
    s!"{platform.inetNtop tuple.dst.ip}:{tuple.dst.port}"

/-- `get_flow_tuples`, which returns the address of its local array `s`. -/
def getFlowTuples (platform : Platform) (leftover : Leftover) (packet : Packet) :
    Except Fault (Option String) := do
  let tuple ← getPacketTuple packet
  return leftover (tupleToString platform tuple)

theorem getPacketTuple_noIp {packet : Packet} (h4 : packet.ipv4 = none)
    (h6 : packet.ipv6 = none) : getPacketTuple packet =
      .error (.assertionFailed "get_packet_tuple" "!\"bad IP version in packet\"") := by
  unfold getPacketTuple
  rw [h4, h6]
  rfl

theorem getFlowTuples_noIp {platform : Platform} {leftover : Leftover} {packet : Packet}
    (h4 : packet.ipv4 = none) (h6 : packet.ipv6 = none) :
    getFlowTuples platform leftover packet =
      .error (.assertionFailed "get_packet_tuple" "!\"bad IP version in packet\"") := by
  rw [getFlowTuples, getPacketTuple_noIp h4 h6]
  rfl

end QoSMos
