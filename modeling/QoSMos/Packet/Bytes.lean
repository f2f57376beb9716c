import Mathlib.Data.Nat.Bits

/-!
# Packet bytes

A packet's data is read through its offset in `packet->buffer`; a pointer into the
buffer is that offset, and `NULL` is `none`. `Memory` also gives values to the bytes
behind the end of the buffer, since nothing in C stops a program from reading them.

The field accessors follow the structures of `ip.h`, `ipv6.h`, `tcp.h`, `udp.h`,
`gre.h`, `mpls.h` and `ethernet.h`. A field `x` of a header at `p` is `X.x b p`, in host
order; the bit fields are those of the little-endian declarations.
-/

namespace QoSMos

/-- The bytes found at and around a buffer. -/
abbrev Memory := Nat → UInt8

/-- The memory of a buffer with the given bytes and zeros behind them. -/
def Memory.ofList (bytes : List UInt8) : Memory := fun i => bytes.getD i 0

def u8At (b : Memory) (p : Nat) : Nat := (b p).toNat

/-- `ntohs` of the 16-bit field at `p`. -/
def be16At (b : Memory) (p : Nat) : Nat := 256 * u8At b p + u8At b (p + 1)

/-- `ntohl` of the 32-bit field at `p`. -/
def be32At (b : Memory) (p : Nat) : Nat := 65536 * be16At b p + be16At b (p + 2)

theorem u8At_lt (b : Memory) (p : Nat) : u8At b p < 256 := (b p).toNat_lt

theorem be16At_lt (b : Memory) (p : Nat) : be16At b p < 65536 := by
  have := u8At_lt b p
  have := u8At_lt b (p + 1)
  unfold be16At
  omega

theorem be32At_lt (b : Memory) (p : Nat) : be32At b p < 4294967296 := by
  have := be16At_lt b p
  have := be16At_lt b (p + 2)
  unfold be32At
  omega

/-! ## Sizes and numbers -/

def ETHER_HEADER_BYTES : Nat := 14
def IPV4_BYTES : Nat := 20
def IPV6_BYTES : Nat := 40
def TCP_BYTES : Nat := 20
def UDP_BYTES : Nat := 8
def ICMPV4_BYTES : Nat := 8
def ICMPV6_BYTES : Nat := 8
def MPLS_BYTES : Nat := 4
def GRE_MINLEN : Nat := 4

def ETHERTYPE_IP : Nat := 0x0800
def ETHERTYPE_IPV6 : Nat := 0x86dd
def ETHERTYPE_MPLS_UC : Nat := 0x8847
def ETHERTYPE_MPLS_MC : Nat := 0x8848

def IPPROTO_ICMP : Nat := 1
def IPPROTO_IPIP : Nat := 4
def IPPROTO_TCP : Nat := 6
def IPPROTO_UDP : Nat := 17
def IPPROTO_IPV6 : Nat := 41
def IPPROTO_GRE : Nat := 47
def IPPROTO_ICMPV6 : Nat := 58

def IP_MF : Nat := 0x2000
def IP_OFFMASK : Nat := 0x1fff
def MPLS_STACK_MASK : Nat := 0x00000100
def MPLS_STACK_SHIFT : Nat := 8

/-! ## Header fields -/

def Ether.etherType (b : Memory) (p : Nat) : Nat := be16At b (p + 12)

def Ipv4.version (b : Memory) (p : Nat) : Nat := u8At b p / 16
def Ipv4.ihl (b : Memory) (p : Nat) : Nat := u8At b p % 16
def Ipv4.tos (b : Memory) (p : Nat) : Nat := u8At b (p + 1)
def Ipv4.totLen (b : Memory) (p : Nat) : Nat := be16At b (p + 2)
def Ipv4.fragOff (b : Memory) (p : Nat) : Nat := be16At b (p + 6)
def Ipv4.ttl (b : Memory) (p : Nat) : Nat := u8At b (p + 8)
def Ipv4.protocol (b : Memory) (p : Nat) : Nat := u8At b (p + 9)

def Ipv6.version (b : Memory) (p : Nat) : Nat := u8At b p / 16
/-- `ipv6_tos_byte` -/
def Ipv6.tosByte (b : Memory) (p : Nat) : Nat := 16 * (u8At b p % 16) + u8At b (p + 1) / 16
/-- `ipv6_flow_label` -/
def Ipv6.flowLabel (b : Memory) (p : Nat) : Nat :=
  65536 * (u8At b (p + 1) % 16) + be16At b (p + 2)
def Ipv6.payloadLen (b : Memory) (p : Nat) : Nat := be16At b (p + 4)
def Ipv6.nextHeader (b : Memory) (p : Nat) : Nat := u8At b (p + 6)
def Ipv6.hopLimit (b : Memory) (p : Nat) : Nat := u8At b (p + 7)

def Tcp.seq (b : Memory) (p : Nat) : Nat := be32At b (p + 4)
def Tcp.ackSeq (b : Memory) (p : Nat) : Nat := be32At b (p + 8)
def Tcp.res1 (b : Memory) (p : Nat) : Nat := u8At b (p + 12) % 16
def Tcp.doff (b : Memory) (p : Nat) : Nat := u8At b (p + 12) / 16
def Tcp.fin (b : Memory) (p : Nat) : Bool := (u8At b (p + 13)).testBit 0
def Tcp.syn (b : Memory) (p : Nat) : Bool := (u8At b (p + 13)).testBit 1
def Tcp.rst (b : Memory) (p : Nat) : Bool := (u8At b (p + 13)).testBit 2
def Tcp.psh (b : Memory) (p : Nat) : Bool := (u8At b (p + 13)).testBit 3
def Tcp.ack (b : Memory) (p : Nat) : Bool := (u8At b (p + 13)).testBit 4
def Tcp.urg (b : Memory) (p : Nat) : Bool := (u8At b (p + 13)).testBit 5
def Tcp.ece (b : Memory) (p : Nat) : Bool := (u8At b (p + 13)).testBit 6
def Tcp.cwr (b : Memory) (p : Nat) : Bool := (u8At b (p + 13)).testBit 7
def Tcp.window (b : Memory) (p : Nat) : Nat := be16At b (p + 14)
def Tcp.urgPtr (b : Memory) (p : Nat) : Nat := be16At b (p + 18)

def Udp.len (b : Memory) (p : Nat) : Nat := be16At b (p + 4)

def Gre.hasChecksum (b : Memory) (p : Nat) : Bool := (u8At b p).testBit 7
def Gre.hasRouting (b : Memory) (p : Nat) : Bool := (u8At b p).testBit 6
def Gre.hasKey (b : Memory) (p : Nat) : Bool := (u8At b p).testBit 5
def Gre.hasSeq (b : Memory) (p : Nat) : Bool := (u8At b p).testBit 4
def Gre.version (b : Memory) (p : Nat) : Nat := u8At b (p + 1) % 8
def Gre.proto (b : Memory) (p : Nat) : Nat := be16At b (p + 2)

/-- The length that `gre_len` computes from the flags of a GRE header. -/
def Gre.len (b : Memory) (p : Nat) : Nat :=
  GRE_MINLEN + (if Gre.hasChecksum b p || Gre.hasRouting b p then 4 else 0) +
    (if Gre.hasKey b p then 4 else 0) + (if Gre.hasSeq b p then 4 else 0)

/-- `mpls_entry_stack` -/
def Mpls.stack (b : Memory) (p : Nat) : Bool :=
  (be32At b p &&& MPLS_STACK_MASK) >>> MPLS_STACK_SHIFT != 0

theorem Gre.minlen_le_len (b : Memory) (p : Nat) : GRE_MINLEN ≤ Gre.len b p := by
  unfold Gre.len
  omega

end QoSMos
