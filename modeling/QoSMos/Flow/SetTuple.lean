import QoSMos.Build.Icmp
import QoSMos.Build.WireLaw
import QoSMos.Flow.Tuple

/-!
# Setting the tuple of a packet

`set_packet_tuple` of `socket.h` writes the addresses of the innermost IP header and the ports
behind it, and for an ICMP packet also those of the header that the message echoes, where it
takes every message to echo one.

The fields that a tuple is read from and written to are a `TupleFields`: reading gives what was
written, and nothing else changes.
-/

namespace QoSMos

open LabelledPath

/-! ## The program -/

/-- `ip_to_ipv4` for the address at `p`. -/
def ipToIpv4 (b : Memory) (ip : IpAddress) (p : Nat) : Memory := writeBytes b p (ip.bytes.take 4)

/-- `ip_to_ipv6` for the address at `p`. -/
def ipToIpv6 (b : Memory) (ip : IpAddress) (p : Nat) : Memory := writeBytes b p (ip.bytes.take 16)

def Ipv4.setAddresses (b : Memory) (ipv4 : Nat) (tuple : Tuple) : Memory :=
  ipToIpv4 (ipToIpv4 b tuple.src.ip (ipv4 + 12)) tuple.dst.ip (ipv4 + 16)

def Ipv6.setAddresses (b : Memory) (ipv6 : Nat) (tuple : Tuple) : Memory :=
  ipToIpv6 (ipToIpv6 b tuple.src.ip (ipv6 + 8)) tuple.dst.ip (ipv6 + 24)

def Ports.set (b : Memory) (p : Nat) (tuple : Tuple) : Memory :=
  writeBytes (writeBytes b p (be16 tuple.src.port)) (p + 2) (be16 tuple.dst.port)

/-- `set_headers_tuple` -/
def setHeadersTuple (b : Memory) (ipv4 ipv6 tcp udp : Option Nat) (tuple : Tuple) :
    Except Fault Memory := do
  let b ← match ipv4, ipv6 with
    | some ipv4, _ => .ok (Ipv4.setAddresses b ipv4 tuple)
    | none, some ipv6 => .ok (Ipv6.setAddresses b ipv6 tuple)
    | none, none => .error (.assertionFailed "set_headers_tuple" "!\"bad IP version in packet\"")
  return match tcp, udp with
    | some tcp, _ => Ports.set b tcp tuple
    | none, some udp => Ports.set b udp tuple
    | none, none => b

/-- `set_icmp_echoed_tuple` -/
def setIcmpEchoedTuple (packet : FullPacket) (tuple : Tuple) : Except Fault FullPacket := do
  let echoedTuple := reverseTuple tuple
  let tcp ← packetEchoedTcpHeader packet.toPacket
  let udp ← packetEchoedUdpHeader packet.toPacket
  let buffer ← setHeadersTuple packet.buffer (packetEchoedIpv4Header packet.toPacket)
    (packetEchoedIpv6Header packet.toPacket) tcp udp echoedTuple
  return { packet with buffer := buffer }

/-- `set_packet_tuple` -/
def setPacketTuple (packet : FullPacket) (tuple : Tuple) : Except Fault FullPacket := do
  let buffer ← setHeadersTuple packet.buffer packet.ipv4 packet.ipv6 packet.tcp packet.udp tuple
  let packet := { packet with buffer := buffer }
  if packet.icmpv4 ≠ none ∨ packet.icmpv6 ≠ none then setIcmpEchoedTuple packet tuple
  else return packet

/-! ## The fields of a tuple -/

/-- The bytes of an address in a header. -/
def AddressFamily.size : AddressFamily → Nat
  | .inet => 4
  | .inet6 => 16

/-- Where the source address stands in a header; the destination is behind it. -/
def AddressFamily.srcOffset : AddressFamily → Nat
  | .inet => 12
  | .inet6 => 8

def AddressFamily.read (family : AddressFamily) (b : Memory) (p : Nat) : IpAddress :=
  match family with
  | .inet => ipFromIpv4 b p
  | .inet6 => ipFromIpv6 b p

/-- Where the addresses of an IP header stand, and the ports if there are any. -/
structure TupleFields where
  family : AddressFamily
  ip : Nat
  ports : Option Nat
  deriving DecidableEq, Repr

namespace TupleFields

def srcAt (f : TupleFields) : Nat := f.ip + f.family.srcOffset

def dstAt (f : TupleFields) : Nat := f.srcAt + f.family.size

/-- A byte of one of the fields. -/
def Covers (f : TupleFields) (i : Nat) : Prop :=
  f.srcAt ≤ i ∧ i < f.dstAt + f.family.size ∨ ∃ q, f.ports = some q ∧ q ≤ i ∧ i < q + 4

/-- The ports stand behind the addresses. -/
def Ordered (f : TupleFields) : Prop := ∀ q, f.ports = some q → f.dstAt + f.family.size ≤ q

def srcPort (f : TupleFields) (b : Memory) : Nat := (f.ports.map (Ports.src b)).getD 0
def dstPort (f : TupleFields) (b : Memory) : Nat := (f.ports.map (Ports.dst b)).getD 0

def read (f : TupleFields) (b : Memory) : Tuple :=
  ⟨⟨f.family.read b f.srcAt, f.srcPort b⟩, ⟨f.family.read b f.dstAt, f.dstPort b⟩⟩

def writeAddresses (f : TupleFields) (b : Memory) (tuple : Tuple) : Memory :=
  writeBytes (writeBytes b f.srcAt (tuple.src.ip.bytes.take f.family.size)) f.dstAt
    (tuple.dst.ip.bytes.take f.family.size)

def write (f : TupleFields) (b : Memory) (tuple : Tuple) : Memory :=
  match f.ports with
  | some q => Ports.set (f.writeAddresses b tuple) q tuple
  | none => f.writeAddresses b tuple

end TupleFields

/-- The fields of the headers that these pointers point to. -/
def headersFields (ipv4 ipv6 tcp udp : Option Nat) : Option TupleFields :=
  match ipv4, ipv6 with
  | some ipv4, _ => some ⟨.inet, ipv4, tcp.or udp⟩
  | none, some ipv6 => some ⟨.inet6, ipv6, tcp.or udp⟩
  | none, none => none

/-- The fields of the innermost headers. -/
def Packet.tupleFields (packet : Packet) : Option TupleFields :=
  headersFields packet.ipv4 packet.ipv6 packet.tcp packet.udp

/-- The fields in the place of the echoed header. -/
def Packet.echoedFields (packet : Packet) : Option TupleFields :=
  match packetEchoedTcpHeader packet, packetEchoedUdpHeader packet with
  | .ok tcp, .ok udp =>
    headersFields (packetEchoedIpv4Header packet) (packetEchoedIpv6Header packet) tcp udp
  | _, _ => none

/-- A tuple whose values fit the fields of a family. -/
structure Tuple.OfFamily (tuple : Tuple) (family : AddressFamily) : Prop where
  src : tuple.src.ip.addressFamily = family ∧ tuple.src.ip.bytes.length = 16
  dst : tuple.dst.ip.addressFamily = family ∧ tuple.dst.ip.bytes.length = 16
  ports : tuple.src.port < 65536 ∧ tuple.dst.port < 65536

/-- The address without the bytes of the union behind it. -/
def IpAddress.asRead (ip : IpAddress) : IpAddress :=
  match ip.addressFamily with
  | .inet => ⟨.inet, ip.bytes.take 4 ++ List.replicate 12 0⟩
  | .inet6 => ip

/-- The tuple as it is read from fields that it was written to. -/
def Tuple.asRead (tuple : Tuple) (f : TupleFields) : Tuple :=
  ⟨⟨tuple.src.ip.asRead, if f.ports = none then 0 else tuple.src.port⟩,
    ⟨tuple.dst.ip.asRead, if f.ports = none then 0 else tuple.dst.port⟩⟩

section Fields

variable {b c : Memory} {f : TupleFields} {tuple : Tuple} {ip : IpAddress} {i p : Nat}
  {ipv4 ipv6 tcp udp : Option Nat}

theorem setHeadersTuple_eq (hf : headersFields ipv4 ipv6 tcp udp = some f) :
    setHeadersTuple b ipv4 ipv6 tcp udp tuple = .ok (f.write b tuple) := by
  unfold headersFields at hf
  unfold setHeadersTuple
  split at hf
  · obtain rfl := Option.some.inj hf
    cases tcp <;> cases udp <;> rfl
  · obtain rfl := Option.some.inj hf
    cases tcp <;> cases udp <;> rfl
  · cases hf

theorem getPacketTuple_eq {packet : Packet} (hf : packet.tupleFields = some f) :
    getPacketTuple packet = .ok (f.read packet.buffer) := by
  unfold Packet.tupleFields at hf
  unfold getPacketTuple
  cases h4 : packet.ipv4 with
  | some ipv4 =>
    rw [h4] at hf
    obtain rfl := Option.some.inj hf
    cases packet.tcp <;> cases packet.udp <;> rfl
  | none =>
    cases h6 : packet.ipv6 with
    | some ipv6 =>
      rw [h4, h6] at hf
      obtain rfl := Option.some.inj hf
      cases packet.tcp <;> cases packet.udp <;> rfl
    | none =>
      rw [h4, h6] at hf
      cases hf

theorem AddressFamily.read_congr {family : AddressFamily}
    (h : ∀ k < family.size, b (p + k) = c (p + k)) : family.read b p = family.read c p := by
  cases family with
  | inet =>
    refine congrArg (fun l => IpAddress.mk .inet (l ++ List.replicate 12 0)) ?_
    exact List.ofFn_inj.mpr (funext fun k => h k k.isLt)
  | inet6 => exact congrArg (IpAddress.mk .inet6) (List.ofFn_inj.mpr (funext fun k => h k k.isLt))

/-- What is read where an address was written. -/
theorem AddressFamily.read_writeBytes {family : AddressFamily}
    (hip : ip.addressFamily = family ∧ ip.bytes.length = 16) :
    family.read (writeBytes b p (ip.bytes.take family.size)) p = ip.asRead := by
  obtain ⟨rfl, hlen⟩ := hip
  obtain ⟨family, bytes⟩ := ip
  have hbytes (n : Nat) (hn : n ≤ 16) :
      (List.ofFn fun k : Fin n => writeBytes b p (bytes.take n) (p + k)) = bytes.take n := by
    have hsize : (bytes.take n).length = n := by simp_all
    apply List.ext_getElem (by simp [hsize])
    intro k hk hk'
    rw [List.getElem_ofFn, writeBytes_inside hk']
    exact List.getD_eq_getElem _ _ hk'
  cases family with
  | inet =>
    exact congrArg (fun l => IpAddress.mk .inet (l ++ List.replicate 12 0)) (hbytes 4 (by simp))
  | inet6 =>
    have hall := hbytes 16 le_rfl
    exact congrArg (IpAddress.mk .inet6) (hall.trans (List.take_of_length_le hlen.le))

theorem Ports.set_outside (h : i < p ∨ p + 4 ≤ i) : Ports.set b p tuple i = b i := by
  unfold Ports.set
  rw [writeBytes_outside (by simp only [length_be16]; omega),
    writeBytes_outside (by simp only [length_be16]; omega)]

theorem Ports.src_set (h : tuple.src.port < 65536) :
    Ports.src (Ports.set b p tuple) p = tuple.src.port := by
  unfold Ports.src Ports.set
  rw [be16At_writeBytes_outside (.inl le_rfl), be16At_writeBytes_be16, Nat.mod_eq_of_lt h]

theorem Ports.dst_set (h : tuple.dst.port < 65536) :
    Ports.dst (Ports.set b p tuple) p = tuple.dst.port := by
  unfold Ports.dst Ports.set
  rw [be16At_writeBytes_be16, Nat.mod_eq_of_lt h]

namespace TupleFields

theorem length_take_address {family : AddressFamily} (hlen : ip.bytes.length = 16) :
    (ip.bytes.take family.size).length = family.size := by
  cases family <;> simp [AddressFamily.size, hlen]

theorem writeAddresses_outside (h : i < f.srcAt ∨ f.dstAt + f.family.size ≤ i) :
    f.writeAddresses b tuple i = b i := by
  have hsrc := List.length_take_le f.family.size tuple.src.ip.bytes
  have hdst := List.length_take_le f.family.size tuple.dst.ip.bytes
  have hle : f.dstAt = f.srcAt + f.family.size := rfl
  unfold writeAddresses
  rw [writeBytes_outside (by omega), writeBytes_outside (by omega)]

/-- Nothing but the fields is written. -/
theorem write_outside (h : ¬ f.Covers i) : f.write b tuple i = b i := by
  unfold Covers at h
  push Not at h
  have haddresses : f.writeAddresses b tuple i = b i :=
    writeAddresses_outside (by have := h.1; omega)
  unfold write
  cases hports : f.ports with
  | none => exact haddresses
  | some q =>
    have hq := h.2 q hports
    exact (Ports.set_outside (by omega)).trans haddresses

theorem read_writeAddresses (ht : tuple.OfFamily f.family) :
    f.family.read (f.writeAddresses b tuple) f.srcAt = tuple.src.ip.asRead ∧
      f.family.read (f.writeAddresses b tuple) f.dstAt = tuple.dst.ip.asRead := by
  refine ⟨?_, AddressFamily.read_writeBytes ht.dst⟩
  have hsrc : f.family.read (writeBytes b f.srcAt (tuple.src.ip.bytes.take f.family.size))
      f.srcAt = tuple.src.ip.asRead := AddressFamily.read_writeBytes ht.src
  rw [← hsrc]
  exact AddressFamily.read_congr fun k hk =>
    writeBytes_outside (.inl (by simp only [dstAt]; omega))

/-- The fields are read as they were written. -/
theorem read_write (hord : f.Ordered) (ht : tuple.OfFamily f.family) :
    f.read (f.write b tuple) = tuple.asRead f := by
  obtain ⟨hsrc, hdst⟩ := @read_writeAddresses b f tuple ht
  unfold read write srcPort dstPort Tuple.asRead
  cases hports : f.ports with
  | none => simp [hsrc, hdst]
  | some q =>
    have hq := hord q hports
    have hkeep (p : Nat) (hp : p + f.family.size ≤ q) :
        f.family.read (Ports.set (f.writeAddresses b tuple) q tuple) p =
          f.family.read (f.writeAddresses b tuple) p :=
      AddressFamily.read_congr fun k hk => Ports.set_outside (.inl (by omega))
    have hle : f.dstAt = f.srcAt + f.family.size := rfl
    simp [hkeep _ hq, hkeep f.srcAt (by omega), hsrc, hdst, Ports.src_set ht.ports.1,
      Ports.dst_set ht.ports.2]

/-- Only the fields are read. -/
theorem read_congr (h : ∀ i, f.Covers i → b i = c i) : f.read b = f.read c := by
  have hle : f.dstAt = f.srcAt + f.family.size := rfl
  have hsrc : f.family.read b f.srcAt = f.family.read c f.srcAt :=
    AddressFamily.read_congr fun k hk => h _ (.inl (by omega))
  have hdst : f.family.read b f.dstAt = f.family.read c f.dstAt :=
    AddressFamily.read_congr fun k hk => h _ (.inl (by omega))
  have hport (q : Nat) (hq : f.ports = some q) (k : Nat) (hk : k < 4) :
      u8At b (q + k) = u8At c (q + k) :=
    congrArg UInt8.toNat (h _ (.inr ⟨q, hq, by omega⟩))
  unfold read srcPort dstPort
  rw [hsrc, hdst]
  cases hports : f.ports with
  | none => rfl
  | some q =>
    have h0 := hport q hports 0 (by omega)
    have h1 := hport q hports 1 (by omega)
    have h2 := hport q hports 2 (by omega)
    have h3 := hport q hports 3 (by omega)
    simp only [Nat.add_zero] at h0
    simp [Ports.src, Ports.dst, be16At, Nat.add_assoc, h0, h1, h2, h3]

/-- What is read is of the family that it was read for. -/
theorem ofFamily_read : (f.read b).OfFamily f.family := by
  have hread (family : AddressFamily) (p : Nat) :
      (family.read b p).addressFamily = family ∧ (family.read b p).bytes.length = 16 := by
    cases family <;> simp [AddressFamily.read, ipFromIpv4, ipFromIpv6]
  refine ⟨hread _ _, hread _ _, ?_⟩
  unfold read srcPort dstPort
  cases f.ports with
  | none => simp
  | some q => exact ⟨be16At_lt _ _, be16At_lt _ _⟩

theorem take_bytes_read {family : AddressFamily} :
    (family.read c p).bytes.take family.size = readBytes c p family.size := by
  cases family <;> rfl

theorem be16_be16At : be16 (be16At c p) = readBytes c p 2 := by
  have h0 := u8At_lt c p
  have h1 := u8At_lt c (p + 1)
  have hhi : UInt8.ofNat (be16At c p / 256) = c p := by
    rw [← UInt8.toNat_inj, UInt8.toNat_ofNat']
    show (256 * u8At c p + u8At c (p + 1)) / 256 % 256 = u8At c p
    omega
  have hlo : UInt8.ofNat (be16At c p) = c (p + 1) := by
    rw [← UInt8.toNat_inj, UInt8.toNat_ofNat']
    show (256 * u8At c p + u8At c (p + 1)) % 256 = u8At c (p + 1)
    omega
  rw [be16, hhi, hlo]
  rfl

/-- Writing what was read elsewhere copies every byte of the fields. -/
theorem write_read (hord : f.Ordered) (hi : f.Covers i) : f.write b (f.read c) i = c i := by
  have haddresses (hlt : f.srcAt ≤ i ∧ i < f.dstAt + f.family.size) :
      f.writeAddresses b (f.read c) i = c i := by
    have hle : f.dstAt = f.srcAt + f.family.size := rfl
    unfold writeAddresses
    simp only [read, take_bytes_read]
    by_cases hsrc : i < f.dstAt
    · obtain ⟨k, rfl⟩ := Nat.exists_eq_add_of_le hlt.1
      rw [writeBytes_outside (.inl hsrc), writeBytes_readBytes _ _ _ _ (by omega)]
    · obtain ⟨k, rfl⟩ := Nat.exists_eq_add_of_le (not_lt.mp hsrc)
      rw [writeBytes_readBytes _ _ _ _ (by omega)]
  unfold write
  cases hports : f.ports with
  | none =>
    rcases hi with hi | ⟨q, hq, -⟩
    · exact haddresses hi
    · rw [hports] at hq
      cases hq
  | some q =>
    have hq := hord q hports
    rcases hi with hi | ⟨q', hq', hlt⟩
    · exact (Ports.set_outside (.inl (by omega))).trans (haddresses hi)
    · obtain rfl : q = q' := Option.some.inj (hports.symm.trans hq')
      simp only [Ports.set, read, srcPort, dstPort, hports, Option.map_some, Option.getD_some,
        Ports.src, Ports.dst, be16_be16At]
      by_cases hsrc : i < q + 2
      · obtain ⟨k, rfl⟩ := Nat.exists_eq_add_of_le hlt.1
        rw [writeBytes_outside (.inl hsrc), writeBytes_readBytes _ _ _ _ (by omega)]
      · obtain ⟨k, rfl⟩ := Nat.exists_eq_add_of_le (not_lt.mp hsrc)
        rw [writeBytes_readBytes _ _ _ _ (by omega)]

/-- The first byte of the source address is written, whatever the family of the tuple. -/
theorem write_srcAt (hord : f.Ordered) (hlen : tuple.src.ip.bytes.length = 16) :
    f.write b tuple f.srcAt = tuple.src.ip.bytes.getD 0 0 := by
  have hsize : 0 < f.family.size := by cases f.family <;> decide
  have hle : f.dstAt = f.srcAt + f.family.size := rfl
  have haddresses : f.writeAddresses b tuple f.srcAt = tuple.src.ip.bytes.getD 0 0 := by
    have htake := @length_take_address tuple.src.ip f.family hlen
    have hin : writeBytes b f.srcAt (tuple.src.ip.bytes.take f.family.size) (f.srcAt + 0) =
        (tuple.src.ip.bytes.take f.family.size).getD 0 0 := writeBytes_inside (by omega)
    unfold writeAddresses
    rw [writeBytes_outside (.inl (by omega))]
    refine hin.trans ?_
    simp [List.getD, hsize]
  unfold write
  cases hports : f.ports with
  | none => exact haddresses
  | some q =>
    have hq := hord q hports
    exact (Ports.set_outside (.inl (by omega))).trans haddresses

end TupleFields

end Fields

end QoSMos
