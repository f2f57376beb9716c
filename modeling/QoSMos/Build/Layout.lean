import QoSMos.Packet.Write
import QoSMos.Parser.Grammar

/-!
# Nested datagrams

`LaidOut b e p hs` says of a packet that ends at `e` that the headers `hs` stand behind
each other from `p` on, and that every length in them counts the bytes up to `e`. A packet
laid out like this derives from the grammar of the parser. `Shape` collects the fields that
are fixed when a header is written, and `FieldsDescribe` those that depend on what comes to
stand behind the header.
-/

namespace QoSMos

open LabelledPath

/-- `header_types[type].ip_proto` -/
def HeaderType.ipProto : HeaderType → Nat
  | .none | .mpls => 0
  | .ipv4 => IPPROTO_IPIP
  | .ipv6 => IPPROTO_IPV6
  | .gre => IPPROTO_GRE
  | .tcp => IPPROTO_TCP
  | .udp => IPPROTO_UDP
  | .icmpv4 => IPPROTO_ICMP
  | .icmpv6 => IPPROTO_ICMPV6

/-- `header_types[type].eth_proto` -/
def HeaderType.ethProto : HeaderType → Nat
  | .ipv4 => ETHERTYPE_IP
  | .ipv6 => ETHERTYPE_IPV6
  | .mpls => ETHERTYPE_MPLS_UC
  | .none | .gre | .tcp | .udp | .icmpv4 | .icmpv6 => 0

/-- Which headers may stand directly behind a header; `none` is the payload. -/
def HeaderType.carries : HeaderType → HeaderType → Bool
  | .ipv4, next | .ipv6, next => next != .none && next != .mpls
  | .gre, next => next == .ipv4 || next == .ipv6 || next == .mpls
  | .mpls, next => next == .ipv4 || next == .ipv6
  | .tcp, next | .udp, next | .icmpv4, next | .icmpv6, next => next == .none
  | .none, _ => false

/-- The type of the first of these headers. -/
def nextType : List Header → HeaderType
  | [] => .none
  | h :: _ => h.type

/-- The version of an IP header at `p` is that of its type. -/
def VersionAt (b : Memory) (p : Nat) : HeaderType → Prop
  | .ipv4 => Ipv4.version b p = 4
  | .ipv6 => Ipv6.version b p = 6
  | _ => True

/-- The header `h` at `p` is well formed by itself. The version of an IP header is left out,
since the parser does not look at it where the protocol number announces the header. -/
def Shape (b : Memory) (e p : Nat) (h : Header) : Prop :=
  match h.type with
  | .ipv4 => Ipv4.ihl b p * 4 = h.headerBytes ∧ IPV4_BYTES ≤ h.headerBytes ∧
      Ipv4.fragOff b p &&& IP_MF = 0 ∧ Ipv4.fragOff b p &&& IP_OFFMASK = 0
  | .ipv6 => h.headerBytes = IPV6_BYTES
  | .gre => Gre.version b p = 0 ∧ Gre.hasRouting b p = false ∧ Gre.len b p = h.headerBytes
  | .mpls => ∃ k, h.headerBytes = MPLS_BYTES * (k + 1) ∧ LabelStackAt b e p k
  | .tcp => TCP_BYTES ≤ h.headerBytes ∧ Tcp.doff b p * 4 = h.headerBytes
  | .udp => h.headerBytes = UDP_BYTES
  | .icmpv4 => h.headerBytes = ICMPV4_BYTES
  | .icmpv6 => h.headerBytes = ICMPV6_BYTES
  | .none => False

/-- The length and protocol fields of the header `h` at `p` describe what follows it up to
`e`, the first of it being a header of type `next`, and an IPv4 header verifies. -/
def FieldsDescribe (b : Memory) (e p : Nat) (h : Header) (next : HeaderType) : Prop :=
  match h.type with
  | .ipv4 => p + Ipv4.totLen b p = e ∧ Ipv4.protocol b p = next.ipProto ∧
      ipv4Checksum b p h.headerBytes = 0
  | .ipv6 => p + h.headerBytes + Ipv6.payloadLen b p = e ∧ Ipv6.nextHeader b p = next.ipProto
  | .gre => Gre.proto b p = next.ethProto
  | .udp => p + Udp.len b p = e
  | .mpls | .tcp | .icmpv4 | .icmpv6 | .none => True

/-- The header `h` stands at `p` in front of a header of type `next`. -/
structure Stands (b : Memory) (e p : Nat) (h : Header) (next : HeaderType) : Prop where
  ptr : h.ptr = some p
  carries : h.type.carries next = true
  version : h.type = .gre ∨ h.type = .mpls → VersionAt b (p + h.headerBytes) next
  shape : Shape b e p h

/-- It reaches to the end of the packet, and its fields say so. -/
structure Placed (b : Memory) (e p : Nat) (h : Header) (next : HeaderType) : Prop
    extends Stands b e p h next where
  total : p + h.totalBytes = e
  fields : FieldsDescribe b e p h next

/-- The headers stand behind each other from `p` on, whatever their lengths say. -/
def Stacked (b : Memory) (e : Nat) : Nat → List Header → Prop
  | p, [] => p ≤ e
  | p, h :: inner => Stands b e p h (nextType inner) ∧ Stacked b e (p + h.headerBytes) inner

/-- The headers stand behind each other from `p` on, and each reaches to the end `e`. -/
def LaidOut (b : Memory) (e : Nat) : Nat → List Header → Prop
  | p, [] => p ≤ e
  | p, h :: inner => Placed b e p h (nextType inner) ∧ LaidOut b e (p + h.headerBytes) inner

/-- A header of type `t` is what the grammar expects at `p`. -/
def Symbol.Expects (b : Memory) (e p : Nat) : Symbol → HeaderType → Prop
  | .ip, t => (t = .ipv4 ∨ t = .ipv6) ∧ VersionAt b p t
  | .proto etherType, t =>
    etherType = t.ethProto ∧ (t = .ipv4 ∨ t = .ipv6 ∨ t = .mpls) ∧ VersionAt b p t
  | .payload protocol len, t =>
    protocol = t.ipProto ∧ t ≠ .none ∧ t ≠ .mpls ∧ p + len = e
  | .done, t => t = .none

variable {b : Memory} {e p : Nat} {h : Header} {hs : List Header} {sym : Symbol} {next : HeaderType}

theorem LaidOut.le (hl : LaidOut b e p hs) : p ≤ e := by
  cases hs with
  | nil => exact hl
  | cons h inner =>
    have := hl.1.total
    omega

theorem Stacked.le (hstack : Stacked b e p hs) : p ≤ e := by
  induction hs generalizing p with
  | nil => exact hstack
  | cons h inner ih => exact (Nat.le_add_right _ _).trans (ih hstack.2)

theorem Symbol.Expects.admits_ipv4 (hsym : sym.Expects b e p .ipv4) :
    sym.Admits b p .ipv4 := by
  cases sym with
  | ip => exact hsym.2
  | proto n => exact ⟨hsym.1, hsym.2.2⟩
  | payload n len => exact hsym.1
  | done => cases hsym

theorem Symbol.Expects.admits_ipv6 (hsym : sym.Expects b e p .ipv6) :
    sym.Admits b p .ipv6 := by
  cases sym with
  | ip => exact hsym.2
  | proto n => exact ⟨hsym.1, hsym.2.2⟩
  | payload n len => exact hsym.1
  | done => cases hsym

theorem Symbol.Expects.admits_mpls (hsym : sym.Expects b e p .mpls) : sym.Admits b p .mpls := by
  cases sym with
  | ip => simp [Symbol.Expects] at hsym
  | proto n => exact .inl hsym.1
  | payload n len => exact absurd rfl hsym.2.2.1
  | done => cases hsym

/-- A header that is neither IP nor MPLS is expected as the payload of an IP header. -/
theorem Symbol.Expects.payload {t : HeaderType} (hsym : sym.Expects b e p t)
    (ht : t = .gre ∨ t = .tcp ∨ t = .udp ∨ t = .icmpv4 ∨ t = .icmpv6) :
    ∃ len, sym = .payload t.ipProto len ∧ p + len = e := by
  cases sym with
  | ip => rcases ht with rfl | rfl | rfl | rfl | rfl <;> simp [Symbol.Expects] at hsym
  | proto n => rcases ht with rfl | rfl | rfl | rfl | rfl <;> simp [Symbol.Expects] at hsym
  | payload n len => exact ⟨len, by rw [hsym.1], hsym.2.2.2⟩
  | done => rcases ht with rfl | rfl | rfl | rfl | rfl <;> cases hsym

/-- A header that is expected and in its place is one that the grammar reads, and what it
carries is expected next. -/
theorem Placed.headerAt (hp : Placed b e p h next) (hle : p + h.headerBytes ≤ e)
    (hsym : sym.Expects b e p h.type) :
    ∃ sym', HeaderAt b e sym p h sym' ∧ sym'.Expects b e (p + h.headerBytes) next := by
  obtain ⟨type, n, total, ptr⟩ := h
  obtain ⟨⟨rfl, hcarries, hversion, hshape⟩, htotal, hfields⟩ := hp
  simp only at htotal hcarries hversion hle hsym ⊢
  cases type with
  | none => exact hshape.elim
  | ipv4 =>
    obtain ⟨hihl, hmin, hmf, hoff⟩ := hshape
    obtain ⟨htot, hproto, hcheck⟩ := hfields
    simp only at hihl hmin hcheck htot hproto
    obtain rfl : Ipv4.totLen b p = total := by omega
    subst hihl
    have hihl : Ipv4.ihl b p < 16 := Nat.mod_lt _ (by omega)
    have hverifies := (ipv4Checksum_eq_zero_iff b p _ (by omega)).mp hcheck
    refine ⟨_, .ipv4 hsym.admits_ipv4
      ⟨hmin, by omega, by omega, hmf, hoff, hverifies⟩, hproto, ?_, ?_, by omega⟩
    · rintro rfl
      simp [HeaderType.carries] at hcarries
    · rintro rfl
      simp [HeaderType.carries] at hcarries
  | ipv6 =>
    have hbytes : n = IPV6_BYTES := hshape
    obtain ⟨hlen, hproto⟩ := hfields
    simp only at hlen hproto
    subst hbytes
    obtain rfl : IPV6_BYTES + Ipv6.payloadLen b p = total := by omega
    refine ⟨_, .ipv6 hsym.admits_ipv6 (by omega), hproto, ?_, ?_, by omega⟩
    · rintro rfl
      simp [HeaderType.carries] at hcarries
    · rintro rfl
      simp [HeaderType.carries] at hcarries
  | gre =>
    obtain ⟨hzero, hrouting, hlen⟩ := hshape
    simp only at hlen
    subst hlen
    obtain ⟨len, rfl, hend⟩ := hsym.payload (.inl rfl)
    obtain rfl : len = total := by omega
    refine ⟨_, .gre hzero hrouting (by omega), hfields, ?_, hversion (.inl rfl)⟩
    cases next <;> simp_all [HeaderType.carries]
  | mpls =>
    obtain ⟨k, hbytes, hstack⟩ := hshape
    simp only at hbytes
    subst hbytes
    obtain rfl : e - p = total := by omega
    refine ⟨_, .mpls hsym.admits_mpls hstack, ?_, hversion (.inr rfl)⟩
    cases next <;> simp_all [HeaderType.carries]
  | tcp =>
    obtain ⟨hmin, hdoff⟩ := hshape
    simp only at hmin hdoff
    subst hdoff
    obtain ⟨len, rfl, hend⟩ := hsym.payload (.inr (.inl rfl))
    obtain rfl : len = total := by omega
    exact ⟨_, .tcp hmin (by omega), eq_of_beq hcarries⟩
  | udp =>
    obtain ⟨len, rfl, hend⟩ := hsym.payload (.inr (.inr (.inl rfl)))
    obtain rfl : len = total := by omega
    have hlen : p + Udp.len b p = e := hfields
    have hbytes : n = UDP_BYTES := hshape
    subst hbytes
    exact ⟨_, .udp (by omega) (by omega), eq_of_beq hcarries⟩
  | icmpv4 =>
    obtain ⟨len, rfl, hend⟩ := hsym.payload (.inr (.inr (.inr (.inl rfl))))
    obtain rfl : len = total := by omega
    have hbytes : n = ICMPV4_BYTES := hshape
    subst hbytes
    exact ⟨_, .icmpv4 (by omega), eq_of_beq hcarries⟩
  | icmpv6 =>
    obtain ⟨len, rfl, hend⟩ := hsym.payload (.inr (.inr (.inr (.inr rfl))))
    obtain rfl : len = total := by omega
    have hbytes : n = ICMPV6_BYTES := hshape
    subst hbytes
    exact ⟨_, .icmpv6 (by omega), eq_of_beq hcarries⟩

/-- Headers that are laid out derive from the grammar. -/
theorem LaidOut.derives (hl : LaidOut b e p hs) (hsym : sym.Expects b e p (nextType hs)) :
    Derives b e (sym, p) hs := by
  induction hs generalizing p sym with
  | nil =>
    have hdone : sym = .done := by
      cases sym <;> simp_all [Symbol.Expects, nextType]
    rw [hdone]
    exact derives_done.mpr rfl
  | cons h inner ih =>
    obtain ⟨sym', hh, hsym'⟩ := hl.1.headerAt hl.2.le hsym
    exact (derives_iff hh).mpr ⟨inner, rfl, ih hl.2 hsym'⟩

/-- A nested IP datagram at the start of the buffer is a header stack. -/
theorem LaidOut.headerStack (hl : LaidOut b e 0 hs) (hlen : hs.length ≤ PACKET_MAX_HEADERS)
    (hip : nextType hs = .ipv4 ∨ nextType hs = .ipv6) (hversion : VersionAt b 0 (nextType hs)) :
    HeaderStack b e .layer3Ip hs :=
  ⟨hl.derives ⟨hip, hversion⟩, hlen⟩

end QoSMos
