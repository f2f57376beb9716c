import QoSMos.Lib.Path
import QoSMos.Parser.Program

/-!
# The grammar of accepted packets

Independently of the parser, `HeaderAt` says which header may stand at a position of the
captured bytes and what has to follow it. `Symbol` is what a position is expected to
hold. Each header is followed by exactly one other, so the grammar is right-linear and a
derivation is a path of `HeaderAt` steps, listing the headers from the outermost one in.

`b` are the bytes and `e` is the number of captured ones.
-/

namespace QoSMos

open LabelledPath

/-- What is expected at a position: an IP datagram of either version, what an Ethernet
type or GRE protocol number announces, the payload of an IP header, or nothing more. -/
inductive Symbol where
  | ip
  | proto (etherType : Nat)
  | payload (protocol len : Nat)
  | done
  deriving DecidableEq, Repr

/-- The kinds of header that a symbol announces at `p`. -/
def Symbol.Admits (b : Memory) (p : Nat) : Symbol → HeaderType → Prop
  | .ip, .ipv4 => Ipv4.version b p = 4
  | .ip, .ipv6 => Ipv6.version b p = 6
  | .proto t, .ipv4 => t = ETHERTYPE_IP ∧ Ipv4.version b p = 4
  | .proto t, .ipv6 => t = ETHERTYPE_IPV6 ∧ Ipv6.version b p = 6
  | .proto t, .mpls => t = ETHERTYPE_MPLS_UC ∨ t = ETHERTYPE_MPLS_MC
  | .payload protocol _, .ipv4 => protocol = IPPROTO_IPIP
  | .payload protocol _, .ipv6 => protocol = IPPROTO_IPV6
  | _, _ => False

/-- An IPv4 header, unfragmented and with a valid checksum, whose datagram was captured. -/
structure Ipv4At (b : Memory) (e p : Nat) : Prop where
  minimum : IPV4_BYTES ≤ Ipv4.ihl b p * 4
  header : Ipv4.ihl b p * 4 ≤ Ipv4.totLen b p
  available : p + Ipv4.totLen b p ≤ e
  lastFragment : Ipv4.fragOff b p &&& IP_MF = 0
  firstFragment : Ipv4.fragOff b p &&& IP_OFFMASK = 0
  checksum : ChecksumVerifies b p (Ipv4.ihl b p * 4)

/-- A stack of `k + 1` MPLS entries, the last of them and no other marked as bottom. -/
structure LabelStackAt (b : Memory) (e p k : Nat) : Prop where
  available : p + MPLS_BYTES * (k + 1) ≤ e
  above : ∀ i < k, Mpls.stack b (p + MPLS_BYTES * i) = false
  bottom : Mpls.stack b (p + MPLS_BYTES * k) = true

/-- The header expected at `p`, and what is expected behind it. -/
inductive HeaderAt (b : Memory) (e : Nat) : Symbol → Nat → Header → Symbol → Prop where
  | ipv4 {sym : Symbol} {p : Nat} : sym.Admits b p .ipv4 → Ipv4At b e p →
      HeaderAt b e sym p ⟨.ipv4, Ipv4.ihl b p * 4, Ipv4.totLen b p, some p⟩
        (.payload (Ipv4.protocol b p) (Ipv4.totLen b p - Ipv4.ihl b p * 4))
  | ipv6 {sym : Symbol} {p : Nat} : sym.Admits b p .ipv6 →
      p + (IPV6_BYTES + Ipv6.payloadLen b p) ≤ e →
      HeaderAt b e sym p ⟨.ipv6, IPV6_BYTES, IPV6_BYTES + Ipv6.payloadLen b p, some p⟩
        (.payload (Ipv6.nextHeader b p) (Ipv6.payloadLen b p))
  | mpls {sym : Symbol} {p k : Nat} : sym.Admits b p .mpls → LabelStackAt b e p k →
      HeaderAt b e sym p ⟨.mpls, MPLS_BYTES * (k + 1), e - p, some p⟩ .ip
  | gre {p len : Nat} : Gre.version b p = 0 → Gre.hasRouting b p = false → Gre.len b p ≤ len →
      HeaderAt b e (.payload IPPROTO_GRE len) p ⟨.gre, Gre.len b p, len, some p⟩
        (.proto (Gre.proto b p))
  | tcp {p len : Nat} : TCP_BYTES ≤ Tcp.doff b p * 4 → Tcp.doff b p * 4 ≤ len →
      HeaderAt b e (.payload IPPROTO_TCP len) p ⟨.tcp, Tcp.doff b p * 4, len, some p⟩ .done
  | udp {p len : Nat} : UDP_BYTES ≤ len → Udp.len b p = len →
      HeaderAt b e (.payload IPPROTO_UDP len) p ⟨.udp, UDP_BYTES, len, some p⟩ .done
  | icmpv4 {p len : Nat} : ICMPV4_BYTES ≤ len →
      HeaderAt b e (.payload IPPROTO_ICMP len) p ⟨.icmpv4, ICMPV4_BYTES, len, some p⟩ .done
  | icmpv6 {p len : Nat} : ICMPV6_BYTES ≤ len →
      HeaderAt b e (.payload IPPROTO_ICMPV6 len) p ⟨.icmpv6, ICMPV6_BYTES, len, some p⟩ .done

/-- A symbol with the position at which it is expected. -/
abbrev Expected := Symbol × Nat

/-- The next header, after which the position moves by the header's length. -/
def Next (b : Memory) (e : Nat) (x : Expected) (h : Header) (y : Expected) : Prop :=
  HeaderAt b e x.1 x.2 h y.1 ∧ y.2 = x.2 + h.headerBytes

/-- The headers `hs` derive from `x`, the last of them a transport header. -/
def Derives (b : Memory) (e : Nat) (x : Expected) (hs : List Header) : Prop :=
  ∃ q, Path (Next b e) x hs (.done, q)

/-- What the first byte of the buffer's network layer is expected to start. -/
def layerStart (b : Memory) : PacketLayer → Expected
  | .layer3Ip => (.ip, 0)
  | .layer2Ethernet => (.proto (Ether.etherType b 0), ETHER_HEADER_BYTES)

/-- The headers `hs` are those of the packet in the first `e` bytes of `b`. -/
def HeaderStack (b : Memory) (e : Nat) (layer : PacketLayer) (hs : List Header) : Prop :=
  Derives b e (layerStart b layer) hs ∧ hs.length ≤ PACKET_MAX_HEADERS

/-! ## Determinism -/

theorem LabelStackAt.unique {b : Memory} {e p k l : Nat} (hk : LabelStackAt b e p k)
    (hl : LabelStackAt b e p l) : k = l := by
  by_contra hne
  rcases Nat.lt_or_gt_of_ne hne with hlt | hlt
  · have := hk.bottom
    rw [hl.above k hlt] at this
    contradiction
  · have := hl.bottom
    rw [hk.above l hlt] at this
    contradiction

/-- A symbol announces at most one kind of header at a position. -/
theorem Symbol.Admits.unique {b : Memory} {p : Nat} {sym : Symbol} {t u : HeaderType}
    (ht : sym.Admits b p t) (hu : sym.Admits b p u) : t = u := by
  have hv : Ipv4.version b p = Ipv6.version b p := rfl
  cases sym <;> cases t <;> cases u <;>
    simp_all [Symbol.Admits, ETHERTYPE_IP, ETHERTYPE_IPV6, ETHERTYPE_MPLS_UC,
      ETHERTYPE_MPLS_MC, IPPROTO_IPIP, IPPROTO_IPV6]

theorem HeaderAt.unique {b : Memory} {e p : Nat} {sym s t : Symbol} {h g : Header}
    (hh : HeaderAt b e sym p h s) (hg : HeaderAt b e sym p g t) : h = g ∧ s = t := by
  have hv : Ipv4.version b p = Ipv6.version b p := rfl
  cases hh with
  | ipv4 ha _ | ipv6 ha _ =>
    cases hg with
    | ipv4 hb _ | ipv6 hb _ | mpls hb _ => first | exact ⟨rfl, rfl⟩ | cases ha.unique hb
    | _ => simp [Symbol.Admits, IPPROTO_GRE, IPPROTO_TCP, IPPROTO_UDP, IPPROTO_ICMP,
        IPPROTO_ICMPV6, IPPROTO_IPIP, IPPROTO_IPV6] at ha
  | mpls ha hk =>
    cases hg with
    | mpls _ hl => obtain rfl := hk.unique hl; exact ⟨rfl, rfl⟩
    | ipv4 hb _ | ipv6 hb _ => cases ha.unique hb
    | _ => simp [Symbol.Admits] at ha
  | _ =>
    generalize hx : Symbol.payload _ _ = x at hg
    cases hg <;> simp_all [Symbol.Admits, IPPROTO_GRE, IPPROTO_TCP, IPPROTO_UDP, IPPROTO_ICMP,
        IPPROTO_ICMPV6, IPPROTO_IPIP, IPPROTO_IPV6] <;> subst hx <;> simp_all

/-! ## Which header stands where -/

section Inversion

variable {b : Memory} {e p protocol len etherType : Nat} {next : Symbol} {h : Header}

theorem HeaderAt.payload_inv (hh : HeaderAt b e (.payload protocol len) p h next) :
    protocol = IPPROTO_IPIP ∧ Ipv4At b e p ∨
    protocol = IPPROTO_IPV6 ∧ p + (IPV6_BYTES + Ipv6.payloadLen b p) ≤ e ∨
    protocol = IPPROTO_GRE ∧
      Gre.version b p = 0 ∧ Gre.hasRouting b p = false ∧ Gre.len b p ≤ len ∨
    protocol = IPPROTO_TCP ∧ TCP_BYTES ≤ Tcp.doff b p * 4 ∧ Tcp.doff b p * 4 ≤ len ∨
    protocol = IPPROTO_UDP ∧ UDP_BYTES ≤ len ∧ Udp.len b p = len ∨
    protocol = IPPROTO_ICMP ∧ ICMPV4_BYTES ≤ len ∨
    protocol = IPPROTO_ICMPV6 ∧ ICMPV6_BYTES ≤ len := by
  cases hh with
  | ipv4 ha hi => exact .inl ⟨ha, hi⟩
  | ipv6 ha hi => exact .inr (.inl ⟨ha, hi⟩)
  | mpls ha _ => simp [Symbol.Admits] at ha
  | gre hv hr hl => exact .inr (.inr (.inl ⟨rfl, hv, hr, hl⟩))
  | tcp hmin hmax => exact .inr (.inr (.inr (.inl ⟨rfl, hmin, hmax⟩)))
  | udp hmin hl => exact .inr (.inr (.inr (.inr (.inl ⟨rfl, hmin, hl⟩))))
  | icmpv4 hmin => exact .inr (.inr (.inr (.inr (.inr (.inl ⟨rfl, hmin⟩)))))
  | icmpv6 hmin => exact .inr (.inr (.inr (.inr (.inr (.inr ⟨rfl, hmin⟩)))))

theorem HeaderAt.proto_inv (hh : HeaderAt b e (.proto etherType) p h next) :
    etherType = ETHERTYPE_IP ∧ Ipv4.version b p = 4 ∧ Ipv4At b e p ∨
    etherType = ETHERTYPE_IPV6 ∧ Ipv6.version b p = 6 ∧
      p + (IPV6_BYTES + Ipv6.payloadLen b p) ≤ e ∨
    (etherType = ETHERTYPE_MPLS_UC ∨ etherType = ETHERTYPE_MPLS_MC) ∧
      ∃ k, LabelStackAt b e p k := by
  cases hh with
  | ipv4 ha hi => exact .inl ⟨ha.1, ha.2, hi⟩
  | ipv6 ha hi => exact .inr (.inl ⟨ha.1, ha.2, hi⟩)
  | mpls ha hk => exact .inr (.inr ⟨ha, _, hk⟩)

theorem HeaderAt.ip_inv (hh : HeaderAt b e .ip p h next) :
    Ipv4.version b p = 4 ∧ Ipv4At b e p ∨
    Ipv6.version b p = 6 ∧ p + (IPV6_BYTES + Ipv6.payloadLen b p) ≤ e := by
  cases hh with
  | ipv4 ha hi => exact .inl ⟨ha, hi⟩
  | ipv6 ha hi => exact .inr ⟨ha, hi⟩
  | mpls ha _ => simp [Symbol.Admits] at ha

theorem HeaderAt.ptr {sym : Symbol} (hh : HeaderAt b e sym p h next) : h.ptr = some p := by
  cases hh <;> rfl

theorem HeaderAt.ipv4_inv {sym : Symbol} (hh : HeaderAt b e sym p h next)
    (ha : sym.Admits b p .ipv4) : Ipv4At b e p := by
  cases hh with
  | ipv4 _ hi => exact hi
  | ipv6 ha' _ | mpls ha' _ => cases ha.unique ha'
  | _ => cases ha

theorem HeaderAt.ipv6_inv {sym : Symbol} (hh : HeaderAt b e sym p h next)
    (ha : sym.Admits b p .ipv6) : p + (IPV6_BYTES + Ipv6.payloadLen b p) ≤ e := by
  cases hh with
  | ipv6 _ hi => exact hi
  | ipv4 ha' _ | mpls ha' _ => cases ha.unique ha'
  | _ => cases ha

end Inversion

/-! ## Derivations, one header at a time -/

section Derivations

variable {b : Memory} {e p k : Nat} {sym next : Symbol} {h : Header} {hs : List Header}

/-- A step from a given position takes its only header. -/
theorem next_iff (hh : HeaderAt b e sym p h next) {g : Header} {y : Expected} :
    Next b e (sym, p) g y ↔ g = h ∧ y = (next, p + h.headerBytes) := by
  constructor
  · rintro ⟨hg, hy⟩
    obtain ⟨rfl, hn⟩ := hh.unique hg
    exact ⟨rfl, Prod.ext hn.symm hy⟩
  · rintro ⟨rfl, rfl⟩
    exact ⟨hh, rfl⟩

theorem HeaderAt.ne_done (hh : HeaderAt b e sym p h next) : sym ≠ .done := by
  rintro rfl
  cases hh <;> contradiction

theorem derives_iff (hh : HeaderAt b e sym p h next) :
    Derives b e (sym, p) hs ↔ ∃ tl, hs = h :: tl ∧ Derives b e (next, p + h.headerBytes) tl := by
  have hsym := hh.ne_done
  cases hs with
  | nil => simp [Derives, Path.nil_iff, hsym.symm]
  | cons g tl => simp [Derives, Path.cons_iff, next_iff hh, and_assoc]

theorem derives_done : Derives b e (.done, p) hs ↔ hs = [] := by
  constructor
  · rintro ⟨q, hp⟩
    cases hp with
    | nil => rfl
    | cons hn _ => exact (hn.1.ne_done rfl).elim
  · rintro rfl
    exact ⟨p, .nil _⟩

theorem not_derives (hsym : sym ≠ .done) (hno : ∀ h next, ¬ HeaderAt b e sym p h next) :
    ¬ Derives b e (sym, p) hs := by
  rintro ⟨q, hp⟩
  cases hp with
  | nil => exact hsym rfl
  | cons hn _ => exact hno _ _ hn.1

theorem Derives.unique {x : Expected} {gs : List Header} (hd : Derives b e x hs)
    (hg : Derives b e x gs) : hs = gs := by
  obtain ⟨q, hp⟩ := hd
  obtain ⟨q', hp'⟩ := hg
  generalize hy : (Symbol.done, q) = y at hp
  induction hp generalizing gs with
  | nil =>
    subst hy
    exact (derives_done.mp ⟨q', hp'⟩).symm
  | cons hn _ ih =>
    cases hp' with
    | nil => exact (hn.1.ne_done rfl).elim
    | cons hn' hp' =>
      obtain ⟨rfl, rfl⟩ := (next_iff hn.1).mp hn'
      rw [← hn.2] at hp'
      rw [ih hp' hy]

/-- Behind at most `PACKET_MAX_HEADERS - k` headers from `x` on, an IP header announces an
IPv4 datagram as its payload but ends with the last captured byte. -/
def EmptyIpipFrom (b : Memory) (e : Nat) (x : Expected) (k : Nat) : Prop :=
  ∃ hs len, Path (Next b e) x hs (.payload IPPROTO_IPIP len, e) ∧
    k + hs.length ≤ PACKET_MAX_HEADERS

/-- No header is read behind `p`; only the first byte of an IPv4 header may be missing. -/
theorem emptyIpipFrom_stuck (hno : ∀ h next, ¬ HeaderAt b e sym p h next)
    (hk : k ≤ PACKET_MAX_HEADERS) :
    EmptyIpipFrom b e (sym, p) k ↔ (∃ len, sym = .payload IPPROTO_IPIP len) ∧ p = e := by
  constructor
  · rintro ⟨hs, len, hp, _⟩
    cases hp with
    | nil => exact ⟨⟨len, rfl⟩, rfl⟩
    | cons hn _ => exact (hno _ _ hn.1).elim
  · rintro ⟨⟨len, rfl⟩, rfl⟩
    exact ⟨[], len, .nil _, by simpa using hk⟩

theorem emptyIpipFrom_iff (hh : HeaderAt b e sym p h next) (hpe : p ≠ e) :
    EmptyIpipFrom b e (sym, p) k ↔ EmptyIpipFrom b e (next, p + h.headerBytes) (k + 1) := by
  constructor
  · rintro ⟨hs, len, hp, hlen⟩
    cases hs with
    | nil => exact (hpe (by simpa using congrArg Prod.snd (Path.nil_iff.mp hp).symm)).elim
    | cons g tl =>
      obtain ⟨y, hn, ht⟩ := Path.cons_iff.mp hp
      obtain ⟨rfl, rfl⟩ := (next_iff hh).mp hn
      exact ⟨tl, len, ht, by simp only [List.length_cons] at hlen; omega⟩
  · rintro ⟨tl, len, ht, hlen⟩
    refine ⟨h :: tl, len, .cons ((next_iff hh).mpr ⟨rfl, rfl⟩) ht, ?_⟩
    simp only [List.length_cons]
    omega

theorem not_emptyIpipFrom_done : ¬ EmptyIpipFrom b e (.done, p) k := by
  rintro ⟨hs, len, hp, _⟩
  cases hp with
  | cons hn _ => exact hn.1.ne_done rfl

/-- Every header is captured and at least one byte long. -/
theorem HeaderAt.captured (hh : HeaderAt b e sym p h next)
    (hfit : ∀ protocol len, sym = .payload protocol len → p + len ≤ e) :
    0 < h.headerBytes ∧ p + h.headerBytes ≤ e ∧
      ∀ protocol len, next = .payload protocol len → p + h.headerBytes + len ≤ e := by
  cases hh with
  | ipv4 _ hi =>
    have := hi.minimum
    have := hi.header
    have := hi.available
    simp only [IPV4_BYTES, Symbol.payload.injEq] at *
    exact ⟨by omega, by omega, fun _ _ h => by omega⟩
  | ipv6 _ hi =>
    simp only [IPV6_BYTES, Symbol.payload.injEq] at *
    exact ⟨by omega, by omega, fun _ _ h => by omega⟩
  | mpls _ hk =>
    have := hk.available
    simp only [MPLS_BYTES] at *
    exact ⟨by omega, by omega, fun _ _ h => by cases h⟩
  | gre _ _ hlen =>
    have := hfit _ _ rfl
    have := Gre.minlen_le_len b p
    simp only [GRE_MINLEN] at *
    exact ⟨by omega, by omega, fun _ _ h => by cases h⟩
  | tcp _ _ | udp _ _ | icmpv4 _ | icmpv6 _ =>
    have := hfit _ _ rfl
    simp only [TCP_BYTES, UDP_BYTES, ICMPV4_BYTES, ICMPV6_BYTES] at *
    exact ⟨by omega, by omega, fun _ _ h => by cases h⟩

end Derivations

end QoSMos
