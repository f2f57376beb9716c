import QoSMos.Parser.Invariants

/-!
# The versions of IP headers

An entry for an IP header need not point to a header of that version. An Ethernet type, a GRE
protocol number and the payload of an MPLS stack lead to an IP parser only past a test of the
version; the protocol number of an enclosing IP header leads there without one.
-/

namespace QoSMos

open LabelledPath

/-- The version that the kind of an IP header stands for. -/
def HeaderType.HasVersion (b : Memory) (p : Nat) : HeaderType → Prop
  | .ipv4 => Ipv4.version b p = 4
  | .ipv6 => Ipv6.version b p = 6
  | _ => True

/-- Every entry for an IP header points to a byte with its version. -/
def VersionsMatch (packet : Packet) : Prop :=
  ∀ h ∈ packet.headers.toList, ∀ p, h.ptr = some p → h.type.HasVersion packet.buffer p

/-- Where an IP header on the way announces an IP datagram by its protocol number, the byte
behind it has the version of that datagram. -/
def TunnelVersions (b : Memory) (e : Nat) (x : Expected) : Prop :=
  ∀ hs protocol len q, Path (Next b e) x hs (.payload protocol len, q) →
    (protocol = IPPROTO_IPIP → Ipv4.version b q = 4) ∧
      (protocol = IPPROTO_IPV6 → Ipv6.version b q = 6)

variable {b : Memory} {e : Nat} {x y : Expected} {h : Header} {hs : List Header}

/-- A header has its version unless it is announced by a protocol number. -/
theorem HeaderAt.hasVersion {p : Nat} {sym next : Symbol} (hh : HeaderAt b e sym p h next)
    (htunnel : ∀ protocol len, sym = .payload protocol len →
      (protocol = IPPROTO_IPIP → Ipv4.version b p = 4) ∧
        (protocol = IPPROTO_IPV6 → Ipv6.version b p = 6)) : h.type.HasVersion b p := by
  cases hh with
  | ipv4 ha _ =>
    cases sym with
    | ip => exact ha
    | proto t => exact ha.2
    | payload protocol len => exact (htunnel protocol len rfl).1 ha
    | done => cases ha
  | ipv6 ha _ =>
    cases sym with
    | ip => exact ha
    | proto t => exact ha.2
    | payload protocol len => exact (htunnel protocol len rfl).2 ha
    | done => cases ha
  | _ => exact trivial

theorem hasVersion_of_path (hp : Path (Next b e) x hs y) (htunnel : TunnelVersions b e x) :
    ∀ h ∈ hs, ∀ p, h.ptr = some p → h.type.HasVersion b p := by
  induction hp with
  | nil => simp
  | @cons x y z g hs hn hp ih =>
    intro h hh p hptr
    rcases List.mem_cons.mp hh with rfl | hh
    · obtain rfl : x.2 = p := by simpa [hn.1.ptr] using hptr
      exact hn.1.hasVersion fun protocol len hsym =>
        htunnel [] protocol len x.2 (hsym ▸ .nil x)
    · exact ih (fun gs protocol len q hq => htunnel (g :: gs) protocol len q (.cons hn hq))
        h hh p hptr

/-- What an IP header on the way announces starts with one of the headers derived. -/
theorem Derives.exists_payload {gs : List Header} {protocol len q : Nat} (hd : Derives b e x hs)
    (hp : Path (Next b e) x gs (.payload protocol len, q)) :
    ∃ h next, h ∈ hs ∧ HeaderAt b e (.payload protocol len) q h next := by
  generalize hy : ((Symbol.payload protocol len, q) : Expected) = y at hp
  induction hp generalizing hs with
  | nil x =>
    subst hy
    obtain ⟨r, hp⟩ := hd
    cases hp with
    | cons hn _ => exact ⟨_, _, List.mem_cons_self, hn.1⟩
  | @cons x y z g gs hn hp ih =>
    obtain ⟨tl, rfl, htl⟩ := (derives_iff hn.1).mp hd
    rw [← hn.2] at htl
    obtain ⟨h, next, hmem, hh⟩ := ih htl hy
    exact ⟨h, next, List.mem_cons_of_mem _ hmem, hh⟩

theorem tunnelVersions_of_hasVersion (hd : Derives b e x hs)
    (hversion : ∀ h ∈ hs, ∀ p, h.ptr = some p → h.type.HasVersion b p) :
    TunnelVersions b e x := by
  intro gs protocol len q hp
  obtain ⟨h, next, hmem, hh⟩ := hd.exists_payload hp
  have hv := hversion h hmem q hh.ptr
  constructor
  · rintro rfl
    generalize hsym : Symbol.payload IPPROTO_IPIP len = sym at hh
    cases hh with
    | ipv4 _ _ => exact hv
    | ipv6 ha _ => subst hsym; cases ha
    | mpls ha _ => subst hsym; cases ha
    | _ => cases hsym
  · rintro rfl
    generalize hsym : Symbol.payload IPPROTO_IPV6 len = sym at hh
    cases hh with
    | ipv6 _ _ => exact hv
    | ipv4 ha _ => subst hsym; cases ha
    | mpls ha _ => subst hsym; cases ha
    | _ => cases hsym

/-- The entries of an accepted packet have their versions exactly if the datagrams that protocol
numbers announce in it have theirs. -/
theorem runParsePacket_versionsMatch_iff (b : Memory) {bufferBytes inBytes : Nat}
    {layer : PacketLayer} {s : ParseState}
    (hrun : runParsePacket b bufferBytes inBytes layer = .ok (.ok, s)) :
    VersionsMatch s.packet ↔ TunnelVersions b inBytes (layerStart b layer) := by
  obtain ⟨hs, hstack, hpacket, -⟩ := runParsePacket_ok_stack (le_of_runParsePacket hrun) hrun
  obtain ⟨q, hp⟩ := hstack.1
  have htable := startPacket_table b bufferBytes layer (used_of_path hp) hstack.2
  have hbuffer : s.packet.buffer = b := by
    rw [hpacket, buffer_afterHeaders]
    rfl
  rw [← hpacket] at htable
  unfold VersionsMatch
  rw [hbuffer, htable.entries]
  constructor
  · intro hmatch
    exact tunnelVersions_of_hasVersion hstack.1 fun h hh =>
      hmatch h (List.mem_append_left _ hh)
  · intro htunnel h hh p hptr
    rcases List.mem_append.mp hh with hh | hh
    · exact hasVersion_of_path hp htunnel h hh p hptr
    · rw [List.eq_of_mem_replicate hh] at hptr
      cases hptr

theorem runParsePacket_versionsMatch_iff_greMpls : ∃ s, runParsePacket (.ofList greMplsPacket)
    84 84 .layer3Ip = .ok (.ok, s) ∧
    (VersionsMatch s.packet ↔ TunnelVersions (.ofList greMplsPacket) 84 (.ip, 0)) :=
  ⟨_, rfl, @runParsePacket_versionsMatch_iff (.ofList greMplsPacket) 84 84 .layer3Ip _ rfl⟩

/-- An IPv4/IPv4/UDP packet whose inner datagram starts with version 5. -/
def badVersionIpip : List UInt8 :=
  [0x45, 0x00, 0x00, 0x30, 0x00, 0x00, 0x00, 0x00, 0x40, 0x04, 0xf9, 0x14, 0xc0, 0xa8, 0x00, 0x01,
   0xc0, 0xa8, 0x00, 0x64, 0x55, 0x00, 0x00, 0x1c, 0x00, 0x00, 0x00, 0x00, 0x40, 0x11, 0xe9, 0x1b,
   0xc0, 0xa8, 0x00, 0x01, 0xc0, 0xa8, 0x00, 0x64, 0x1f, 0x90, 0xdb, 0xcc, 0x00, 0x08, 0x00, 0x00]

theorem not_runParsePacket_versionsMatch :
    ¬ ∀ (b : Memory) (bufferBytes inBytes : Nat) (layer : PacketLayer) (s : ParseState),
      runParsePacket b bufferBytes inBytes layer = .ok (.ok, s) → VersionsMatch s.packet := by
  intro h
  have hmatch : Ipv4.version (.ofList badVersionIpip) 20 = 4 :=
    h (.ofList badVersionIpip) 48 48 .layer3Ip _ rfl ⟨.ipv4, 20, 28, some 20⟩ (by decide) 20 rfl
  exact absurd hmatch (by decide)

end QoSMos
