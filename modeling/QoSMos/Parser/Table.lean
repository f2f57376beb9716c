import QoSMos.Parser.Run

/-!
# The header table after parsing

Facts about the header stack of an accepted packet and about the packet that
`Packet.afterHeaders` makes of it: where the headers stand, which pointers are kept, and
what is left in `ip_bytes` after the running sum was overwritten on the way out.
-/

namespace QoSMos

open LabelledPath

def HeaderType.isTransport : HeaderType → Bool
  | .tcp | .udp | .icmpv4 | .icmpv6 => true
  | _ => false

def HeaderType.isIp : HeaderType → Bool
  | .ipv4 | .ipv6 => true
  | _ => false

/-- The bytes of all the headers together. -/
def headerSum (hs : List Header) : Nat := (hs.map Header.headerBytes).sum

/-! ## The stack -/

section Stack

variable {b : Memory} {e : Nat} {x y : Expected} {h : Header} {hs : List Header}

theorem HeaderAt.used {p : Nat} {sym next : Symbol} (hh : HeaderAt b e sym p h next) :
    h.type ≠ .none := by
  cases hh <;> simp

theorem HeaderAt.isTransport_iff {p : Nat} {sym next : Symbol}
    (hh : HeaderAt b e sym p h next) : h.type.isTransport = true ↔ next = .done := by
  cases hh <;> simp [HeaderType.isTransport]

/-- The header behind a GRE header or MPLS stack, or at the start, is a network header. -/
theorem HeaderAt.isIp_or_mpls {p : Nat} {sym next : Symbol} (hh : HeaderAt b e sym p h next)
    (hsym : ∀ protocol len, sym ≠ .payload protocol len) :
    h.type.isIp = true ∨ h.type = .mpls ∧ next = .ip ∧ ∃ t, sym = .proto t := by
  cases hh with
  | ipv4 _ _ | ipv6 _ _ => exact .inl rfl
  | mpls ha _ => cases sym <;> simp_all [Symbol.Admits]
  | _ => exact absurd rfl (hsym _ _)

/-- What is expected behind each kind of header. -/
theorem HeaderAt.next_cases {p : Nat} {sym next : Symbol} (hh : HeaderAt b e sym p h next) :
    h.type.isIp = true ∧ h.headerBytes ≤ h.totalBytes ∧
      (∃ protocol, next = .payload protocol (h.totalBytes - h.headerBytes)) ∨
    h.type = .mpls ∧ h.totalBytes = e - p ∧ next = .ip ∨
    h.type = .gre ∧ (∃ t, next = .proto t) ∨
    h.type.isTransport = true ∧ next = .done := by
  cases hh with
  | ipv4 _ hi => exact .inl ⟨rfl, hi.header, _, rfl⟩
  | ipv6 _ _ => exact .inl ⟨rfl, Nat.le_add_right _ _, Ipv6.nextHeader b p, by simp⟩
  | mpls _ _ => exact .inr (.inl ⟨rfl, rfl, rfl⟩)
  | gre _ _ _ => exact .inr (.inr (.inl ⟨rfl, _, rfl⟩))
  | tcp _ _ | udp _ _ | icmpv4 _ | icmpv6 _ => exact .inr (.inr (.inr ⟨rfl, rfl⟩))

theorem HeaderAt.totalBytes_mpls {p : Nat} {sym next : Symbol} (hh : HeaderAt b e sym p h next)
    (hmpls : h.type = .mpls) : h.totalBytes = e - p := by
  cases hh <;> first | rfl | cases hmpls

theorem HeaderAt.isIp_or_totalBytes {p protocol len : Nat} {next : Symbol}
    (hh : HeaderAt b e (.payload protocol len) p h next) :
    h.type.isIp = true ∨ h.type ≠ .mpls ∧ h.totalBytes = len := by
  cases hh with
  | ipv4 _ _ | ipv6 _ _ => exact .inl rfl
  | mpls ha _ => cases ha
  | gre _ _ _ | tcp _ _ | udp _ _ | icmpv4 _ | icmpv6 _ => exact .inr ⟨by simp, rfl⟩

/-- What a header claims to hold was captured. -/
theorem HeaderAt.totalBytes_le {p : Nat} {sym next : Symbol} (hh : HeaderAt b e sym p h next)
    (hfit : ∀ protocol len, sym = .payload protocol len → p + len ≤ e) :
    p + h.totalBytes ≤ e := by
  cases hh with
  | ipv4 _ hi => exact hi.available
  | ipv6 _ hi => exact hi
  | mpls _ hk =>
    have := hk.available
    show p + (e - p) ≤ e
    omega
  | _ => exact hfit _ _ rfl

/-- The payload expected at a position was captured. -/
def Expected.Fits (e : Nat) (x : Expected) : Prop :=
  ∀ protocol len, x.1 = .payload protocol len → x.2 + len ≤ e

theorem Next.fits (hn : Next b e x h y) (hx : x.Fits e) : y.Fits e := by
  intro protocol len hy
  rw [hn.2]
  exact (hn.1.captured hx).2.2 protocol len hy

theorem layerStart_fits (b : Memory) (layer : PacketLayer) : (layerStart b layer).Fits e := by
  cases layer <;> simp [layerStart, Expected.Fits]

theorem used_of_path (hp : Path (Next b e) x hs y) : ∀ h ∈ hs, h.type ≠ .none := by
  induction hp with
  | nil => simp
  | cons hn _ ih =>
    rintro g (_ | ⟨_, hg⟩)
    · exact hn.1.used
    · exact ih g hg

theorem ptr_of_path (hp : Path (Next b e) x hs y) : ∀ h ∈ hs, ∃ p, h.ptr = some p := by
  induction hp with
  | nil => simp
  | cons hn _ ih =>
    rintro g (_ | ⟨_, hg⟩)
    · exact ⟨_, hn.1.ptr⟩
    · exact ih g hg

theorem head_of_path (hp : Path (Next b e) x hs y) (hne : hs ≠ []) :
    ∃ h tl next, hs = h :: tl ∧ HeaderAt b e x.1 x.2 h next := by
  cases hp with
  | nil => contradiction
  | cons hn _ => exact ⟨_, _, _, rfl, hn.1⟩

theorem headerBytes_pos_of_path (hp : Path (Next b e) x hs y) (hx : x.Fits e) :
    ∀ h ∈ hs, 0 < h.headerBytes := by
  induction hp with
  | nil => simp
  | cons hn _ ih =>
    rintro g (_ | ⟨_, hg⟩)
    · exact (hn.1.captured hx).1
    · exact ih (hn.fits hx) g hg

/-- A path moves the position by the bytes of its headers. -/
theorem position_of_path (hp : Path (Next b e) x hs y) : y.2 = x.2 + headerSum hs := by
  induction hp with
  | nil => simp [headerSum]
  | cons hn _ ih =>
    rw [ih, hn.2]
    simp [headerSum, Nat.add_assoc]

theorem position_le_of_path (hp : Path (Next b e) x hs y) (hx : x.Fits e) (hne : hs ≠ []) :
    y.2 ≤ e := by
  induction hp with
  | nil => contradiction
  | @cons x y z h hs hn hp ih =>
    cases hp with
    | nil => rw [hn.2]; exact (hn.1.captured hx).2.1
    | cons _ _ => exact ih (hn.fits hx) (by simp)

/-- Every header starts where the one outside it ends. -/
theorem isChain_of_path (hp : Path (Next b e) x hs y) :
    hs.IsChain fun h g => ∃ p, h.ptr = some p ∧ g.ptr = some (p + h.headerBytes) := by
  induction hp with
  | nil => exact .nil
  | @cons x y z h hs hn hp ih =>
    cases hp with
    | nil => exact .singleton _
    | cons hm _ =>
      refine .cons_cons ⟨x.2, hn.1.ptr, ?_⟩ ih
      rw [hm.1.ptr, hn.2]

theorem not_isTransport_of_path (hp : Path (Next b e) x hs y) (hy : y.1 ≠ .done) :
    ∀ h ∈ hs, h.type.isTransport = false := by
  induction hp with
  | nil => simp
  | @cons x y z h hs hn hp ih =>
    rintro g (_ | ⟨_, hg⟩)
    · by_contra hneg
      have hdone : y.1 = .done := hn.1.isTransport_iff.mp (by simpa using hneg)
      cases hp with
      | nil => exact hy hdone
      | cons hm _ => exact hm.1.ne_done hdone
    · exact ih hy g hg

/-- A derivation ends with its only transport header. -/
theorem exists_last_of_derives (hd : Derives b e x hs) (hx : x.1 ≠ .done) :
    ∃ init last y q, hs = init ++ [last] ∧ Path (Next b e) x init y ∧
      HeaderAt b e y.1 y.2 last .done ∧ q = y.2 + last.headerBytes ∧
      Path (Next b e) x hs (.done, q) ∧ ∀ h ∈ init, h.type.isTransport = false := by
  obtain ⟨q, hp⟩ := hd
  rcases List.eq_nil_or_concat hs with rfl | ⟨init, last, rfl⟩
  · exact absurd (congrArg Prod.fst (Path.nil_iff.mp hp)).symm hx
  · rw [List.concat_eq_append] at *
    obtain ⟨y, hinit, hn⟩ := Path.snoc_iff.mp hp
    exact ⟨init, last, y, q, rfl, hinit, hn.1, hn.2, hp,
      not_isTransport_of_path hinit hn.1.ne_done⟩

/-- A derivation from the start of a packet holds an IP header. -/
theorem exists_isIp_of_derives (hd : Derives b e x hs) (hx : x.1 ≠ .done)
    (hsym : ∀ protocol len, x.1 ≠ .payload protocol len) : ∃ h ∈ hs, h.type.isIp = true := by
  obtain ⟨q, hp⟩ := hd
  cases hp with
  | nil => exact absurd rfl hx
  | @cons _ y _ h hs hn hp =>
    rcases hn.1.isIp_or_mpls hsym with hip | ⟨_, hnext, _⟩
    · exact ⟨h, by simp, hip⟩
    · cases hp with
      | nil => cases hnext
      | @cons _ _ _ g _ hm _ =>
        rcases hm.1.isIp_or_mpls (by simp [hnext]) with hip | ⟨_, _, t, ht⟩
        · exact ⟨g, by simp, hip⟩
        · rw [hnext] at ht
          cases ht

/-- The innermost of the elements with a property. -/
theorem exists_innermost {P : Header → Prop} (hex : ∃ h ∈ hs, P h) :
    ∃ outer h inner, hs = outer ++ h :: inner ∧ P h ∧ ∀ g ∈ inner, ¬ P g := by
  induction hs with
  | nil => simp at hex
  | cons a hs ih =>
    by_cases htail : ∃ h ∈ hs, P h
    · obtain ⟨outer, h, inner, rfl, hP, hinner⟩ := ih htail
      exact ⟨a :: outer, h, inner, rfl, hP, hinner⟩
    · refine ⟨[], a, hs, rfl, ?_, fun g hg hPg => htail ⟨g, hg, hPg⟩⟩
      obtain ⟨h, hmem, hP⟩ := hex
      rcases List.mem_cons.mp hmem with rfl | hmem
      · exact hP
      · exact absurd ⟨h, hmem, hP⟩ htail

end Stack

/-! ## The packet -/

section AfterHeaders

variable {packet before : Packet} {h ip last : Header} {hs pre init outer inner : List Header}

theorem headers_leave : (before.leave h packet).headers = packet.headers := by
  unfold Packet.leave
  split_ifs <;> rfl

theorem l2HeaderBytes_afterHeaders :
    (packet.afterHeaders hs).l2HeaderBytes = packet.l2HeaderBytes := by
  induction hs generalizing packet with
  | nil => rfl
  | cons h hs ih =>
    have hleave : (packet.afterHeaders (h :: hs)).l2HeaderBytes =
        ((packet.enter h).afterHeaders hs).l2HeaderBytes := by
      rw [Packet.afterHeaders, Packet.leave]
      split_ifs <;> rfl
    exact hleave.trans ih

theorem buffer_afterHeaders : (packet.afterHeaders hs).buffer = packet.buffer := by
  induction hs generalizing packet with
  | nil => rfl
  | cons h hs ih =>
    have hleave : (packet.afterHeaders (h :: hs)).buffer =
        ((packet.enter h).afterHeaders hs).buffer := by
      rw [Packet.afterHeaders, Packet.leave]
      split_ifs <;> rfl
    exact hleave.trans ih

theorem Table.afterHeaders (ht : Table packet pre) (hused : ∀ h ∈ hs, h.type ≠ .none)
    (hlen : pre.length + hs.length ≤ PACKET_MAX_HEADERS) :
    Table (packet.afterHeaders hs) (pre ++ hs) := by
  induction hs generalizing packet pre with
  | nil => simpa [Packet.afterHeaders] using ht
  | cons h hs ih =>
    simp only [List.length_cons] at hlen
    have htail := ih (ht.enter (by omega) (hused h (by simp)))
      (fun g hg => hused g (by simp [hg])) (by simp; omega)
    rw [List.append_assoc] at htail
    have hheaders : (packet.afterHeaders (h :: hs)).headers =
        ((packet.enter h).afterHeaders hs).headers := headers_leave
    exact ⟨htail.le, hheaders ▸ htail.entries, htail.used⟩

/-- The pointers to transport headers. -/
def Packet.transports (packet : Packet) : List (Option Nat) :=
  [packet.tcp, packet.udp, packet.icmpv4, packet.icmpv6]

theorem transports_leave : (before.leave h packet).transports = packet.transports := by
  unfold Packet.leave
  split_ifs <;> rfl

theorem transports_enter (hh : h.type.isTransport = false) :
    (packet.enter h).transports = packet.transports := by
  have htcp : h.type ≠ .tcp := by rintro ht; simp [ht, HeaderType.isTransport] at hh
  have hudp : h.type ≠ .udp := by rintro ht; simp [ht, HeaderType.isTransport] at hh
  have hicmpv4 : h.type ≠ .icmpv4 := by rintro ht; simp [ht, HeaderType.isTransport] at hh
  have hicmpv6 : h.type ≠ .icmpv6 := by rintro ht; simp [ht, HeaderType.isTransport] at hh
  simp [Packet.transports, Packet.enter, Packet.push, Packet.keep, htcp, hudp, hicmpv4, hicmpv6]

theorem transports_enter_congr {packet' : Packet} (ht : packet.transports = packet'.transports) :
    (packet.enter h).transports = (packet'.enter h).transports := by
  simp only [Packet.transports, List.cons.injEq] at ht
  simp [Packet.transports, Packet.enter, Packet.push, Packet.keep, ht]

/-- Only the transport header at the end of a stack is kept. -/
theorem transports_afterHeaders (hinit : ∀ h ∈ init, h.type.isTransport = false) :
    (packet.afterHeaders (init ++ [last])).transports = (packet.enter last).transports := by
  induction init generalizing packet with
  | nil => simp [Packet.afterHeaders, transports_leave]
  | cons h init ih =>
    rw [List.cons_append, Packet.afterHeaders, transports_leave,
      ih fun g hg => hinit g (by simp [hg])]
    exact transports_enter_congr (transports_enter (hinit h (by simp)))

theorem leave_of_not_isIp (hh : h.type.isIp = false) :
    before.leave h packet = packet := by
  have h4 : h.type ≠ .ipv4 := by rintro ht; simp [ht, HeaderType.isIp] at hh
  have h6 : h.type ≠ .ipv6 := by rintro ht; simp [ht, HeaderType.isIp] at hh
  simp [Packet.leave, h4, h6]

theorem primary_leave (hset : ¬ packet.noPrimary) :
    (before.leave h packet).ipv4 = packet.ipv4 ∧ (before.leave h packet).ipv6 = packet.ipv6 := by
  by_cases hor : h.type = .ipv4 ∨ h.type = .ipv6 <;> simp [Packet.leave, hor, hset]

/-- Headers other than IP headers leave the primary IP header as it is. -/
theorem primary_afterHeaders_inner (packet : Packet)
    (hinner : ∀ h ∈ inner, ¬ h.type.isIp = true) :
    (packet.afterHeaders inner).ipv4 = packet.ipv4 ∧
      (packet.afterHeaders inner).ipv6 = packet.ipv6 := by
  induction inner generalizing packet with
  | nil => exact ⟨rfl, rfl⟩
  | cons h inner ih =>
    rw [Packet.afterHeaders, leave_of_not_isIp (by simpa using hinner h (by simp))]
    exact ih (packet.enter h) fun g hg => hinner g (by simp [hg])

/-- The primary IP header of the packet after a stack is the innermost one. -/
theorem primary_afterHeaders (packet : Packet) (outer : List Header) {q : Nat}
    (hnone : packet.noPrimary) (hq : ip.ptr = some q)
    (hip : ip.type.isIp = true) (hinner : ∀ h ∈ inner, ¬ h.type.isIp = true) :
    (packet.afterHeaders (outer ++ ip :: inner)).ipv4 =
        (if ip.type = .ipv4 then some q else none) ∧
      (packet.afterHeaders (outer ++ ip :: inner)).ipv6 =
        (if ip.type = .ipv6 then some q else none) := by
  induction outer generalizing packet with
  | nil =>
    obtain ⟨h4, h6⟩ := primary_afterHeaders_inner (packet.enter ip) hinner
    have hnone' : ((packet.enter ip).afterHeaders inner).noPrimary :=
      ⟨h4.trans hnone.1, h6.trans hnone.2⟩
    have hor : ip.type = .ipv4 ∨ ip.type = .ipv6 := by
      cases ht : ip.type <;> simp [ht, HeaderType.isIp] at hip ⊢
    rw [List.nil_append, Packet.afterHeaders, Packet.leave, if_pos hor]
    simp [hnone', hq, hnone'.1, hnone'.2]
  | cons h outer ih =>
    obtain ⟨h4, h6⟩ := ih (packet.enter h) hnone
    have hset : ¬ ((packet.enter h).afterHeaders (outer ++ ip :: inner)).noPrimary := by
      rintro ⟨n4, n6⟩
      rw [h4] at n4
      rw [h6] at n6
      cases ht : ip.type <;> simp_all [HeaderType.isIp]
    rw [List.cons_append, Packet.afterHeaders]
    exact ⟨(primary_leave hset).1.trans h4, (primary_leave hset).2.trans h6⟩

/-- With something counted before, the running sum is never overwritten. -/
theorem ipBytes_afterHeaders_of_pos (packet : Packet) (hs : List Header)
    (hpos : 0 < packet.ipBytes) :
    (packet.afterHeaders hs).ipBytes = packet.ipBytes + headerSum hs := by
  induction hs generalizing packet with
  | nil => rfl
  | cons h hs ih =>
    have hleave : (packet.afterHeaders (h :: hs)).ipBytes =
        ((packet.enter h).afterHeaders hs).ipBytes := by
      by_cases hor : h.type = .ipv4 ∨ h.type = .ipv6 <;>
        simp [Packet.afterHeaders, Packet.leave, hor, Nat.ne_of_gt hpos]
    have henter : (packet.enter h).ipBytes = packet.ipBytes + h.headerBytes := rfl
    rw [hleave, ih (packet.enter h) (by omega), henter]
    simp [headerSum, Nat.add_assoc]

/-- The running sum of a fresh packet is overwritten if the outermost header is an IP one. -/
theorem ipBytes_afterHeaders (hzero : packet.ipBytes = 0) (hpos : 0 < h.headerBytes) :
    (packet.afterHeaders (h :: hs)).ipBytes =
      if h.type.isIp then h.totalBytes else headerSum (h :: hs) := by
  have henter : (packet.enter h).ipBytes = h.headerBytes := by
    show packet.ipBytes + h.headerBytes = _
    omega
  have hsum := ipBytes_afterHeaders_of_pos (packet.enter h) hs (by omega)
  cases hip : h.type.isIp
  · rw [Packet.afterHeaders, leave_of_not_isIp hip, hsum, henter]
    simp [headerSum]
  · have hor : h.type = .ipv4 ∨ h.type = .ipv6 := by
      cases ht : h.type <;> simp [ht, HeaderType.isIp] at hip ⊢
    simp [Packet.afterHeaders, Packet.leave, hor, hzero]

end AfterHeaders

end QoSMos
