import QoSMos.Build.WireLaw

/-!
# What the finish functions count

The total length that a finish function stores is the sum of the bytes counted for the headers
from there on and the length of the transport header's entry. `finishHeaders_total` says when
the loop over the headers returns, and `describes_finishedHeaders_iff` what the counted bytes
have to come to for the finished fields to be right.
-/

namespace QoSMos

open Returns

/-- The bytes that a finish function counts for its header. -/
def Header.counted (h : Header) : Nat := if h.type = .ipv4 then IPV4_BYTES else h.headerBytes

/-- The total length of the first of these headers, as it is computed. -/
def countedTotal : List Header → Nat
  | [] => 0
  | [h] => h.totalBytes
  | h :: g :: inner => h.counted + countedTotal (g :: inner)

/-- From each IP header from `p` on the headers are counted up to `e`, and a UDP header reaches
to `u`. -/
def CountsTo (b : Memory) (e u : Int) : Nat → List Header → Prop
  | _, [] => True
  | p, h :: inner => ((h.type.isIp = true → p + countedTotal (h :: inner) = e) ∧
      (h.type = .udp → p + Udp.len b p = u)) ∧ CountsTo b e u (p + h.headerBytes) inner

/-- No IP datagram that starts with one of the headers is too long for its header if it ends
at `e`. -/
def FitsUpTo (e : Int) : Nat → List Header → Prop
  | _, [] => True
  | p, h :: inner => ((h.type = .ipv4 → e ≤ p + 65535) ∧
      (h.type = .ipv6 → e ≤ p + IPV6_BYTES + 65535)) ∧ FitsUpTo e (p + h.headerBytes) inner

section Finish

variable {b c : Memory} {e p : Nat} {h g : Header} {hs inner : List Header}

/-- Only a header that carries nothing stands in front of nothing. -/
theorem Stands.isTransport (hstands : Stands b e p h .none) : h.type.isTransport = true := by
  obtain ⟨type, n, total, ptr⟩ := h
  have hcarries := hstands.carries
  cases type <;> first | rfl | cases hcarries

theorem Stands.not_isTransport {t : HeaderType} (hstands : Stands b e p h t) (ht : t ≠ .none) :
    h.type.isTransport = false := by
  obtain ⟨type, n, total, ptr⟩ := h
  have hcarries := hstands.carries
  cases type <;> first | rfl | exact absurd (eq_of_beq hcarries) ht

theorem Shape.used (hshape : Shape b e p h) : h.type ≠ .none := by
  intro htype
  unfold Shape at hshape
  rwa [htype] at hshape

/-- In front of another header, a finish function adds what it counts for its own. -/
theorem Stands.finishedTotal_some {t : HeaderType} (hstands : Stands b e p h t) (ht : t ≠ .none) :
    h.finishedTotal (some g) = h.counted + g.totalBytes := by
  have hnot := hstands.not_isTransport ht
  have hshape := hstands.shape
  obtain ⟨type, n, total, ptr⟩ := h
  cases type with
  | none => exact hshape.elim
  | ipv4 | gre | mpls => rfl
  | ipv6 =>
    obtain rfl : n = IPV6_BYTES := hshape
    rfl
  | tcp | udp | icmpv4 | icmpv6 => cases hnot

theorem finishedTotal_eq_countedTotal (hstack : Stacked b e p (h :: inner)) :
    h.finishedTotal (finishedHeaders inner).head? = countedTotal (h :: inner) := by
  induction inner generalizing h p with
  | nil =>
    have htransport := hstack.1.isTransport
    obtain ⟨type, n, total, ptr⟩ := h
    cases type <;> first | rfl | cases htransport
  | cons g rest ih =>
    have hused : g.type ≠ .none := hstack.2.1.shape.used
    rw [finishedHeaders_cons, List.head?_cons, hstack.1.finishedTotal_some hused, countedTotal,
      ← ih hstack.2]
    rfl

/-- The loop over the headers returns if they are counted up to an end that they fit. -/
theorem finishHeaders_total {k : Nat} {e' u : Int} (hstack : Stacked b e p hs)
    (hcounts : CountsTo c e' u p hs) (hfits : FitsUpTo e' p hs) :
    ∃ r, finishHeaders b (hs ++ List.replicate k Header.unused) = .ok r := by
  induction hs generalizing p with
  | nil => exact ⟨_, finishHeaders_replicate k⟩
  | cons h inner ih =>
    obtain ⟨⟨d, rest⟩, hinner⟩ := ih hstack.2 hcounts.2 hfits.2
    obtain ⟨rfl, hbefore, -, -⟩ := finishHeaders_spec hstack.2.chained hinner
    suffices hturn : ∃ r, h.finish d
        (finishedHeaders inner ++ List.replicate k Header.unused).head? = .ok r by
      obtain ⟨⟨d', h'⟩, hturn⟩ := hturn
      refine ⟨(d', h' :: (finishedHeaders inner ++ List.replicate k Header.unused)), ?_⟩
      rw [List.cons_append, finishHeaders, hinner]
      simp only [bind, Except.bind, hturn]
      rfl
    have hshape : Shape d e p h :=
      hstack.1.shape.transfer (fun i hi _ => hbefore _ (by omega)) hstack.2.le rfl rfl
    have hcount := hcounts.1.1
    have hlimit := hfits.1.2
    obtain ⟨hptr, hcarries, -, -⟩ := hstack.1
    obtain ⟨type, n, total, ptr⟩ := h
    obtain rfl : ptr = some p := hptr
    cases inner with
    | nil =>
      cases type with
      | none => exact hshape.elim
      | ipv4 | ipv6 | gre | mpls => cases hcarries
      | tcp | udp | icmpv4 | icmpv6 => exact ⟨_, rfl⟩
    | cons g rest =>
      have hused : g.type ≠ .none := hstack.2.1.shape.used
      have htotal := finishedTotal_eq_countedTotal hstack.2
      generalize hnext : g.withTotal (g.finishedTotal (finishedHeaders rest).head?) = next
      have hnextType : next.type = g.type := by rw [← hnext]; rfl
      have hnextTotal : next.totalBytes = countedTotal (g :: rest) := by
        rw [← htotal, ← hnext]
        rfl
      have hinfo : headerTypeInfo next.type = .ok () := by
        rw [headerTypeInfo, require, if_pos (by rwa [hnextType])]
      rw [finishedHeaders_cons, hnext, List.cons_append, List.head?_cons]
      cases type with
      | none => exact hshape.elim
      | ipv4 =>
        simp only [Header.finish, ipv4HeaderFinish, Header.data, nextInnerData, hinfo, bind,
          Except.bind]
        exact ⟨_, rfl⟩
      | ipv6 =>
        have hn : n = IPV6_BYTES := hshape
        have hend : (p : Int) + (n + countedTotal (g :: rest) : Nat) = e' := hcount rfl
        have hlimit : e' ≤ p + IPV6_BYTES + 65535 := hlimit rfl
        have hle : next.totalBytes ≤ 0xffff := by omega
        simp only [Header.finish, ipv6HeaderFinish, Header.data, nextInnerData, hinfo, bind,
          Except.bind, require, if_pos hle]
        exact ⟨_, rfl⟩
      | gre =>
        obtain ⟨hversion, hrouting, -⟩ := hshape
        simp only [Header.finish, greHeaderFinish, Header.data, nextInnerData, hinfo, bind,
          Except.bind, greLenAt, require, if_pos hversion, if_pos hrouting]
        exact ⟨_, rfl⟩
      | mpls => exact ⟨_, rfl⟩
      | tcp | udp | icmpv4 | icmpv6 => exact ⟨_, rfl⟩

/-- What is counted from the IPv4 headers on is less than 65536 bytes off the end `e`. -/
def Near (e : Nat) : Nat → List Header → Prop
  | _, [] => True
  | p, h :: inner => (h.type = .ipv4 → p + countedTotal (h :: inner) < e + 65536) ∧
      Near e (p + h.headerBytes) inner

/-- Finished fields are right exactly if the counted bytes come to the end of the packet. -/
theorem describes_finishedHeaders_iff (hstack : Stacked b e p hs)
    (hfinished : Finished b p (finishedHeaders hs)) (hfits : FitsUpTo e p hs)
    (hnear : Near e p hs) :
    Describes b e p (finishedHeaders hs) ↔ CountsTo b e e p hs := by
  induction hs generalizing p with
  | nil => exact Iff.rfl
  | cons h inner ih =>
    have htotal := finishedTotal_eq_countedTotal hstack
    refine and_congr ?_ (ih hstack.2 hfinished.2 hfits.2 hnear.2)
    have hfields := hfinished.1
    have hlimit := hfits.1.1
    have hoff := hnear.1
    have hshape := hstack.1.shape
    rw [htotal] at hfields ⊢
    generalize hcount : countedTotal (h :: inner) = count at hfields hoff ⊢
    obtain ⟨type, n, total, ptr⟩ := h
    cases type with
    | none => exact hshape.elim
    | ipv4 =>
      obtain ⟨htot, hproto, hcheck⟩ := hfields
      have hihl : Ipv4.ihl b p * 4 = n := hshape.1
      have hlt : Ipv4.ihl b p < 16 := Nat.mod_lt _ (by omega)
      have hchecksum : ipv4Checksum b p n = 0 := by
        rw [← hihl]
        exact (ipv4Checksum_eq_zero_iff b p _ (by omega)).mpr hcheck
      have htot : Ipv4.totLen b p = count % 65536 := htot
      have hle : (e : Int) ≤ p + 65535 := hlimit rfl
      have hoff : p + count < e + 65536 := hoff rfl
      constructor
      · rintro ⟨hend, -, -⟩
        refine ⟨fun _ => ?_, fun h => by cases h⟩
        omega
      · rintro ⟨hend, -⟩
        have hend : (p : Int) + count = e := hend rfl
        exact ⟨by omega, hproto, hchecksum⟩
    | ipv6 =>
      obtain ⟨hlen, hproto⟩ := hfields
      have hlen : IPV6_BYTES + Ipv6.payloadLen b p = count := hlen
      have hn : n = IPV6_BYTES := hshape
      constructor
      · rintro ⟨hend, -⟩
        have hend : p + n + Ipv6.payloadLen b p = e := hend
        refine ⟨fun _ => ?_, fun h => by cases h⟩
        omega
      · rintro ⟨hend, -⟩
        have hend : (p : Int) + count = e := hend rfl
        refine ⟨?_, hproto⟩
        show p + n + Ipv6.payloadLen b p = e
        omega
    | gre => exact iff_of_true hfields ⟨(by cases ·), (by cases ·)⟩
    | udp =>
      constructor
      · intro hend
        have hend : p + Udp.len b p = e := hend
        exact ⟨(by cases ·), fun _ => by omega⟩
      · rintro ⟨-, hend⟩
        have hend : (p : Int) + Udp.len b p = e := hend rfl
        show p + Udp.len b p = e
        omega
    | mpls | tcp | icmpv4 | icmpv6 =>
      exact iff_of_true trivial ⟨(by cases ·), (by cases ·)⟩

end Finish

end QoSMos
