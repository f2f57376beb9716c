import QoSMos.Build.Encapsulate
import QoSMos.Build.Fields
import QoSMos.Parser.Table

/-!
# What finishing the headers does

Headers that stand behind each other still do after `packet_finish_encapsulation_headers`:
of a header only the bytes `HeaderType.Rewritten` change, `finishedHeaders` are the entries
it leaves, and `Finished` says what the rewritten fields hold. An IPv4 total length is cut to
16 bits there, and twenty bytes are counted for its header also where it has options.
-/

namespace QoSMos

open Returns

/-- The bytes of a header that its finish function stores. -/
def HeaderType.Rewritten : HeaderType → Nat → Prop
  | .ipv4, k => k = 2 ∨ k = 3 ∨ k = 9 ∨ k = 10 ∨ k = 11
  | .ipv6, k => k = 4 ∨ k = 5 ∨ k = 6
  | .gre, k => k = 2 ∨ k = 3
  | _, _ => False

/-- The bytes of a header that its shape and version depend on. -/
def HeaderType.Structural : HeaderType → Nat → Prop
  | .ipv4, k => k = 0 ∨ k = 6 ∨ k = 7
  | .ipv6, k => k = 0
  | .gre, k => k = 0 ∨ k = 1
  | .mpls, _ => True
  | .tcp, k => k = 12
  | _, _ => False

/-- What a finish function computes as `total_bytes`. -/
def Header.finishedTotal (h : Header) (next : Option Header) : Nat :=
  let inner := (next.map Header.totalBytes).getD 0
  match h.type with
  | .ipv4 => IPV4_BYTES + inner
  | .ipv6 => IPV6_BYTES + inner
  | .gre | .mpls => h.headerBytes + inner
  | _ => h.totalBytes

def Header.withTotal (h : Header) (total : Nat) : Header := { h with totalBytes := total }

/-- The table entries after the loop. -/
def finishedHeaders : List Header → List Header
  | [] => []
  | h :: inner =>
    let inner := finishedHeaders inner
    h.withTotal (h.finishedTotal inner.head?) :: inner

/-- What the finish function of the header `h` left at `p`. -/
def FinishedFields (b : Memory) (p : Nat) (h : Header) (next : HeaderType) : Prop :=
  match h.type with
  | .ipv4 => Ipv4.totLen b p = h.totalBytes % 65536 ∧ Ipv4.protocol b p = next.ipProto ∧
      ChecksumVerifies b p (Ipv4.ihl b p * 4)
  | .ipv6 => IPV6_BYTES + Ipv6.payloadLen b p = h.totalBytes ∧ Ipv6.nextHeader b p = next.ipProto
  | .gre => Gre.proto b p = next.ethProto
  | _ => True

def Finished (b : Memory) : Nat → List Header → Prop
  | _, [] => True
  | p, h :: inner => FinishedFields b p h (nextType inner) ∧ Finished b (p + h.headerBytes) inner

/-- From `p` on, `b'` has the bytes of `b` but for the rewritten ones of the headers. -/
def Kept (b b' : Memory) : Nat → List Header → Prop
  | p, [] => ∀ i, p ≤ i → b' i = b i
  | p, h :: inner =>
    (∀ k < h.headerBytes, ¬ h.type.Rewritten k → b' (p + k) = b (p + k)) ∧
      Kept b b' (p + h.headerBytes) inner

/-- What finishing the header `h` at `p` relies on. -/
structure Finishable (b : Memory) (p : Nat) (h : Header) : Prop where
  ptr : h.ptr = some p
  ipv4 : h.type = .ipv4 → IPV4_BYTES ≤ h.headerBytes ∧ IPV4_BYTES ≤ Ipv4.ihl b p * 4
  ipv6 : h.type = .ipv6 → h.headerBytes = IPV6_BYTES
  gre : h.type = .gre → Gre.len b p = h.headerBytes

/-- The headers stand behind each other from `p` on, and can be finished. -/
def Chained (b : Memory) : Nat → List Header → Prop
  | _, [] => True
  | p, h :: inner => Finishable b p h ∧ Chained b (p + h.headerBytes) inner

section Transfer

variable {b b' c : Memory} {e e' p q : Nat} {h : Header} {hs inner : List Header}
  {next : HeaderType}

@[simp] theorem type_withTotal (total : Nat) : (h.withTotal total).type = h.type := rfl
@[simp] theorem headerBytes_withTotal (total : Nat) :
    (h.withTotal total).headerBytes = h.headerBytes := rfl
@[simp] theorem ptr_withTotal (total : Nat) : (h.withTotal total).ptr = h.ptr := rfl

theorem finishedHeaders_cons : finishedHeaders (h :: inner) =
    h.withTotal (h.finishedTotal (finishedHeaders inner).head?) :: finishedHeaders inner := rfl

@[simp] theorem map_type_finishedHeaders :
    (finishedHeaders hs).map Header.type = hs.map Header.type := by
  induction hs with
  | nil => rfl
  | cons h inner ih => simp [finishedHeaders_cons, ih]

@[simp] theorem nextType_finishedHeaders : nextType (finishedHeaders hs) = nextType hs := by
  cases hs <;> rfl

@[simp] theorem length_finishedHeaders : (finishedHeaders hs).length = hs.length := by
  induction hs with
  | nil => rfl
  | cons h inner ih => simp [finishedHeaders_cons, ih]

/-- The rewritten bytes of a header are its own. -/
theorem Finishable.rewritten_lt {k : Nat} (hfin : Finishable b p h) (hk : h.type.Rewritten k) :
    k < h.headerBytes := by
  obtain ⟨-, h4, h6, hgre⟩ := hfin
  have hmin := Gre.minlen_le_len b p
  simp only [IPV4_BYTES, IPV6_BYTES, GRE_MINLEN] at h4 h6 hmin
  cases htype : h.type <;> simp only [htype, HeaderType.Rewritten] at hk
  · have := (h4 htype).1
    omega
  · have := h6 htype
    omega
  · have := hgre htype
    omega

theorem u8At_transfer (h : b' q = b p) : u8At b' q = u8At b p := congrArg UInt8.toNat h

theorem be16At_transfer (h : b' q = b p) (h' : b' (q + 1) = b (p + 1)) :
    be16At b' q = be16At b p := by
  rw [be16At, be16At, u8At_transfer h, u8At_transfer h']

theorem be32At_transfer (h : ∀ k < 4, b' (q + k) = b (p + k)) :
    be32At b' q = be32At b p := by
  have hhigh : be16At b' q = be16At b p := be16At_transfer (h 0 (by omega)) (h 1 (by omega))
  have hlow : be16At b' (q + 2) = be16At b (p + 2) :=
    be16At_transfer (h 2 (by omega)) (h 3 (by omega))
  rw [be32At, be32At, hhigh, hlow]

/-- A header can be finished at any place where these bytes were put. -/
theorem Finishable.transfer {h' : Header} (hfin : Finishable b p h)
    (hbytes : ∀ k < h.headerBytes, h.type.Structural k → b' (q + k) = b (p + k))
    (hptr : h'.ptr = some q) (htype : h'.type = h.type)
    (hheader : h'.headerBytes = h.headerBytes) : Finishable b' q h' := by
  obtain ⟨-, h4, h6, hgre⟩ := hfin
  rw [← htype] at hbytes h4 h6 hgre
  rw [← hheader] at hbytes h4 h6 hgre
  refine ⟨hptr, fun ht => ⟨(h4 ht).1, ?_⟩, h6, fun ht => ?_⟩
  · have hmin := (h4 ht).1
    simp only [IPV4_BYTES] at hmin
    have h0 : u8At b' q = u8At b p :=
      u8At_transfer (hbytes 0 (by omega) (by simp [ht, HeaderType.Structural]))
    rw [Ipv4.ihl, h0]
    exact (h4 ht).2
  · have hlen := hgre ht
    have hmin := Gre.minlen_le_len b p
    simp only [GRE_MINLEN] at hmin
    have h0 : u8At b' q = u8At b p :=
      u8At_transfer (hbytes 0 (by omega) (by simp [ht, HeaderType.Structural]))
    rw [← hlen]
    simp only [Gre.len, Gre.hasChecksum, Gre.hasRouting, Gre.hasKey, Gre.hasSeq, h0]
    rfl

/-- A header has its shape at any place where these bytes were put. -/
theorem Shape.transfer {h' : Header} (hshape : Shape b e p h)
    (hbytes : ∀ k < h.headerBytes, h.type.Structural k → b' (q + k) = b (p + k))
    (hend : q + h.headerBytes ≤ e') (htype : h'.type = h.type)
    (hheader : h'.headerBytes = h.headerBytes) : Shape b' e' q h' := by
  obtain ⟨type, n, total, ptr⟩ := h
  obtain ⟨type', n', total', ptr'⟩ := h'
  simp only at htype hheader hbytes hend
  subst htype hheader
  cases type' with
  | none => exact hshape.elim
  | ipv4 =>
    obtain ⟨hihl, hmin, hmf, hoff⟩ := hshape
    simp only [IPV4_BYTES] at hihl hmin
    have h0 : u8At b' q = u8At b p :=
      u8At_transfer (hbytes 0 (by omega) (by simp [HeaderType.Structural]))
    have h6 : be16At b' (q + 6) = be16At b (p + 6) :=
      be16At_transfer (hbytes 6 (by omega) (by simp [HeaderType.Structural]))
        (hbytes 7 (by omega) (by simp [HeaderType.Structural]))
    refine ⟨?_, hmin, ?_, ?_⟩
    · rw [Ipv4.ihl, h0]
      exact hihl
    · rw [Ipv4.fragOff, h6]
      exact hmf
    · rw [Ipv4.fragOff, h6]
      exact hoff
  | ipv6 => exact hshape
  | gre =>
    obtain ⟨hversion, hrouting, hlen⟩ := hshape
    simp only at hlen
    have hmin := Gre.minlen_le_len b p
    simp only [GRE_MINLEN] at hmin
    have h0 : u8At b' q = u8At b p :=
      u8At_transfer (hbytes 0 (by omega) (by simp [HeaderType.Structural]))
    have h1 : u8At b' (q + 1) = u8At b (p + 1) :=
      u8At_transfer (hbytes 1 (by omega) (by simp [HeaderType.Structural]))
    refine ⟨?_, ?_, ?_⟩
    · rw [Gre.version, h1]
      exact hversion
    · rw [Gre.hasRouting, h0]
      exact hrouting
    · rw [← hlen]
      simp only [Gre.len, Gre.hasChecksum, Gre.hasRouting, Gre.hasKey, Gre.hasSeq, h0]
      rfl
  | mpls =>
    obtain ⟨k, hk, hstack⟩ := hshape
    simp only [MPLS_BYTES] at hk
    have hentry (i : Nat) (hi : i ≤ k) :
        Mpls.stack b' (q + MPLS_BYTES * i) = Mpls.stack b (p + MPLS_BYTES * i) := by
      have hbyte (j : Nat) (hj : j < 4) :
          b' (q + MPLS_BYTES * i + j) = b (p + MPLS_BYTES * i + j) := by
        simp only [MPLS_BYTES, Nat.add_assoc]
        exact hbytes _ (by omega) (by simp [HeaderType.Structural])
      have hhigh : be16At b' (q + MPLS_BYTES * i) = be16At b (p + MPLS_BYTES * i) :=
        be16At_transfer (hbyte 0 (by omega)) (hbyte 1 (by omega))
      have hlow : be16At b' (q + MPLS_BYTES * i + 2) = be16At b (p + MPLS_BYTES * i + 2) :=
        be16At_transfer (hbyte 2 (by omega)) (hbyte 3 (by omega))
      rw [Mpls.stack, Mpls.stack, be32At, be32At, hhigh, hlow]
    refine ⟨k, hk, ?_, fun i hi => ?_, ?_⟩
    · simp only [MPLS_BYTES]
      omega
    · rw [hentry i (by omega)]
      exact hstack.above i hi
    · rw [hentry k le_rfl]
      exact hstack.bottom
  | tcp =>
    obtain ⟨hmin, hdoff⟩ := hshape
    simp only [TCP_BYTES] at hmin hdoff
    have h12 : u8At b' (q + 12) = u8At b (p + 12) :=
      u8At_transfer (hbytes 12 (by omega) (by simp [HeaderType.Structural]))
    refine ⟨hmin, ?_⟩
    rw [Tcp.doff, h12]
    exact hdoff
  | udp => exact hshape
  | icmpv4 => exact hshape
  | icmpv6 => exact hshape

theorem Shape.versionAt (hshape : Shape b e p h)
    (hbytes : ∀ k < h.headerBytes, h.type.Structural k → b' (q + k) = b (p + k))
    (hversion : VersionAt b p h.type) : VersionAt b' q h.type := by
  obtain ⟨type, n, total, ptr⟩ := h
  cases type with
  | ipv4 =>
    have hmin : IPV4_BYTES ≤ n := hshape.2.1
    simp only [IPV4_BYTES] at hmin
    have h0 : b' q = b p := hbytes 0 (by simp only; omega) (by simp [HeaderType.Structural])
    show u8At b' q / 16 = 4
    rw [u8At_transfer h0]
    exact hversion
  | ipv6 =>
    have hn : n = IPV6_BYTES := hshape
    simp only [IPV6_BYTES] at hn
    have h0 : b' q = b p := hbytes 0 (by simp only; omega) (by simp [HeaderType.Structural])
    show u8At b' q / 16 = 6
    rw [u8At_transfer h0]
    exact hversion
  | _ => exact trivial

/-- The headers at `p` have the bytes they depend on `d` places further in `b'`. -/
def SameShape (b b' : Memory) (d : Nat) : Nat → List Header → Prop
  | _, [] => True
  | p, h :: inner =>
    (∀ k < h.headerBytes, h.type.Structural k → b' (d + p + k) = b (p + k)) ∧
      SameShape b b' d (p + h.headerBytes) inner

theorem SameShape.of_eq {d : Nat}
    (hbytes : ∀ i, p ≤ i → i < p + headerSum hs → b' (d + i) = b i) : SameShape b b' d p hs := by
  induction hs generalizing p with
  | nil => exact trivial
  | cons h inner ih =>
    simp only [headerSum, List.map_cons, List.sum_cons] at hbytes
    refine ⟨fun k hk _ => ?_, ih fun i hi hlt => hbytes i (by omega) ?_⟩
    · rw [Nat.add_assoc]
      exact hbytes _ (by omega) (by omega)
    · simp only [headerSum] at hlt
      omega

theorem HeaderType.Structural.not_rewritten {t : HeaderType} {k : Nat} (hk : t.Structural k) :
    ¬ t.Rewritten k := by
  intro hr
  cases t <;> simp only [HeaderType.Structural, HeaderType.Rewritten] at hk hr <;> omega

theorem SameShape.of_kept (hk : Kept b b' p hs) : SameShape b b' 0 p hs := by
  induction hs generalizing p with
  | nil => exact trivial
  | cons h inner ih =>
    refine ⟨fun k hlt hs => ?_, ih hk.2⟩
    rw [Nat.zero_add]
    exact hk.1 k hlt hs.not_rewritten

theorem Stacked.versionAt {d : Nat} (hstack : Stacked b e p inner)
    (hsame : SameShape b b' d p inner) (hversion : VersionAt b p (nextType inner)) :
    VersionAt b' (d + p) (nextType inner) := by
  cases inner with
  | nil => exact trivial
  | cons g rest => exact hstack.1.shape.versionAt hsame.1 hversion

/-- Headers stand behind each other also where they were moved to. -/
theorem Stacked.moved {d : Nat} (hstack : Stacked b e p hs) (hsame : SameShape b b' d p hs)
    (hend : d + p + headerSum hs ≤ e') : Stacked b' e' (d + p) (hs.map (Header.moved d)) := by
  induction hs generalizing p with
  | nil => exact hend
  | cons h inner ih =>
    simp only [headerSum, List.map_cons, List.sum_cons] at hend
    obtain ⟨⟨hptr, hcarries, hversion, hshape⟩, htail⟩ := hstack
    have hnext : nextType (inner.map (Header.moved d)) = nextType inner := by cases inner <;> rfl
    refine ⟨⟨?_, ?_, ?_, ?_⟩, ?_⟩
    · rw [Header.moved, hptr]
      rfl
    · rw [hnext]
      exact hcarries
    · intro htype
      rw [hnext]
      show VersionAt b' (d + p + h.headerBytes) (nextType inner)
      rw [Nat.add_assoc]
      exact htail.versionAt hsame.2 (hversion htype)
    · exact hshape.transfer hsame.1 (by omega) rfl rfl
    · show Stacked b' e' (d + p + h.headerBytes) _
      rw [Nat.add_assoc]
      exact ih htail hsame.2 (by simp only [headerSum]; omega)

theorem moved_zero (h : Header) : h.moved 0 = h := by
  obtain ⟨type, n, total, ptr⟩ := h
  cases ptr <;> simp [Header.moved, offsetPtr]

theorem map_moved_zero (hs : List Header) : hs.map (Header.moved 0) = hs := by
  rw [List.map_congr_left fun h _ => moved_zero h, List.map_id']

theorem Stands.finishable (hstands : Stands b e p h next) : Finishable b p h := by
  obtain ⟨hptr, -, -, hshape⟩ := hstands
  unfold Shape at hshape
  refine ⟨hptr, fun ht => ?_, fun ht => ?_, fun ht => ?_⟩
  · rw [ht] at hshape
    exact ⟨hshape.2.1, hshape.1.symm ▸ hshape.2.1⟩
  · rwa [ht] at hshape
  · rw [ht] at hshape
    exact hshape.2.2

theorem Stacked.chained (hstack : Stacked b e p hs) : Chained b p hs := by
  induction hs generalizing p with
  | nil => exact trivial
  | cons h inner ih => exact ⟨hstack.1.finishable, ih hstack.2⟩

theorem Stacked.headerSum_le (hstack : Stacked b e p hs) : p + headerSum hs ≤ e := by
  induction hs generalizing p with
  | nil => simpa [headerSum] using hstack.le
  | cons h inner ih =>
    have hinner := ih hstack.2
    simp only [headerSum, List.map_cons, List.sum_cons] at hinner ⊢
    omega

theorem Stacked.of_append {gs : List Header} (hstack : Stacked b e p (hs ++ gs)) :
    Stacked b e (p + headerSum hs) gs := by
  induction hs generalizing p with
  | nil => simpa [headerSum] using hstack
  | cons h inner ih =>
    have hinner := ih hstack.2
    simp only [headerSum, List.map_cons, List.sum_cons, ← Nat.add_assoc] at hinner ⊢
    exact hinner

theorem Kept.of_append {gs : List Header} (hk : Kept b b' p (hs ++ gs)) :
    Kept b b' (p + headerSum hs) gs := by
  induction hs generalizing p with
  | nil => simpa [headerSum] using hk
  | cons h inner ih =>
    have hinner := ih hk.2
    simp only [headerSum, List.map_cons, List.sum_cons, ← Nat.add_assoc] at hinner ⊢
    exact hinner

/-- Two entries that differ in their total length only. -/
structure SameEntry (h h' : Header) : Prop where
  type : h'.type = h.type
  headerBytes : h'.headerBytes = h.headerBytes
  ptr : h'.ptr = h.ptr

theorem SameEntry.symm {h h' : Header} (hsame : SameEntry h h') : SameEntry h' h :=
  ⟨hsame.type.symm, hsame.headerBytes.symm, hsame.ptr.symm⟩

theorem Stacked.of_same {hs' : List Header} (hsame : List.Forall₂ SameEntry hs hs')
    (hstack : Stacked b e p hs) : Stacked b e p hs' := by
  induction hsame generalizing p with
  | nil => exact hstack
  | @cons h h' inner inner' hentry hinner ih =>
    obtain ⟨⟨hptr, hcarries, hversion, hshape⟩, htail⟩ := hstack
    have hnext : nextType inner' = nextType inner := by
      cases hinner with
      | nil => rfl
      | cons hg _ => exact hg.type
    have hend : p + h.headerBytes ≤ e := htail.le
    refine ⟨⟨hentry.ptr.trans hptr, ?_, ?_, ?_⟩, ?_⟩
    · rw [hentry.type, hnext]
      exact hcarries
    · rw [hentry.type, hentry.headerBytes, hnext]
      exact hversion
    · exact hshape.transfer (fun _ _ _ => rfl) hend hentry.type hentry.headerBytes
    · rw [hentry.headerBytes]
      exact ih htail

theorem sameEntry_finishedHeaders : List.Forall₂ SameEntry hs (finishedHeaders hs) := by
  induction hs with
  | nil => exact .nil
  | cons h inner ih => exact .cons ⟨rfl, rfl, rfl⟩ ih

/-- What was finished at `p` depends on the bytes from there on. -/
theorem FinishedFields.congr (hf : FinishedFields b p h next)
    (hbytes : ∀ i, p ≤ i → b' i = b i) : FinishedFields b' p h next := by
  obtain ⟨type, n, total, ptr⟩ := h
  have hu (k : Nat) : u8At b' (p + k) = u8At b (p + k) := u8At_transfer (hbytes _ (by omega))
  have h16 (k : Nat) : be16At b' (p + k) = be16At b (p + k) :=
    be16At_transfer (hbytes _ (by omega)) (hbytes _ (by omega))
  cases type with
  | ipv4 =>
    obtain ⟨htot, hproto, hcheck⟩ := hf
    have hihl : Ipv4.ihl b' p = Ipv4.ihl b p := by
      have h0 : u8At b' p = u8At b p := hu 0
      rw [Ipv4.ihl, Ipv4.ihl, h0]
    refine ⟨?_, ?_, ?_⟩
    · rw [Ipv4.totLen, h16]
      exact htot
    · rw [Ipv4.protocol, hu]
      exact hproto
    · rw [hihl, ChecksumVerifies.congr fun i _ => hbytes _ (by omega)]
      exact hcheck
  | ipv6 =>
    obtain ⟨hlen, hproto⟩ := hf
    refine ⟨?_, ?_⟩
    · rw [Ipv6.payloadLen, h16]
      exact hlen
    · rw [Ipv6.nextHeader, hu]
      exact hproto
  | gre =>
    have hproto : Gre.proto b p = next.ethProto := hf
    show be16At b' (p + 2) = next.ethProto
    rw [h16]
    exact hproto
  | _ => exact trivial

theorem Finished.congr (hf : Finished b p hs) (hbytes : ∀ i, p ≤ i → b' i = b i) :
    Finished b' p hs := by
  induction hs generalizing p with
  | nil => exact trivial
  | cons h inner ih =>
    exact ⟨hf.1.congr hbytes, ih hf.2 fun i hi => hbytes i (by omega)⟩

theorem Kept.congr (hk : Kept b b' p hs) (hbytes : ∀ i, p ≤ i → c i = b' i) : Kept b c p hs := by
  induction hs generalizing p with
  | nil => exact fun i hi => (hbytes i hi).trans (hk i hi)
  | cons h inner ih =>
    refine ⟨fun k hlt hnot => ?_, ih hk.2 fun i hi => hbytes i (by omega)⟩
    exact (hbytes _ (by omega)).trans (hk.1 k hlt hnot)

end Transfer

/-! ## One header -/

/-- What finishing the header `h` at `p` does. -/
structure FinishStep (b b' : Memory) (p : Nat) (h h' : Header) (nextInner : Option Header) :
    Prop where
  header : h' = h.withTotal (h.finishedTotal nextInner)
  frame : ∀ i, (∀ k, h.type.Rewritten k → i ≠ p + k) → b' i = b i
  fields : FinishedFields b' p h' (nextInner.elim .none Header.type)

section Step

variable {b b' : Memory} {e p n total : Nat} {g h h' : Header}

theorem toNat_ipProto (t : HeaderType) : (UInt8.ofNat t.ipProto).toNat = t.ipProto := by
  cases t <;> rfl

theorem ethProto_lt (t : HeaderType) : t.ethProto < 65536 := by
  cases t <;> simp [HeaderType.ethProto, ETHERTYPE_IP, ETHERTYPE_IPV6, ETHERTYPE_MPLS_UC]

theorem u8At_writeBytes_singleton {x : UInt8} : u8At (writeBytes b p [x]) p = x.toNat := by
  simpa using u8At_writeBytes (k := 0) b p [x] (by simp)

theorem ipv4HeaderFinish_step (hmin : 5 ≤ Ipv4.ihl b p)
    (hok : ipv4HeaderFinish b ⟨.ipv4, n, total, some p⟩ (some g) = .ok (b', h')) :
    FinishStep b b' p ⟨.ipv4, n, total, some p⟩ h' (some g) := by
  unfold ipv4HeaderFinish at hok
  dsimp only at hok
  obtain ⟨_, hdata, hok⟩ := bind_eq_ok_iff.mp hok
  obtain rfl := Except.ok.inj hdata
  obtain ⟨next, hnext, hok⟩ := bind_eq_ok_iff.mp hok
  obtain rfl := Except.ok.inj hnext
  obtain ⟨-, -, hok⟩ := bind_eq_ok_iff.mp hok
  obtain ⟨rfl, rfl⟩ := Prod.mk.inj (pure_eq_ok_iff.mp hok)
  generalize hw : writeBytes (writeBytes b (p + 2) (be16 (IPV4_BYTES + g.totalBytes))) (p + 9)
    [UInt8.ofNat g.type.ipProto] = w
  have hwrite (i : Nat) (h2 : i ≠ p + 2) (h3 : i ≠ p + 3) (h9 : i ≠ p + 9) : w i = b i := by
    rw [← hw, writeBytes_outside (by simp only [List.length_singleton]; omega),
      writeBytes_outside (by simp only [length_be16]; omega)]
  have hihl (c : Memory) (hc : ∀ i, i ≠ p + 10 → i ≠ p + 11 → c i = w i) :
      Ipv4.ihl c p = Ipv4.ihl b p := by
    have h0 : c p = b p :=
      (hc p (by omega) (by omega)).trans (hwrite p (by omega) (by omega) (by omega))
    rw [Ipv4.ihl, Ipv4.ihl, u8At_transfer h0]
  have hihl16 : Ipv4.ihl b p < 16 := Nat.mod_lt _ (by omega)
  generalize hfill : fillChecksum w (Ipv4.checkAt p)
    (fun b => ipv4Checksum b p (Ipv4.ihl b p * 4)) = f
  have hout (i : Nat) (h10 : i ≠ p + 10) (h11 : i ≠ p + 11) : f i = w i := by
    rw [← hfill]
    exact fillChecksum_outside h10 h11
  have htot : be16At w (p + 2) = (IPV4_BYTES + g.totalBytes) % 65536 := by
    rw [← hw, be16At_writeBytes_outside (by omega), be16At_writeBytes_be16]
  have hproto : u8At w (p + 9) = g.type.ipProto := by
    rw [← hw, u8At_writeBytes_singleton, toNat_ipProto]
  refine ⟨rfl, fun i hi => ?_, ?_, ?_, ?_⟩
  · have hne (k : Nat) (hk : HeaderType.ipv4.Rewritten k) : i ≠ p + k := hi k hk
    simp only [HeaderType.Rewritten] at hne
    rw [hout i (hne 10 (by simp)) (hne 11 (by simp)),
      hwrite i (hne 2 (by simp)) (hne 3 (by simp)) (hne 9 (by simp))]
  · rw [← htot]
    exact be16At_transfer (hout _ (by omega) (by omega)) (hout _ (by omega) (by omega))
  · rw [Ipv4.protocol, u8At_transfer (hout _ (by omega) (by omega)), hproto]
    rfl
  · rw [hihl f hout, ← hfill]
    apply checksumVerifies_fill (j := 5) (by omega) (by omega)
    intro c hc
    rw [hihl c hc]

theorem ipv6HeaderFinish_step
    (hok : ipv6HeaderFinish b ⟨.ipv6, n, total, some p⟩ (some g) = .ok (b', h')) :
    FinishStep b b' p ⟨.ipv6, n, total, some p⟩ h' (some g) := by
  unfold ipv6HeaderFinish at hok
  dsimp only at hok
  obtain ⟨_, hdata, hok⟩ := bind_eq_ok_iff.mp hok
  obtain rfl := Except.ok.inj hdata
  obtain ⟨next, hnext, hok⟩ := bind_eq_ok_iff.mp hok
  obtain rfl := Except.ok.inj hnext
  obtain ⟨_, hle, hok⟩ := bind_eq_ok_iff.mp hok
  have hle : g.totalBytes ≤ 0xffff := require_eq_ok_iff.mp hle
  obtain ⟨-, -, hok⟩ := bind_eq_ok_iff.mp hok
  obtain ⟨rfl, rfl⟩ := Prod.mk.inj (pure_eq_ok_iff.mp hok)
  refine ⟨rfl, fun i hi => ?_, ?_, ?_⟩
  · have hne (k : Nat) (hk : HeaderType.ipv6.Rewritten k) : i ≠ p + k := hi k hk
    simp only [HeaderType.Rewritten] at hne
    have h4 := hne 4 (by simp)
    have h5 := hne 5 (by simp)
    have h6 := hne 6 (by simp)
    rw [writeBytes_outside (by simp only [List.length_singleton]; omega),
      writeBytes_outside (by simp only [length_be16]; omega)]
  · rw [Ipv6.payloadLen, be16At_writeBytes_outside (by omega), be16At_writeBytes_be16,
      Nat.mod_eq_of_lt (by omega)]
  · rw [Ipv6.nextHeader, u8At_writeBytes_singleton, toNat_ipProto]
    rfl

theorem greHeaderFinish_step (hlen : Gre.len b p = n)
    (hok : greHeaderFinish b ⟨.gre, n, total, some p⟩ (some g) = .ok (b', h')) :
    FinishStep b b' p ⟨.gre, n, total, some p⟩ h' (some g) := by
  unfold greHeaderFinish at hok
  dsimp only at hok
  obtain ⟨_, hdata, hok⟩ := bind_eq_ok_iff.mp hok
  obtain rfl := Except.ok.inj hdata
  obtain ⟨len, hgre, hok⟩ := bind_eq_ok_iff.mp hok
  obtain ⟨_, -, hgre⟩ := bind_eq_ok_iff.mp hgre
  obtain ⟨_, -, hgre⟩ := bind_eq_ok_iff.mp hgre
  obtain rfl := pure_eq_ok_iff.mp hgre
  obtain ⟨next, hnext, hok⟩ := bind_eq_ok_iff.mp hok
  obtain rfl := Except.ok.inj hnext
  obtain ⟨-, -, hok⟩ := bind_eq_ok_iff.mp hok
  obtain ⟨rfl, rfl⟩ := Prod.mk.inj (pure_eq_ok_iff.mp hok)
  refine ⟨by rw [hlen]; rfl, fun i hi => ?_, ?_⟩
  · have hne (k : Nat) (hk : HeaderType.gre.Rewritten k) : i ≠ p + k := hi k hk
    simp only [HeaderType.Rewritten] at hne
    have h2 := hne 2 (by simp)
    have h3 := hne 3 (by simp)
    exact writeBytes_outside (by simp only [length_be16]; omega)
  · show be16At _ (p + 2) = g.type.ethProto
    rw [be16At_writeBytes_be16, Nat.mod_eq_of_lt (ethProto_lt _)]

/-- A header is finished for what stands behind it. -/
theorem Header.finish_step {nextInner : Option Header} (hfin : Finishable b p h)
    (hok : h.finish b nextInner = .ok (b', h')) : FinishStep b b' p h h' nextInner := by
  obtain ⟨type, n, total, ptr⟩ := h
  obtain ⟨rfl, h4, -, hgre⟩ := hfin
  cases type with
  | none | tcp | udp | icmpv4 | icmpv6 =>
    obtain ⟨rfl, rfl⟩ := Prod.mk.inj (Except.ok.inj hok)
    exact ⟨rfl, fun _ _ => rfl, trivial⟩
  | ipv4 =>
    have hihl := (h4 rfl).2
    simp only [IPV4_BYTES] at hihl
    cases nextInner with
    | none => cases hok
    | some g => exact ipv4HeaderFinish_step (by omega) hok
  | ipv6 =>
    cases nextInner with
    | none => cases hok
    | some g => exact ipv6HeaderFinish_step hok
  | gre =>
    cases nextInner with
    | none =>
      obtain ⟨_, -, hok⟩ := bind_eq_ok_iff.mp hok
      obtain ⟨_, -, hok⟩ := bind_eq_ok_iff.mp hok
      cases hok
    | some g => exact greHeaderFinish_step (hgre rfl) hok
  | mpls =>
    cases nextInner with
    | none => cases hok
    | some g =>
      obtain ⟨rfl, rfl⟩ := Prod.mk.inj (Except.ok.inj hok)
      exact ⟨rfl, fun _ _ => rfl, trivial⟩

/-! ## All of them -/

theorem finishHeaders_replicate (k : Nat) :
    finishHeaders b (List.replicate k Header.unused) =
      .ok (b, List.replicate k Header.unused) := by
  induction k with
  | zero => rfl
  | succ k ih =>
    rw [List.replicate_succ, finishHeaders, ih]
    rfl

/-- What is left of the bytes from `p` on after the headers `hs` were finished. -/
structure FinishedAs (b b' : Memory) (p : Nat) (hs : List Header) : Prop where
  before : ∀ i < p, b' i = b i
  kept : Kept b b' p hs
  finished : Finished b' p (finishedHeaders hs)

/-- What the loop hands to a turn as `next`. -/
theorem elim_head?_finishedHeaders {inner : List Header} (k : Nat) :
    ((finishedHeaders inner ++ List.replicate k Header.unused).head?).elim .none Header.type =
      nextType inner := by
  cases inner with
  | nil => cases k <;> rfl
  | cons g rest => rfl

/-- An unused entry adds nothing to the length of the header in front of it. -/
theorem finishedTotal_head? {inner : List Header} (k : Nat) :
    h.finishedTotal (finishedHeaders inner ++ List.replicate k Header.unused).head? =
      h.finishedTotal (finishedHeaders inner).head? := by
  cases inner with
  | cons g rest => rfl
  | nil => cases k <;> rfl

theorem finishHeaders_spec {hs l : List Header} {k : Nat} (hchain : Chained b p hs)
    (hok : finishHeaders b (hs ++ List.replicate k Header.unused) = .ok (b', l)) :
    l = finishedHeaders hs ++ List.replicate k Header.unused ∧ FinishedAs b b' p hs := by
  induction hs generalizing p b' l with
  | nil =>
    rw [List.nil_append, finishHeaders_replicate] at hok
    obtain ⟨rfl, rfl⟩ := Prod.mk.inj (Except.ok.inj hok)
    exact ⟨rfl, fun _ _ => rfl, fun _ _ => rfl, trivial⟩
  | cons h inner ih =>
    rw [List.cons_append, finishHeaders] at hok
    obtain ⟨⟨c, rest⟩, hinner, hok⟩ := bind_eq_ok_iff.mp hok
    obtain ⟨⟨c', h'⟩, hturn, hok⟩ := bind_eq_ok_iff.mp hok
    obtain ⟨rfl, rfl⟩ := Prod.mk.inj (pure_eq_ok_iff.mp hok)
    obtain ⟨hfin, htail⟩ := hchain
    obtain ⟨rfl, hbefore, hkept, hfinished⟩ := ih htail hinner
    -- The inner headers were finished first, without a change of this one.
    have hfin' : Finishable c p h :=
      hfin.transfer (fun i hi _ => hbefore _ (by omega)) hfin.ptr rfl rfl
    have hstep := h.finish_step hfin' hturn
    have hafter : ∀ i, p + h.headerBytes ≤ i → c' i = c i := fun i hi =>
      hstep.frame i fun j hj => by
        have := hfin.rewritten_lt hj
        omega
    refine ⟨?_, fun i hi => ?_, ⟨fun i hi hnot => ?_, hkept.congr hafter⟩, ?_, ?_⟩
    · rw [hstep.header, finishedTotal_head? k]
      rfl
    · rw [hstep.frame i fun j _ => by omega, hbefore i (by omega)]
    · rw [hstep.frame _ fun j hj heq => hnot (by rwa [Nat.add_left_cancel heq]),
        hbefore _ (by omega)]
    · have hfields := hstep.fields
      rw [elim_head?_finishedHeaders, hstep.header, finishedTotal_head? k] at hfields
      rwa [nextType_finishedHeaders]
    · exact hfinished.congr hafter

/-- Finished headers stand where they stood before, whatever their entries now say. -/
theorem FinishedAs.stacked_before {hs : List Header} (hf : FinishedAs b b' p hs)
    (hstack : Stacked b e p hs) : Stacked b' e p hs := by
  have hend : 0 + p + headerSum hs ≤ e := by
    rw [Nat.zero_add]
    exact hstack.headerSum_le
  have hmoved := hstack.moved (.of_kept hf.kept) hend
  rwa [Nat.zero_add, map_moved_zero] at hmoved

theorem FinishedAs.stacked {hs : List Header} (hf : FinishedAs b b' p hs)
    (hstack : Stacked b e p hs) : Stacked b' e p (finishedHeaders hs) :=
  (hf.stacked_before hstack).of_same sameEntry_finishedHeaders

/-- Each header reaches to the end `e`, and the lengths that no finish function computes in
full are right. -/
def Reaches (b : Memory) (e : Nat) : Nat → List Header → Prop
  | _, [] => True
  | p, h :: inner => (p + h.totalBytes = e ∧ (h.type = .ipv4 → h.totalBytes < 65536) ∧
      (h.type = .udp → p + Udp.len b p = e)) ∧ Reaches b e (p + h.headerBytes) inner

theorem LaidOut.of_finished {hs : List Header} (hstack : Stacked b e p hs)
    (hfinished : Finished b p hs) (hreaches : Reaches b e p hs) : LaidOut b e p hs := by
  induction hs generalizing p with
  | nil => exact hstack
  | cons h inner ih =>
    obtain ⟨⟨htotal, h4, hudp⟩, hrest⟩ := hreaches
    refine ⟨⟨hstack.1, htotal, ?_⟩, ih hstack.2 hfinished.2 hrest⟩
    have hshape := hstack.1.shape
    have hfields := hfinished.1
    obtain ⟨type, n, total, ptr⟩ := h
    simp only at htotal h4 hudp
    cases type with
    | ipv4 =>
      obtain ⟨htot, hproto, hcheck⟩ := hfields
      have hihl : Ipv4.ihl b p * 4 = n := hshape.1
      have hlt : Ipv4.ihl b p < 16 := Nat.mod_lt _ (by omega)
      simp only at htot
      rw [Nat.mod_eq_of_lt (h4 rfl)] at htot
      refine ⟨by omega, hproto, ?_⟩
      show ipv4Checksum b p n = 0
      rw [← hihl]
      exact (ipv4Checksum_eq_zero_iff b p _ (by omega)).mpr hcheck
    | ipv6 =>
      obtain ⟨hlen, hproto⟩ := hfields
      have hbytes : n = IPV6_BYTES := hshape
      simp only at hlen
      refine ⟨?_, hproto⟩
      show p + n + Ipv6.payloadLen b p = e
      omega
    | gre => exact hfields
    | udp => exact hudp rfl
    | _ => exact trivial

theorem toList_headersOfList {l : List Header} (hlen : l.length = PACKET_MAX_HEADERS) :
    (headersOfList l).toList = l := by
  apply List.ext_getElem
  · rw [Vector.length_toList, hlen]
  · intro i hi hi'
    simp [headersOfList, hi']

theorem Table.of_headersOfList {packet : Packet} {hs : List Header}
    (hheaders : packet.headers = headersOfList
      (hs ++ List.replicate (PACKET_MAX_HEADERS - hs.length) Header.unused))
    (hle : hs.length ≤ PACKET_MAX_HEADERS) (hused : ∀ h ∈ hs, h.type ≠ .none) :
    Table packet hs := by
  refine ⟨hle, ?_, hused⟩
  rw [hheaders, toList_headersOfList]
  simp only [List.length_append, List.length_replicate]
  omega

/-- The table and the bytes after `packet_finish_encapsulation_headers`. -/
theorem packetFinishEncapsulationHeaders_spec {packet packet' : FullPacket} {hs : List Header}
    (ht : Table packet.toPacket hs) (hchain : Chained packet.buffer p hs)
    (hok : packetFinishEncapsulationHeaders packet = .ok packet') :
    Table packet'.toPacket (finishedHeaders hs) ∧
      FinishedAs packet.buffer packet'.buffer p hs ∧
      packet' = { packet with buffer := packet'.buffer, headers := packet'.headers } := by
  obtain ⟨⟨buffer, l⟩, hloop, hok⟩ := bind_eq_ok_iff.mp hok
  rw [ht.entries] at hloop
  obtain ⟨rfl, hfinished⟩ := finishHeaders_spec hchain hloop
  obtain rfl := pure_eq_ok_iff.mp hok
  refine ⟨Table.of_headersOfList ?_ ?_ ?_, hfinished, rfl⟩
  · rw [length_finishedHeaders]
  · rw [length_finishedHeaders]
    exact ht.le
  · intro h hh
    have htype : h.type ∈ (finishedHeaders hs).map Header.type := List.mem_map_of_mem hh
    rw [map_type_finishedHeaders] at htype
    obtain ⟨g, hg, hgh⟩ := List.mem_map.mp htype
    rw [← hgh]
    exact ht.used g hg

/-- What of the headers before they are finished makes them reach to the end `e`. -/
structure WillReach (b : Memory) (e : Nat) (hs : List Header) : Prop where
  ipv4 : ∀ h ∈ hs, h.type = .ipv4 → h.headerBytes = IPV4_BYTES
  transport : ∀ h ∈ hs, h.type.isTransport = true → ∀ q, h.ptr = some q → q + h.totalBytes = e
  fits : ∀ h ∈ hs, h.type = .ipv4 → ∀ q, h.ptr = some q → e < q + 65536
  udp : ∀ h ∈ hs, h.type = .udp → ∀ q, h.ptr = some q → q + Udp.len b q = e

theorem WillReach.tail {inner : List Header} (hw : WillReach b e (h :: inner)) :
    WillReach b e inner :=
  ⟨fun g hg => hw.ipv4 g (List.mem_cons_of_mem _ hg),
    fun g hg => hw.transport g (List.mem_cons_of_mem _ hg),
    fun g hg => hw.fits g (List.mem_cons_of_mem _ hg),
    fun g hg => hw.udp g (List.mem_cons_of_mem _ hg)⟩

theorem WillReach.reaches {c : Memory} {hs : List Header} (hw : WillReach b e hs)
    (hstack : Stacked c e p hs) : Reaches b e p (finishedHeaders hs) := by
  induction hs generalizing p with
  | nil => exact trivial
  | cons h inner ih =>
    have hrest := ih hw.tail hstack.2
    obtain ⟨⟨hptr, hcarries, -, hshape⟩, -⟩ := hstack
    have hself : h ∈ h :: inner := List.mem_cons_self
    have htotal : p + h.finishedTotal (finishedHeaders inner).head? = e := by
      cases inner with
      | nil =>
        have htransport : h.type.isTransport = true := by
          obtain ⟨type, n, total, ptr⟩ := h
          cases type with
          | none | ipv4 | ipv6 | gre | mpls => cases hcarries
          | tcp | udp | icmpv4 | icmpv6 => rfl
        have htotal := hw.transport h hself htransport p hptr
        obtain ⟨type, n, total, ptr⟩ := h
        cases type with
        | none | ipv4 | ipv6 | gre | mpls => cases htransport
        | tcp | udp | icmpv4 | icmpv6 => exact htotal
      | cons g rest =>
        have hnext := hrest.1.1
        have h4 := hw.ipv4 h hself
        obtain ⟨type, n, total, ptr⟩ := h
        simp only [finishedHeaders_cons, List.head?_cons] at hnext ⊢
        generalize g.withTotal (g.finishedTotal (finishedHeaders rest).head?) = next at hnext ⊢
        cases type with
        | none => exact hshape.elim
        | ipv4 =>
          have hn : n = IPV4_BYTES := h4 rfl
          simp only [Header.finishedTotal, Option.map_some, Option.getD_some]
          omega
        | ipv6 =>
          have hn : n = IPV6_BYTES := hshape
          simp only [Header.finishedTotal, Option.map_some, Option.getD_some]
          omega
        | gre | mpls =>
          simp only [Header.finishedTotal, Option.map_some, Option.getD_some]
          omega
        | tcp | udp | icmpv4 | icmpv6 =>
          exact hw.transport _ hself rfl p hptr
    rw [finishedHeaders_cons]
    refine ⟨⟨htotal, fun h4 => ?_, fun hudp => hw.udp h hself hudp p hptr⟩, hrest⟩
    have hfits := hw.fits h hself h4 p hptr
    simp only [Header.withTotal]
    omega

end Step

end QoSMos
