import QoSMos.Lib.WeakestPre
import QoSMos.Parser.Grammar

/-!
# What parsing does to a packet

`Packet.enter` is the effect of a header on the way in and `Packet.leave` the one on the
way out of the recursion; `Packet.afterHeaders` composes them for a whole header stack.
The weakest preconditions of the parser's primitive steps follow. The main one is that of
`appendHeader`: while the cursor agrees with the running sum in `ip_bytes`, the entry it
makes points to the cursor.
-/

namespace QoSMos

open WeakestPre

/-! ## Headers in and out -/

/-- The entry `h` is added to the table and its bytes to the running sum. -/
def Packet.push (packet : Packet) (h : Header) : Packet :=
  { packet with
    headers := packet.headers.setIfInBounds (packetHeaderCount packet) h
    ipBytes := packet.ipBytes + h.headerBytes }

/-- The pointer of a transport header is kept under its protocol. -/
def Packet.keep (packet : Packet) (h : Header) : Packet :=
  { packet with
    tcp := if h.type = .tcp then h.ptr else packet.tcp
    udp := if h.type = .udp then h.ptr else packet.udp
    icmpv4 := if h.type = .icmpv4 then h.ptr else packet.icmpv4
    icmpv6 := if h.type = .icmpv6 then h.ptr else packet.icmpv6 }

/-- A header is kept if it is a transport header, and added to the table. -/
def Packet.enter (packet : Packet) (h : Header) : Packet :=
  (packet.keep h).push h

/-- No inner header was chosen as the primary IP header. -/
def Packet.noPrimary (packet : Packet) : Prop := packet.ipv4 = none ∧ packet.ipv6 = none

instance (packet : Packet) : Decidable packet.noPrimary :=
  inferInstanceAs (Decidable (_ ∧ _))

/-- On the way out an IP header becomes the primary one unless an inner one is, and its
length becomes the packet's if `before` it nothing was counted. -/
def Packet.leave (before : Packet) (h : Header) (packet : Packet) : Packet :=
  if h.type = .ipv4 ∨ h.type = .ipv6 then
    { packet with
      ipv4 := if h.type = .ipv4 ∧ packet.noPrimary then h.ptr else packet.ipv4
      ipv6 := if h.type = .ipv6 ∧ packet.noPrimary then h.ptr else packet.ipv6
      ipBytes := if before.ipBytes = 0 then h.totalBytes else packet.ipBytes }
  else packet

/-- The packet after the headers of a stack were parsed, from the outermost one in. -/
def Packet.afterHeaders (packet : Packet) : List Header → Packet
  | [] => packet
  | h :: hs => packet.leave h ((packet.enter h).afterHeaders hs)

theorem Table.push {packet : Packet} {hs : List Header} {h : Header} (ht : Table packet hs)
    (hlt : hs.length < PACKET_MAX_HEADERS) (hused : h.type ≠ .none) :
    Table (packet.push h) (hs ++ [h]) where
  le := by simp; omega
  entries := by simpa [Packet.push, ht.count] using ht.setEntry hlt h
  used g hg := by
    rcases List.mem_append.mp hg with hg | hg
    · exact ht.used g hg
    · obtain rfl : g = h := by simpa using hg
      exact hused

theorem Table.enter {packet : Packet} {hs : List Header} {h : Header} (ht : Table packet hs)
    (hlt : hs.length < PACKET_MAX_HEADERS) (hused : h.type ≠ .none) :
    Table (packet.enter h) (hs ++ [h]) :=
  ⟨(ht.push hlt hused).le, (ht.push hlt hused).entries, (ht.push hlt hused).used⟩

/-! ## Primitive steps -/

namespace ParseState

/-- The state after the `n` bytes from `p` on were read. -/
def touched (s : ParseState) (p n : Nat) : ParseState :=
  { s with reads := s.reads ++ List.range' p n }

def onPacket (s : ParseState) (f : Packet → Packet) : ParseState :=
  { s with packet := f s.packet }

def failed (s : ParseState) (message : String) : ParseState :=
  { s with error := some message }

/-- The state after an entry was made for the header at `p`. -/
def appended (s : ParseState) (headerType : HeaderType) (headerBytes p : Nat) : ParseState :=
  { s with
    packet := s.packet.push ⟨headerType, headerBytes, 0, some p⟩
    parsed := s.parsed ++ [(headerType, some p)] }

variable (s : ParseState) (p n : Nat) (f : Packet → Packet) (m : String) (t : HeaderType)

@[simp] theorem packet_touched : (s.touched p n).packet = s.packet := rfl
@[simp] theorem error_touched : (s.touched p n).error = s.error := rfl
@[simp] theorem parsed_touched : (s.touched p n).parsed = s.parsed := rfl

@[simp] theorem packet_onPacket : (s.onPacket f).packet = f s.packet := rfl
@[simp] theorem error_onPacket : (s.onPacket f).error = s.error := rfl
@[simp] theorem reads_onPacket : (s.onPacket f).reads = s.reads := rfl
@[simp] theorem parsed_onPacket : (s.onPacket f).parsed = s.parsed := rfl

@[simp] theorem packet_failed : (s.failed m).packet = s.packet := rfl
@[simp] theorem error_failed : (s.failed m).error = some m := rfl
@[simp] theorem reads_failed : (s.failed m).reads = s.reads := rfl
@[simp] theorem parsed_failed : (s.failed m).parsed = s.parsed := rfl

@[simp] theorem packet_appended :
    (s.appended t n p).packet = s.packet.push ⟨t, n, 0, some p⟩ := rfl
@[simp] theorem error_appended : (s.appended t n p).error = s.error := rfl
@[simp] theorem reads_appended : (s.appended t n p).reads = s.reads := rfl
@[simp] theorem parsed_appended : (s.appended t n p).parsed = s.parsed ++ [(t, some p)] := rfl

end ParseState

/-- All reads so far are of the first `e` bytes. -/
def ReadsInside (e : Nat) (s : ParseState) : Prop := ∀ i ∈ s.reads, i < e

section Steps

variable {s t : ParseState} {p n e : Nat} {Q : Unit → ParseState → Prop}
  {QN : Nat → ParseState → Prop} {QR : ParseResult → ParseState → Prop}

theorem readsInside_touched :
    ReadsInside e (s.touched p n) ↔ ReadsInside e s ∧ (n = 0 ∨ p + n ≤ e) := by
  simp only [ReadsInside, ParseState.touched, List.mem_append, List.mem_range'_1]
  constructor
  · intro h
    refine ⟨fun i hi => h i (.inl hi), ?_⟩
    by_contra hout
    have := h (p + n - 1) (.inr (by omega))
    omega
  · rintro ⟨hs, hn⟩ i (hi | hi)
    · exact hs i hi
    · omega

theorem readsInside_touched_of_le (h : p + n ≤ e) :
    ReadsInside e (s.touched p n) ↔ ReadsInside e s := by
  simp [readsInside_touched, h]

theorem readsInside_congr (h : s.reads = t.reads) : ReadsInside e s ↔ ReadsInside e t := by
  simp [ReadsInside, h]

@[simp] theorem readsInside_onPacket (f : Packet → Packet) :
    ReadsInside e (s.onPacket f) ↔ ReadsInside e s := Iff.rfl

@[simp] theorem readsInside_failed (m : String) :
    ReadsInside e (s.failed m) ↔ ReadsInside e s := Iff.rfl

@[simp] theorem readsInside_appended (headerType : HeaderType) :
    ReadsInside e (s.appended headerType n p) ↔ ReadsInside e s := Iff.rfl

@[simp] theorem wp_assertThat (c : Prop) [Decidable c] (f x : String) :
    wp (assertThat c f x) Q s ↔ c ∧ Q () s := by
  by_cases hc : c <;> simp [assertThat, hc]

@[simp] theorem wp_touch : wp (touch p n) Q s ↔ Q () (s.touched p n) := by
  simp [touch, ParseState.touched]

@[simp] theorem wp_loadU8 :
    wp (loadU8 p) QN s ↔ QN (u8At s.packet.buffer p) (s.touched p 1) := by
  simp [loadU8]

@[simp] theorem wp_loadBe16 :
    wp (loadBe16 p) QN s ↔ QN (be16At s.packet.buffer p) (s.touched p 2) := by
  simp [loadBe16]

@[simp] theorem wp_modifyPacket (f : Packet → Packet) :
    wp (modifyPacket f) Q s ↔ Q () (s.onPacket f) := by
  simp [modifyPacket, ParseState.onPacket]

@[simp] theorem wp_bad (message : String) :
    wp (bad message) QR s ↔ QR .bad (s.failed message) := by
  simp [bad, ParseState.failed]

end Steps

/-- The parser stands at `p`, behind `k` headers: the running sum has reached the cursor
and everything up to `e` lies in the buffer. -/
structure Cursor (b : Memory) (e p k : Nat) (s : ParseState) : Prop where
  buffer : s.packet.buffer = b
  room : e ≤ s.packet.bufferBytes
  position : s.packet.l2HeaderBytes + s.packet.ipBytes = p
  table : ∃ hs, Table s.packet hs ∧ hs.length = k

theorem Cursor.touched {b : Memory} {e p k q n : Nat} {s : ParseState}
    (hc : Cursor b e p k s) : Cursor b e p k (s.touched q n) :=
  ⟨hc.buffer, hc.room, hc.position, hc.table⟩

theorem Cursor.le {b : Memory} {e p k : Nat} {s : ParseState} (hc : Cursor b e p k s) :
    k ≤ PACKET_MAX_HEADERS := by
  obtain ⟨hs, ht, rfl⟩ := hc.table
  exact ht.le

/-- Keeping the pointer of a transport header does not disturb the cursor. -/
theorem Cursor.keep {b : Memory} {e p k : Nat} {s t : ParseState} {h : Header}
    (hc : Cursor b e p k s) (ht : t.packet = s.packet.keep h) : Cursor b e p k t where
  buffer := by rw [ht]; exact hc.buffer
  room := by rw [ht]; exact hc.room
  position := by rw [ht]; exact hc.position
  table := by
    obtain ⟨hs, htab, hk⟩ := hc.table
    exact ⟨hs, ht ▸ ⟨htab.le, htab.entries, htab.used⟩, hk⟩

/-- Behind a header that was entered, the cursor has moved by its length. -/
theorem Cursor.enter {b : Memory} {e p k : Nat} {s t : ParseState} {h : Header}
    (hc : Cursor b e p k s) (hlt : k < PACKET_MAX_HEADERS) (hused : h.type ≠ .none)
    (ht : t.packet = s.packet.enter h) : Cursor b e (p + h.headerBytes) (k + 1) t where
  buffer := by rw [ht, ← hc.buffer]; rfl
  room := by rw [ht]; exact hc.room
  position := by rw [ht, ← hc.position]; exact (Nat.add_assoc _ _ _).symm
  table := by
    obtain ⟨hs, htab, rfl⟩ := hc.table
    exact ⟨hs ++ [h], ht ▸ htab.enter hlt hused, by simp⟩

/-- Completing the entry just made is the same as making it with its total length. -/
theorem Cursor.setTotalBytes_push {b : Memory} {e p k : Nat} {s : ParseState}
    (hc : Cursor b e p k s) (hlt : k < PACKET_MAX_HEADERS) (h : Header) (total : Nat) :
    (s.packet.push h).setTotalBytes k total = s.packet.push { h with totalBytes := total } := by
  obtain ⟨hs, ht, rfl⟩ := hc.table
  have hget : (s.packet.headers.setIfInBounds hs.length h).toList.getD hs.length
      Header.unused = h := by
    rw [ht.setEntry hlt]
    simp
  unfold Packet.setTotalBytes Packet.push
  simp only [ht.count, hget, Vector.setIfInBounds_setIfInBounds]

/-- The entry made for the header at the cursor points to the cursor. -/
theorem Cursor.wp_appendHeader {b : Memory} {e p k : Nat} {s : ParseState}
    (hc : Cursor b e p k s) (headerType : HeaderType) {headerBytes : Nat}
    (hcap : p + headerBytes ≤ e) (Q : Option Nat → ParseState → Prop) :
    wp (appendHeader headerType headerBytes p) Q s ↔
      if k = PACKET_MAX_HEADERS then Q none s
      else Q (some k) (s.appended headerType headerBytes p) := by
  obtain ⟨hs, ht, hk⟩ := hc.table
  have hle := hc.le
  have hpos := hc.position
  have hroom := hc.room
  have hcount : packetHeaderCount s.packet = k := ht.count.trans hk
  have hfit : ¬ s.packet.bufferBytes < s.packet.ipBytes + headerBytes := by omega
  by_cases hfull : k = PACKET_MAX_HEADERS
  · simp [appendHeader, packetAppendHeader, hcount, hfull]
  · have hle' : ¬ PACKET_MAX_HEADERS < k := by omega
    simp [appendHeader, packetAppendHeader, ParseState.appended, Packet.push, hcount, hle',
      hfull, hfit, hpos]

end QoSMos
