import QoSMos.Lib.Fair
import QoSMos.Wire.Connection

/-!
# Messages over the connection

The reader gets the messages that the writer has sent, however the two schedules split them up, and
a header with a bad length is refused before anything of its message is read.
-/

namespace QoSMos.Wire

open Fair

/-! ## Schedules -/

/-- The call moves at least one byte. -/
def Outcome.isProgress : Outcome → Bool
  | .moved (_ + 1) => true
  | _ => false

/-- The system calls of the writer: an error is `EINTR` or `EAGAIN`, and again and again a byte is
written. -/
structure Writes (σ : Nat → Outcome) : Prop where
  retried : ∀ i, σ i ≠ .failed .other
  often : Often Outcome.isProgress σ

/-- The system calls of the reader, which does not come to the end of the file. -/
structure Reads (σ : Nat → Outcome) : Prop extends Writes σ where
  notEnd : ∀ i, σ i ≠ .moved 0

section Schedules

variable {schedule schedule' : List Outcome} {n m : Nat}

/-- What a loop over `n` bytes leaves of a schedule. -/
structure Uses (schedule schedule' : List Outcome) (n : Nat) : Prop where
  suffix : schedule' <:+ schedule
  count : schedule.countP Outcome.isProgress ≤ schedule'.countP Outcome.isProgress + n

theorem Uses.refl (schedule : List Outcome) : Uses schedule schedule 0 :=
  ⟨List.suffix_refl _, le_rfl⟩

theorem Uses.trans {schedule'' : List Outcome} (h : Uses schedule schedule' n)
    (h' : Uses schedule' schedule'' m) : Uses schedule schedule'' (n + m) := by
  have hcount := h.count
  have hcount' := h'.count
  exact ⟨h'.suffix.trans h.suffix, by omega⟩

/-- A retried call uses no progress. -/
theorem Uses.retry {outcome : Outcome} (houtcome : outcome.isProgress = false)
    (h : Uses schedule schedule' n) : Uses (outcome :: schedule) schedule' n := by
  refine ⟨h.suffix.trans (List.suffix_cons ..), ?_⟩
  rw [List.countP_cons_of_neg (by simp [houtcome])]
  exact h.count

/-- A call that moves bytes uses progress for one. -/
theorem Uses.move {outcome : Outcome} (hm : 1 ≤ m) (h : Uses schedule schedule' n) :
    Uses (outcome :: schedule) schedule' (m + n) := by
  have hcount := h.count
  have hcons : (outcome :: schedule).countP Outcome.isProgress ≤
      schedule.countP Outcome.isProgress + 1 := by
    rw [List.countP_cons]
    split <;> omega
  exact ⟨h.suffix.trans (List.suffix_cons ..), by omega⟩

end Schedules

/-! ## The loops -/

section Loops

variable {schedule : List Outcome} {rest : List UInt8} {space : Nat}

/-- Writing sends all the bytes. -/
theorem writeBytes_ok (sent buf : List UInt8) (h : .failed .other ∉ schedule)
    (hcount : buf.length ≤ schedule.countP Outcome.isProgress) :
    ∃ schedule', writeBytes schedule sent buf = (.ok, ⟨schedule', sent ++ buf⟩) ∧
      Uses schedule schedule' buf.length := by
  induction schedule generalizing sent buf with
  | nil =>
    cases buf with
    | nil => exact ⟨[], by simp [writeBytes], .refl _⟩
    | cons byte buf => simp at hcount
  | cons outcome schedule ih =>
    cases buf with
    | nil => exact ⟨_, by simp [writeBytes], .refl _⟩
    | cons byte buf =>
      have hrest : .failed .other ∉ schedule := fun hmem => h (List.mem_cons_of_mem _ hmem)
      cases outcome with
      | failed errno =>
        have hretry : errno = .EINTR ∨ errno = .EAGAIN := by
          cases errno with
          | EINTR => exact .inl rfl
          | EAGAIN => exact .inr rfl
          | other => simp at h
        obtain ⟨schedule', hwrite, huses⟩ := ih sent (byte :: buf) hrest
          (by simpa [Outcome.isProgress] using hcount)
        exact ⟨schedule', by simpa [writeBytes, hretry] using hwrite, huses.retry rfl⟩
      | moved count =>
        cases count with
        | zero =>
          obtain ⟨schedule', hwrite, huses⟩ := ih sent (byte :: buf) hrest
            (by simpa [Outcome.isProgress] using hcount)
          exact ⟨schedule', by simpa [writeBytes] using hwrite, huses.retry rfl⟩
        | succ count =>
          have hlength : min (count + 1) (buf.length + 1) + (buf.drop count).length =
              buf.length + 1 := by
            rw [List.length_drop]
            omega
          rw [List.countP_cons_of_pos rfl, List.length_cons] at hcount
          obtain ⟨schedule', hwrite, huses⟩ := ih
            (sent ++ (byte :: buf).take (count + 1)) (buf.drop count) hrest
            (by rw [List.length_drop]; omega)
          refine ⟨schedule', ?_, ?_⟩
          · simpa [writeBytes] using hwrite
          · rw [List.length_cons, ← hlength]
            exact huses.move (by omega)

/-- Reading the bytes of a message that are next stores them all, if there is the space. -/
theorem readBytes_ok (bytes : List UInt8) (memory : Memory) (offset : Nat)
    (h : .failed .other ∉ schedule ∧ .moved 0 ∉ schedule)
    (hspace : offset + bytes.length ≤ space)
    (hcount : bytes.length ≤ schedule.countP Outcome.isProgress) :
    ∃ schedule', readBytes space schedule (bytes ++ rest) memory offset bytes.length =
        (.ok, ⟨schedule', rest, QoSMos.writeBytes memory offset bytes⟩) ∧
      Uses schedule schedule' bytes.length := by
  induction schedule generalizing bytes memory offset with
  | nil =>
    cases bytes with
    | nil => exact ⟨[], by simp [readBytes], .refl _⟩
    | cons byte bytes => simp at hcount
  | cons outcome schedule ih =>
    cases bytes with
    | nil => exact ⟨_, by simp [readBytes], .refl _⟩
    | cons byte bytes =>
      have hrest : .failed .other ∉ schedule ∧ .moved 0 ∉ schedule :=
        ⟨fun hmem => h.1 (List.mem_cons_of_mem _ hmem),
          fun hmem => h.2 (List.mem_cons_of_mem _ hmem)⟩
      cases outcome with
      | failed errno =>
        have hretry : errno = .EINTR ∨ errno = .EAGAIN := by
          cases errno with
          | EINTR => exact .inl rfl
          | EAGAIN => exact .inr rfl
          | other => simp at h
        obtain ⟨schedule', hread, huses⟩ := ih (byte :: bytes) memory offset hrest
          hspace (by simpa [Outcome.isProgress] using hcount)
        exact ⟨schedule', by simpa [readBytes, hretry] using hread, huses.retry rfl⟩
      | moved count =>
        cases count with
        | zero => simp at h
        | succ count =>
          obtain ⟨k, hk⟩ : ∃ k, k = min (count + 1) (bytes.length + 1) := ⟨_, rfl⟩
          have hfirst : (byte :: bytes ++ rest).take k = (byte :: bytes).take k :=
            List.take_append_of_le_length (by rw [List.length_cons]; omega)
          have hlater : (byte :: bytes ++ rest).drop k = (byte :: bytes).drop k ++ rest :=
            List.drop_append_of_le_length (by rw [List.length_cons]; omega)
          have hlength : ((byte :: bytes).take k).length = k := by
            rw [List.length_take, List.length_cons]
            omega
          have hleft : ((byte :: bytes).drop k).length = bytes.length + 1 - k := by
            rw [List.length_drop, List.length_cons]
          rw [List.countP_cons_of_pos rfl, List.length_cons] at hcount
          rw [List.length_cons] at hspace
          obtain ⟨schedule', hread, huses⟩ := ih ((byte :: bytes).drop k)
            (QoSMos.writeBytes memory offset ((byte :: bytes).take k)) (offset + k) hrest
            (by omega) (by omega)
          refine ⟨schedule', ?_, ?_⟩
          · have hstored := @writeBytes_append memory offset ((byte :: bytes).take k)
              ((byte :: bytes).drop k)
            rw [hlength, List.take_append_drop] at hstored
            rw [hstored, hleft] at hread
            simp only [List.length_cons, readBytes, ← hk, hfirst, hlength, hlater, hread]
            rw [if_neg (by omega), if_neg (by omega)]
          · have htotal : k + ((byte :: bytes).drop k).length = (byte :: bytes).length := by
              rw [hleft, List.length_cons]
              omega
            rw [← htotal]
            exact huses.move (by omega)

/-- What reading comes to on any schedule and any stream. -/
theorem readBytes_spec {incoming : List UInt8} {memory : Memory} {offset n : Nat} {status : Status}
    {reader : Reader} (h : readBytes space schedule incoming memory offset n = (status, reader)) :
    (∃ k ≤ n, reader.incoming = incoming.drop k ∧ (status = .ok → k = n)) ∧
      (status = .ok → reader.memory = QoSMos.writeBytes memory offset (incoming.take n)) ∧
      (status = .fault → space < offset + n) ∧
      (status = .waiting → schedule.countP Outcome.isProgress < n) := by
  induction schedule generalizing incoming memory offset n with
  | nil =>
    cases n with
    | zero =>
      cases h
      exact ⟨⟨0, le_rfl, rfl, fun _ => rfl⟩, fun _ => by simp, nofun, nofun⟩
    | succ n =>
      cases h
      exact ⟨⟨0, Nat.zero_le _, rfl, nofun⟩, nofun, nofun, fun _ => Nat.succ_pos n⟩
  | cons outcome schedule ih =>
    cases n with
    | zero =>
      cases h
      exact ⟨⟨0, le_rfl, rfl, fun _ => rfl⟩, fun _ => by simp, nofun, nofun⟩
    | succ n =>
      cases outcome with
      | failed errno =>
        by_cases hretry : errno = .EINTR ∨ errno = .EAGAIN
        · rw [readBytes, if_pos hretry] at h
          simpa [Outcome.isProgress] using ih h
        · rw [readBytes, if_neg hretry] at h
          cases h
          exact ⟨⟨0, Nat.zero_le _, rfl, nofun⟩, nofun, nofun, nofun⟩
      | moved count =>
        obtain ⟨k, hk⟩ : ∃ k, k = (incoming.take (min count (n + 1))).length := ⟨_, rfl⟩
        have hfirst : incoming.take (min count (n + 1)) = incoming.take k := by
          rw [hk, List.length_take, List.take_eq_take_iff]
          omega
        have hle : k ≤ count ∧ k ≤ n + 1 := by
          rw [List.length_take] at hk
          omega
        have hlength : (incoming.take k).length = k := by rw [← hfirst, ← hk]
        simp only [readBytes, hfirst, hlength] at h
        by_cases hend : k = 0
        · rw [if_pos hend] at h
          cases h
          exact ⟨⟨0, Nat.zero_le _, rfl, nofun⟩, nofun, nofun, nofun⟩
        by_cases hspace : space < offset + k
        · rw [if_neg hend, if_pos hspace] at h
          cases h
          exact ⟨⟨0, Nat.zero_le _, rfl, nofun⟩, nofun, fun _ => by omega, nofun⟩
        rw [if_neg hend, if_neg hspace] at h
        obtain ⟨⟨j, hj, hincoming, hok⟩, hmemory, hfault, hwaiting⟩ := ih h
        refine ⟨⟨k + j, by omega, ?_, fun hstatus => ?_⟩, fun hstatus => ?_, fun hstatus => ?_,
          fun hstatus => ?_⟩
        · rw [hincoming, List.drop_drop]
        · have := hok hstatus
          omega
        · have hstored := @writeBytes_append memory offset (incoming.take k)
            ((incoming.drop k).take (n + 1 - k))
          rw [hlength] at hstored
          rw [hmemory hstatus, hstored, ← List.take_add, Nat.add_sub_cancel' hle.2]
        · have := hfault hstatus
          omega
        · have := hwaiting hstatus
          cases count with
          | zero => omega
          | succ count =>
            rw [List.countP_cons_of_pos rfl]
            omega

end Loops

/-! ## One message -/

def header (op : UInt32) (length : Nat) : List UInt8 :=
  be32 (HEADER_BYTES + length) ++ be32 op.toNat

/-- A message on the connection. -/
def frame (op : UInt32) (buf : List UInt8) : List UInt8 := header op buf.length ++ buf

@[simp] theorem length_header (op : UInt32) (length : Nat) :
    (header op length).length = HEADER_BYTES := rfl

@[simp] theorem length_frame (op : UInt32) (buf : List UInt8) :
    (frame op buf).length = HEADER_BYTES + buf.length := by
  simp [frame]

/-- What a reader gets of the fields of a header. -/
theorem header_fields (op : UInt32) (length : Nat) :
    be32At (Memory.ofList (header op length)) 0 = (HEADER_BYTES + length) % 4294967296 ∧
      be32At (Memory.ofList (header op length)) 4 = op.toNat := by
  have hlength := be32At_ofList [] (be32 op.toNat) (HEADER_BYTES + length)
  have hop := be32At_ofList (be32 (HEADER_BYTES + length)) [] op.toNat
  rw [List.append_nil, length_be32, Nat.mod_eq_of_lt op.toNat_lt] at hop
  exact ⟨hlength, hop⟩

theorem toInt_eq (n : Nat) : toInt n =
    if n % 4294967296 < 2147483648 then ((n % 4294967296 : Nat) : Int)
    else ((n % 4294967296 : Nat) : Int) - 4294967296 := by
  unfold toInt
  rw [Int.bmod_def]
  push_cast
  split_ifs <;> omega

/-- A length field up to the cap is the length of the payload and the header. -/
theorem toInt_length {n : Nat} (hn : n ≤ MAX_MESSAGE_BYTES) :
    toInt ((HEADER_BYTES + n) % 4294967296 + 18446744073709551616 - HEADER_BYTES) = n := by
  simp only [MAX_MESSAGE_BYTES, HEADER_BYTES] at *
  rw [toInt_eq, if_pos (by omega)]
  omega

/-- Any other field is out of range. -/
theorem toInt_badLength {length : Nat} (hfield : length < 4294967296)
    (hbad : length < HEADER_BYTES ∨ HEADER_BYTES + MAX_MESSAGE_BYTES < length) :
    toInt (length + 18446744073709551616 - HEADER_BYTES) < 0 ∨
      toInt (length + 18446744073709551616 - HEADER_BYTES) > MAX_MESSAGE_BYTES := by
  simp only [MAX_MESSAGE_BYTES, HEADER_BYTES] at *
  rw [toInt_eq]
  split <;> omega

theorem writeBytes_zero (bytes : List UInt8) :
    QoSMos.writeBytes (fun _ => 0) 0 bytes = Memory.ofList bytes := by
  funext i
  by_cases hi : i < bytes.length
  · have hinside := @writeBytes_inside (fun _ => 0) 0 i bytes hi
    rwa [Nat.zero_add] at hinside
  · rw [writeBytes_outside (by omega), Memory.ofList, List.getD_eq_default _ _ (by omega)]

/-! ## The buffer -/

section Buffer

variable {malloc : Nat → Memory} {conn grown : Conn} {reader : Reader} {status : Status}
  {op : Nat} {bufLen : Int}

/-- The buffer is large enough for the payload. -/
theorem Conn.le_bufSpace_grow (malloc : Nat → Memory) (conn : Conn) (n : Nat) :
    n ≤ (conn.grow malloc n).bufSpace := by
  by_cases hsmall : conn.bufSpace < n
  · rw [Conn.grow, if_pos hsmall]
    show n ≤ 2 * n
    omega
  · rw [Conn.grow, if_neg hsmall]
    exact not_lt.mp hsmall

theorem Conn.grow_frame (malloc : Nat → Memory) (conn : Conn) (n : Nat) :
    (conn.grow malloc n).schedule = conn.schedule ∧
      (conn.grow malloc n).incoming = conn.incoming := by
  unfold Conn.grow
  split <;> exact ⟨rfl, rfl⟩

/-- The connection when the header has been read. -/
def Conn.behind (conn : Conn) (reader : Reader) : Conn :=
  { conn with schedule := reader.schedule, incoming := reader.incoming }

theorem wireConnRead_failed
    (hread : readBytes HEADER_BYTES conn.schedule conn.incoming (fun _ => 0) 0 HEADER_BYTES =
      (status, reader)) (hstatus : status ≠ .ok) :
    wireConnRead malloc conn = (status, ⟨conn.behind reader, 0, -1⟩) := by
  rw [wireConnRead, hread]
  cases status with
  | ok => contradiction
  | _ => rfl

theorem wireConnRead_header
    (hread : readBytes HEADER_BYTES conn.schedule conn.incoming (fun _ => 0) 0 HEADER_BYTES =
      (.ok, reader)) :
    wireConnRead malloc conn =
      (conn.behind reader).readPayload malloc (be32At reader.memory 4) reader.bufLen := by
  rw [wireConnRead, hread]
  rfl

theorem Conn.readPayload_badLength (hrange : bufLen < 0 ∨ bufLen > MAX_MESSAGE_BYTES) :
    conn.readPayload malloc op bufLen = (.err, ⟨conn, op, bufLen⟩) :=
  if_pos hrange

theorem Conn.readPayload_payload (hrange : ¬ (bufLen < 0 ∨ bufLen > MAX_MESSAGE_BYTES))
    (hgrown : conn.grow malloc bufLen.toNat = grown)
    (hpayload : readBytes grown.bufSpace grown.schedule grown.incoming grown.buf 0 bufLen.toNat =
      (status, reader)) :
    conn.readPayload malloc op bufLen =
      (status, ⟨⟨reader.schedule, reader.incoming, reader.memory, grown.bufSpace⟩, op,
        bufLen⟩) := by
  rw [Conn.readPayload, if_neg hrange, hgrown]
  simp only [hpayload]

theorem Conn.readPayload_ne_fault (malloc : Nat → Memory) (conn : Conn) (op : Nat)
    (bufLen : Int) : (conn.readPayload malloc op bufLen).1 ≠ .fault := by
  by_cases hrange : bufLen < 0 ∨ bufLen > MAX_MESSAGE_BYTES
  · rw [Conn.readPayload_badLength hrange]
    nofun
  obtain ⟨grown, hgrown⟩ : ∃ grown, conn.grow malloc bufLen.toNat = grown := ⟨_, rfl⟩
  obtain ⟨⟨status, reader⟩, hpayload⟩ : ∃ result,
    readBytes grown.bufSpace grown.schedule grown.incoming grown.buf 0 bufLen.toNat = result :=
      ⟨_, rfl⟩
  have hfault := (readBytes_spec hpayload).2.2.1
  have hspace := Conn.le_bufSpace_grow malloc conn bufLen.toNat
  rw [hgrown] at hspace
  rw [Conn.readPayload_payload hrange hgrown hpayload]
  intro hstatus
  have := hfault hstatus
  omega

/-- `wire_conn_read` never stores behind a buffer. -/
theorem wireConnRead_ne_fault (malloc : Nat → Memory) (conn : Conn) :
    (wireConnRead malloc conn).1 ≠ .fault := by
  obtain ⟨⟨status, reader⟩, hread⟩ : ∃ result,
    readBytes HEADER_BYTES conn.schedule conn.incoming (fun _ => 0) 0 HEADER_BYTES = result :=
      ⟨_, rfl⟩
  by_cases hok : status = .ok
  · subst hok
    rw [wireConnRead_header hread]
    exact Conn.readPayload_ne_fault _ _ _ _
  · rw [wireConnRead_failed hread hok]
    intro hstatus
    have := (readBytes_spec hread).2.2.1 hstatus
    omega

end Buffer

section Message

variable {schedule : List Outcome} {rest buf : List UInt8} {op : UInt32}

theorem wireConnWrite_ok (sent : List UInt8) (op : UInt32) (buf : List UInt8)
    (h : .failed .other ∉ schedule)
    (hcount : (frame op buf).length ≤ schedule.countP Outcome.isProgress) :
    ∃ schedule', wireConnWrite ⟨schedule, sent⟩ op buf = (.ok, ⟨schedule', sent ++ frame op buf⟩) ∧
      Uses schedule schedule' (frame op buf).length := by
  rw [length_frame] at hcount ⊢
  obtain ⟨middle, hfirst, hused⟩ := writeBytes_ok sent (header op buf.length) h
    (by rw [length_header]; omega)
  rw [length_header] at hused
  have hleft := hused.count
  obtain ⟨schedule', hsecond, hused'⟩ := writeBytes_ok (sent ++ header op buf.length) buf
    (fun hmem => h (hused.suffix.subset hmem)) (by omega)
  refine ⟨schedule', ?_, hused.trans hused'⟩
  rw [header] at hfirst hsecond
  simp only [wireConnWrite, hfirst, hsecond, frame, header, List.append_assoc]

/-- A message that is next is read, with its `op` and its payload. -/
theorem wireConnRead_ok (malloc : Nat → Memory) (memory : Memory) (bufSpace : Nat)
    (hcap : buf.length ≤ MAX_MESSAGE_BYTES)
    (h : .failed .other ∉ schedule ∧ .moved 0 ∉ schedule)
    (hcount : (frame op buf).length ≤ schedule.countP Outcome.isProgress) :
    ∃ call, wireConnRead malloc ⟨schedule, frame op buf ++ rest, memory, bufSpace⟩ = (.ok, call) ∧
      call.op = op.toNat ∧ call.bytes = buf ∧ call.conn.incoming = rest ∧
      Uses schedule call.conn.schedule (frame op buf).length := by
  rw [length_frame] at hcount ⊢
  obtain ⟨middle, hfirst, hused⟩ := @readBytes_ok schedule (buf ++ rest) HEADER_BYTES
    (header op buf.length) (fun _ => 0) 0 h (by simp) (by rw [length_header]; omega)
  rw [length_header, writeBytes_zero] at hfirst
  rw [length_header] at hused
  have hleft := hused.count
  obtain ⟨reader, hreader⟩ : ∃ reader : Reader, reader =
    ⟨middle, buf ++ rest, Memory.ofList (header op buf.length)⟩ := ⟨_, rfl⟩
  obtain ⟨conn, hconn⟩ : ∃ conn : Conn, conn =
    ⟨schedule, frame op buf ++ rest, memory, bufSpace⟩ := ⟨_, rfl⟩
  obtain ⟨hlength, hop⟩ := header_fields op buf.length
  have hbufLen : reader.bufLen = buf.length := by
    rw [Reader.bufLen, hreader]
    dsimp only
    rw [hlength, toInt_length hcap]
  have hrange : ¬ (reader.bufLen < 0 ∨ reader.bufLen > MAX_MESSAGE_BYTES) := by
    rw [hbufLen]
    omega
  obtain ⟨grown, hgrown⟩ : ∃ grown, (conn.behind reader).grow malloc reader.bufLen.toNat = grown :=
    ⟨_, rfl⟩
  obtain ⟨hschedule, hincoming⟩ :=
    Conn.grow_frame malloc (conn.behind reader) reader.bufLen.toNat
  have hspace := Conn.le_bufSpace_grow malloc (conn.behind reader) reader.bufLen.toNat
  rw [hgrown] at hschedule hincoming hspace
  rw [hbufLen, Int.toNat_natCast] at hspace
  obtain ⟨schedule', hsecond, hused'⟩ := @readBytes_ok middle rest grown.bufSpace buf grown.buf 0
    ⟨fun hmem => h.1 (hused.suffix.subset hmem), fun hmem => h.2 (hused.suffix.subset hmem)⟩
    (by omega) (by omega)
  have hread : readBytes HEADER_BYTES conn.schedule conn.incoming (fun _ => 0) 0 HEADER_BYTES =
      (.ok, reader) := by
    rw [hconn, hreader, ← hfirst, frame, List.append_assoc]
  have hpayload : readBytes grown.bufSpace grown.schedule grown.incoming grown.buf 0
      reader.bufLen.toNat = (.ok, ⟨schedule', rest, QoSMos.writeBytes grown.buf 0 buf⟩) := by
    rw [hschedule, hincoming, hbufLen, Int.toNat_natCast, Conn.behind, hreader, hsecond]
  refine ⟨_, hconn ▸ (wireConnRead_header hread).trans
    (Conn.readPayload_payload hrange hgrown hpayload), ?_, ?_, rfl, hused.trans hused'⟩
  · rw [hreader]
    exact hop
  · rw [Call.bytes, hbufLen, Int.toNat_natCast]
    exact readBytes_writeBytes

end Message

/-! ## Series of messages -/

/-- Calls of `wire_conn_write` until one fails. -/
def wireConnWriteAll (conn : Sender) : List (UInt32 × List UInt8) → Status × Sender
  | [] => (.ok, conn)
  | (op, buf) :: messages =>
    match wireConnWrite conn op buf with
    | (.ok, conn) => wireConnWriteAll conn messages
    | result => result

/-- So many calls of `wire_conn_read`, until one fails; each may have a `malloc` of its own. -/
def wireConnReadAll (malloc : Nat → Nat → Memory) : Nat → Conn → Status × List (Nat × List UInt8)
  | 0, _ => (.ok, [])
  | n + 1, conn =>
    match wireConnRead (malloc n) conn with
    | (.ok, call) =>
      let (status, messages) := wireConnReadAll malloc n call.conn
      (status, (call.op, call.bytes) :: messages)
    | (status, _) => (status, [])

def stream (messages : List (UInt32 × List UInt8)) : List UInt8 :=
  messages.flatMap fun message => frame message.1 message.2

section Series

variable {schedule : List Outcome}

theorem wireConnWriteAll_ok (sent : List UInt8) (messages : List (UInt32 × List UInt8))
    (h : .failed .other ∉ schedule)
    (hcount : (stream messages).length ≤ schedule.countP Outcome.isProgress) :
    ∃ schedule', wireConnWriteAll ⟨schedule, sent⟩ messages =
      (.ok, ⟨schedule', sent ++ stream messages⟩) := by
  induction messages generalizing schedule sent with
  | nil => exact ⟨schedule, by simp [wireConnWriteAll, stream]⟩
  | cons message messages ih =>
    obtain ⟨op, buf⟩ := message
    have hstream : stream ((op, buf) :: messages) = frame op buf ++ stream messages := rfl
    rw [hstream, List.length_append] at hcount
    obtain ⟨middle, hfirst, hused⟩ := wireConnWrite_ok sent op buf h (by omega)
    have hleft := hused.count
    obtain ⟨schedule', hlater⟩ := ih (sent ++ frame op buf)
      (fun hmem => h (hused.suffix.subset hmem)) (by omega)
    refine ⟨schedule', ?_⟩
    rw [wireConnWriteAll, hfirst, hstream, ← List.append_assoc]
    exact hlater

theorem wireConnReadAll_ok (malloc : Nat → Nat → Memory) (messages : List (UInt32 × List UInt8))
    (hcap : ∀ message ∈ messages, message.2.length ≤ MAX_MESSAGE_BYTES)
    {conn : Conn} (hincoming : conn.incoming = stream messages)
    (h : .failed .other ∉ conn.schedule ∧ .moved 0 ∉ conn.schedule)
    (hcount : (stream messages).length ≤ conn.schedule.countP Outcome.isProgress) :
    wireConnReadAll malloc messages.length conn =
      (.ok, messages.map fun message => (message.1.toNat, message.2)) := by
  induction messages generalizing conn with
  | nil => rfl
  | cons message messages ih =>
    obtain ⟨op, buf⟩ := message
    have hstream : stream ((op, buf) :: messages) = frame op buf ++ stream messages := rfl
    rw [hstream, List.length_append] at hcount
    rw [hstream] at hincoming
    obtain ⟨schedule, incoming, memory, bufSpace⟩ := conn
    subst hincoming
    dsimp only at h hcount
    obtain ⟨call, hread, hop, hbytes, hrest, hused⟩ := @wireConnRead_ok schedule (stream messages)
      buf op (malloc messages.length) memory bufSpace (hcap (op, buf) (by simp)) h (by omega)
    have hleft := hused.count
    have hlater := ih (fun message hmem => hcap message (List.mem_cons_of_mem _ hmem)) hrest
      ⟨fun hmem => h.1 (hused.suffix.subset hmem), fun hmem => h.2 (hused.suffix.subset hmem)⟩
      (by omega)
    rw [List.length_cons, wireConnReadAll, hread]
    dsimp only
    rw [hlater, hop, hbytes, List.map_cons]

end Series

/-! ## Bad lengths -/

/-- The length field of the header that is next is too small or too large. -/
def BadLength (incoming : List UInt8) : Prop :=
  HEADER_BYTES ≤ incoming.length ∧
    (be32At (Memory.ofList incoming) 0 < HEADER_BYTES ∨
      HEADER_BYTES + MAX_MESSAGE_BYTES < be32At (Memory.ofList incoming) 0)

section BadLength

variable {malloc : Nat → Memory} {conn : Conn} {reader : Reader}

/-- The field is read as the stream has it. -/
theorem be32At_take (incoming : List UInt8) :
    be32At (Memory.ofList (incoming.take HEADER_BYTES)) 0 = be32At (Memory.ofList incoming) 0 := by
  have hbyte (i : Nat) (hi : i < HEADER_BYTES) :
      (incoming.take HEADER_BYTES).getD i 0 = incoming.getD i 0 := by
    simp [List.getD_eq_getElem?_getD, hi]
  simp only [be32At, be16At, u8At, Memory.ofList, Nat.reduceAdd, Nat.zero_add]
  rw [hbyte 0 (by decide), hbyte 1 (by decide), hbyte 2 (by decide), hbyte 3 (by decide)]

theorem bufLen_of_badLength (hbad : BadLength conn.incoming)
    (hread : readBytes HEADER_BYTES conn.schedule conn.incoming (fun _ => 0) 0 HEADER_BYTES =
      (.ok, reader)) : reader.bufLen < 0 ∨ reader.bufLen > MAX_MESSAGE_BYTES := by
  have hmemory := (readBytes_spec hread).2.1 rfl
  rw [writeBytes_zero] at hmemory
  rw [Reader.bufLen, hmemory, be32At_take]
  exact toInt_badLength (be32At_lt ..) hbad.2

/-- At most the header is read, and the buffer stays as it is. -/
theorem wireConnRead_badLength (malloc : Nat → Memory) (hbad : BadLength conn.incoming) :
    ((wireConnRead malloc conn).1 = .err ∨ (wireConnRead malloc conn).1 = .waiting ∧
        conn.schedule.countP Outcome.isProgress < HEADER_BYTES) ∧
      (∃ k ≤ HEADER_BYTES, (wireConnRead malloc conn).2.conn.incoming = conn.incoming.drop k) ∧
      (wireConnRead malloc conn).2.conn.buf = conn.buf ∧
      (wireConnRead malloc conn).2.conn.bufSpace = conn.bufSpace := by
  obtain ⟨⟨status, reader⟩, hread⟩ : ∃ result,
    readBytes HEADER_BYTES conn.schedule conn.incoming (fun _ => 0) 0 HEADER_BYTES = result :=
      ⟨_, rfl⟩
  obtain ⟨⟨k, hk, hincoming, -⟩, -, hfault, hwaiting⟩ := readBytes_spec hread
  by_cases hok : status = .ok
  · subst hok
    rw [wireConnRead_header hread, Conn.readPayload_badLength (bufLen_of_badLength hbad hread)]
    exact ⟨.inl rfl, ⟨k, hk, hincoming⟩, rfl, rfl⟩
  · rw [wireConnRead_failed hread hok]
    refine ⟨?_, ⟨k, hk, hincoming⟩, rfl, rfl⟩
    cases status with
    | ok => contradiction
    | err => exact .inl rfl
    | fault =>
      have := hfault rfl
      omega
    | waiting => exact .inr ⟨rfl, hwaiting rfl⟩

end BadLength

/-! ## The law -/

/-- Whatever the system calls come to, the messages that are written are the messages that are
read, if they are not too long; a header with a bad length is an error, and nothing behind it is
read or stored; nothing is ever stored behind the buffer. -/
theorem framing (malloc : Nat → Nat → Memory) (buf : Memory) (bufSpace : Nat) :
    (∀ (messages : List (UInt32 × List UInt8)) (w r : Nat → Outcome),
      (∀ message ∈ messages, message.2.length ≤ MAX_MESSAGE_BYTES) → Writes w → Reads r →
        ∃ n, ∀ i ≥ n, ∃ sender, wireConnWriteAll ⟨initial w i, []⟩ messages = (.ok, sender) ∧
          ∃ m, ∀ j ≥ m,
            wireConnReadAll malloc messages.length ⟨initial r j, sender.sent, buf, bufSpace⟩ =
              (.ok, messages.map fun message => (message.1.toNat, message.2))) ∧
      (∀ (conn : Conn) (n : Nat), BadLength conn.incoming →
        (wireConnRead (malloc n) conn).1 ∈ [.err, .waiting] ∧
          (∃ k ≤ HEADER_BYTES,
            (wireConnRead (malloc n) conn).2.conn.incoming = conn.incoming.drop k) ∧
          (wireConnRead (malloc n) conn).2.conn.buf = conn.buf ∧
          (wireConnRead (malloc n) conn).2.conn.bufSpace = conn.bufSpace) ∧
      (∀ (incoming : List UInt8) (n : Nat) (σ : Nat → Outcome), BadLength incoming →
        Often Outcome.isProgress σ →
        ∃ m, ∀ j ≥ m, (wireConnRead (malloc n) ⟨initial σ j, incoming, buf, bufSpace⟩).1 = .err) ∧
      ∀ (conn : Conn) (n : Nat), (wireConnRead (malloc n) conn).1 ≠ .fault := by
  refine ⟨fun messages w r hcap hw hr => ?_, fun conn n hbad => ?_, fun incoming n σ hbad hσ => ?_,
    fun conn n => wireConnRead_ne_fault _ _⟩
  · obtain ⟨n, hn⟩ := hw.often.exists_countP (stream messages).length
    obtain ⟨m, hm⟩ := hr.often.exists_countP (stream messages).length
    refine ⟨n, fun i hi => ?_⟩
    have hsends : .failed .other ∉ initial w i := fun hmem =>
      let ⟨k, hk⟩ := mem_initial hmem
      hw.retried k hk
    obtain ⟨schedule', hwrite⟩ := wireConnWriteAll_ok [] messages hsends (hn i hi)
    refine ⟨_, hwrite, m, fun j hj => ?_⟩
    refine wireConnReadAll_ok malloc messages hcap rfl ⟨fun hmem => ?_, fun hmem => ?_⟩ (hm j hj)
    · obtain ⟨k, hk⟩ := mem_initial hmem
      exact hr.retried k hk
    · obtain ⟨k, hk⟩ := mem_initial hmem
      exact hr.notEnd k hk
  · obtain ⟨hstatus, hread, hbuf, hspace⟩ := wireConnRead_badLength (malloc n) hbad
    refine ⟨?_, hread, hbuf, hspace⟩
    rcases hstatus with hstatus | ⟨hstatus, -⟩ <;> simp [hstatus]
  · obtain ⟨m, hm⟩ := hσ.exists_countP HEADER_BYTES
    refine ⟨m, fun j hj => ?_⟩
    obtain ⟨hstatus | ⟨-, hshort⟩, -⟩ :=
      @wireConnRead_badLength ⟨initial σ j, incoming, buf, bufSpace⟩ (malloc n) hbad
    · exact hstatus
    · have := hm j hj
      dsimp only at hshort
      omega

/-- Two messages in pieces of three bytes, with errors in between -/
def pieces (i : Nat) : Outcome :=
  if i % 2 = 0 then .failed .EAGAIN else .moved 3

theorem often_pieces : Often Outcome.isProgress pieces :=
  fun i => ⟨2 * i + 1, by omega, by simp [pieces, Outcome.isProgress, Nat.add_mod]⟩

theorem reads_pieces : Reads pieces where
  retried i := by
    unfold pieces
    split <;> simp
  notEnd i := by
    unfold pieces
    split <;> simp
  often := often_pieces

theorem framing_pieces :
    (∃ n, ∀ i ≥ n, ∃ sender,
      wireConnWriteAll ⟨initial pieces i, []⟩ [(1, [7, 8]), (5, [])] = (.ok, sender) ∧
        ∃ m, ∀ j ≥ m,
          wireConnReadAll (fun _ _ _ => 0) 2 ⟨initial pieces j, sender.sent, fun _ => 0, 0⟩ =
            (.ok, [(1, [7, 8]), (5, [])])) ∧
      ∃ m, ∀ j ≥ m, (wireConnRead (fun _ _ => 0)
        ⟨initial pieces j, [0, 0, 0, 7, 0, 0, 0, 1], fun _ => 0, 0⟩).1 = .err := by
  obtain ⟨hseries, -, hbad, -⟩ := framing (fun _ _ _ => 0) (fun _ => 0) 0
  refine ⟨?_, ?_⟩
  · exact hseries [(1, [7, 8]), (5, [])] pieces pieces (by decide) reads_pieces.toWrites
      reads_pieces
  · exact hbad [0, 0, 0, 7, 0, 0, 0, 1] 0 pieces ⟨by decide, .inl (by decide)⟩ often_pieces

end QoSMos.Wire
