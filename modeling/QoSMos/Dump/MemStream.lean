import QoSMos.Build.Program
import QoSMos.Flow.Tuple
import QoSMos.Lib.Returns

/-!
# Streams to memory

The stream of `open_memstream.c`, which dumps are printed to, keeps what is written in a buffer that
it reallocates as it needs. `realloc` may fail at any call, and chooses the bytes behind those that
it keeps.
-/

namespace QoSMos

open Returns

/-! ## The program -/

/-- The number of values of type `size_t`. -/
def DataModel.sizeValues (model : DataModel) : Nat := 256 ^ model.pointerBytes

/-- A `realloc` that may fail, and what is documented of the block that it returns. It fails for a
size above `PTRDIFF_MAX`. -/
structure Realloc (model : DataModel) where
  realloc : List UInt8 → Nat → Option (List UInt8)
  length_eq : ∀ old size new, realloc old size = some new → new.length = size
  keeps : ∀ old size new, realloc old size = some new → old.length ≤ size → old <+: new
  limit : ∀ old size new, realloc old size = some new → size < model.sizeValues / 2

/-- The block filled up with zeros, unless it is too large. -/
def zeroedBlock (model : DataModel) (old : List UInt8) (size : Nat) : Option (List UInt8) :=
  if size < model.sizeValues / 2 then
    some (old.take size ++ List.replicate (size - old.length) 0)
  else none

theorem zeroedBlock_eq_some_iff {model : DataModel} {old new : List UInt8} {size : Nat} :
    zeroedBlock model old size = some new ↔ size < model.sizeValues / 2 ∧
      old.take size ++ List.replicate (size - old.length) 0 = new := by
  rw [zeroedBlock, Option.ite_none_right_eq_some, Option.some_inj]

theorem length_zeroedBlock {model : DataModel} (old : List UInt8) (size : Nat) (new : List UInt8)
    (h : zeroedBlock model old size = some new) : new.length = size := by
  obtain ⟨-, rfl⟩ := zeroedBlock_eq_some_iff.mp h
  simp only [List.length_append, List.length_take, List.length_replicate]
  omega

theorem prefix_zeroedBlock {model : DataModel} (old : List UInt8) (size : Nat) (new : List UInt8)
    (h : zeroedBlock model old size = some new) (hle : old.length ≤ size) : old <+: new := by
  obtain ⟨-, rfl⟩ := zeroedBlock_eq_some_iff.mp h
  rw [List.take_of_length_le hle]
  exact List.prefix_append ..

/-- The `realloc` that fills blocks up with zeros and fails only where it has to. -/
instance (model : DataModel) : Inhabited (Realloc model) where
  default :=
    { realloc := zeroedBlock model
      length_eq := length_zeroedBlock
      keeps := prefix_zeroedBlock
      limit := fun _ _ _ h => (zeroedBlock_eq_some_iff.mp h).1 }

/-- `struct mem_stream`, with the buffer and the number that it points to. The buffer is all that is
allocated, which is nothing at first. -/
structure MemStream where
  buf : List UInt8
  sizeloc : Nat
  bufSize : Nat
  offset : Nat
  deriving DecidableEq, Repr

/-- The stream that `open_memstream` sets up. -/
def openMemstream : MemStream := ⟨[], 0, 0, 0⟩

def INITIAL_BUF_SIZE : Nat := 1024

/-- A call of `write_memstream`. -/
structure WriteCall (model : DataModel) where
  buf : List UInt8
  /-- `write_bytes` is an `int`. -/
  length_le : buf.length ≤ 2147483647
  allocator : Realloc model

section Program

variable {model : DataModel}

/-- The size that `mem_stream_grow` asks for. -/
def grownSize (model : DataModel) (bufSize neededBytes : Nat) : Nat :=
  let newSize := if bufSize = 0 then INITIAL_BUF_SIZE else 2 * bufSize % model.sizeValues
  if newSize < neededBytes then neededBytes else newSize

/-- `mem_stream_grow` -/
def memStreamGrow (allocator : Realloc model) (stream : MemStream) (writeBytes : Nat) :
    Int × MemStream :=
  let neededBytes := (stream.offset + writeBytes + 1) % model.sizeValues
  if neededBytes ≤ stream.bufSize then (0, stream)
  else
    match allocator.realloc stream.buf (grownSize model stream.bufSize neededBytes) with
    | none => (-1, stream)
    | some newBuf =>
      (0, { stream with buf := newBuf, bufSize := grownSize model stream.bufSize neededBytes })

/-- Store bytes in an allocated block. -/
def storeBytes (block : List UInt8) (offset : Nat) (bytes : List UInt8) (operation : String) :
    Except Halt (List UInt8) :=
  if offset + bytes.length ≤ block.length then
    .ok (block.take offset ++ bytes ++ block.drop (offset + bytes.length))
  else .error (.undefined "write_memstream" operation)

/-- `write_memstream` -/
def writeMemstream (call : WriteCall model) (stream : MemStream) :
    Except Halt (Int × MemStream) := do
  let (status, stream) := memStreamGrow call.allocator stream call.buf.length
  if status < 0 then return (-1, stream)
  else
    let buf ← storeBytes stream.buf stream.offset call.buf "memcpy(*stream->buf + stream->offset)"
    let offset := (stream.offset + call.buf.length) % model.sizeValues
    let buf ← storeBytes buf offset [0] "*(*stream->buf + stream->offset)"
    return (call.buf.length, { stream with buf := buf, offset := offset, sizeloc := offset })

/-- A sequence of calls, with what the successful ones have written. -/
def writeAll : List (WriteCall model) → MemStream → Except Halt (List UInt8 × MemStream)
  | [], stream => .ok ([], stream)
  | call :: calls, stream => do
    let (result, stream) ← writeMemstream call stream
    let (written, stream) ← writeAll calls stream
    return (if result < 0 then written else call.buf ++ written, stream)

end Program

/-! ## What the buffer holds -/

/-- The buffer holds what was written and a null byte behind it. -/
structure Terminated (written : List UInt8) (s : MemStream) : Prop where
  room : s.offset + 1 ≤ s.bufSize
  contents : s.buf.take s.offset = written
  terminator : s.buf[s.offset]? = some 0

/-- What holds between two calls. Before the first one that succeeds there is no buffer. -/
structure Holds (model : DataModel) (written : List UInt8) (s : MemStream) : Prop where
  bufSize : s.bufSize = s.buf.length
  limit : s.bufSize < model.sizeValues / 2
  offset : s.offset = written.length
  sizeloc : s.sizeloc = written.length
  buffer : s.bufSize = 0 ∧ written = [] ∨ Terminated written s

section Write

variable {model : DataModel} {written bytes block : List UInt8} {s t : MemStream} {n offset : Nat}
  {operation : String} {call : WriteCall model}

theorem sizeValues_eq (model : DataModel) :
    model.sizeValues = 4294967296 ∨ model.sizeValues = 18446744073709551616 := by
  cases model with
  | ilp32 => exact .inl rfl
  | lp64 => exact .inr rfl

theorem holds_open (model : DataModel) : Holds model [] openMemstream where
  bufSize := rfl
  limit := by
    rcases sizeValues_eq model with h | h
    · simp [h, openMemstream]
    · simp [h, openMemstream]
  offset := rfl
  sizeloc := rfl
  buffer := .inl ⟨rfl, rfl⟩

theorem Holds.offset_le (h : Holds model written s) : s.offset ≤ s.bufSize := by
  rcases h.buffer with ⟨-, hnone⟩ | hterminated
  · rw [h.offset, hnone]
    exact Nat.zero_le _
  · have hroom := hterminated.room
    omega

/-- The sum does not wrap around. -/
theorem Holds.no_wrap (h : Holds model written s) (hn : n ≤ 2147483647) :
    (s.offset + n + 1) % model.sizeValues = s.offset + n + 1 := by
  have hle := h.offset_le
  have hlimit := h.limit
  rcases sizeValues_eq model with hvalues | hvalues
  · rw [hvalues] at hlimit ⊢
    omega
  · rw [hvalues] at hlimit ⊢
    omega

theorem le_grownSize (model : DataModel) (bufSize neededBytes : Nat) :
    neededBytes ≤ grownSize model bufSize neededBytes := by
  rw [grownSize]
  split_ifs <;> omega

/-- A stream with room for more bytes, which holds what it held. -/
structure Grown (model : DataModel) (written : List UInt8) (n : Nat) (s t : MemStream) : Prop where
  bufSize : t.bufSize = t.buf.length
  limit : t.bufSize < model.sizeValues / 2
  offset : t.offset = s.offset
  sizeloc : t.sizeloc = s.sizeloc
  room : s.offset + n + 1 ≤ t.bufSize
  contents : t.buf.take s.offset = written

theorem Holds.contents (h : Holds model written s) : s.buf.take s.offset = written := by
  rcases h.buffer with ⟨-, hnone⟩ | hterminated
  · rw [h.offset, hnone]
    exact List.take_zero
  · exact hterminated.contents

/-- The buffer grows as far as it has to, or nothing happens. -/
theorem Holds.grow (h : Holds model written s) (hn : n ≤ 2147483647) (allocator : Realloc model) :
    memStreamGrow allocator s n = (-1, s) ∧
        allocator.realloc s.buf (grownSize model s.bufSize (s.offset + n + 1)) = none ∨
      ∃ t, memStreamGrow allocator s n = (0, t) ∧ Grown model written n s t := by
  rw [memStreamGrow, h.no_wrap hn]
  by_cases hroom : s.offset + n + 1 ≤ s.bufSize
  · right
    rw [if_pos hroom]
    exact ⟨s, rfl, h.bufSize, h.limit, rfl, rfl, hroom, h.contents⟩
  · have hsize := le_grownSize model s.bufSize (s.offset + n + 1)
    rw [if_neg hroom]
    cases hrealloc : allocator.realloc s.buf (grownSize model s.bufSize (s.offset + n + 1)) with
    | none => exact .inl ⟨rfl, rfl⟩
    | some newBuf =>
      have hbufSize := h.bufSize
      have hle := h.offset_le
      have hlength := allocator.length_eq _ _ _ hrealloc
      have hcontents : newBuf.take s.offset = written := by
        obtain ⟨rest, hrest⟩ := allocator.keeps _ _ _ hrealloc (by omega)
        rw [← hrest, List.take_append_of_le_length (by omega)]
        exact h.contents
      exact .inr ⟨_, rfl, hlength.symm, allocator.limit _ _ _ hrealloc, rfl, rfl, hsize,
        hcontents⟩

/-- A store within a block. -/
theorem storeBytes_spec (operation : String) (hroom : offset + bytes.length ≤ block.length) :
    ∃ stored, storeBytes block offset bytes operation = .ok stored ∧
      stored.length = block.length ∧
        stored.take (offset + bytes.length) = block.take offset ++ bytes := by
  have hfront : (block.take offset ++ bytes).length = offset + bytes.length := by
    rw [List.length_append, List.length_take]
    omega
  refine ⟨_, if_pos hroom, ?_, List.take_left' hfront⟩
  rw [List.length_append, hfront, List.length_drop]
  omega

/-- The bytes are stored behind what the stream holds, and a null byte behind them. -/
theorem Grown.write (hgrown : Grown model written call.buf.length s t)
    (hgrow : memStreamGrow call.allocator s call.buf.length = (0, t))
    (hoffset : s.offset = written.length) :
    ∃ u, writeMemstream call s = .ok ((call.buf.length : Int), u) ∧
      Holds model (written ++ call.buf) u ∧ Terminated (written ++ call.buf) u := by
  have hroom := hgrown.room
  have hbufSize := hgrown.bufSize
  have hlimit := hgrown.limit
  have hwrap : (s.offset + call.buf.length) % model.sizeValues = s.offset + call.buf.length :=
    Nat.mod_eq_of_lt (by omega)
  have hcopy : s.offset + call.buf.length ≤ t.buf.length := by omega
  obtain ⟨copied, hcopied, hlength, htake⟩ :=
    storeBytes_spec "memcpy(*stream->buf + stream->offset)" hcopy
  have hstore : s.offset + call.buf.length + ([0] : List UInt8).length ≤ copied.length := by
    rw [List.length_singleton]
    omega
  obtain ⟨stored, hstored, hlength', htake'⟩ :=
    storeBytes_spec "*(*stream->buf + stream->offset)" hstore
  rw [hgrown.contents] at htake
  rw [htake, List.length_singleton] at htake'
  have hall : (written ++ call.buf).length = s.offset + call.buf.length := by
    rw [List.length_append, hoffset]
  have hterminated : Terminated (written ++ call.buf)
      ⟨stored, s.offset + call.buf.length, t.bufSize, s.offset + call.buf.length⟩ := by
    refine ⟨hroom, ?_, ?_⟩
    · have hcut := congrArg (List.take (s.offset + call.buf.length)) htake'
      rwa [List.take_take, Nat.min_eq_left (Nat.le_succ _), List.take_left' hall] at hcut
    · have hlast := congrArg (fun l => l[s.offset + call.buf.length]?) htake'
      simpa [List.getElem?_append_right, ← hall] using hlast
  refine ⟨⟨stored, s.offset + call.buf.length, t.bufSize, s.offset + call.buf.length⟩, ?_,
    ⟨?_, hlimit, hall.symm, hall.symm, .inr hterminated⟩, hterminated⟩
  · rw [writeMemstream, hgrow]
    simp only [hgrown.offset, hwrap, hcopied]
    rw [if_neg (lt_irrefl _)]
    change (storeBytes copied _ [0] _ >>= _) = _
    rw [bind_of_ok hstored]
    rfl
  · rw [hbufSize, ← hlength, ← hlength']

/-- A call appends its bytes, or changes nothing. -/
theorem Holds.write (h : Holds model written s) (call : WriteCall model) :
    writeMemstream call s = .ok (-1, s) ∧ call.allocator.realloc s.buf
        (grownSize model s.bufSize (s.offset + call.buf.length + 1)) = none ∨
      ∃ t, writeMemstream call s = .ok ((call.buf.length : Int), t) ∧
        Holds model (written ++ call.buf) t ∧ Terminated (written ++ call.buf) t := by
  rcases h.grow call.length_le call.allocator with ⟨hfails, hnone⟩ | ⟨t, hgrow, hgrown⟩
  · refine .inl ⟨?_, hnone⟩
    rw [writeMemstream, hfails]
    rfl
  · exact .inr (hgrown.write hgrow h.offset)

/-- All calls one after the other. -/
theorem Holds.writeAll (h : Holds model written s) (calls : List (WriteCall model)) :
    ∃ more t, writeAll calls s = .ok (more, t) ∧ Holds model (written ++ more) t := by
  induction calls generalizing written s with
  | nil => exact ⟨[], s, rfl, by rwa [List.append_nil]⟩
  | cons call calls ih =>
    rcases h.write call with ⟨hfails, -⟩ | ⟨t, hwrite, ht, -⟩
    · obtain ⟨more, u, hmore, hu⟩ := ih h
      refine ⟨more, u, ?_, hu⟩
      rw [QoSMos.writeAll, hfails]
      simp only [bind_of_ok rfl, bind_of_ok hmore]
      rfl
    · obtain ⟨more, u, hmore, hu⟩ := ih ht
      refine ⟨call.buf ++ more, u, ?_, by rwa [← List.append_assoc]⟩
      have hresult : ¬ (call.buf.length : Int) < 0 := by omega
      rw [QoSMos.writeAll, hwrite]
      simp only [bind_of_ok rfl, bind_of_ok hmore, if_neg hresult]
      rfl

/-- After every sequence of calls, the next one appends its bytes, with a null byte behind all that
was written and room for both, or leaves the stream as it is because `realloc` fails. No store is
made outside the buffer. -/
theorem writeMemstream_law (calls : List (WriteCall model)) (call : WriteCall model) :
    ∃ written s, QoSMos.writeAll calls openMemstream = .ok (written, s) ∧
      (writeMemstream call s = .ok (-1, s) ∧ call.allocator.realloc s.buf
          (grownSize model s.bufSize (s.offset + call.buf.length + 1)) = none ∨
        ∃ t, writeMemstream call s = .ok ((call.buf.length : Int), t) ∧
          t.buf.take t.offset = written ++ call.buf ∧ t.buf[t.offset]? = some 0 ∧
            t.sizeloc = (written ++ call.buf).length ∧ t.offset = t.sizeloc ∧
              t.offset + 1 ≤ t.bufSize ∧ t.bufSize = t.buf.length) := by
  obtain ⟨written, s, hall, hs⟩ := (holds_open model).writeAll calls
  rw [List.nil_append] at hs
  refine ⟨written, s, hall, ?_⟩
  rcases hs.write call with hfails | ⟨t, hwrite, ht, hterminated⟩
  · exact .inl hfails
  · exact .inr ⟨t, hwrite, hterminated.contents, hterminated.terminator, ht.sizeloc,
      ht.offset.trans ht.sizeloc.symm, hterminated.room, ht.bufSize⟩

end Write

end QoSMos
