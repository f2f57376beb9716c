import Mathlib.Data.List.Basic
import QoSMos.Lib.LittleEndian

/-!
# Classic packet filters

The machine that classic packet filters run on, with the instructions that take a packet apart field
by field: it loads big-endian numbers out of a packet, compares them and jumps forward. A load that
ends behind the packet rejects it.

A filter that wants several fields of a packet to have given bytes is compiled to such a program.
-/

namespace PacketFilter

/-- The bytes of a field, fewer where the packet ends before it. -/
def field (packet : List UInt8) (offset width : Nat) : List UInt8 :=
  (packet.drop offset).take width

/-- The number that some bytes stand for, the highest first. -/
def bigEndian (bytes : List UInt8) : Nat := LittleEndian.decode bytes.reverse

/-- The number in a field, if the packet has the whole field. -/
def loadAt (packet : List UInt8) (offset width : Nat) : Option Nat :=
  if offset + width ≤ packet.length then some (bigEndian (field packet offset width)) else none

inductive Instr where
  /-- Load a number of `width` bytes into the accumulator. -/
  | load (width offset : Nat)
  /-- Pass over `jt` instructions if the accumulator is `k`, over `jf` if it is not. -/
  | jumpEq (k jt jf : Nat)
  /-- Accept so many bytes of the packet, and reject it with 0. -/
  | ret (k : Nat)
  deriving DecidableEq, Repr

/-- Run a program while a jump has still to pass over `skip` instructions. -/
def run (packet : List UInt8) : List Instr → Nat → Nat → Nat
  | [], _, _ => 0
  | _ :: rest, skip + 1, acc => run packet rest skip acc
  | .load width offset :: rest, 0, _ =>
    match loadAt packet offset width with
    | some n => run packet rest 0 n
    | none => 0
  | .jumpEq k jt jf :: rest, 0, acc => run packet rest (if acc = k then jt else jf) acc
  | .ret k :: _, 0, _ => k

/-! ## Encoding -/

/-- An instruction as it is handed to the system. -/
structure SockFilter where
  code : UInt16
  jt : UInt8
  jf : UInt8
  k : UInt32
  deriving DecidableEq, Repr

def BPF_LD_W_ABS : UInt16 := 0x20
def BPF_LD_H_ABS : UInt16 := 0x28
def BPF_JMP_JEQ_K : UInt16 := 0x15
def BPF_RET_K : UInt16 := 0x06

def SockFilter.decode (f : SockFilter) : Option Instr :=
  if f.code = BPF_LD_W_ABS then some (.load 4 f.k.toNat)
  else if f.code = BPF_LD_H_ABS then some (.load 2 f.k.toNat)
  else if f.code = BPF_JMP_JEQ_K then some (.jumpEq f.k.toNat f.jt.toNat f.jf.toNat)
  else if f.code = BPF_RET_K then some (.ret f.k.toNat)
  else none

/-- The verdict of a program, if it is one. -/
def accepts (program : List SockFilter) (packet : List UInt8) : Bool :=
  match program.mapM SockFilter.decode with
  | some instrs => run packet instrs 0 0 ≠ 0
  | none => false

/-! ## Checks of fields -/

/-- The bytes that a field of the packet is to have. -/
structure Check where
  offset : Nat
  bytes : List UInt8
  deriving DecidableEq, Repr

def Check.Holds (packet : List UInt8) (c : Check) : Prop :=
  field packet c.offset c.bytes.length = c.bytes

/-- Check one field after the other, and jump to the end at the first that differs. -/
def compile (accept : Nat) : List Check → List Instr
  | [] => [.ret accept, .ret 0]
  | c :: checks =>
    .load c.bytes.length c.offset :: .jumpEq (bigEndian c.bytes) 0 (2 * checks.length + 1) ::
      compile accept checks

variable {packet bytes more : List UInt8} {offset accept acc : Nat} {c : Check}
  {checks : List Check}

theorem bigEndian_injective (hlength : bytes.length = more.length)
    (h : bigEndian bytes = bigEndian more) : bytes = more := by
  apply List.reverse_injective
  exact LittleEndian.decode_injective (by simpa using hlength) h

theorem length_field_le : (field packet offset bytes.length).length = bytes.length ↔
    bytes.length = 0 ∨ offset + bytes.length ≤ packet.length := by
  rw [field, List.length_take, List.length_drop]
  omega

/-- A field has its bytes if and only if the number loaded from it is theirs. -/
theorem loadAt_eq_some_iff (packet : List UInt8) (offset : Nat) (h : bytes ≠ []) :
    loadAt packet offset bytes.length = some (bigEndian bytes) ↔
      field packet offset bytes.length = bytes := by
  have hpos := List.length_pos_of_ne_nil h
  rw [loadAt]
  split_ifs with hinside
  · have hlength := length_field_le.mpr (.inr hinside)
    rw [Option.some_inj]
    exact ⟨fun heq => bigEndian_injective hlength heq, fun heq => by rw [heq]⟩
  · refine iff_of_false (by simp) fun heq => ?_
    have hlength := length_field_le.mp (congrArg List.length heq)
    omega

/-- The jump of a check that fails leads to the last instruction. -/
theorem run_compile_skip : run packet (compile accept checks) (2 * checks.length + 1) acc = 0 := by
  induction checks with
  | nil => rfl
  | cons c checks ih =>
    rw [compile, List.length_cons]
    exact ih

/-- The compiled program accepts a packet if and only if all checks hold. -/
theorem run_compile (haccept : accept ≠ 0) (hbytes : ∀ c ∈ checks, c.bytes ≠ []) :
    run packet (compile accept checks) 0 acc ≠ 0 ↔ ∀ c ∈ checks, c.Holds packet := by
  induction checks generalizing acc with
  | nil => simpa [compile, run] using haccept
  | cons c checks ih =>
    obtain ⟨hc, hbytes⟩ := List.forall_mem_cons.mp hbytes
    have hload := loadAt_eq_some_iff packet c.offset hc
    rw [compile, List.forall_mem_cons, Check.Holds, ← hload, run]
    cases hn : loadAt packet c.offset c.bytes.length with
    | none => simp
    | some n =>
      change run packet (.jumpEq _ _ _ :: _) 0 n ≠ 0 ↔ _
      rw [Option.some_inj, run]
      by_cases heq : n = bigEndian c.bytes
      · rw [if_pos heq, ih hbytes]
        exact (and_iff_right heq).symm
      · rw [if_neg heq, run_compile_skip]
        exact iff_of_false (by simp) (fun h => heq h.1)

theorem field_add {m n : Nat} :
    field packet offset (m + n) = field packet offset m ++ field packet (offset + m) n := by
  rw [field, field, field, List.take_add, List.drop_drop]

/-- Fields next to each other are one field. -/
theorem field_append_iff (bytes more : List UInt8) :
    field packet offset (bytes ++ more).length = bytes ++ more ↔
      field packet offset bytes.length = bytes ∧
        field packet (offset + bytes.length) more.length = more := by
  rw [List.length_append, field_add]
  constructor
  · intro h
    have htotal := congrArg List.length h
    simp only [List.length_append, field, List.length_take] at htotal
    refine List.append_inj h ?_
    rw [field, List.length_take]
    omega
  · rintro ⟨hfirst, hsecond⟩
    rw [hfirst, hsecond]

theorem bigEndian_four (byte0 byte1 byte2 byte3 : UInt8) :
    bigEndian [byte0, byte1, byte2, byte3] =
      16777216 * byte0.toNat + 65536 * byte1.toNat + 256 * byte2.toNat + byte3.toNat := by
  simp only [bigEndian, List.reverse_cons, List.reverse_nil, List.nil_append, List.cons_append,
    LittleEndian.decode]
  omega

theorem bigEndian_two (byte0 byte1 : UInt8) :
    bigEndian [byte0, byte1] = 256 * byte0.toNat + byte1.toNat := by
  simp only [bigEndian, List.reverse_cons, List.reverse_nil, List.nil_append, List.cons_append,
    LittleEndian.decode]
  omega

end PacketFilter
