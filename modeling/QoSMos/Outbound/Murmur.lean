import QoSMos.Lib.LittleEndian
import QoSMos.Lib.WordMix
import QoSMos.Packet.Bytes

/-!
# The hash functions of `hash.c`

The three variants of MurmurHash3 read a key in blocks and then its tail, mix each into a state of
one, two or four words and finalize the state.
-/

namespace QoSMos

open WordMix

/-! ## The program -/

section Program

variable {w : Nat}

/-- `k *= c; k = ROTL(k, r); k *= c'` -/
def mixKey (c : BitVec w) (r : Nat) (c' k : BitVec w) : BitVec w := rotl (k * c) r * c'

/-- The word of `w / 8` bytes at `p`, which lies low byte first. -/
def getblock (w : Nat) (data : Memory) (p : Nat) : BitVec w :=
  BitVec.ofNat w (LittleEndian.decode ((List.range (w / 8)).map fun i => data (p + i)))

/-- `getblock_32` -/
def getblock32 (data : Memory) (p : Nat) (i : Int) : BitVec 32 :=
  getblock 32 data (p + 4 * i).toNat

/-- `getblock_64` -/
def getblock64 (data : Memory) (p : Nat) (i : Int) : BitVec 64 :=
  getblock 64 data (p + 8 * i).toNat

/-- The cases `base + m` down to `base + 1` of `switch (len & mask)`, which fall through: each puts
a byte of the tail into a word. -/
def tailWord (rest : Nat) (tail : Memory) (base m : Nat) : BitVec w :=
  xorBytes (fun i => if base + i < rest then some (tail (base + i)) else none) m 0

/-- `for (i = -n; i; i++)` -/
def loopUp {H : Type} (step : H → Int → H) : Nat → H → H
  | 0, h => h
  | n + 1, h => loopUp step n (step h (-(n + 1)))

/-- `fmix_32` -/
def fmix32 (h : BitVec 32) : BitVec 32 :=
  let h := xorShift h 16
  let h := h * 0x85ebca6b#32
  let h := xorShift h 13
  let h := h * 0xc2b2ae35#32
  xorShift h 16

/-- `fmix_64` -/
def fmix64 (k : BitVec 64) : BitVec 64 :=
  let k := xorShift k 33
  let k := k * 0xff51afd7ed558ccd#64
  let k := xorShift k 33
  let k := k * 0xc4ceb9fe1a85ec53#64
  xorShift k 33

/-! ### `MurmurHash3_x86_32` -/

namespace X86_32

def c1 : BitVec 32 := 0xcc9e2d51#32
def c2 : BitVec 32 := 0x1b873593#32

def round (h1 k1 : BitVec 32) : BitVec 32 :=
  let h1 := h1 ^^^ mixKey c1 15 c2 k1
  rotl h1 13 * 5 + 0xe6546b64#32

def body (data : Memory) (blocks n : Nat) (h1 : BitVec 32) : BitVec 32 :=
  loopUp (fun h1 i => round h1 (getblock32 data blocks i)) n h1

def tail (rest : Nat) (bytes : Memory) (h1 : BitVec 32) : BitVec 32 :=
  if 1 ≤ rest then h1 ^^^ mixKey c1 15 c2 (tailWord rest bytes 0 3) else h1

def finalize (len : Nat) (h1 : BitVec 32) : BitVec 32 := fmix32 (h1 ^^^ BitVec.ofNat 32 len)

end X86_32

/-- `MurmurHash3_x86_32` of the bytes from `key` on. -/
def murmurHash3X86_32 (key : Memory) (len : Nat) (seed : BitVec 32) : BitVec 32 :=
  let nblocks := len / 4
  let h1 := X86_32.body key (nblocks * 4) nblocks seed
  let h1 := X86_32.tail (len % 4) (fun i => key (nblocks * 4 + i)) h1
  X86_32.finalize len h1

/-! ### `MurmurHash3_x86_128` -/

namespace X86_128

/-- Four words, either `h1` to `h4` or `k1` to `k4`. -/
@[ext] structure Words where
  x1 : BitVec 32
  x2 : BitVec 32
  x3 : BitVec 32
  x4 : BitVec 32
  deriving DecidableEq, Repr

def c1 : BitVec 32 := 0x239b961b#32
def c2 : BitVec 32 := 0xab0e9789#32
def c3 : BitVec 32 := 0x38b34ae5#32
def c4 : BitVec 32 := 0xa1e38b93#32

def round (h k : Words) : Words :=
  let h1 := h.x1 ^^^ mixKey c1 15 c2 k.x1
  let h1 := (rotl h1 19 + h.x2) * 5 + 0x561ccd1b#32
  let h2 := h.x2 ^^^ mixKey c2 16 c3 k.x2
  let h2 := (rotl h2 17 + h.x3) * 5 + 0x0bcaa747#32
  let h3 := h.x3 ^^^ mixKey c3 17 c4 k.x3
  let h3 := (rotl h3 15 + h.x4) * 5 + 0x96cd1c35#32
  let h4 := h.x4 ^^^ mixKey c4 18 c1 k.x4
  let h4 := (rotl h4 13 + h1) * 5 + 0x32ac3b17#32
  ⟨h1, h2, h3, h4⟩

/-- The block `k1` to `k4` at `i`. -/
def getWords (data : Memory) (blocks : Nat) (i : Int) : Words :=
  ⟨getblock32 data blocks (i * 4 + 0), getblock32 data blocks (i * 4 + 1),
    getblock32 data blocks (i * 4 + 2), getblock32 data blocks (i * 4 + 3)⟩

def body (data : Memory) (blocks n : Nat) (h : Words) : Words :=
  loopUp (fun h i => round h (getWords data blocks i)) n h

def tail (rest : Nat) (bytes : Memory) (h : Words) : Words :=
  let h4 := if 13 ≤ rest then h.x4 ^^^ mixKey c4 18 c1 (tailWord rest bytes 12 3) else h.x4
  let h3 := if 9 ≤ rest then h.x3 ^^^ mixKey c3 17 c4 (tailWord rest bytes 8 4) else h.x3
  let h2 := if 5 ≤ rest then h.x2 ^^^ mixKey c2 16 c3 (tailWord rest bytes 4 4) else h.x2
  let h1 := if 1 ≤ rest then h.x1 ^^^ mixKey c1 15 c2 (tailWord rest bytes 0 4) else h.x1
  ⟨h1, h2, h3, h4⟩

/-- The additions of the finalization, which come twice. -/
def spread (h : Words) : Words :=
  let h1 := h.x1 + h.x2
  let h1 := h1 + h.x3
  let h1 := h1 + h.x4
  ⟨h1, h.x2 + h1, h.x3 + h1, h.x4 + h1⟩

def finalize (len : Nat) (h : Words) : Words :=
  let n := BitVec.ofNat 32 len
  let h := spread ⟨h.x1 ^^^ n, h.x2 ^^^ n, h.x3 ^^^ n, h.x4 ^^^ n⟩
  spread ⟨fmix32 h.x1, fmix32 h.x2, fmix32 h.x3, fmix32 h.x4⟩

end X86_128

/-- `MurmurHash3_x86_128` -/
def murmurHash3X86_128 (key : Memory) (len : Nat) (seed : BitVec 32) : X86_128.Words :=
  let nblocks := len / 16
  let h := X86_128.body key (nblocks * 16) nblocks ⟨seed, seed, seed, seed⟩
  let h := X86_128.tail (len % 16) (fun i => key (nblocks * 16 + i)) h
  X86_128.finalize len h

/-! ### `MurmurHash3_x64_128` -/

namespace X64_128

/-- Two words, either `h1` and `h2` or `k1` and `k2`. -/
@[ext] structure Words where
  x1 : BitVec 64
  x2 : BitVec 64
  deriving DecidableEq, Repr

def c1 : BitVec 64 := 0x87c37b91114253d5#64
def c2 : BitVec 64 := 0x4cf5ad432745937f#64

def round (h k : Words) : Words :=
  let h1 := h.x1 ^^^ mixKey c1 31 c2 k.x1
  let h1 := (rotl h1 27 + h.x2) * 5 + 0x52dce729#64
  let h2 := h.x2 ^^^ mixKey c2 33 c1 k.x2
  let h2 := (rotl h2 31 + h1) * 5 + 0x38495ab5#64
  ⟨h1, h2⟩

/-- The block `k1` and `k2` at `i`. -/
def getWords (data : Memory) (i : Int) : Words :=
  ⟨getblock64 data 0 (i * 2 + 0), getblock64 data 0 (i * 2 + 1)⟩

def body (data : Memory) (n : Nat) (h : Words) : Words :=
  (List.range n).foldl (fun h (i : Nat) => round h (getWords data i)) h

def tail (rest : Nat) (bytes : Memory) (h : Words) : Words :=
  let h2 := if 9 ≤ rest then h.x2 ^^^ mixKey c2 33 c1 (tailWord rest bytes 8 7) else h.x2
  let h1 := if 1 ≤ rest then h.x1 ^^^ mixKey c1 31 c2 (tailWord rest bytes 0 8) else h.x1
  ⟨h1, h2⟩

/-- The additions of the finalization, which come twice. -/
def spread (h : Words) : Words :=
  let h1 := h.x1 + h.x2
  ⟨h1, h.x2 + h1⟩

def finalize (len : Nat) (h : Words) : Words :=
  let n := BitVec.ofNat 64 len
  let h := spread ⟨h.x1 ^^^ n, h.x2 ^^^ n⟩
  spread ⟨fmix64 h.x1, fmix64 h.x2⟩

end X64_128

/-- `MurmurHash3_x64_128` -/
def murmurHash3X64_128 (key : Memory) (len : Nat) (seed : BitVec 32) : X64_128.Words :=
  let nblocks := len / 16
  let h := X64_128.body key nblocks ⟨seed.setWidth 64, seed.setWidth 64⟩
  let h := X64_128.tail (len % 16) (fun i => key (nblocks * 16 + i)) h
  X64_128.finalize len h

end Program

end QoSMos
