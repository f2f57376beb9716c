import QoSMos.Outbound.Murmur

/-!
# Keys that `hash.c` tells apart

Each variant of MurmurHash3 is built from permutations of its state, so it has different hashes for
two keys of one length that differ in one block, or in the tail, only.
-/

namespace QoSMos

open WordMix

/-! ## Words of a key -/

section Words

open Function

variable {w : Nat} {x y : Memory}

/-- A word of a block stands for its bytes. -/
theorem getblock_eq_iff (hw : 8 ∣ w) (p : Nat) :
    getblock w x p = getblock w y p ↔ ∀ i < w / 8, x (p + i) = y (p + i) := by
  have hsize : 256 ^ (w / 8) = 2 ^ w := by
    obtain ⟨m, rfl⟩ := hw
    rw [Nat.mul_div_cancel_left m (by decide), Nat.pow_mul]
  have hlt (data : Memory) :
      LittleEndian.decode ((List.range (w / 8)).map fun i => data (p + i)) < 2 ^ w := by
    have h := LittleEndian.decode_lt ((List.range (w / 8)).map fun i => data (p + i))
    rwa [List.length_map, List.length_range, hsize] at h
  constructor
  · intro h i hi
    have hnat := congrArg BitVec.toNat h
    rw [getblock, getblock, BitVec.toNat_ofNat, BitVec.toNat_ofNat, Nat.mod_eq_of_lt (hlt x),
      Nat.mod_eq_of_lt (hlt y)] at hnat
    have hbytes := LittleEndian.decode_injective (by simp) hnat
    exact List.map_inj_left.mp hbytes i (List.mem_range.mpr hi)
  · intro h
    rw [getblock, getblock, List.map_congr_left fun i hi => h i (List.mem_range.mp hi)]

/-- A word of the tail stands for those of its bytes that the key has. -/
theorem tailWord_eq_iff {rest base m : Nat} (hm : 8 * m ≤ w) :
    (tailWord rest x base m : BitVec w) = tailWord rest y base m ↔
      ∀ i < rest, base ≤ i → i < base + m → x i = y i := by
  rw [tailWord, tailWord, xorBytes_eq_iff _ hm]
  constructor
  · intro h i hi hbase hlast
    have := h (i - base) (by omega)
    simpa [Nat.add_sub_cancel' hbase, hi] using this
  · intro h i hi
    by_cases hrest : base + i < rest
    · simp [hrest, h (base + i) hrest (by omega) (by omega)]
    · simp [hrest]

/-- A key that ends in front of a word of the tail leaves it zero. -/
theorem tailWord_of_le {rest base m : Nat} (h : rest ≤ base) :
    (tailWord rest x base m : BitVec w) = 0 := by
  induction m with
  | zero => rfl
  | succ m ih =>
    rw [tailWord, xorBytes, if_neg (by omega)]
    exact ih

theorem mixKey_injective {c d c' d' : BitVec w} {r : Nat} (h : c * d = 1) (h' : c' * d' = 1)
    (hr : r ≤ w) : Injective (mixKey c r c') :=
  (mul_injective h').comp ((rotl_injective hr).comp (mul_injective h))

theorem mixKey_zero (c c' : BitVec w) (r : Nat) : mixKey c r c' 0 = 0 := by
  have h : (0 : BitVec w) * c = 0 := BitVec.zero_mul
  rw [mixKey, h, rotl_zero]
  exact BitVec.zero_mul

/-- A case of the tail's `switch` that is not reached does what it would do. -/
theorem ite_xor_mixKey (rest base m r : Nat) (c c' h : BitVec w) :
    (if base + 1 ≤ rest then h ^^^ mixKey c r c' (tailWord rest x base m) else h) =
      h ^^^ mixKey c r c' (tailWord rest x base m) := by
  split
  · rfl
  · rw [tailWord_of_le (by omega), mixKey_zero]
    exact BitVec.xor_zero.symm

/-- The loop counts the blocks from the first one on. -/
theorem loopUp_eq {H : Type} (step : H → Int → H) (n : Nat) (h : H) :
    loopUp step n h = (List.range n).foldl (fun h (i : Nat) => step h (i - n)) h := by
  induction n generalizing h with
  | zero => rfl
  | succ n ih =>
    have hfirst : -((n : Int) + 1) = ((0 : Nat) : Int) - ((n + 1 : Nat) : Int) := by omega
    have hnext (i : Nat) : (i : Int) - n = ((i + 1 : Nat) : Int) - ((n + 1 : Nat) : Int) := by omega
    rw [loopUp, ih, List.range_succ_eq_map, List.foldl_cons, List.foldl_map, hfirst]
    simp only [hnext]

/-- What a round does to a word that it has put a key into. -/
theorem advance_injective {five d : BitVec w} (hunit : five * d = 1) {r : Nat} (hr : r ≤ w)
    (a c : BitVec w) : Injective fun h => (rotl h r + a) * five + c :=
  (add_injective c).comp ((mul_injective hunit).comp ((add_injective a).comp (rotl_injective hr)))

theorem five_unit : (5 : BitVec 32) * 0xcccccccd#32 = 1 := by decide

theorem fmix32_injective : Injective fmix32 := by
  have h : (0x85ebca6b#32) * 0xa5cb9243#32 = 1 := by decide
  have h' : (0xc2b2ae35#32) * 0x7ed1b41d#32 = 1 := by decide
  exact (xorShift_injective (by decide)).comp ((mul_injective h').comp
    ((xorShift_injective (by decide)).comp ((mul_injective h).comp
      (xorShift_injective (by decide)))))

theorem fmix64_injective : Injective fmix64 := by
  have h : (0xff51afd7ed558ccd#64) * 0x4f74430c22a54005#64 = 1 := by decide
  have h' : (0xc4ceb9fe1a85ec53#64) * 0x9cb4b2f8129337db#64 = 1 := by decide
  exact (xorShift_injective (by decide)).comp ((mul_injective h').comp
    ((xorShift_injective (by decide)).comp ((mul_injective h).comp
      (xorShift_injective (by decide)))))

end Words

/-! ## One word of state -/

namespace X86_32

open Function

theorem mixKey_injective : Injective (mixKey c1 15 c2) := by
  have h1 : c1 * 0xdee13bb1#32 = 1 := by decide
  have h2 : c2 * 0x56ed309b#32 = 1 := by decide
  exact QoSMos.mixKey_injective h1 h2 (by decide)

theorem round_injective_state (k1 : BitVec 32) : Injective fun h1 => round h1 k1 := by
  exact (add_injective _).comp ((mul_injective five_unit).comp
    ((rotl_injective (by decide)).comp (xor_injective _)))

theorem round_injective_key (h1 : BitVec 32) : Injective (round h1) := by
  exact (add_injective _).comp ((mul_injective five_unit).comp
    ((rotl_injective (by decide)).comp ((xor_injective_right h1).comp mixKey_injective)))

/-- The word of the tail, put into the state. -/
def last (h1 k1 : BitVec 32) : BitVec 32 := h1 ^^^ mixKey c1 15 c2 k1

theorem last_injective_state (k1 : BitVec 32) : Injective fun h1 => last h1 k1 := xor_injective _

theorem last_injective_key (h1 : BitVec 32) : Injective (last h1) :=
  (xor_injective_right h1).comp mixKey_injective

theorem tail_eq (rest : Nat) (bytes : Memory) (h1 : BitVec 32) :
    tail rest bytes h1 = last h1 (tailWord rest bytes 0 3) :=
  ite_xor_mixKey rest 0 3 15 c1 c2 h1

theorem finalize_injective (len : Nat) : Injective (finalize len) :=
  fmix32_injective.comp (xor_injective _)

/-- A block, read from the start of the key. -/
def block (data : Memory) (i : Nat) : BitVec 32 := getblock 32 data (4 * i)

theorem getblock32_eq (data : Memory) (n i : Nat) :
    getblock32 data (n * 4) (i - n) = block data i := congrArg (getblock 32 data) (by omega)

theorem tailWord_eq_iff {x y : Memory} {rest : Nat} (hrest : rest < 4) :
    (tailWord rest x 0 3 : BitVec 32) = tailWord rest y 0 3 ↔ ∀ t < rest, x t = y t := by
  rw [QoSMos.tailWord_eq_iff (by decide)]
  grind

end X86_32

theorem murmurHash3X86_32_eq (key : Memory) (len : Nat) (seed : BitVec 32) :
    murmurHash3X86_32 key len seed = X86_32.finalize len (X86_32.last
      (((List.range (len / 4)).map (X86_32.block key)).foldl X86_32.round seed)
      (tailWord (len % 4) (fun i => key (4 * (len / 4) + i)) 0 3)) := by
  rw [murmurHash3X86_32, X86_32.body, loopUp_eq, X86_32.tail_eq, List.foldl_map]
  simp only [X86_32.getblock32_eq]
  rw [Nat.mul_comm (len / 4) 4]

/-- Two keys of one length that differ within one block, or within the tail. -/
theorem murmurHash3X86_32_keys {key key' : Memory} {len j : Nat} (seed : BitVec 32)
    (hagree : ∀ i < len, i / 4 ≠ j → key i = key' i) :
    murmurHash3X86_32 key len seed = murmurHash3X86_32 key' len seed ↔
      ∀ i < len, key i = key' i := by
  rw [murmurHash3X86_32_eq, murmurHash3X86_32_eq]
  exact absorb_items_eq_iff X86_32.block
    (fun data => tailWord (len % 4) (fun i => data (4 * (len / 4) + i)) 0 3)
    X86_32.round_injective_state X86_32.round_injective_key X86_32.last_injective_state
    X86_32.last_injective_key (X86_32.finalize_injective len) (by decide)
    (fun i => getblock_eq_iff (by decide) _)
    (X86_32.tailWord_eq_iff (Nat.mod_lt len (by decide))) _ hagree

theorem murmurHash3X86_32_seeds (key : Memory) (len : Nat) (seed seed' : BitVec 32) :
    murmurHash3X86_32 key len seed = murmurHash3X86_32 key len seed' ↔ seed = seed' := by
  rw [murmurHash3X86_32_eq, murmurHash3X86_32_eq]
  exact (absorb_injective X86_32.round_injective_state X86_32.last_injective_state
    (X86_32.finalize_injective len) _ _).eq_iff

/-- Two keys of one length that differ within one block of four bytes, or within the tail, have
different hashes; and so have two seeds. -/
theorem murmurHash3X86_32_eq_iff (len : Nat) (seed : BitVec 32) (key : Memory) :
    (∀ key' j, (∀ i < len, i / 4 ≠ j → key i = key' i) →
      (murmurHash3X86_32 key len seed = murmurHash3X86_32 key' len seed ↔
        ∀ i < len, key i = key' i)) ∧
      ∀ seed', murmurHash3X86_32 key len seed = murmurHash3X86_32 key len seed' ↔ seed = seed' :=
  ⟨fun _ _ hagree => murmurHash3X86_32_keys seed hagree, murmurHash3X86_32_seeds key len seed⟩

/-- Two keys of eleven bytes that differ behind their two blocks. -/
theorem murmurHash3X86_32_eq_iff_eleven :
    murmurHash3X86_32 (Memory.ofList [1, 2, 3, 4, 5, 6, 7, 8, 9, 10, 11]) 11 0 ≠
      murmurHash3X86_32 (Memory.ofList [1, 2, 3, 4, 5, 6, 7, 8, 9, 12, 11]) 11 0 := by
  intro h
  have hagree := ((murmurHash3X86_32_eq_iff 11 0 _).1 _ 2 (by decide)).mp h
  exact absurd (hagree 9 (by decide)) (by decide)

/-! ## Four words of state -/

namespace X86_128

open Function

variable {x y : Memory}

theorem mixKey_injective :
    Injective (mixKey c1 15 c2) ∧ Injective (mixKey c2 16 c3) ∧ Injective (mixKey c3 17 c4) ∧
      Injective (mixKey c4 18 c1) := by
  have h1 : c1 * 0x89c95413#32 = 1 := by decide
  have h2 : c2 * 0xdf130eb9#32 = 1 := by decide
  have h3 : c3 * 0x747862ed#32 = 1 := by decide
  have h4 : c4 * 0x58d64a9b#32 = 1 := by decide
  exact ⟨QoSMos.mixKey_injective h1 h2 (by decide), QoSMos.mixKey_injective h2 h3 (by decide),
    QoSMos.mixKey_injective h3 h4 (by decide), QoSMos.mixKey_injective h4 h1 (by decide)⟩

/-- A round is undone from its last word to its first. -/
theorem round_injective_state (k : Words) : Injective fun h => round h k := by
  intro h h' heq
  simp only [round, Words.mk.injEq] at heq
  obtain ⟨h1, h2, h3, h4⟩ := heq
  rw [h1] at h4
  have hx4 : h.x4 = h'.x4 :=
    xor_injective _ (advance_injective five_unit (by decide) _ _ h4)
  rw [hx4] at h3
  have hx3 : h.x3 = h'.x3 :=
    xor_injective _ (advance_injective five_unit (by decide) _ _ h3)
  rw [hx3] at h2
  have hx2 : h.x2 = h'.x2 :=
    xor_injective _ (advance_injective five_unit (by decide) _ _ h2)
  rw [hx2] at h1
  have hx1 : h.x1 = h'.x1 :=
    xor_injective _ (advance_injective five_unit (by decide) _ _ h1)
  exact Words.ext hx1 hx2 hx3 hx4

theorem round_injective_key (h : Words) : Injective (round h) := by
  intro k k' heq
  obtain ⟨hmix1, hmix2, hmix3, hmix4⟩ := mixKey_injective
  simp only [round, Words.mk.injEq] at heq
  obtain ⟨h1, h2, h3, h4⟩ := heq
  rw [h1] at h4
  apply Words.ext
  · exact hmix1 (xor_injective_right _ (advance_injective five_unit (by decide) _ _ h1))
  · exact hmix2 (xor_injective_right _ (advance_injective five_unit (by decide) _ _ h2))
  · exact hmix3 (xor_injective_right _ (advance_injective five_unit (by decide) _ _ h3))
  · exact hmix4 (xor_injective_right _ (advance_injective five_unit (by decide) _ _ h4))

/-- The words of the tail, put into the state. -/
def last (h k : Words) : Words :=
  ⟨h.x1 ^^^ mixKey c1 15 c2 k.x1, h.x2 ^^^ mixKey c2 16 c3 k.x2, h.x3 ^^^ mixKey c3 17 c4 k.x3,
    h.x4 ^^^ mixKey c4 18 c1 k.x4⟩

/-- The words of the tail. -/
def tailKeys (rest : Nat) (bytes : Memory) : Words :=
  ⟨tailWord rest bytes 0 4, tailWord rest bytes 4 4, tailWord rest bytes 8 4,
    tailWord rest bytes 12 3⟩

theorem tail_eq (rest : Nat) (bytes : Memory) (h : Words) :
    tail rest bytes h = last h (tailKeys rest bytes) := by
  apply Words.ext
  · exact ite_xor_mixKey rest 0 4 15 c1 c2 h.x1
  · exact ite_xor_mixKey rest 4 4 16 c2 c3 h.x2
  · exact ite_xor_mixKey rest 8 4 17 c3 c4 h.x3
  · exact ite_xor_mixKey rest 12 3 18 c4 c1 h.x4

theorem last_injective_state (k : Words) : Injective fun h => last h k := by
  intro h h' heq
  simp only [last, Words.mk.injEq] at heq
  obtain ⟨h1, h2, h3, h4⟩ := heq
  exact Words.ext (xor_injective _ h1) (xor_injective _ h2) (xor_injective _ h3)
    (xor_injective _ h4)

theorem last_injective_key (h : Words) : Injective (last h) := by
  intro k k' heq
  obtain ⟨hmix1, hmix2, hmix3, hmix4⟩ := mixKey_injective
  simp only [last, Words.mk.injEq] at heq
  obtain ⟨h1, h2, h3, h4⟩ := heq
  exact Words.ext (hmix1 (xor_injective_right _ h1)) (hmix2 (xor_injective_right _ h2))
    (hmix3 (xor_injective_right _ h3)) (hmix4 (xor_injective_right _ h4))

theorem spread_injective : Injective spread := by
  intro h h' heq
  simp only [spread, Words.mk.injEq] at heq
  obtain ⟨h1, h2, h3, h4⟩ := heq
  rw [h1] at h2 h3 h4
  have hx2 : h.x2 = h'.x2 := add_injective _ h2
  have hx3 : h.x3 = h'.x3 := add_injective _ h3
  have hx4 : h.x4 = h'.x4 := add_injective _ h4
  rw [hx2, hx3, hx4] at h1
  exact Words.ext (add_injective _ (add_injective _ (add_injective _ h1))) hx2 hx3 hx4

theorem finalize_injective (len : Nat) : Injective (finalize len) := by
  intro h h' heq
  have hfmix := Words.mk.inj (spread_injective heq)
  obtain ⟨h1, h2, h3, h4⟩ := hfmix
  have hxor := spread_injective (Words.ext (fmix32_injective h1) (fmix32_injective h2)
    (fmix32_injective h3) (fmix32_injective h4))
  obtain ⟨h1, h2, h3, h4⟩ := Words.mk.inj hxor
  exact Words.ext (xor_injective _ h1) (xor_injective _ h2) (xor_injective _ h3)
    (xor_injective _ h4)

/-- A block, read from the start of the key. -/
def block (data : Memory) (i : Nat) : Words :=
  ⟨getblock 32 data (16 * i), getblock 32 data (16 * i + 4), getblock 32 data (16 * i + 8),
    getblock 32 data (16 * i + 12)⟩

theorem getWords_eq (data : Memory) (n i : Nat) :
    getWords data (n * 16) (i - n) = block data i := by
  apply Words.ext <;> exact congrArg (getblock 32 data) (by omega)

theorem block_eq_iff (i : Nat) :
    block x i = block y i ↔ ∀ t < 16, x (16 * i + t) = y (16 * i + t) := by
  have hword (p : Nat) := getblock_eq_iff (x := x) (y := y) (w := 32) (by decide) p
  simp only [block, Words.mk.injEq, hword]
  constructor
  · rintro ⟨h1, h2, h3, h4⟩ t ht
    have := h1 t
    have := h2 (t - 4)
    have := h3 (t - 8)
    have := h4 (t - 12)
    grind
  · intro h
    refine ⟨fun t ht => h t (by omega), fun t ht => ?_, fun t ht => ?_, fun t ht => ?_⟩
    · have := h (4 + t) (by omega)
      rwa [← Nat.add_assoc] at this
    · have := h (8 + t) (by omega)
      rwa [← Nat.add_assoc] at this
    · have := h (12 + t) (by omega)
      rwa [← Nat.add_assoc] at this

theorem tailKeys_eq_iff {rest : Nat} (hrest : rest < 16) :
    tailKeys rest x = tailKeys rest y ↔ ∀ t < rest, x t = y t := by
  simp only [tailKeys, Words.mk.injEq, tailWord_eq_iff (show 8 * 4 ≤ 32 by decide),
    tailWord_eq_iff (show 8 * 3 ≤ 32 by decide)]
  grind

end X86_128

theorem murmurHash3X86_128_eq (key : Memory) (len : Nat) (seed : BitVec 32) :
    murmurHash3X86_128 key len seed = X86_128.finalize len (X86_128.last
      (((List.range (len / 16)).map (X86_128.block key)).foldl X86_128.round
        ⟨seed, seed, seed, seed⟩)
      (X86_128.tailKeys (len % 16) fun i => key (16 * (len / 16) + i))) := by
  rw [murmurHash3X86_128, X86_128.body, loopUp_eq, X86_128.tail_eq, List.foldl_map]
  simp only [X86_128.getWords_eq]
  rw [Nat.mul_comm (len / 16) 16]

/-- Two keys of one length that differ within one block, or within the tail. -/
theorem murmurHash3X86_128_keys {key key' : Memory} {len j : Nat} (seed : BitVec 32)
    (hagree : ∀ i < len, i / 16 ≠ j → key i = key' i) :
    murmurHash3X86_128 key len seed = murmurHash3X86_128 key' len seed ↔
      ∀ i < len, key i = key' i := by
  rw [murmurHash3X86_128_eq, murmurHash3X86_128_eq]
  exact absorb_items_eq_iff X86_128.block
    (fun data => X86_128.tailKeys (len % 16) fun i => data (16 * (len / 16) + i))
    X86_128.round_injective_state X86_128.round_injective_key X86_128.last_injective_state
    X86_128.last_injective_key (X86_128.finalize_injective len) (by decide) X86_128.block_eq_iff
    (X86_128.tailKeys_eq_iff (Nat.mod_lt len (by decide))) _ hagree

theorem murmurHash3X86_128_seeds (key : Memory) (len : Nat) (seed seed' : BitVec 32) :
    murmurHash3X86_128 key len seed = murmurHash3X86_128 key len seed' ↔ seed = seed' := by
  rw [murmurHash3X86_128_eq, murmurHash3X86_128_eq, (absorb_injective
    X86_128.round_injective_state X86_128.last_injective_state
    (X86_128.finalize_injective len) _ _).eq_iff]
  simp

/-! ## Two words of state -/

namespace X64_128

open Function

variable {x y : Memory}

theorem five_unit : (5 : BitVec 64) * 0xcccccccccccccccd#64 = 1 := by decide

theorem mixKey_injective : Injective (mixKey c1 31 c2) ∧ Injective (mixKey c2 33 c1) := by
  have h1 : c1 * 0xa98409e882ce4d7d#64 = 1 := by decide
  have h2 : c2 * 0xa81e14edd9de2c7f#64 = 1 := by decide
  exact ⟨QoSMos.mixKey_injective h1 h2 (by decide), QoSMos.mixKey_injective h2 h1 (by decide)⟩

theorem round_injective_state (k : Words) : Injective fun h => round h k := by
  intro h h' heq
  simp only [round, Words.mk.injEq] at heq
  obtain ⟨h1, h2⟩ := heq
  rw [h1] at h2
  have hx2 : h.x2 = h'.x2 :=
    xor_injective _ (advance_injective five_unit (by decide) _ _ h2)
  rw [hx2] at h1
  have hx1 : h.x1 = h'.x1 :=
    xor_injective _ (advance_injective five_unit (by decide) _ _ h1)
  exact Words.ext hx1 hx2

theorem round_injective_key (h : Words) : Injective (round h) := by
  intro k k' heq
  obtain ⟨hmix1, hmix2⟩ := mixKey_injective
  simp only [round, Words.mk.injEq] at heq
  obtain ⟨h1, h2⟩ := heq
  rw [h1] at h2
  apply Words.ext
  · exact hmix1 (xor_injective_right _ (advance_injective five_unit (by decide) _ _ h1))
  · exact hmix2 (xor_injective_right _ (advance_injective five_unit (by decide) _ _ h2))

/-- The words of the tail, put into the state. -/
def last (h k : Words) : Words := ⟨h.x1 ^^^ mixKey c1 31 c2 k.x1, h.x2 ^^^ mixKey c2 33 c1 k.x2⟩

/-- The words of the tail. -/
def tailKeys (rest : Nat) (bytes : Memory) : Words :=
  ⟨tailWord rest bytes 0 8, tailWord rest bytes 8 7⟩

theorem tail_eq (rest : Nat) (bytes : Memory) (h : Words) :
    tail rest bytes h = last h (tailKeys rest bytes) := by
  apply Words.ext
  · exact ite_xor_mixKey rest 0 8 31 c1 c2 h.x1
  · exact ite_xor_mixKey rest 8 7 33 c2 c1 h.x2

theorem last_injective_state (k : Words) : Injective fun h => last h k := by
  intro h h' heq
  simp only [last, Words.mk.injEq] at heq
  exact Words.ext (xor_injective _ heq.1) (xor_injective _ heq.2)

theorem last_injective_key (h : Words) : Injective (last h) := by
  intro k k' heq
  obtain ⟨hmix1, hmix2⟩ := mixKey_injective
  simp only [last, Words.mk.injEq] at heq
  exact Words.ext (hmix1 (xor_injective_right _ heq.1)) (hmix2 (xor_injective_right _ heq.2))

theorem spread_injective : Injective spread := by
  intro h h' heq
  simp only [spread, Words.mk.injEq] at heq
  obtain ⟨h1, h2⟩ := heq
  rw [h1] at h2
  have hx2 : h.x2 = h'.x2 := add_injective _ h2
  rw [hx2] at h1
  exact Words.ext (add_injective _ h1) hx2

theorem finalize_injective (len : Nat) : Injective (finalize len) := by
  intro h h' heq
  obtain ⟨h1, h2⟩ := Words.mk.inj (spread_injective heq)
  have hxor := spread_injective (Words.ext (fmix64_injective h1) (fmix64_injective h2))
  obtain ⟨h1, h2⟩ := Words.mk.inj hxor
  exact Words.ext (xor_injective _ h1) (xor_injective _ h2)

/-- A block, read from the start of the key. -/
def block (data : Memory) (i : Nat) : Words :=
  ⟨getblock 64 data (16 * i), getblock 64 data (16 * i + 8)⟩

theorem getWords_eq (data : Memory) (i : Nat) : getWords data i = block data i := by
  apply Words.ext <;> exact congrArg (getblock 64 data) (by omega)

theorem block_eq_iff (i : Nat) :
    block x i = block y i ↔ ∀ t < 16, x (16 * i + t) = y (16 * i + t) := by
  have hword (p : Nat) := getblock_eq_iff (x := x) (y := y) (w := 64) (by decide) p
  simp only [block, Words.mk.injEq, hword]
  constructor
  · rintro ⟨h1, h2⟩ t ht
    have := h1 t
    have := h2 (t - 8)
    grind
  · intro h
    refine ⟨fun t ht => h t (by omega), fun t ht => ?_⟩
    have := h (8 + t) (by omega)
    rwa [← Nat.add_assoc] at this

theorem tailKeys_eq_iff {rest : Nat} (hrest : rest < 16) :
    tailKeys rest x = tailKeys rest y ↔ ∀ t < rest, x t = y t := by
  simp only [tailKeys, Words.mk.injEq, tailWord_eq_iff (show 8 * 8 ≤ 64 by decide),
    tailWord_eq_iff (show 8 * 7 ≤ 64 by decide)]
  grind

end X64_128

theorem murmurHash3X64_128_eq (key : Memory) (len : Nat) (seed : BitVec 32) :
    murmurHash3X64_128 key len seed = X64_128.finalize len (X64_128.last
      (((List.range (len / 16)).map (X64_128.block key)).foldl X64_128.round
        ⟨seed.setWidth 64, seed.setWidth 64⟩)
      (X64_128.tailKeys (len % 16) fun i => key (16 * (len / 16) + i))) := by
  rw [murmurHash3X64_128, X64_128.body, X64_128.tail_eq, List.foldl_map]
  simp only [X64_128.getWords_eq]
  rw [Nat.mul_comm (len / 16) 16]

/-- Two keys of one length that differ within one block, or within the tail. -/
theorem murmurHash3X64_128_keys {key key' : Memory} {len j : Nat} (seed : BitVec 32)
    (hagree : ∀ i < len, i / 16 ≠ j → key i = key' i) :
    murmurHash3X64_128 key len seed = murmurHash3X64_128 key' len seed ↔
      ∀ i < len, key i = key' i := by
  rw [murmurHash3X64_128_eq, murmurHash3X64_128_eq]
  exact absorb_items_eq_iff X64_128.block
    (fun data => X64_128.tailKeys (len % 16) fun i => data (16 * (len / 16) + i))
    X64_128.round_injective_state X64_128.round_injective_key X64_128.last_injective_state
    X64_128.last_injective_key (X64_128.finalize_injective len) (by decide) X64_128.block_eq_iff
    (X64_128.tailKeys_eq_iff (Nat.mod_lt len (by decide))) _ hagree

theorem murmurHash3X64_128_seeds (key : Memory) (len : Nat) (seed seed' : BitVec 32) :
    murmurHash3X64_128 key len seed = murmurHash3X64_128 key len seed' ↔ seed = seed' := by
  rw [murmurHash3X64_128_eq, murmurHash3X64_128_eq, (absorb_injective
    X64_128.round_injective_state X64_128.last_injective_state
    (X64_128.finalize_injective len) _ _).eq_iff]
  constructor
  · intro h
    have hnat := congrArg BitVec.toNat (X64_128.Words.mk.inj h).1
    have := seed.isLt
    have := seed'.isLt
    apply BitVec.eq_of_toNat_eq
    rw [BitVec.toNat_setWidth, BitVec.toNat_setWidth] at hnat
    omega
  · rintro rfl
    rfl

/-- Two keys of one length that differ within one block of sixteen bytes, or within the tail, have
different hashes of 128 bits, for either word size; and so have two seeds. -/
theorem murmurHash3_128_eq_iff (len : Nat) (seed : BitVec 32) (key : Memory) :
    (∀ key' j, (∀ i < len, i / 16 ≠ j → key i = key' i) →
      (murmurHash3X86_128 key len seed = murmurHash3X86_128 key' len seed ↔
        ∀ i < len, key i = key' i) ∧
      (murmurHash3X64_128 key len seed = murmurHash3X64_128 key' len seed ↔
        ∀ i < len, key i = key' i)) ∧
      ∀ seed',
        (murmurHash3X86_128 key len seed = murmurHash3X86_128 key len seed' ↔ seed = seed') ∧
        (murmurHash3X64_128 key len seed = murmurHash3X64_128 key len seed' ↔ seed = seed') :=
  ⟨fun _ _ hagree => ⟨murmurHash3X86_128_keys seed hagree, murmurHash3X64_128_keys seed hagree⟩,
    fun seed' => ⟨murmurHash3X86_128_seeds key len seed seed',
      murmurHash3X64_128_seeds key len seed seed'⟩⟩

/-- Two keys of eighteen bytes that differ in their first block. -/
theorem murmurHash3_128_eq_iff_eighteen :
    murmurHash3X64_128
        (Memory.ofList [1, 2, 3, 4, 5, 6, 7, 8, 9, 10, 11, 12, 13, 14, 15, 16, 17, 18]) 18 0 ≠
      murmurHash3X64_128
        (Memory.ofList [1, 2, 3, 4, 5, 6, 7, 8, 9, 10, 11, 12, 13, 14, 16, 15, 17, 18]) 18 0 := by
  intro h
  have hagree := ((murmurHash3_128_eq_iff 18 0 _).1 _ 0 (by decide)).2.mp h
  exact absurd (hagree 14 (by decide)) (by decide)

end QoSMos
