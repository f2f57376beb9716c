import Mathlib.Data.List.Perm.Subperm
import QoSMos.Outbound.HashMap
import QoSMos.Outbound.MurmurLaw

/-!
# The chains of the hash map

`hash_key` of `hash_map.c` is MurmurHash3 of the four bytes of a key, which is a permutation of the
words. A map grows as long as it has fewer buckets than keys, up to `MAX_BUCKETS`, and the keys of
one bucket have different hashes with the same low bits; so there are not many of them.
-/

namespace QoSMos

/-- `hash_key` -/
def hashKey (key : UInt32) : UInt32 :=
  ⟨murmurHash3X86_32 (Memory.ofList (LittleEndian.encode 4 key.toNat)) 4 0⟩

theorem hashKey_injective : Function.Injective hashKey := by
  intro key key' h
  have hmurmur := congrArg UInt32.toBitVec h
  have hbytes := (murmurHash3X86_32_keys (j := 0) 0 (by omega)).mp hmurmur
  have hencode : LittleEndian.encode 4 key.toNat = LittleEndian.encode 4 key'.toNat := by
    apply List.ext_getElem (by simp)
    intro i hi hi'
    have := hbytes i (by simpa using hi)
    rwa [Memory.ofList, Memory.ofList, List.getD_eq_getElem _ _ hi,
      List.getD_eq_getElem _ _ hi'] at this
  have hdecode := congrArg LittleEndian.decode hencode
  have := key.toNat_lt
  have := key'.toNat_lt
  rw [LittleEndian.decode_encode, LittleEndian.decode_encode] at hdecode
  exact UInt32.toNat_inj.mp (by omega)

/-- The bounds that `hash_map_insert` keeps. -/
structure HashMap.Sized (map : HashMap) : Prop where
  numBuckets : map.numBuckets ≤ MAX_BUCKETS
  load : map.numKeys ≤ map.numBuckets ∨ map.numBuckets = MAX_BUCKETS

section Laws

variable {hash : UInt32 → UInt32} {map : HashMap} {history : List (UInt32 × UInt32)}

theorem pickBucketCount_le (numKeys n : Nat) {k : Nat} (hk : k ≤ 30) :
    pickBucketCount numKeys n (2 ^ k) ≤ MAX_BUCKETS := by
  induction n generalizing k with
  | zero => exact Nat.pow_le_pow_right (by decide) hk
  | succ n ih =>
    rw [pickBucketCount]
    split
    · next h =>
      have hlt : k < 30 := (Nat.pow_lt_pow_iff_right (by decide)).mp h.2
      rw [← Nat.pow_succ']
      exact ih hlt
    · exact Nat.pow_le_pow_right (by decide) hk

theorem hashMapNew_sized (numKeys : Nat) : (hashMapNew numKeys).Sized :=
  ⟨pickBucketCount_le numKeys 30 (k := 0) (by decide), Or.inl (Nat.zero_le _)⟩

theorem le_numBuckets_hashMapNew (numKeys : Nat) :
    min numKeys MAX_BUCKETS ≤ (hashMapNew numKeys).numBuckets := by
  have hdone := hashMapPickBucketCount_done numKeys
  change min numKeys MAX_BUCKETS ≤ hashMapPickBucketCount numKeys
  omega

theorem numBuckets_hashMapGrow (map : HashMap) :
    (hashMapGrow hash map).numBuckets = map.numBuckets * 2 := by
  rw [hashMapGrow, ← List.foldl_flatten, foldl_hashMapLink]

/-- A key is added behind a growth if the map is full. -/
theorem hashMapInsert_sized (hv : map.Valid hash) (hs : map.Sized) (key value : UInt32) :
    (hashMapInsert hash map key value).Sized := by
  obtain ⟨n, hn⟩ := hv.power
  have hpos := Nat.two_pow_pos n
  unfold hashMapInsert
  split
  · next hfull =>
    have hlt : n < 30 := by
      rw [hn] at hfull
      exact (Nat.pow_lt_pow_iff_right (by decide)).mp hfull.2
    have hle : 2 ^ (n + 1) ≤ MAX_BUCKETS := Nat.pow_le_pow_right (by decide) hlt
    obtain ⟨-, hkeys, -⟩ := hashMapGrow_spec hv
    have hload := hs.load
    constructor
    · change (hashMapGrow hash map).numBuckets ≤ MAX_BUCKETS
      rwa [numBuckets_hashMapGrow, hn, ← Nat.pow_succ]
    · left
      change (hashMapGrow hash map).numKeys + 1 ≤ (hashMapGrow hash map).numBuckets
      rw [numBuckets_hashMapGrow, hkeys]
      omega
  · next hfree =>
    have hnum := hs.numBuckets
    refine ⟨hnum, ?_⟩
    change map.numKeys + 1 ≤ map.numBuckets ∨ map.numBuckets = MAX_BUCKETS
    omega

theorem hashMapSet_sized (hv : map.Valid hash) (hs : map.Sized) (key value : UInt32) :
    (hashMapSet hash map key value).Sized := by
  unfold hashMapSet
  dsimp only
  split
  · exact ⟨hs.numBuckets, hs.load⟩
  · exact hashMapInsert_sized hv hs key value

/-- There are never fewer buckets than before. -/
theorem numBuckets_le_hashMapSet (key value : UInt32) :
    map.numBuckets ≤ (hashMapSet hash map key value).numBuckets := by
  unfold hashMapSet
  dsimp only
  split
  · exact le_rfl
  · unfold hashMapInsert
    split
    · change map.numBuckets ≤ (hashMapGrow hash map).numBuckets
      rw [numBuckets_hashMapGrow]
      omega
    · exact le_rfl

theorem numBuckets_le_runMapCalls (calls : List MapCall) :
    map.numBuckets ≤ (runMapCalls hash map calls).1.numBuckets := by
  induction calls generalizing map with
  | nil => exact le_rfl
  | cons call calls ih =>
    cases call with
    | set key value => exact (numBuckets_le_hashMapSet key value).trans ih
    | get key => exact ih

/-- The run: the bounds hold after any calls. -/
theorem runMapCalls_sized (hm : map.Holds hash history) (hs : map.Sized) (calls : List MapCall) :
    (runMapCalls hash map calls).1.Sized := by
  induction calls generalizing map history with
  | nil => exact hs
  | cons call calls ih =>
    cases call with
    | set key value =>
      exact ih (hashMapSet_holds hm key value) (hashMapSet_sized hm.toValid hs key value)
    | get key => exact ih hm hs

/-- Different numbers below `2 ^ w` with the same `n` low bits. -/
theorem length_mul_le_of_mod_eq {w n i : Nat} (hn : n ≤ w) {numbers : List Nat}
    (hnodup : numbers.Nodup) (hlt : ∀ x ∈ numbers, x < 2 ^ w)
    (hmod : ∀ x ∈ numbers, x % 2 ^ n = i) : numbers.length * 2 ^ n ≤ 2 ^ w := by
  have hpow : 2 ^ w = 2 ^ (w - n) * 2 ^ n := by rw [← Nat.pow_add, Nat.sub_add_cancel hn]
  have hquot : (numbers.map (· / 2 ^ n)).Nodup := by
    apply List.Nodup.map_on _ hnodup
    intro x hx y hy hxy
    rw [← Nat.div_add_mod x (2 ^ n), ← Nat.div_add_mod y (2 ^ n), hxy, hmod x hx, hmod y hy]
  have hsub : numbers.map (· / 2 ^ n) ⊆ List.range (2 ^ (w - n)) := by
    intro q hq
    obtain ⟨x, hx, rfl⟩ := List.mem_map.mp hq
    apply List.mem_range.mpr
    apply Nat.div_lt_of_lt_mul
    rw [Nat.mul_comm, ← hpow]
    exact hlt x hx
  have hlength := (hquot.subperm hsub).length_le
  rw [List.length_map, List.length_range] at hlength
  rw [hpow]
  exact Nat.mul_le_mul_right _ hlength

/-- The hashes of a chain's keys differ above the bits that choose the bucket. -/
theorem chain_length_le (hinjective : Function.Injective hash) (hv : map.Valid hash)
    (hle : map.numBuckets ≤ MAX_BUCKETS) {chain : List HashNode} (hchain : chain ∈ map.buckets) :
    chain.length * map.numBuckets ≤ 2 ^ 32 := by
  obtain ⟨n, hn⟩ := hv.power
  obtain ⟨i, hi, hget⟩ := List.getElem_of_mem hchain
  have hlt : n ≤ 30 := by
    rw [hn] at hle
    exact (Nat.pow_le_pow_iff_right (by decide)).mp hle
  have hkeys : (chain.map HashNode.key).Nodup := hv.filed.distinct chain hchain
  have hnodup : (chain.map fun node => (hash node.key).toNat).Nodup := by
    have hmap := hkeys.map (f := fun key => (hash key).toNat) (by
      intro key key' h
      exact hinjective (UInt32.toNat_inj.mp h))
    rwa [List.map_map] at hmap
  have hbound := length_mul_le_of_mod_eq (w := 32) (n := n) (i := i) (by omega) hnodup (by
    intro x hx
    obtain ⟨node, -, rfl⟩ := List.mem_map.mp hx
    exact (hash node.key).toNat_lt) (by
    intro x hx
    obtain ⟨node, hnode, rfl⟩ := List.mem_map.mp hx
    have hplaced := hv.filed.placed i chain (by rw [List.getElem?_eq_getElem hi, hget]) node hnode
    rwa [hashBucketNum, hv.mask, hn, Nat.and_two_pow_sub_one_eq_mod] at hplaced)
  rwa [List.length_map, ← hn] at hbound

end Laws

/-- After any calls on a new map there are at most `MAX_BUCKETS` buckets; fewer only if there is
one for each key, and for each that the map was made for; and with `2 ^ n` buckets no chain is
longer than `2 ^ (32 - n)`. -/
theorem hashMap_chains (numKeys : Nat) (calls : List MapCall) :
    let map := (runMapCalls hashKey (hashMapNew numKeys) calls).1
    min numKeys MAX_BUCKETS ≤ map.numBuckets ∧ map.numBuckets ≤ MAX_BUCKETS ∧
      (map.numBuckets < MAX_BUCKETS → map.numKeys ≤ map.numBuckets) ∧
      ∀ chain ∈ map.buckets, chain.length * map.numBuckets ≤ 2 ^ 32 := by
  have hholds : (hashMapNew numKeys).Holds hashKey [] := hashMapNew_holds numKeys
  have hsized := runMapCalls_sized hholds (hashMapNew_sized numKeys) calls
  have hvalid := (runMapCalls_holds hholds calls).2
  refine ⟨?_, hsized.numBuckets, ?_, fun chain hchain => ?_⟩
  · exact (le_numBuckets_hashMapNew numKeys).trans (numBuckets_le_runMapCalls calls)
  · intro hlt
    rcases hsized.load with hload | hmax
    · exact hload
    · omega
  · exact chain_length_le hashKey_injective hvalid hsized.numBuckets hchain

end QoSMos
