import Mathlib.Data.List.Flatten
import Mathlib.Tactic.Linarith
import QoSMos.Lib.Buckets

/-!
# The hash map of `hash_map.c`

A map from `u32` keys to `u32` values, with as many buckets as a power of two gives. It doubles
the number of its buckets when there is a key for each, and then links every node again. The
hash function is a parameter.
-/

namespace QoSMos

open Buckets

/-- `struct hash_node` -/
structure HashNode where
  key : UInt32
  value : UInt32
  deriving DecidableEq, Repr

/-- `struct hash_map` -/
structure HashMap where
  numKeys : Nat
  numBuckets : Nat
  bucketMask : Nat
  buckets : List (List HashNode)
  deriving DecidableEq, Repr

def MAX_BUCKETS : Nat := 1073741824

section Program

variable (hashKey : UInt32 → UInt32)

/-- `hash_bucket_num` for a map with this mask. -/
def hashBucketNum (bucketMask : Nat) (key : UInt32) : Nat := (hashKey key).toNat &&& bucketMask

/-- The loop of `hash_map_pick_bucket_count`, which doubles at most thirty times. -/
def pickBucketCount (numKeys : Nat) : Nat → Nat → Nat
  | 0, buckets => buckets
  | n + 1, buckets =>
    if buckets < numKeys ∧ buckets < MAX_BUCKETS then pickBucketCount numKeys n (2 * buckets)
    else buckets

/-- `hash_map_pick_bucket_count` -/
def hashMapPickBucketCount (numKeys : Nat) : Nat := pickBucketCount numKeys 30 1

/-- A map without keys. -/
def emptyMap (numBuckets : Nat) : HashMap where
  numKeys := 0
  numBuckets := numBuckets
  bucketMask := numBuckets - 1
  buckets := List.replicate numBuckets []

/-- `hash_map_new` -/
def hashMapNew (numKeys : Nat) : HashMap := emptyMap (hashMapPickBucketCount numKeys)

/-- `hash_map_link` -/
def hashMapLink (map : HashMap) (node : HashNode) : HashMap :=
  { map with buckets := link HashNode.key (hashBucketNum hashKey map.bucketMask) map.buckets node }

/-- `hash_map_grow` -/
def hashMapGrow (map : HashMap) : HashMap :=
  let numBuckets := map.numBuckets * 2
  let grown : HashMap :=
    { map with
      numBuckets
      bucketMask := numBuckets - 1
      buckets := List.replicate numBuckets [] }
  map.buckets.foldl (fun grown chain => chain.foldl (hashMapLink hashKey) grown) grown

/-- `hash_map_insert` -/
def hashMapInsert (map : HashMap) (key value : UInt32) : HashMap :=
  let map := if map.numKeys ≥ map.numBuckets ∧ map.numBuckets < MAX_BUCKETS
    then hashMapGrow hashKey map else map
  hashMapLink hashKey { map with numKeys := map.numKeys + 1 } ⟨key, value⟩

/-- `hash_map_set` -/
def hashMapSet (map : HashMap) (key value : UInt32) : HashMap :=
  let bucketNum := hashBucketNum hashKey map.bucketMask key
  let setValue : HashNode → HashNode := fun node => { node with value }
  match modifyKey HashNode.key key setValue (map.buckets.getD bucketNum []) with
  | some chain => { map with buckets := map.buckets.set bucketNum chain }
  | none => hashMapInsert hashKey map key value

/-- `hash_map_get`, with the value that it stores if it returns true. -/
def hashMapGet (map : HashMap) (key : UInt32) : Option UInt32 :=
  (lookup HashNode.key (hashBucketNum hashKey map.bucketMask) map.buckets key).map HashNode.value

/-- A call of `hash_map_set` or `hash_map_get`. -/
inductive MapCall where
  | set (key value : UInt32)
  | get (key : UInt32)
  deriving DecidableEq, Repr

/-- The map after some calls, with the answers of the `get` calls. -/
def runMapCalls (map : HashMap) : List MapCall → HashMap × List (Option UInt32)
  | [] => (map, [])
  | .set key value :: calls => runMapCalls (hashMapSet hashKey map key value) calls
  | .get key :: calls =>
    let (map', answers) := runMapCalls map calls
    (map', hashMapGet hashKey map key :: answers)

end Program

/-! ## What a map stands for -/

/-- The answers of a finite map to the same calls, after a history of assignments. -/
def mapAnswers (history : List (UInt32 × UInt32)) : List MapCall → List (Option UInt32)
  | [] => []
  | .set key value :: calls => mapAnswers (history ++ [(key, value)]) calls
  | .get key :: calls => lastSet history key :: mapAnswers history calls

/-- The shape of a map that `hash_map_new` made and `hash_map_set` has kept. -/
structure HashMap.Valid (hashKey : UInt32 → UInt32) (map : HashMap) : Prop where
  power : ∃ n, map.numBuckets = 2 ^ n
  mask : map.bucketMask = map.numBuckets - 1
  length : map.buckets.length = map.numBuckets
  filed : Filed HashNode.key (hashBucketNum hashKey map.bucketMask) map.buckets
  numKeys : map.numKeys = map.buckets.flatten.length

/-- A valid map that holds what a history of assignments left. -/
structure HashMap.Holds (hashKey : UInt32 → UInt32) (map : HashMap)
    (history : List (UInt32 × UInt32)) : Prop extends map.Valid hashKey where
  found : ∀ key, hashMapGet hashKey map key = lastSet history key

section Laws

variable {hashKey : UInt32 → UInt32} {map : HashMap} {history : List (UInt32 × UInt32)}
  {key value : UInt32}

/-- Thirty doublings reach the bound, so the loop ends because its condition fails. -/
theorem pickBucketCount_done {numKeys n buckets : Nat} (h : MAX_BUCKETS ≤ buckets * 2 ^ n) :
    ¬ (pickBucketCount numKeys n buckets < numKeys ∧
      pickBucketCount numKeys n buckets < MAX_BUCKETS) := by
  induction n generalizing buckets with
  | zero =>
    rw [pickBucketCount]
    omega
  | succ n ih =>
    rw [pickBucketCount]
    split
    · apply ih
      rw [Nat.pow_succ] at h
      linarith
    · assumption

theorem hashMapPickBucketCount_done (numKeys : Nat) :
    ¬ (hashMapPickBucketCount numKeys < numKeys ∧
      hashMapPickBucketCount numKeys < MAX_BUCKETS) :=
  pickBucketCount_done (by decide)

theorem pickBucketCount_power (numKeys : Nat) (n k : Nat) :
    ∃ m, pickBucketCount numKeys n (2 ^ k) = 2 ^ m := by
  induction n generalizing k with
  | zero => exact ⟨k, rfl⟩
  | succ n ih =>
    rw [pickBucketCount]
    split
    · rw [← Nat.pow_succ']
      exact ih (k + 1)
    · exact ⟨k, rfl⟩

theorem bucketNum_lt (hpower : ∃ n, map.numBuckets = 2 ^ n)
    (hmask : map.bucketMask = map.numBuckets - 1) (key : UInt32) :
    hashBucketNum hashKey map.bucketMask key < map.numBuckets := by
  obtain ⟨n, hn⟩ := hpower
  rw [hashBucketNum, hmask, hn, Nat.and_two_pow_sub_one_eq_mod]
  exact Nat.mod_lt _ (Nat.two_pow_pos n)

theorem HashMap.Valid.lt (hv : map.Valid hashKey) (key : UInt32) :
    hashBucketNum hashKey map.bucketMask key < map.buckets.length :=
  hv.length ▸ bucketNum_lt hv.power hv.mask key

theorem emptyMap_valid {n : Nat} (hpower : ∃ k, n = 2 ^ k) : (emptyMap n).Valid hashKey :=
  ⟨hpower, rfl, List.length_replicate, filed_replicate _, by simp [emptyMap]⟩

theorem hashMapNew_holds (numKeys : Nat) : (hashMapNew numKeys).Holds hashKey [] := by
  refine ⟨emptyMap_valid (pickBucketCount_power numKeys 30 0), fun key => ?_⟩
  rw [hashMapGet, hashMapNew, emptyMap, lookup_replicate]
  rfl

theorem foldl_hashMapLink (nodes : List HashNode) :
    nodes.foldl (hashMapLink hashKey) map = { map with
      buckets := nodes.foldl (link HashNode.key (hashBucketNum hashKey map.bucketMask))
        map.buckets } := by
  induction nodes generalizing map with
  | nil => rfl
  | cons node nodes ih =>
    rw [List.foldl_cons, ih]
    rfl

/-- Growing keeps the nodes of a map. -/
theorem hashMapGrow_spec (hv : map.Valid hashKey) :
    (hashMapGrow hashKey map).Valid hashKey ∧ (hashMapGrow hashKey map).numKeys = map.numKeys ∧
      ∀ key, hashMapGet hashKey (hashMapGrow hashKey map) key = hashMapGet hashKey map key := by
  obtain ⟨n, hn⟩ := hv.power
  have hpower : ∃ k, map.numBuckets * 2 = 2 ^ k := ⟨n + 1, by rw [hn, Nat.pow_succ]⟩
  have hempty : (emptyMap (map.numBuckets * 2)).Valid hashKey := emptyMap_valid hpower
  have hgrow : hashMapGrow hashKey map = { map with
      numBuckets := map.numBuckets * 2
      bucketMask := map.numBuckets * 2 - 1
      buckets := map.buckets.flatten.foldl
        (link HashNode.key (hashBucketNum hashKey (map.numBuckets * 2 - 1)))
        (emptyMap (map.numBuckets * 2)).buckets } := by
    rw [hashMapGrow, ← List.foldl_flatten, foldl_hashMapLink]
    rfl
  obtain ⟨hfiled, hperm, hlength⟩ := hempty.filed.foldl_link map.buckets.flatten
    hempty.lt (by simpa [emptyMap] using hv.filed.nodup)
  have hflatten : (emptyMap (map.numBuckets * 2)).buckets.flatten = [] := by simp [emptyMap]
  rw [hflatten, List.nil_append] at hperm
  rw [hgrow]
  refine ⟨⟨hpower, rfl, hlength.trans hempty.length, hfiled, ?_⟩, rfl, fun key => ?_⟩
  · rw [hv.numKeys]
    exact hperm.length_eq.symm
  · rw [hashMapGet, hashMapGet]
    exact congrArg _ (hv.filed.lookup_congr hfiled hperm)

theorem HashMap.Valid.link (hv : map.Valid hashKey) (value : UInt32)
    (hnew : hashMapGet hashKey map key = none) :
    (hashMapLink hashKey { map with numKeys := map.numKeys + 1 } ⟨key, value⟩).Valid hashKey ∧
      ∀ k, hashMapGet hashKey
        (hashMapLink hashKey { map with numKeys := map.numKeys + 1 } ⟨key, value⟩) k =
          if key = k then some value else hashMapGet hashKey map k := by
  have hlt := hv.lt key
  have hnew := Option.map_eq_none_iff.mp hnew
  have hperm : (Buckets.link HashNode.key (hashBucketNum hashKey map.bucketMask) map.buckets
      ⟨key, value⟩).flatten.Perm (⟨key, value⟩ :: map.buckets.flatten) := flatten_link hlt
  refine ⟨⟨hv.power, hv.mask, length_link.trans hv.length, hv.filed.linked hlt hnew, ?_⟩,
    fun k => ?_⟩
  · rw [hashMapLink, hperm.length_eq, hv.numKeys, List.length_cons]
  · rw [hashMapGet, hashMapLink, lookup_link hlt]
    by_cases hk : key = k <;> simp [hk, hashMapGet]

/-- A step: an assignment is the last one of its key. -/
theorem hashMapSet_holds (hm : map.Holds hashKey history) (key value : UInt32) :
    (hashMapSet hashKey map key value).Holds hashKey (history ++ [(key, value)]) := by
  obtain ⟨chain, hchain⟩ : ∃ chain,
      map.buckets[hashBucketNum hashKey map.bucketMask key]? = some chain :=
    ⟨_, List.getElem?_eq_getElem (hm.lt key)⟩
  have hgetD : map.buckets.getD (hashBucketNum hashKey map.bucketMask key) [] = chain := by
    rw [List.getD, hchain]
    rfl
  have hkey (node : HashNode) : HashNode.key { node with value } = node.key := rfl
  unfold hashMapSet
  dsimp only
  rw [hgetD]
  cases hmod : modifyKey HashNode.key key (fun node => { node with value }) chain with
  | some chain' =>
    refine ⟨⟨hm.power, hm.mask, List.length_set.trans hm.length,
      hm.filed.overwrite hkey hchain hmod, ?_⟩, fun k => ?_⟩
    · rw [length_flatten_overwrite hkey hchain hmod]
      exact hm.numKeys
    · have hfound := hm.found k
      rw [hashMapGet] at hfound ⊢
      rw [lookup_overwrite hkey hchain hmod, lastSet_concat]
      by_cases hk : key = k
      · obtain ⟨node, hnode⟩ : ∃ node, lookup HashNode.key
            (hashBucketNum hashKey map.bucketMask) map.buckets k = some node := by
          rw [← Option.ne_none_iff_exists', ← hk, lookup_of_getElem? hchain, Ne,
            ← modifyKey_eq_none_iff, hmod]
          simp
        simp [hk, hnode]
      · rw [if_neg hk, if_neg hk, hfound]
  | none =>
    have hnone : hashMapGet hashKey map key = none := by
      rw [hashMapGet, lookup_of_getElem? hchain, modifyKey_eq_none_iff.mp hmod]
      rfl
    obtain ⟨grown, hgrown, hvalid, hget⟩ : ∃ grown, (if map.numKeys ≥ map.numBuckets ∧
        map.numBuckets < MAX_BUCKETS then hashMapGrow hashKey map else map) = grown ∧
        grown.Valid hashKey ∧ ∀ k, hashMapGet hashKey grown k = hashMapGet hashKey map k := by
      split
      · obtain ⟨hvalid, -, hget⟩ := hashMapGrow_spec hm.toValid
        exact ⟨_, rfl, hvalid, hget⟩
      · exact ⟨_, rfl, hm.toValid, fun _ => rfl⟩
    obtain ⟨hvalid', hget'⟩ := hvalid.link value ((hget key).trans hnone)
    dsimp only [hashMapInsert]
    rw [hgrown]
    refine ⟨hvalid', fun k => ?_⟩
    rw [hget', hget, hm.found, lastSet_concat]

/-- The run: the answers are those of a finite map. -/
theorem runMapCalls_holds (hm : map.Holds hashKey history) (calls : List MapCall) :
    (runMapCalls hashKey map calls).2 = mapAnswers history calls ∧
      (runMapCalls hashKey map calls).1.Valid hashKey := by
  induction calls generalizing map history with
  | nil => exact ⟨rfl, hm.toValid⟩
  | cons call calls ih =>
    cases call with
    | set key value => exact ih (hashMapSet_holds hm key value)
    | get key =>
      obtain ⟨hanswers, hvalid⟩ := ih hm
      refine ⟨?_, hvalid⟩
      rw [runMapCalls, mapAnswers, ← hanswers, ← hm.found]

end Laws

/-- Any calls on a new map are answered as by a finite map, and leave every node in the bucket
that its key hashes to, no key twice, the number of nodes in `num_keys` and as many buckets as
a power of two. -/
theorem hashMap_refines (hashKey : UInt32 → UInt32) (numKeys : Nat) (calls : List MapCall) :
    let (map, answers) := runMapCalls hashKey (hashMapNew numKeys) calls
    answers = mapAnswers [] calls ∧
      (∀ i chain, map.buckets[i]? = some chain →
        ∀ node ∈ chain, (hashKey node.key).toNat &&& map.bucketMask = i) ∧
      (map.buckets.flatten.map HashNode.key).Nodup ∧
      map.numKeys = map.buckets.flatten.length ∧
      map.buckets.length = map.numBuckets ∧ map.bucketMask = map.numBuckets - 1 ∧
      ∃ n, map.numBuckets = 2 ^ n := by
  obtain ⟨hanswers, hvalid⟩ := runMapCalls_holds (hashMapNew_holds numKeys) calls
  exact ⟨hanswers, hvalid.filed.placed, hvalid.filed.nodup, hvalid.numKeys, hvalid.length,
    hvalid.mask, hvalid.power⟩

end QoSMos
