import Mathlib.Data.List.Nodup
import Mathlib.Logic.Function.Basic

/-!
# Hashing words without loss

The steps that hash functions mix words with are permutations: a multiplication by a unit, a
rotation, the exclusive or with a shifted copy. A hash that absorbs one block after the other is
then a permutation of its state for each block and tells any two blocks apart from each state, so
that keys which differ in one block only do not collide.
-/

namespace WordMix

open Function

/-! ## Permutations of words -/

section Words

variable {w r s : Nat} {c d : BitVec w}

/-- The rotation of a word to the left, by shifts. -/
def rotl (x : BitVec w) (r : Nat) : BitVec w := x <<< r ||| x >>> (w - r)

/-- The exclusive or of a word with itself, shifted to the right. -/
def xorShift (x : BitVec w) (s : Nat) : BitVec w := x ^^^ x >>> s

theorem mul_injective (hunit : c * d = 1) : Injective fun x : BitVec w => x * c := by
  intro x y h
  have hd : x * c * d = y * c * d := congrArg (· * d) h
  simpa [BitVec.mul_assoc, hunit] using hd

theorem xor_injective (c : BitVec w) : Injective fun x : BitVec w => x ^^^ c := by
  intro x y h
  exact (BitVec.xor_left_inj c).mp h

theorem xor_injective_right (c : BitVec w) : Injective fun x : BitVec w => c ^^^ x := by
  intro x y h
  exact (BitVec.xor_right_inj c).mp h

theorem add_injective (c : BitVec w) : Injective fun x : BitVec w => x + c := by
  intro x y h
  exact (BitVec.add_left_inj c).mp h

theorem rotl_injective (hr : r ≤ w) : Injective fun x : BitVec w => rotl x r := by
  intro x y h
  have hbits (i : Nat) : (rotl x r).getLsbD i = (rotl y r).getLsbD i := by
    exact congrArg (fun z => BitVec.getLsbD z i) h
  simp only [rotl, BitVec.getLsbD_or, BitVec.getLsbD_shiftLeft, BitVec.getLsbD_ushiftRight] at hbits
  apply BitVec.eq_of_getLsbD_eq
  intro i hi
  -- Bit `i` moves up by `r`, or around the end of the word.
  by_cases hup : i + r < w
  · have hbit := hbits (i + r)
    have hx : x.getLsbD (w - r + (i + r)) = false := BitVec.getLsbD_of_ge _ _ (by omega)
    have hy : y.getLsbD (w - r + (i + r)) = false := BitVec.getLsbD_of_ge _ _ (by omega)
    have hge : ¬ i + r < r := by omega
    simpa [hup, hx, hy, hge] using hbit
  · have hbit := hbits (i + r - w)
    have hback : w - r + (i + r - w) = i := by omega
    have hlow : i + r - w < r := by omega
    simpa [hback, hlow] using hbit

theorem rotl_zero : rotl (0 : BitVec w) r = 0 := by simp [rotl]

theorem xorShift_injective (hs : 0 < s) : Injective fun x : BitVec w => xorShift x s := by
  intro x y h
  have hxor : x ^^^ y = (x ^^^ y) >>> s := by
    apply BitVec.eq_of_getLsbD_eq
    intro i _
    have hbit := congrArg (fun z => BitVec.getLsbD z i) h
    have hbool : ∀ a b c d : Bool, (a ^^ c) = (b ^^ d) → (a ^^ b) = (c ^^ d) := by decide
    simp only [xorShift, BitVec.getLsbD_xor, BitVec.getLsbD_ushiftRight] at hbit ⊢
    exact hbool _ _ _ _ hbit
  -- A word that is its own shift is zero.
  have hzero : (x ^^^ y).toNat = 0 := by
    have hdiv : (x ^^^ y).toNat = (x ^^^ y).toNat / 2 ^ s := by
      have := congrArg BitVec.toNat hxor
      rwa [BitVec.toNat_ushiftRight, Nat.shiftRight_eq_div_pow] at this
    have htwo : 2 ≤ 2 ^ s := Nat.le_self_pow (by omega) 2
    by_contra hne
    have := Nat.div_lt_self (Nat.pos_of_ne_zero hne) htwo
    omega
  exact BitVec.xor_eq_zero_iff.mp (BitVec.eq_of_toNat_eq (by simpa using hzero))

end Words

/-! ## Words made of bytes -/

section Bytes

variable {w m : Nat} {byte byte' : Nat → Option UInt8}

/-- The bytes from `m - 1` down to `0`, each at its place in a word; those that are `none` are
left out. -/
def xorBytes (byte : Nat → Option UInt8) : Nat → BitVec w → BitVec w
  | 0, k => k
  | m + 1, k =>
    match byte m with
    | some b => xorBytes byte m (k ^^^ b.toBitVec.setWidth w <<< (8 * m))
    | none => xorBytes byte m k

theorem getLsbD_xorBytes (k : BitVec w) (hm : 8 * m ≤ w) (t : Nat) :
    (xorBytes byte m k).getLsbD t =
      (k.getLsbD t ^^
        (decide (t < 8 * m) && ((byte (t / 8)).getD 0).toBitVec.getLsbD (t % 8))) := by
  induction m generalizing k with
  | zero => simp [xorBytes]
  | succ m ih =>
    have hplace (b : UInt8) : (b.toBitVec.setWidth w <<< (8 * m)).getLsbD t =
        (decide (8 * m ≤ t ∧ t < 8 * m + 8) && b.toBitVec.getLsbD (t % 8)) := by
      by_cases hlow : t < 8 * m
      · simp [hlow, Nat.not_le.mpr hlow]
      · by_cases hhigh : t < 8 * m + 8
        · have hmod : t - 8 * m = t % 8 := by omega
          have ht : t < w := by omega
          have hsub : t - 8 * m < w := by omega
          simp only [BitVec.getLsbD_shiftLeft, BitVec.getLsbD_setWidth]
          grind
        · have hout : b.toBitVec.getLsbD (t - 8 * m) = false :=
            BitVec.getLsbD_of_ge _ _ (by omega)
          simp only [BitVec.getLsbD_shiftLeft, BitVec.getLsbD_setWidth]
          grind
    have hdiv (hlo : 8 * m ≤ t) (hhi : t < 8 * m + 8) : t / 8 = m := by omega
    rw [xorBytes]
    cases hbyte : byte m with
    | none =>
      simp only [ih k (by omega)]
      by_cases hlow : t < 8 * m
      · simp [hlow, show t < 8 * (m + 1) by omega]
      · by_cases hhigh : t < 8 * m + 8
        · simp [hlow, hdiv (by omega) hhigh, hbyte]
        · simp [hlow, show ¬ t < 8 * (m + 1) by omega]
    | some b =>
      simp only [ih _ (show 8 * m ≤ w by omega), BitVec.getLsbD_xor, hplace]
      by_cases hlow : t < 8 * m
      · simp [hlow, show t < 8 * (m + 1) by omega, Nat.not_le.mpr hlow]
      · by_cases hhigh : t < 8 * m + 8
        · simp [hlow, hdiv (by omega) hhigh, hbyte, show 8 * m ≤ t by omega, hhigh,
            show t < 8 * (m + 1) by omega]
        · simp [hlow, hhigh, show ¬ t < 8 * (m + 1) by omega]

/-- A word made of bytes stands for them. -/
theorem xorBytes_eq_iff (k : BitVec w) (hm : 8 * m ≤ w) :
    xorBytes byte m k = xorBytes byte' m k ↔
      ∀ i < m, (byte i).getD 0 = (byte' i).getD 0 := by
  constructor
  · intro h i hi
    apply UInt8.toBitVec_inj.mp
    apply BitVec.eq_of_getLsbD_eq
    intro t ht
    have hbit := congrArg (fun z : BitVec w => z.getLsbD (8 * i + t)) h
    have hlt : 8 * i + t < 8 * m := by omega
    have hdiv : (8 * i + t) / 8 = i := by omega
    have hmod : (8 * i + t) % 8 = t := by omega
    simpa [getLsbD_xorBytes k hm, hlt, hdiv, hmod] using hbit
  · intro h
    apply BitVec.eq_of_getLsbD_eq
    intro t _
    rw [getLsbD_xorBytes k hm, getLsbD_xorBytes k hm]
    by_cases ht : t < 8 * m
    · rw [h (t / 8) (by omega)]
    · simp [ht]

end Bytes

/-! ## Absorbing blocks -/

section Absorb

variable {H K D : Type*} {step : H → K → H} {last : H → K → H} {finish : H → D} {n j : Nat}
  {f g : Nat → K} {u v : K}

theorem foldl_injective (hstate : ∀ k, Injective fun h => step h k) (keys : List K) :
    Injective fun h => keys.foldl step h := by
  induction keys with
  | nil => exact injective_id
  | cons k keys ih => exact ih.comp (hstate k)

/-- A state tells apart the blocks at one place of a row. -/
theorem foldl_map_eq_iff (hstate : ∀ k, Injective fun h => step h k)
    (hkey : ∀ h, Injective (step h)) (h : H) {row : List Nat} (hrow : row.Nodup) (hj : j ∈ row)
    (hagree : ∀ i ∈ row, i ≠ j → f i = g i) :
    (row.map f).foldl step h = (row.map g).foldl step h ↔ f j = g j := by
  obtain ⟨before, after, rfl⟩ := List.append_of_mem hj
  have hnot : j ∉ before ∧ j ∉ after := by
    grind [List.nodup_append]
  have hbefore : before.map f = before.map g := by
    apply List.map_congr_left
    intro i hi
    exact hagree i (by simp [hi]) (by grind)
  have hafter : after.map f = after.map g := by
    apply List.map_congr_left
    intro i hi
    exact hagree i (by simp [hi]) (by grind)
  rw [List.map_append, List.map_append, List.map_cons, List.map_cons, List.foldl_append,
    List.foldl_append, List.foldl_cons, List.foldl_cons, hbefore, hafter]
  exact ((foldl_injective hstate (after.map g)).eq_iff).trans (hkey _).eq_iff

/-- The hash of `n` blocks and a tail, which counts as block `n`: keys that differ in no block
but the one at `j` have the same hash only if they are the same. -/
theorem absorb_eq_iff (hstate : ∀ k, Injective fun h => step h k) (hkey : ∀ h, Injective (step h))
    (hlast : ∀ k, Injective fun h => last h k) (htail : ∀ h, Injective (last h))
    (hfinish : Injective finish) (h : H) (hagree : ∀ i < n, i ≠ j → f i = g i)
    (hagree' : n ≠ j → u = v) :
    finish (last (((List.range n).map f).foldl step h) u) =
        finish (last (((List.range n).map g).foldl step h) v) ↔
      (∀ i < n, f i = g i) ∧ u = v := by
  rw [hfinish.eq_iff]
  by_cases hj : j ∈ List.range n
  · have hjn : j < n := List.mem_range.mp hj
    obtain rfl : u = v := hagree' (by omega)
    rw [(hlast u).eq_iff, foldl_map_eq_iff hstate hkey h List.nodup_range hj
      fun i hi => hagree i (List.mem_range.mp hi)]
    grind
  · have hall : ∀ i < n, f i = g i := by
      intro i hi
      apply hagree i hi
      rintro rfl
      exact hj (List.mem_range.mpr hi)
    have hmap : (List.range n).map f = (List.range n).map g := by
      apply List.map_congr_left
      intro i hi
      exact hall i (List.mem_range.mp hi)
    rw [hmap, (htail _).eq_iff]
    exact ⟨fun h => ⟨hall, h⟩, And.right⟩

/-- What holds of the places below `len` holds of those of each group of `n` and of the rest. -/
theorem forall_lt_iff_groups {P : Nat → Prop} {len : Nat} (hn : 0 < n) :
    (∀ i < len, P i) ↔
      (∀ j < len / n, ∀ i < n, P (n * j + i)) ∧ ∀ i < len % n, P (n * (len / n) + i) := by
  have hlen := Nat.div_add_mod len n
  constructor
  · intro h
    constructor
    · intro j hj i hi
      have hle : n * (j + 1) ≤ n * (len / n) := Nat.mul_le_mul_left n hj
      apply h
      rw [Nat.mul_add] at hle
      omega
    · intro i hi
      apply h
      omega
  · rintro ⟨hgroups, hrest⟩ i hi
    have hi' := Nat.div_add_mod i n
    have hmod := Nat.mod_lt i hn
    by_cases hgroup : i / n < len / n
    · rw [← hi']
      exact hgroups _ hgroup _ hmod
    · have heq : i / n = len / n := by
        have := Nat.div_le_div_right (c := n) (Nat.le_of_lt hi)
        omega
      rw [heq] at hi'
      rw [← hi']
      apply hrest
      omega

/-- A hash that reads `len` items in groups of `n` tells apart two rows of items that differ within
one group only. -/
theorem absorb_items_eq_iff {α : Type*} {len : Nat} (block : (Nat → α) → Nat → K)
    (tail : (Nat → α) → K) {x y : Nat → α} (hstate : ∀ k, Injective fun h => step h k)
    (hkey : ∀ h, Injective (step h)) (hlast : ∀ k, Injective fun h => last h k)
    (htail : ∀ h, Injective (last h)) (hfinish : Injective finish) (hn : 0 < n)
    (hblock : ∀ i, block x i = block y i ↔ ∀ t < n, x (n * i + t) = y (n * i + t))
    (hrest : tail x = tail y ↔ ∀ t < len % n, x (n * (len / n) + t) = y (n * (len / n) + t))
    (h : H) (hagree : ∀ i < len, i / n ≠ j → x i = y i) :
    finish (last (((List.range (len / n)).map (block x)).foldl step h) (tail x)) =
        finish (last (((List.range (len / n)).map (block y)).foldl step h) (tail y)) ↔
      ∀ i < len, x i = y i := by
  obtain ⟨hgroups, htails⟩ := (forall_lt_iff_groups hn).mp hagree
  have hdiv (i t : Nat) (ht : t < n) : (n * i + t) / n = i := by
    rw [Nat.mul_add_div hn, Nat.div_eq_of_lt ht, Nat.add_zero]
  rw [absorb_eq_iff hstate hkey hlast htail hfinish h (j := j), hrest,
    forall_lt_iff_groups (P := fun i => x i = y i) hn]
  · simp only [hblock]
  · intro i hi hij
    apply (hblock i).mpr
    intro t ht
    exact hgroups i hi t ht (by rwa [hdiv i t ht])
  · intro hij
    apply hrest.mpr
    intro t ht
    have hlt : t < n := Nat.lt_trans ht (Nat.mod_lt len hn)
    exact htails t ht (by rwa [hdiv _ t hlt])

/-- The hash is a permutation of the state that it starts in. -/
theorem absorb_injective (hstate : ∀ k, Injective fun h => step h k)
    (hlast : ∀ k, Injective fun h => last h k) (hfinish : Injective finish) (keys : List K)
    (k : K) :
    Injective fun h => finish (last (keys.foldl step h) k) :=
  hfinish.comp ((hlast k).comp (foldl_injective hstate keys))

end Absorb

end WordMix
