import Mathlib.Data.List.GetD
import Mathlib.Data.List.Nodup

/-!
# Tables of chained buckets

A table is a list of buckets, each a chain of nodes, and `bucket` names the one that a key
belongs to. In a table that is `Filed` a lookup, which searches one chain, finds a node
exactly if any bucket has it. Every operation is described by what it does to lookups, and
`lastSet` says what they are to give after a history of assignments.
-/

namespace Buckets

variable {α κ ν : Type*} [DecidableEq κ]

/-- The first node of a chain with this key. -/
def findKey (key : α → κ) (k : κ) (chain : List α) : Option α := chain.find? fun x => key x = k

/-- A chain with `f` applied to its first node of this key, if it has one. -/
def modifyKey (key : α → κ) (k : κ) (f : α → α) : List α → Option (List α)
  | [] => none
  | x :: chain =>
    if key x = k then some (f x :: chain)
    else (modifyKey key k f chain).map (x :: ·)

def lookup (key : α → κ) (bucket : κ → Nat) (buckets : List (List α)) (k : κ) : Option α :=
  findKey key k (buckets.getD (bucket k) [])

/-- The table with a new node in front of its chain. -/
def link (key : α → κ) (bucket : κ → Nat) (buckets : List (List α)) (x : α) : List (List α) :=
  buckets.set (bucket (key x)) (x :: buckets.getD (bucket (key x)) [])

/-- Every node is in the bucket of its key, and no chain has a key twice. -/
structure Filed (key : α → κ) (bucket : κ → Nat) (buckets : List (List α)) : Prop where
  placed : ∀ i chain, buckets[i]? = some chain → ∀ x ∈ chain, bucket (key x) = i
  distinct : ∀ chain ∈ buckets, (chain.map key).Nodup

/-- The value last assigned to a key. -/
def lastSet (history : List (κ × ν)) (k : κ) : Option ν :=
  (history.reverse.find? fun entry => entry.1 = k).map Prod.snd

theorem lastSet_concat (history : List (κ × ν)) (k k' : κ) (v : ν) :
    lastSet (history ++ [(k, v)]) k' = if k = k' then some v else lastSet history k' := by
  by_cases h : k = k' <;> simp [lastSet, h]

theorem lastSet_map {κ' : Type*} [DecidableEq κ'] {g : κ → κ'} (hg : Function.Injective g)
    (history : List (κ × ν)) (k : κ) :
    lastSet (history.map fun entry => (g entry.1, entry.2)) (g k) = lastSet history k := by
  simp [lastSet, ← List.map_reverse, List.find?_map, Function.comp_def, hg.eq_iff]

/-! ## One chain -/

section Chain

variable {key : α → κ} {k k' : κ} {f : α → α} {chain chain' : List α} {x : α}

theorem findKey_cons : findKey key k (x :: chain) =
    if key x = k then some x else findKey key k chain := by
  by_cases h : key x = k <;> simp [findKey, h]

theorem findKey_eq_some_iff (hdistinct : (chain.map key).Nodup) :
    findKey key k chain = some x ↔ x ∈ chain ∧ key x = k := by
  induction chain with
  | nil => simp [findKey]
  | cons y chain ih =>
    rw [List.map_cons, List.nodup_cons] at hdistinct
    rw [findKey_cons, List.mem_cons]
    by_cases hy : key y = k
    · have hnot : ¬ (x ∈ chain ∧ key x = k) := fun ⟨hmem, hx⟩ =>
        hdistinct.1 (List.mem_map.mpr ⟨x, hmem, hx.trans hy.symm⟩)
      grind
    · grind

theorem modifyKey_eq_none_iff : modifyKey key k f chain = none ↔ findKey key k chain = none := by
  induction chain with
  | nil => simp [modifyKey, findKey]
  | cons x chain ih =>
    by_cases hx : key x = k <;> simp [modifyKey, findKey_cons, hx, ih]

theorem map_key_modifyKey (hf : ∀ x, key (f x) = key x)
    (h : modifyKey key k f chain = some chain') : chain'.map key = chain.map key := by
  induction chain generalizing chain' with
  | nil => cases h
  | cons x chain ih =>
    by_cases hx : key x = k
    · simp only [modifyKey, hx, ↓reduceIte, Option.some.injEq] at h
      simp [← h, hf]
    · simp only [modifyKey, hx, ↓reduceIte, Option.map_eq_some_iff] at h
      obtain ⟨rest, hrest, rfl⟩ := h
      simp [ih hrest]

theorem findKey_modifyKey (hf : ∀ x, key (f x) = key x)
    (h : modifyKey key k f chain = some chain') :
    findKey key k' chain' =
      if k = k' then (findKey key k' chain).map f else findKey key k' chain := by
  induction chain generalizing chain' with
  | nil => cases h
  | cons x chain ih =>
    by_cases hx : key x = k
    · simp only [modifyKey, hx, ↓reduceIte, Option.some.injEq] at h
      rw [← h, findKey_cons, findKey_cons, hf, hx]
      by_cases hk : k = k' <;> simp [hk]
    · simp only [modifyKey, hx, ↓reduceIte, Option.map_eq_some_iff] at h
      obtain ⟨rest, hrest, rfl⟩ := h
      rw [findKey_cons, findKey_cons, ih hrest]
      by_cases hk : k = k'
      · simp [← hk, hx]
      · simp [hk]

end Chain

/-! ## The table -/

section Table

variable {key : α → κ} {bucket : κ → Nat} {buckets : List (List α)} {k k' : κ} {f : α → α}
  {chain chain' : List α} {x : α} {i : Nat}

/-- A lookup finds the nodes of the whole table. -/
theorem Filed.lookup_eq_some_iff (hf : Filed key bucket buckets) :
    lookup key bucket buckets k = some x ↔ x ∈ buckets.flatten ∧ key x = k := by
  rw [lookup]
  constructor
  · intro h
    have hkey : key x = k := by simpa using List.find?_some h
    have hmem : x ∈ buckets.getD (bucket k) [] := List.mem_of_find?_eq_some h
    refine ⟨?_, hkey⟩
    cases hchain : buckets[bucket k]? with
    | none => simp [List.getD, hchain] at hmem
    | some chain =>
      simp only [List.getD, hchain, Option.getD_some] at hmem
      exact List.mem_flatten.mpr ⟨chain, List.mem_of_getElem? hchain, hmem⟩
  · rintro ⟨hmem, rfl⟩
    obtain ⟨chain, hchain, hx⟩ := List.mem_flatten.mp hmem
    obtain ⟨i, hi⟩ := List.getElem?_of_mem hchain
    rw [hf.placed i chain hi x hx, List.getD, hi]
    exact (findKey_eq_some_iff (hf.distinct chain hchain)).mpr ⟨hx, rfl⟩

omit [DecidableEq κ] in
/-- No key occurs twice in the whole table. -/
theorem Filed.nodup (hf : Filed key bucket buckets) : (buckets.flatten.map key).Nodup := by
  rw [List.map_flatten, List.nodup_flatten]
  constructor
  · intro keys hkeys
    obtain ⟨chain, hchain, rfl⟩ := List.mem_map.mp hkeys
    exact hf.distinct chain hchain
  · rw [List.pairwise_map, List.pairwise_iff_getElem]
    intro i j hi hj hlt k hk hk'
    obtain ⟨x, hx, rfl⟩ := List.mem_map.mp hk
    obtain ⟨y, hy, hkey⟩ := List.mem_map.mp hk'
    have hxi := hf.placed i _ (List.getElem?_eq_getElem hi) x hx
    have hyj := hf.placed j _ (List.getElem?_eq_getElem hj) y hy
    rw [hkey] at hyj
    omega

theorem lookup_set (hchain : buckets[bucket k]? = some chain) :
    lookup key bucket (buckets.set (bucket k) chain') k' =
      if bucket k = bucket k' then findKey key k' chain' else lookup key bucket buckets k' := by
  have hlt : bucket k < buckets.length := (List.getElem?_eq_some_iff.mp hchain).1
  by_cases h : bucket k = bucket k'
  · simp [lookup, List.getD, ← h, hlt]
  · simp [lookup, List.getD, h]

theorem lookup_of_getElem? (hchain : buckets[bucket k]? = some chain) :
    lookup key bucket buckets k = findKey key k chain := by
  rw [lookup, List.getD, hchain]
  rfl

omit [DecidableEq κ] in
theorem Filed.set (hf : Filed key bucket buckets) (hi : buckets[i]? = some chain)
    (hplaced : ∀ x ∈ chain', bucket (key x) = i) (hdistinct : (chain'.map key).Nodup) :
    Filed key bucket (buckets.set i chain') := by
  constructor
  · intro j other hj y hy
    rw [List.getElem?_set] at hj
    grind [hf.placed j other]
  · intro other hmem
    rcases List.mem_or_eq_of_mem_set hmem with hmem | rfl
    · exact hf.distinct other hmem
    · exact hdistinct

theorem Filed.linked (hf : Filed key bucket buckets) (hlt : bucket (key x) < buckets.length)
    (hnew : lookup key bucket buckets (key x) = none) :
    Filed key bucket (link key bucket buckets x) := by
  have hchain := List.getElem?_eq_getElem hlt
  rw [lookup_of_getElem? hchain] at hnew
  rw [link, List.getD_eq_getElem _ _ hlt]
  apply hf.set hchain
  · grind [hf.placed _ _ hchain]
  · rw [List.map_cons, List.nodup_cons]
    refine ⟨fun hmem => ?_, hf.distinct _ (List.getElem_mem hlt)⟩
    obtain ⟨y, hy, hkey⟩ := List.mem_map.mp hmem
    have := List.find?_eq_none.mp hnew y hy
    simp [hkey] at this

theorem lookup_link (hlt : bucket (key x) < buckets.length) :
    lookup key bucket (link key bucket buckets x) k =
      if key x = k then some x else lookup key bucket buckets k := by
  have hchain := List.getElem?_eq_getElem hlt
  rw [link, List.getD_eq_getElem _ _ hlt, lookup_set hchain, findKey_cons]
  by_cases h : key x = k
  · simp [h]
  · by_cases hb : bucket (key x) = bucket k
    · rw [if_pos hb, if_neg h, if_neg h, lookup_of_getElem? (k := k) (by rw [← hb]; exact hchain)]
    · simp [h, hb]

theorem Filed.overwrite (hf : Filed key bucket buckets) (hkey : ∀ x, key (f x) = key x)
    (hchain : buckets[bucket k]? = some chain) (hmod : modifyKey key k f chain = some chain') :
    Filed key bucket (buckets.set (bucket k) chain') := by
  have hkeys := map_key_modifyKey hkey hmod
  apply hf.set hchain
  · intro x hx
    have hmem : key x ∈ chain.map key := hkeys ▸ List.mem_map_of_mem hx
    obtain ⟨y, hy, hxy⟩ := List.mem_map.mp hmem
    rw [← hxy, hf.placed _ chain hchain y hy]
  · rw [hkeys]
    exact hf.distinct chain (List.mem_of_getElem? hchain)

theorem lookup_overwrite (hkey : ∀ x, key (f x) = key x)
    (hchain : buckets[bucket k]? = some chain) (hmod : modifyKey key k f chain = some chain') :
    lookup key bucket (buckets.set (bucket k) chain') k' =
      if k = k' then (lookup key bucket buckets k').map f else lookup key bucket buckets k' := by
  rw [lookup_set hchain, findKey_modifyKey hkey hmod]
  by_cases hb : bucket k = bucket k'
  · rw [if_pos hb, lookup_of_getElem? (hb ▸ hchain)]
  · rw [if_neg hb, if_neg (fun h => hb (congrArg bucket h))]

theorem flatten_set_perm (hi : buckets[i]? = some chain) :
    (buckets.set i (x :: chain)).flatten.Perm (x :: buckets.flatten) := by
  induction buckets generalizing i with
  | nil => cases hi
  | cons c buckets ih =>
    cases i with
    | zero =>
      obtain rfl : c = chain := by simpa using hi
      simp
    | succ i =>
      simpa using ((ih (by simpa using hi)).append_left c).trans List.perm_middle

omit [DecidableEq κ] in
theorem flatten_link (hlt : bucket (key x) < buckets.length) :
    (link key bucket buckets x).flatten.Perm (x :: buckets.flatten) := by
  rw [link, List.getD_eq_getElem _ _ hlt]
  exact flatten_set_perm (List.getElem?_eq_getElem hlt)

omit [DecidableEq κ] in
theorem length_link : (link key bucket buckets x).length = buckets.length := List.length_set

/-- Nodes with new keys, linked one after the other. -/
theorem Filed.foldl_link (hf : Filed key bucket buckets) (nodes : List α)
    (hlt : ∀ k, bucket k < buckets.length)
    (hnodup : ((buckets.flatten ++ nodes).map key).Nodup) :
    Filed key bucket (nodes.foldl (link key bucket) buckets) ∧
      (nodes.foldl (link key bucket) buckets).flatten.Perm (buckets.flatten ++ nodes) ∧
      (nodes.foldl (link key bucket) buckets).length = buckets.length := by
  induction nodes generalizing buckets with
  | nil => simpa using hf
  | cons x nodes ih =>
    have hperm : (link key bucket buckets x).flatten.Perm (x :: buckets.flatten) :=
      flatten_link (hlt (key x))
    have hmiddle : ((link key bucket buckets x).flatten ++ nodes).Perm
        (buckets.flatten ++ x :: nodes) :=
      (hperm.append_right nodes).trans List.perm_middle.symm
    have hnew : lookup key bucket buckets (key x) = none := by
      rw [Option.eq_none_iff_forall_ne_some]
      intro y hy
      obtain ⟨hmem, hkey⟩ := hf.lookup_eq_some_iff.mp hy
      rw [List.map_append, List.nodup_append] at hnodup
      exact hnodup.2.2 _ (List.mem_map_of_mem hmem) _ (by simp) hkey
    have hnodup' := (hmiddle.map key).nodup_iff.mpr hnodup
    obtain ⟨hfiled, hflatten, hlength⟩ :=
      ih (hf.linked (hlt _) hnew) (fun k => by simpa [length_link] using hlt k) hnodup'
    exact ⟨hfiled, hflatten.trans hmiddle, hlength.trans length_link⟩

/-- Lookups depend on the nodes only, not on the buckets that they are in. -/
theorem Filed.lookup_congr {bucket' : κ → Nat} {buckets' : List (List α)}
    (hf : Filed key bucket buckets) (hf' : Filed key bucket' buckets')
    (hperm : buckets'.flatten.Perm buckets.flatten) :
    lookup key bucket' buckets' k = lookup key bucket buckets k := by
  apply Option.ext
  intro x
  rw [hf'.lookup_eq_some_iff, hf.lookup_eq_some_iff, hperm.mem_iff]

theorem length_flatten_overwrite (hkey : ∀ x, key (f x) = key x) (hi : buckets[i]? = some chain)
    (hmod : modifyKey key k f chain = some chain') :
    (buckets.set i chain').flatten.length = buckets.flatten.length := by
  have hlen : chain'.length = chain.length := by
    simpa using congrArg List.length (map_key_modifyKey hkey hmod)
  induction buckets generalizing i with
  | nil => cases hi
  | cons c buckets ih =>
    cases i with
    | zero =>
      obtain rfl : c = chain := by simpa using hi
      simp [hlen]
    | succ i =>
      have := ih (by simpa using hi)
      simp only [List.set_cons_succ, List.flatten_cons, List.length_append, this]

/-- The empty table. -/
theorem filed_replicate (n : Nat) : Filed key bucket (List.replicate n []) := by
  constructor
  · grind
  · grind

theorem lookup_replicate (n : Nat) :
    lookup key bucket (List.replicate n []) k = none := by
  rw [lookup, findKey]
  grind

end Table

end Buckets
