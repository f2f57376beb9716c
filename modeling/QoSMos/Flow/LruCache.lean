import Mathlib.Data.List.Dedup
import Mathlib.Order.Basic
import QoSMos.Lib.Buckets
import QoSMos.Lib.Returns

/-!
# The cache of `lrucache.h`

A list of pairs in the order of their last use and a map from keys to iterators into the list.
An iterator is the identity of a node, which stays its own until the node is erased; using it
afterwards is undefined. So is a reference that `get` returned: `put` takes its value by reference.
The order in which the map is iterated over is a parameter.
-/

namespace QoSMos

open Buckets Returns

/-- How a member function ends without returning. -/
inductive CacheError where
  | undefined (operation : String)
  | rangeError (message : String)
  deriving DecidableEq, Repr

/-- The order that an `unordered_map` gives to the elements it has after an insertion. -/
structure IterationOrder (α : Type) where
  arrange : List α → List α
  perm : ∀ l, (arrange l).Perm l

/-- `lru_cache`; `fresh` is an identity that no node has had. -/
structure LruCache (κ ν : Type) where
  list : List (Nat × κ × ν)
  map : List (κ × Nat)
  maxSize : Nat
  fresh : Nat

namespace LruCache

variable {κ ν : Type} [DecidableEq κ]

def new (maxSize : Nat) : LruCache κ ν := ⟨[], [], maxSize, 0⟩

/-- `*node` -/
def deref (list : List (Nat × κ × ν)) (node : Nat) : Except CacheError (κ × ν) :=
  match list.find? fun n => n.1 = node with
  | some n => .ok n.2
  | none => .error (.undefined "*node")

/-- `_cache_items_list.erase(node)` -/
def eraseNode (list : List (Nat × κ × ν)) (node : Nat) :
    Except CacheError (List (Nat × κ × ν)) :=
  if list.any fun n => n.1 = node then .ok (list.filter fun n => n.1 ≠ node)
  else .error (.undefined "erase(node)")

/-- `_cache_items_map.erase(key)` -/
def eraseKey (map : List (κ × Nat)) (key : κ) : List (κ × Nat) := map.filter fun e => e.1 ≠ key

/-- `_cache_items_map[key] = node` -/
def setKey (order : IterationOrder (κ × Nat)) (map : List (κ × Nat)) (key : κ) (node : Nat) :
    List (κ × Nat) :=
  match modifyKey Prod.fst key (fun e => (e.1, node)) map with
  | some map => map
  | none => order.arrange ((key, node) :: map)

def eraseIfExists (c : LruCache κ ν) (key : κ) : Except CacheError (LruCache κ ν) :=
  match findKey Prod.fst key c.map with
  | some e => do
    let list ← eraseNode c.list e.2
    return { c with list, map := eraseKey c.map key }
  | none => .ok c

/-- The end of `put`: drop the last node if the cache is too large. -/
def evict (c : LruCache κ ν) : Except CacheError (LruCache κ ν) :=
  if c.map.length > c.maxSize then
    match c.list.getLast? with
    | some last =>
      .ok { c with map := eraseKey c.map last.2.1, list := c.list.dropLast }
    | none => .error (.undefined "last--")
  else .ok c

/-- A `const value_t&`: to an object of the caller, or into a node of the cache. -/
inductive Reference (ν : Type) where
  | object (value : ν)
  | node (node : Nat)

/-- The value that a reference refers to now. -/
def Reference.read (list : List (Nat × κ × ν)) : Reference ν → Except CacheError ν
  | .object value => .ok value
  | .node n => do return (← deref list n).2

def put (order : IterationOrder (κ × Nat)) (c : LruCache κ ν) (key : κ) (value : Reference ν) :
    Except CacheError (LruCache κ ν) := do
  let c ← eraseIfExists c key
  let value ← value.read c.list
  evict { c with
    list := (c.fresh, key, value) :: c.list
    map := setKey order c.map key c.fresh
    fresh := c.fresh + 1 }

def get (c : LruCache κ ν) (key : κ) : Except CacheError (ν × LruCache κ ν) :=
  match findKey Prod.fst key c.map with
  | some e => do
    let item ← deref c.list e.2
    let list ← eraseNode c.list e.2
    return (item.2, { c with list := (e.2, item) :: list })
  | none => .error (.rangeError "There is no such key in cache")

/-- The loop of `erase_if` from an iterator of the map on. -/
def eraseIfFrom (f : ν → Bool) (list : List (Nat × κ × ν)) :
    List (κ × Nat) → Except CacheError (List (Nat × κ × ν) × List (κ × Nat))
  | [] => .ok (list, [])
  | e :: map => do
    let item ← deref list e.2
    if f item.2 then
      let list ← eraseNode list e.2
      eraseIfFrom f list map
    else
      let (list, map) ← eraseIfFrom f list map
      return (list, e :: map)

def eraseIf (f : ν → Bool) (c : LruCache κ ν) : Except CacheError (LruCache κ ν) := do
  let (list, map) ← eraseIfFrom f c.list c.map
  return { c with list, map }

def clear (c : LruCache κ ν) : LruCache κ ν := { c with list := [], map := [] }

/-- `exists` -/
def hasKey (c : LruCache κ ν) (key : κ) : Bool := (findKey Prod.fst key c.map).isSome

def size (c : LruCache κ ν) : Nat := c.map.length

/-- What a caller passes for a value: an object of its own, or the reference that `get` returned
for a key that has been in the cache since. -/
inductive Argument (κ ν : Type) where
  | object (value : ν)
  | got (key : κ)

def Argument.reference (c : LruCache κ ν) : Argument κ ν → Except CacheError (Reference ν)
  | .object value => .ok (.object value)
  | .got key =>
    match findKey Prod.fst key c.map with
    | some e => .ok (.node e.2)
    | none => .error (.undefined "get")

/-- A call of a member function. -/
inductive Call (κ ν : Type) where
  | put (key : κ) (value : Argument κ ν)
  | get (key : κ)
  | hasKey (key : κ)
  | eraseIfExists (key : κ)
  | eraseIf (f : ν → Bool)
  | clear
  | size

inductive Answer (ν : Type) where
  | done
  | value (value : ν)
  | rangeError
  | bool (found : Bool)
  | size (n : Nat)
  deriving DecidableEq, Repr

/-- A call; an exception leaves the cache to the next one. -/
def call (order : IterationOrder (κ × Nat)) (c : LruCache κ ν) :
    Call κ ν → Except CacheError (LruCache κ ν × Answer ν)
  | .put key value => do return (← put order c key (← value.reference c), .done)
  | .get key =>
    match get c key with
    | .ok (value, c) => .ok (c, .value value)
    | .error (.rangeError _) => .ok (c, .rangeError)
    | .error e => .error e
  | .hasKey key => .ok (c, .bool (hasKey c key))
  | .eraseIfExists key => do return (← eraseIfExists c key, .done)
  | .eraseIf f => do return (← eraseIf f c, .done)
  | .clear => .ok (clear c, .done)
  | .size => .ok (c, .size (size c))

def runCalls (order : IterationOrder (κ × Nat)) (c : LruCache κ ν) :
    List (Call κ ν) → Except CacheError (LruCache κ ν × List (Answer ν))
  | [] => .ok (c, [])
  | a :: calls => do
    let (c, answer) ← call order c a
    let (c, answers) ← runCalls order c calls
    return (c, answer :: answers)

/-! ## The reference list -/

/-- A list of pairs, the last used one first, that keeps at most `maxSize` of them. -/
def referencePut (maxSize : Nat) (l : List (κ × ν)) (key : κ) (value : ν) : List (κ × ν) :=
  let used := (key, value) :: l.filter fun e => e.1 ≠ key
  if used.length > maxSize then used.dropLast else used

/-- The value of an argument. -/
def Argument.value (l : List (κ × ν)) : Argument κ ν → Option ν
  | .object value => some value
  | .got key => (findKey Prod.fst key l).map Prod.snd

def referenceCall (maxSize : Nat) (l : List (κ × ν)) : Call κ ν → List (κ × ν) × Answer ν
  | .put key value =>
    match value.value l with
    | some value => (referencePut maxSize l key value, .done)
    | none => (l, .done)
  | .get key =>
    match findKey Prod.fst key l with
    | some e => (e :: l.filter fun e => e.1 ≠ key, .value e.2)
    | none => (l, .rangeError)
  | .hasKey key => (l, .bool (l.any fun e => e.1 = key))
  | .eraseIfExists key => (l.filter fun e => e.1 ≠ key, .done)
  | .eraseIf f => (l.filter fun e => ! f e.2, .done)
  | .clear => ([], .done)
  | .size => (l, .size l.length)

/-- The references that the caller passes refer into the cache. -/
def Call.Live (l : List (κ × ν)) : Call κ ν → Prop
  | .put _ value => value.value l ≠ none
  | _ => True

/-- `put(key, get(key))` -/
def Call.PutsOwn : Call κ ν → Prop
  | .put key value => value = .got key
  | _ => False

def referenceCalls (maxSize : Nat) (l : List (κ × ν)) :
    List (Call κ ν) → List (κ × ν) × List (Answer ν)
  | [] => (l, [])
  | a :: calls =>
    let (l, answer) := referenceCall maxSize l a
    let (l, answers) := referenceCalls maxSize l calls
    (l, answer :: answers)

def AllLive (maxSize : Nat) : List (κ × ν) → List (Call κ ν) → Prop
  | _, [] => True
  | l, a :: calls => a.Live l ∧ AllLive maxSize (referenceCall maxSize l a).1 calls

/-! ## The list and the map -/

/-- The list and the map are in bijection: every map entry points to the node of its key. -/
structure Linked (c : LruCache κ ν) : Prop where
  nodes : (c.list.map Prod.fst).Nodup
  keys : (c.list.map fun n => n.2.1).Nodup
  fresh : ∀ n ∈ c.list, n.1 < c.fresh
  pointers : c.map.Perm (c.list.map fun n => (n.2.1, n.1))

section Linked

variable {c : LruCache κ ν} {key : κ} {n : Nat × κ × ν}

omit [DecidableEq κ] in
theorem Linked.map_keys (hc : Linked c) : (c.map.map Prod.fst).Nodup := by
  have h := hc.pointers.map Prod.fst
  rw [List.map_map] at h
  exact h.nodup_iff.mpr hc.keys

/-- A key is in the map exactly if it is in the list, with its node. -/
theorem Linked.find_of_mem (hc : Linked c) (hn : n ∈ c.list) :
    findKey Prod.fst n.2.1 c.map = some (n.2.1, n.1) := by
  rw [findKey_eq_some_iff hc.map_keys]
  exact ⟨hc.pointers.mem_iff.mpr (List.mem_map.mpr ⟨n, hn, rfl⟩), rfl⟩

theorem Linked.find_eq_none (hc : Linked c) (h : ∀ n ∈ c.list, n.2.1 ≠ key) :
    findKey Prod.fst key c.map = none := by
  rw [findKey, List.find?_eq_none]
  intro e he
  obtain ⟨n, hn, rfl⟩ := List.mem_map.mp (hc.pointers.mem_iff.mp he)
  simpa using h n hn

omit [DecidableEq κ] in
theorem Linked.deref_of_mem (hc : Linked c) (hn : n ∈ c.list) : deref c.list n.1 = .ok n.2 := by
  have hfind : c.list.find? (fun m => m.1 = n.1) = some n :=
    (findKey_eq_some_iff hc.nodes).mpr ⟨hn, rfl⟩
  rw [deref, hfind]

theorem Linked.eraseNode_of_mem (hc : Linked c) (hn : n ∈ c.list) :
    eraseNode c.list n.1 = .ok (c.list.filter fun m => m.2.1 ≠ n.2.1) := by
  rw [eraseNode, if_pos (List.any_eq_true.mpr ⟨n, hn, by simp⟩)]
  congr 1
  apply List.filter_congr
  intro m hm
  have hnode := List.inj_on_of_nodup_map hc.nodes hm hn
  have hkey := List.inj_on_of_nodup_map hc.keys hm hn
  rw [decide_eq_decide, ne_eq, ne_eq, not_iff_not]
  exact ⟨fun h => by rw [hnode h], fun h => by rw [hkey h]⟩

omit [DecidableEq κ] in
/-- Dropping some of the nodes and their map entries. -/
theorem Linked.filter (hc : Linked c) {p : Nat × κ × ν → Bool} {q : κ × Nat → Bool}
    (hpq : ∀ n ∈ c.list, q (n.2.1, n.1) = p n) :
    Linked { c with list := c.list.filter p, map := c.map.filter q } := by
  refine ⟨hc.nodes.sublist (List.filter_sublist.map _), hc.keys.sublist (List.filter_sublist.map _),
    fun n hn => hc.fresh n (List.mem_of_mem_filter hn), ?_⟩
  refine (hc.pointers.filter q).trans ?_
  rw [List.filter_map]
  have hfilter : c.list.filter (q ∘ fun n => (n.2.1, n.1)) = c.list.filter p :=
    List.filter_congr hpq
  rw [hfilter]

theorem Linked.erase (hc : Linked c) (key : κ) :
    Linked { c with
      list := c.list.filter fun n => n.2.1 ≠ key
      map := eraseKey c.map key } :=
  hc.filter fun _ _ => rfl

theorem Linked.push (hc : Linked c) (order : IterationOrder (κ × Nat)) (value : ν)
    (hnew : ∀ n ∈ c.list, n.2.1 ≠ key) :
    Linked { c with
      list := (c.fresh, key, value) :: c.list
      map := setKey order c.map key c.fresh
      fresh := c.fresh + 1 } := by
  have hmap : setKey order c.map key c.fresh = order.arrange ((key, c.fresh) :: c.map) := by
    rw [setKey, modifyKey_eq_none_iff.mpr (hc.find_eq_none hnew)]
  refine ⟨?_, ?_, ?_, ?_⟩
  · rw [List.map_cons, List.nodup_cons]
    refine ⟨fun hmem => ?_, hc.nodes⟩
    obtain ⟨n, hn, hfresh⟩ := List.mem_map.mp hmem
    have := hc.fresh n hn
    omega
  · rw [List.map_cons, List.nodup_cons]
    refine ⟨fun hmem => ?_, hc.keys⟩
    obtain ⟨n, hn, hkey⟩ := List.mem_map.mp hmem
    exact hnew n hn hkey
  · rw [List.forall_mem_cons]
    refine ⟨Nat.lt_succ_self _, fun n hn => ?_⟩
    have := hc.fresh n hn
    show n.1 < c.fresh + 1
    omega
  · rw [hmap]
    exact (order.perm _).trans (hc.pointers.cons _)

omit [DecidableEq κ] in
theorem Linked.length (hc : Linked c) : c.map.length = c.list.length := by
  simpa using hc.pointers.length_eq

theorem filter_of_new {l : List (Nat × κ × ν)} (h : ∀ n ∈ l, n.2.1 ≠ key) :
    (l.filter fun n => n.2.1 ≠ key) = l := by
  simpa using h

theorem Linked.eraseIfExists_eq (hc : Linked c) (key : κ) :
    eraseIfExists c key = .ok { c with
      list := c.list.filter fun n => n.2.1 ≠ key
      map := eraseKey c.map key } := by
  rw [eraseIfExists]
  by_cases h : ∃ n ∈ c.list, n.2.1 = key
  · obtain ⟨n, hn, rfl⟩ := h
    rw [hc.find_of_mem hn]
    exact (bind_of_ok (hc.eraseNode_of_mem hn)).trans rfl
  · have hnew : ∀ n ∈ c.list, n.2.1 ≠ key := fun n hn hkey => h ⟨n, hn, hkey⟩
    have hmap : eraseKey c.map key = c.map := by
      rw [eraseKey, List.filter_eq_self]
      intro e he
      obtain ⟨n, hn, rfl⟩ := List.mem_map.mp (hc.pointers.mem_iff.mp he)
      simpa using hnew n hn
    rw [hc.find_eq_none hnew, filter_of_new hnew, hmap]

/-- The last node is the only one of its key. -/
theorem dropLast_eq_filter {l : List (Nat × κ × ν)} (hkeys : (l.map fun n => n.2.1).Nodup)
    (hlast : l.getLast? = some n) : l.dropLast = l.filter fun m => m.2.1 ≠ n.2.1 := by
  obtain ⟨init, rfl⟩ := List.getLast?_eq_some_iff.mp hlast
  rw [List.map_append, List.nodup_append] at hkeys
  have hnew : ∀ m ∈ init, m.2.1 ≠ n.2.1 := fun m hm =>
    hkeys.2.2 _ (List.mem_map_of_mem hm) _ (by simp)
  rw [List.dropLast_concat, List.filter_append, filter_of_new hnew]
  simp

theorem Linked.evict_spec (hc : Linked c) (hsize : c.list.length ≤ c.maxSize + 1) :
    ∃ c', evict c = .ok c' ∧ Linked c' ∧ c'.maxSize = c.maxSize ∧
      c'.list.length ≤ c'.maxSize ∧
      c'.list = if c.list.length > c.maxSize then c.list.dropLast else c.list := by
  rw [evict, hc.length]
  by_cases hlarge : c.list.length > c.maxSize
  · rw [if_pos hlarge, if_pos hlarge]
    obtain ⟨last, hlast⟩ : ∃ last, c.list.getLast? = some last := by
      rw [← Option.ne_none_iff_exists', Ne, List.getLast?_eq_none_iff]
      rintro h
      simp [h] at hlarge
    rw [hlast]
    refine ⟨_, rfl, ?_, rfl, ?_, rfl⟩
    · rw [dropLast_eq_filter hc.keys hlast]
      exact hc.erase _
    · simp only [List.length_dropLast]
      omega
  · rw [if_neg hlarge, if_neg hlarge]
    exact ⟨c, rfl, hc, rfl, by omega, rfl⟩

/-- Moving a node to the front keeps the nodes. -/
theorem Linked.cons_filter_perm (hc : Linked c) (hn : n ∈ c.list) :
    (n :: c.list.filter fun m => m.2.1 ≠ n.2.1).Perm c.list := by
  obtain ⟨before, after, hsplit⟩ := List.append_of_mem hn
  have hkeys := hc.keys
  rw [hsplit, List.map_append, List.map_cons, List.nodup_append, List.nodup_cons] at hkeys
  have hbefore : ∀ m ∈ before, m.2.1 ≠ n.2.1 := fun m hm =>
    hkeys.2.2 _ (List.mem_map_of_mem hm) _ List.mem_cons_self
  have hafter : ∀ m ∈ after, m.2.1 ≠ n.2.1 := fun m hm h =>
    hkeys.2.1.1 (h ▸ List.mem_map_of_mem hm)
  rw [hsplit, List.filter_append, List.filter_cons_of_neg (by simp), filter_of_new hbefore,
    filter_of_new hafter]
  exact List.perm_middle.symm

omit [DecidableEq κ] in
/-- The loop of `erase_if` erases the nodes of the map entries in front of it whose value `f`
accepts. -/
theorem eraseIfFrom_spec {f : ν → Bool} {q : κ × Nat → Bool} {list : List (Nat × κ × ν)}
    {map : List (κ × Nat)} (hnodes : (list.map Prod.fst).Nodup) (hmap : (map.map Prod.snd).Nodup)
    (hpoint : ∀ e ∈ map, ∃ n ∈ list, n.1 = e.2 ∧ q e = ! f n.2.2) :
    eraseIfFrom f list map = .ok
      (list.filter fun n => ! (f n.2.2 && decide (n.1 ∈ map.map Prod.snd)), map.filter q) := by
  induction map generalizing list with
  | nil => simp [eraseIfFrom]
  | cons e map ih =>
    rw [List.forall_mem_cons] at hpoint
    obtain ⟨⟨n, hn, hnode, hq⟩, hpoint⟩ := hpoint
    rw [List.map_cons, List.nodup_cons] at hmap
    have hderef : deref list e.2 = .ok n.2 := by
      have hfind : list.find? (fun m => m.1 = e.2) = some n :=
        (findKey_eq_some_iff hnodes).mpr ⟨hn, hnode⟩
      rw [deref, hfind]
    have hsame (m : Nat × κ × ν) (hm : m ∈ list) (h : m.1 = e.2) : m = n :=
      List.inj_on_of_nodup_map hnodes hm hn (h.trans hnode.symm)
    refine (bind_of_ok hderef).trans ?_
    by_cases hf : f n.2.2
    · have herase : eraseNode list e.2 = .ok (list.filter fun m => m.1 ≠ e.2) :=
        if_pos (List.any_eq_true.mpr ⟨n, hn, by simp [hnode]⟩)
      rw [if_pos hf]
      refine (bind_of_ok herase).trans ((ih (hnodes.sublist (List.filter_sublist.map _)) hmap.2
        fun x hx => ?_).trans ?_)
      · obtain ⟨m, hm, hmx, hqx⟩ := hpoint x hx
        refine ⟨m, List.mem_filter.mpr ⟨hm, ?_⟩, hmx, hqx⟩
        have : x.2 ≠ e.2 := fun h => hmap.1 (h ▸ List.mem_map_of_mem hx)
        simpa [hmx] using this
      · rw [List.filter_filter, List.filter_cons_of_neg (by simp [hq, hf])]
        congr 2
        apply List.filter_congr
        intro m hm
        rw [Bool.eq_iff_iff]
        simp only [Bool.and_eq_true, Bool.not_eq_true', Bool.and_eq_false_iff,
          decide_eq_false_iff_not, decide_eq_true_eq, List.map_cons, List.mem_cons, not_or]
        by_cases hm' : m.1 = e.2
        · simp [hsame m hm hm', hf, hnode]
        · simp [hm']
    · rw [if_neg hf]
      refine (bind_of_ok (ih hnodes hmap.2 hpoint)).trans ?_
      rw [List.filter_cons_of_pos (by simp [hq, hf])]
      refine congrArg Except.ok (Prod.ext ?_ rfl)
      apply List.filter_congr
      intro m hm
      rw [Bool.eq_iff_iff]
      simp only [Bool.not_eq_true', Bool.and_eq_false_iff, decide_eq_false_iff_not, List.map_cons,
        List.mem_cons, not_or]
      by_cases hm' : m.1 = e.2
      · simp [hsame m hm hm', hf]
      · simp [hm']

omit [DecidableEq κ] in
theorem Linked.eraseIf_spec (hc : Linked c) (f : ν → Bool) : ∃ c', eraseIf f c = .ok c' ∧
    Linked c' ∧ c'.maxSize = c.maxSize ∧ c'.list = c.list.filter fun n => ! f n.2.2 := by
  let q (e : κ × Nat) : Bool := ! c.list.any fun n => n.1 = e.2 && f n.2.2
  have hq : ∀ n ∈ c.list, q (n.2.1, n.1) = ! f n.2.2 := by
    intro n hn
    have hsame (m : Nat × κ × ν) (hm : m ∈ c.list) (h : m.1 = n.1) : m = n :=
      List.inj_on_of_nodup_map hc.nodes hm hn h
    have : (c.list.any fun m => m.1 = n.1 && f m.2.2) = f n.2.2 := by
      rw [Bool.eq_iff_iff, List.any_eq_true]
      constructor
      · rintro ⟨m, hm, hboth⟩
        simp only [Bool.and_eq_true, decide_eq_true_eq] at hboth
        rw [← hsame m hm hboth.1]
        exact hboth.2
      · intro hf
        exact ⟨n, hn, by simp [hf]⟩
    simp only [q, this]
  have hpoint : ∀ e ∈ c.map, ∃ n ∈ c.list, n.1 = e.2 ∧ q e = ! f n.2.2 := by
    intro e he
    obtain ⟨n, hn, rfl⟩ := List.mem_map.mp (hc.pointers.mem_iff.mp he)
    exact ⟨n, hn, rfl, hq n hn⟩
  have hmap : (c.map.map Prod.snd).Nodup := by
    have h := hc.pointers.map Prod.snd
    rw [List.map_map] at h
    exact h.nodup_iff.mpr hc.nodes
  have hall : (c.list.filter fun n => ! (f n.2.2 && decide (n.1 ∈ c.map.map Prod.snd))) =
      c.list.filter fun n => ! f n.2.2 := by
    apply List.filter_congr
    intro n hn
    have : n.1 ∈ c.map.map Prod.snd :=
      List.mem_map.mpr ⟨(n.2.1, n.1), hc.pointers.mem_iff.mpr (List.mem_map.mpr ⟨n, hn, rfl⟩), rfl⟩
    simp [this]
  have hrun := eraseIfFrom_spec (f := f) hc.nodes hmap hpoint
  rw [hall] at hrun
  exact ⟨_, (bind_of_ok hrun).trans rfl, hc.filter hq, rfl, rfl⟩

end Linked

/-! ## Runs -/

/-- The cache holds the pairs of a reference list, in its order. -/
structure Tracks (maxSize : Nat) (c : LruCache κ ν) (l : List (κ × ν)) : Prop where
  linked : Linked c
  items : c.list.map Prod.snd = l
  maxSizeEq : c.maxSize = maxSize
  length : c.list.length ≤ maxSize

section Runs

variable {c : LruCache κ ν} {l : List (κ × ν)} {key : κ} {n : Nat × κ × ν} {maxSize : Nat}

omit [DecidableEq κ] in
theorem tracks_new : Tracks maxSize (new maxSize : LruCache κ ν) [] :=
  ⟨⟨by simp [new], by simp [new], by simp [new], by simp [new]⟩, rfl, rfl, by simp [new]⟩

theorem map_snd_filter (list : List (Nat × κ × ν)) (key : κ) :
    (list.filter fun n => n.2.1 ≠ key).map Prod.snd =
      (list.map Prod.snd).filter fun e => e.1 ≠ key := by
  rw [List.filter_map]
  rfl

theorem Linked.find_items_of_mem (hc : Linked c) (hn : n ∈ c.list) :
    findKey Prod.fst n.2.1 (c.list.map Prod.snd) = some n.2 := by
  have hkeys : ((c.list.map Prod.snd).map Prod.fst).Nodup := by
    rw [List.map_map]
    exact hc.keys
  exact (findKey_eq_some_iff hkeys).mpr ⟨List.mem_map_of_mem hn, rfl⟩

theorem find_items_eq_none (h : ∀ n ∈ c.list, n.2.1 ≠ key) :
    findKey Prod.fst key (c.list.map Prod.snd) = none := by
  rw [findKey, List.find?_eq_none]
  intro e he
  obtain ⟨n, hn, rfl⟩ := List.mem_map.mp he
  simpa using h n hn

theorem Tracks.erase (hc : Tracks maxSize c l) (key : κ) : ∃ c', eraseIfExists c key = .ok c' ∧
    Tracks maxSize c' (l.filter fun e => e.1 ≠ key) ∧
    c'.list = c.list.filter fun n => n.2.1 ≠ key := by
  refine ⟨_, hc.linked.eraseIfExists_eq key, ⟨hc.linked.erase key, ?_, hc.maxSizeEq, ?_⟩, rfl⟩
  · rw [map_snd_filter, hc.items]
  · exact Nat.le_trans (List.length_filter_le _ _) hc.length

/-- A key of the reference list has a node, and `get` refers into it. -/
theorem Tracks.got (hc : Tracks maxSize c l) {value : ν}
    (hvalue : (Argument.got key).value l = some value) :
    ∃ n ∈ c.list, n.2 = (key, value) ∧ (Argument.got key).reference c = .ok (.node n.1) := by
  obtain ⟨⟨key', value'⟩, hfind, hsame⟩ := Option.map_eq_some_iff.mp hvalue
  obtain rfl : value' = value := hsame
  have hkey : key' = key := by simpa using List.find?_some hfind
  subst hkey
  rw [← hc.items] at hfind
  obtain ⟨n, hn, hitem⟩ := List.mem_map.mp (List.mem_of_find?_eq_some hfind)
  refine ⟨n, hn, hitem, ?_⟩
  have hnode := hc.linked.find_of_mem hn
  rw [hitem] at hnode
  rw [Argument.reference, hnode]

/-- The value of any argument but the one for the key itself is still there when it is copied. -/
theorem Tracks.read (hc : Tracks maxSize c l) {c₁ : LruCache κ ν} {argument : Argument κ ν}
    {value : ν} (h₁ : Linked c₁) (hlist : c₁.list = c.list.filter fun n => n.2.1 ≠ key)
    (hvalue : argument.value l = some value) (hother : argument ≠ .got key) :
    ∃ r, argument.reference c = .ok r ∧ r.read c₁.list = .ok value := by
  cases argument with
  | object v =>
    obtain rfl : v = value := Option.some.inj hvalue
    exact ⟨.object v, rfl, rfl⟩
  | got key' =>
    obtain ⟨n, hn, hitem, hreference⟩ := hc.got hvalue
    have hmem : n ∈ c₁.list := by
      rw [hlist]
      refine List.mem_filter.mpr ⟨hn, ?_⟩
      rw [hitem]
      simpa using fun h => hother (congrArg Argument.got h)
    refine ⟨.node n.1, hreference, ?_⟩
    rw [Reference.read, h₁.deref_of_mem hmem, hitem]
    rfl

theorem Tracks.put (hc : Tracks maxSize c l) (order : IterationOrder (κ × Nat)) (key : κ)
    {argument : Argument κ ν} {value : ν} (hvalue : argument.value l = some value)
    (hother : argument ≠ .got key) :
    ∃ r c', argument.reference c = .ok r ∧ put order c key r = .ok c' ∧
      Tracks maxSize c' (referencePut maxSize l key value) := by
  obtain ⟨c₁, herase, h₁, hlist₁⟩ := hc.erase key
  obtain ⟨r, hreference, hread⟩ := hc.read h₁.linked hlist₁ hvalue hother
  have hnew : ∀ n ∈ c₁.list, n.2.1 ≠ key := by
    rw [hlist₁]
    intro n hn
    simpa using (List.mem_filter.mp hn).2
  have hpush := h₁.linked.push order value hnew
  obtain ⟨c', hevict, hlinked, hmax, hlength, hlist⟩ := hpush.evict_spec
    (by simpa [h₁.maxSizeEq] using h₁.length)
  rw [h₁.maxSizeEq] at hmax
  refine ⟨r, c', hreference, (bind_of_ok herase).trans ((bind_of_ok hread).trans hevict), hlinked,
    ?_, hmax, hmax ▸ hlength⟩
  have hlen : (l.filter fun e => e.1 ≠ key).length = c₁.list.length := by
    rw [← h₁.items, List.length_map]
  rw [hlist, h₁.maxSizeEq, referencePut, List.length_cons, List.length_cons, hlen,
    apply_ite (List.map Prod.snd), ← h₁.items]
  simp only [List.map_cons, List.map_dropLast]

/-- The node of the key itself is erased before its value is copied. -/
theorem Tracks.put_own (hc : Tracks maxSize c l) (order : IterationOrder (κ × Nat))
    (hvalue : (Argument.got key : Argument κ ν).value l ≠ none) :
    ∃ r, (Argument.got key : Argument κ ν).reference c = .ok r ∧
      LruCache.put order c key r = .error (.undefined "*node") := by
  obtain ⟨value, hvalue⟩ := Option.ne_none_iff_exists'.mp hvalue
  obtain ⟨n, hn, hitem, hreference⟩ := hc.got hvalue
  obtain ⟨c₁, herase, -, hlist⟩ := hc.erase key
  refine ⟨.node n.1, hreference, (bind_of_ok herase).trans ?_⟩
  have hgone : c₁.list.find? (fun m => m.1 = n.1) = none := by
    rw [hlist, List.find?_eq_none]
    intro m hm
    obtain ⟨hm, hkey⟩ := List.mem_filter.mp hm
    rw [decide_eq_true_eq]
    intro hnode
    rw [List.inj_on_of_nodup_map hc.linked.nodes hm hn hnode, hitem] at hkey
    simp at hkey
  have hread : (Reference.node n.1 : Reference ν).read c₁.list = .error (.undefined "*node") := by
    rw [Reference.read, deref, hgone]
    rfl
  rw [hread]
  rfl

theorem Tracks.get (hc : Tracks maxSize c l) (hn : n ∈ c.list) :
    ∃ c', get c n.2.1 = .ok (n.2.2, c') ∧
      Tracks maxSize c' (n.2 :: l.filter fun e => e.1 ≠ n.2.1) := by
  have hrun : LruCache.get c n.2.1 = .ok (n.2.2,
      { c with list := (n.1, n.2) :: c.list.filter fun m => m.2.1 ≠ n.2.1 }) := by
    rw [LruCache.get, hc.linked.find_of_mem hn]
    refine (bind_of_ok (hc.linked.deref_of_mem hn)).trans ?_
    exact (bind_of_ok (hc.linked.eraseNode_of_mem hn)).trans rfl
  have hperm := hc.linked.cons_filter_perm hn
  refine ⟨_, hrun, ⟨?_, ?_, ?_, ?_⟩, ?_, hc.maxSizeEq, ?_⟩
  · exact (hperm.map _).nodup_iff.mpr hc.linked.nodes
  · exact (hperm.map _).nodup_iff.mpr hc.linked.keys
  · exact fun m hm => hc.linked.fresh m (hperm.mem_iff.mp hm)
  · exact hc.linked.pointers.trans (hperm.map _).symm
  · rw [List.map_cons, map_snd_filter, hc.items]
  · exact hperm.length_eq.trans_le hc.length

/-- A step: the answer is that of the reference list, and the cache goes on tracking it. -/
theorem Tracks.call (hc : Tracks maxSize c l) (order : IterationOrder (κ × Nat)) {a : Call κ ν}
    (hlive : a.Live l) (hown : ¬ a.PutsOwn) :
    ∃ c', call order c a = .ok (c', (referenceCall maxSize l a).2) ∧
      Tracks maxSize c' (referenceCall maxSize l a).1 := by
  cases a with
  | put key argument =>
    obtain ⟨value, hvalue⟩ := Option.ne_none_iff_exists'.mp hlive
    obtain ⟨r, c', hreference, hput, hc'⟩ := hc.put order key hvalue hown
    rw [referenceCall, hvalue]
    exact ⟨c', (bind_of_ok hreference).trans ((bind_of_ok hput).trans rfl), hc'⟩
  | get key =>
    by_cases h : ∃ n ∈ c.list, n.2.1 = key
    · obtain ⟨n, hn, rfl⟩ := h
      obtain ⟨c', hget, hc'⟩ := hc.get hn
      have hfind := hc.linked.find_items_of_mem hn
      rw [hc.items] at hfind
      rw [referenceCall, hfind, LruCache.call, hget]
      exact ⟨c', rfl, hc'⟩
    · have hnew : ∀ n ∈ c.list, n.2.1 ≠ key := fun n hn hkey => h ⟨n, hn, hkey⟩
      have hfind := find_items_eq_none hnew
      rw [hc.items] at hfind
      rw [referenceCall, hfind, LruCache.call, LruCache.get, hc.linked.find_eq_none hnew]
      exact ⟨c, rfl, hc⟩
  | hasKey key =>
    refine ⟨c, congrArg Except.ok (Prod.ext rfl ?_), hc⟩
    show Answer.bool _ = Answer.bool _
    congr 1
    rw [← hc.items, hasKey]
    by_cases h : ∃ n ∈ c.list, n.2.1 = key
    · obtain ⟨n, hn, rfl⟩ := h
      rw [hc.linked.find_of_mem hn, Option.isSome_some, eq_comm, List.any_eq_true]
      exact ⟨n.2, List.mem_map_of_mem hn, by simp⟩
    · have hnew : ∀ n ∈ c.list, n.2.1 ≠ key := fun n hn hkey => h ⟨n, hn, hkey⟩
      rw [hc.linked.find_eq_none hnew, Option.isSome_none, eq_comm, List.any_eq_false]
      intro e he
      obtain ⟨n, hn, rfl⟩ := List.mem_map.mp he
      simpa using hnew n hn
  | eraseIfExists key =>
    obtain ⟨c', herase, hc', -⟩ := hc.erase key
    exact ⟨c', (bind_of_ok herase).trans rfl, hc'⟩
  | eraseIf f =>
    obtain ⟨c', herase, hlinked, hmax, hlist⟩ := hc.linked.eraseIf_spec f
    refine ⟨c', (bind_of_ok herase).trans rfl, hlinked, ?_, hmax.trans hc.maxSizeEq, ?_⟩
    · rw [hlist, referenceCall, ← hc.items, List.filter_map]
      rfl
    · rw [hlist]
      exact Nat.le_trans (List.length_filter_le _ _) hc.length
  | clear =>
    refine ⟨_, rfl, ⟨?_, ?_, ?_, ?_⟩, rfl, hc.maxSizeEq, Nat.zero_le _⟩ <;> simp [clear]
  | size =>
    refine ⟨c, congrArg Except.ok (Prod.ext rfl ?_), hc⟩
    show Answer.size _ = Answer.size _
    rw [size, hc.linked.length, ← hc.items, List.length_map]

theorem Tracks.call_own (hc : Tracks maxSize c l) (order : IterationOrder (κ × Nat))
    {a : Call κ ν} (hlive : a.Live l) (hown : a.PutsOwn) :
    LruCache.call order c a = .error (.undefined "*node") := by
  cases a with
  | put key argument =>
    obtain rfl : argument = .got key := hown
    obtain ⟨r, hreference, hput⟩ := hc.put_own order hlive
    refine (bind_of_ok hreference).trans ?_
    rw [hput]
    rfl
  | _ => cases hown

theorem Tracks.runCalls (hc : Tracks maxSize c l) (order : IterationOrder (κ × Nat))
    {calls : List (Call κ ν)} (hlive : AllLive maxSize l calls) (hown : ∀ a ∈ calls, ¬ a.PutsOwn) :
    ∃ c', runCalls order c calls = .ok (c', (referenceCalls maxSize l calls).2) ∧
      Tracks maxSize c' (referenceCalls maxSize l calls).1 := by
  induction calls generalizing c l with
  | nil => exact ⟨c, rfl, hc⟩
  | cons a calls ih =>
    obtain ⟨ha, hcalls⟩ := List.forall_mem_cons.mp hown
    obtain ⟨c₁, hcall, h₁⟩ := hc.call order hlive.1 ha
    obtain ⟨c', hrun, hc'⟩ := ih h₁ hlive.2 hcalls
    exact ⟨c', (bind_of_ok hcall).trans ((bind_of_ok hrun).trans rfl), hc'⟩

theorem Tracks.runCalls_own (hc : Tracks maxSize c l) (order : IterationOrder (κ × Nat))
    {calls : List (Call κ ν)} (hlive : AllLive maxSize l calls) (hown : ∃ a ∈ calls, a.PutsOwn) :
    ∃ e, LruCache.runCalls order c calls = .error e := by
  induction calls generalizing c l with
  | nil => simp at hown
  | cons a calls ih =>
    by_cases ha : a.PutsOwn
    · refine ⟨.undefined "*node", ?_⟩
      rw [LruCache.runCalls, hc.call_own order hlive.1 ha]
      rfl
    · obtain ⟨c₁, hcall, h₁⟩ := hc.call order hlive.1 ha
      have hrest : ∃ b ∈ calls, b.PutsOwn := by simpa [ha] using hown
      obtain ⟨e, hrun⟩ := ih h₁ hlive.2 hrest
      refine ⟨e, (bind_of_ok hcall).trans ?_⟩
      dsimp only
      rw [hrun]
      rfl

end Runs

/-- Calls on a new cache are answered as by the reference list, use no invalid iterator or
reference, leave the list and the map in bijection and the size within its limit. -/
def Refines (order : IterationOrder (κ × Nat)) (maxSize : Nat) (calls : List (Call κ ν)) : Prop :=
  ∃ c, runCalls order (new maxSize) calls = .ok (c, (referenceCalls maxSize [] calls).2) ∧
    c.list.map Prod.snd = (referenceCalls maxSize [] calls).1 ∧
    c.map.Perm (c.list.map fun n => (n.2.1, n.1)) ∧ (c.list.map fun n => n.2.1).Nodup ∧
    (c.list.map Prod.fst).Nodup ∧ size c ≤ maxSize

/-- The cache refines the reference list exactly if no key is put with a reference into its own
node. -/
theorem lruCache_refines_iff (order : IterationOrder (κ × Nat)) (maxSize : Nat)
    (calls : List (Call κ ν)) (hlive : AllLive maxSize [] calls) :
    Refines order maxSize calls ↔ ∀ a ∈ calls, ¬ a.PutsOwn := by
  constructor
  · rintro ⟨c, hrun, -⟩ a ha hown
    obtain ⟨e, herror⟩ := tracks_new.runCalls_own order hlive ⟨a, ha, hown⟩
    rw [hrun] at herror
    cases herror
  · intro hown
    obtain ⟨c, hrun, hc⟩ := tracks_new.runCalls order hlive hown
    exact ⟨c, hrun, hc.items, hc.linked.pointers, hc.linked.keys, hc.linked.nodes,
      hc.linked.length.trans_le hc.length⟩

/-- The last element inserted comes first. -/
def lastFirst (α : Type) : IterationOrder α := ⟨id, fun l => .refl l⟩

/-- A second key is put with a reference to the value of the first, which is evicted then. -/
theorem lruCache_refines_iff_two :
    Refines (lastFirst (Nat × Nat)) 1 [.put 1 (.object 10), .get 1, .put 2 (.got 1), .get 2] ↔
      ∀ a ∈ [Call.put 1 (.object 10), .get 1, .put 2 (.got 1), .get 2], ¬ a.PutsOwn :=
  lruCache_refines_iff _ _ _ ⟨nofun, trivial, nofun, trivial, trivial⟩

/-- `put` erases the node that the reference is into. -/
theorem not_forall_lruCache_refines :
    ¬ ∀ (order : IterationOrder (Nat × Nat)) (maxSize : Nat) (calls : List (Call Nat Nat)),
      AllLive maxSize [] calls → Refines order maxSize calls := by
  intro h
  obtain ⟨c, hrun, -⟩ := h (lastFirst _) 1 [.put 1 (.object 10), .get 1, .put 1 (.got 1)]
    ⟨nofun, trivial, nofun, trivial⟩
  cases hrun

end LruCache

end QoSMos
