import QoSMos.Build.Program
import QoSMos.Flow.Tuple
import QoSMos.Lib.Buckets
import QoSMos.Lib.Returns

/-!
# The flow table of `flowmaps.c`

A table of chained lists from `int` keys to `int` values. A node keeps its value in a pointer,
converted there and back.
-/

namespace QoSMos

open Buckets Returns

/-- `struct flow`, without the time that these functions do not use. -/
structure Flowtable.Flow where
  key : Int
  val : Nat
  deriving DecidableEq, Repr

/-- `struct flowtable` -/
structure Flowtable where
  size : Int32
  list : List (List Flowtable.Flow)
  deriving DecidableEq, Repr

namespace Flowtable

/-- `create_flow_table`, where `malloc` succeeds. The product that it is given is a `size_t`, and
behind the block nothing may be written. -/
def create (dataModel : DataModel) (size : Int32) : Except Halt Flowtable :=
  let pointerBytes := dataModel.pointerBytes
  let block := (pointerBytes * size.toInt) % 2 ^ (8 * pointerBytes)
  if block < pointerBytes * size.toInt then .error (.undefined "create_flow_table" "t->list[i]")
  else .ok ⟨size, List.replicate size.toInt.toNat []⟩

/-- An `int` as a pointer of the platform. -/
def toPointer (dataModel : DataModel) (val : Int32) : Nat :=
  (val.toInt % 2 ^ (8 * dataModel.pointerBytes)).toNat

/-- A pointer as an `int`. -/
def ofPointer (val : Nat) : Int32 := Int32.ofNat val

/-- `t->list[pos]` -/
def listAt (function : String) (t : Flowtable) (pos : Int32) : Except Halt (List Flow) :=
  if pos < 0 then .error (.undefined function "t->list[pos]")
  else
    match t.list[pos.toInt.toNat]? with
    | some list => .ok list
    | none => .error (.undefined function "t->list[pos]")

/-- `t->list[pos] = list` -/
def setListAt (t : Flowtable) (pos : Int32) (list : List Flow) : Flowtable :=
  { t with list := t.list.set pos.toInt.toNat list }

/-- `hashCode` -/
def hashCode (t : Flowtable) (key : Int32) : Except Halt Int32 :=
  if t.size = 0 ∨ key = Int32.minValue ∧ t.size = -1 then .error (.undefined "hashCode" "%")
  else if key < 0 then .ok (-(key % t.size))
  else .ok (key % t.size)

/-- `insert_flow` -/
def insertFlow (dataModel : DataModel) (t : Flowtable) (key val : Int32) :
    Except Halt Flowtable := do
  let pos ← hashCode t key
  let list ← listAt "insert_flow" t pos
  let stored := toPointer dataModel val
  match modifyKey Flow.key key.toInt (fun temp => { temp with val := stored }) list with
  | some list => return t.setListAt pos list
  | none => return t.setListAt pos (⟨key.toInt, stored⟩ :: list)

/-- `lookup_flow` -/
def lookupFlow (t : Flowtable) (key : Int32) : Except Halt Int32 := do
  let pos ← hashCode t key
  let list ← listAt "lookup_flow" t pos
  match findKey Flow.key key.toInt list with
  | some temp => return ofPointer temp.val
  | none => return -1

/-- A sequence of calls of `insert_flow`. -/
def insertFlows (dataModel : DataModel) : Flowtable → List (Int32 × Int32) → Except Halt Flowtable
  | t, [] => .ok t
  | t, (key, val) :: history => do
    let t ← insertFlow dataModel t key val
    insertFlows dataModel t history

/-! ## Hash codes and pointers -/

section Hash

variable {dataModel : DataModel} {t : Flowtable} {size key val : Int32}

/-- The list of a key: its absolute value modulo the size. -/
def bucketOf (size : Int32) (key : Int) : Nat := key.natAbs % size.toInt.toNat

theorem toInt_pos (hsize : 0 < size) : 0 < size.toInt := by
  simpa using Int32.lt_iff_toInt_lt.mp hsize

/-- A remainder has the sign of the key, and a negative one stays below the limit of `int`. -/
theorem hashCode_spec (hsize : 0 < t.size) (key : Int32) :
    ∃ pos, hashCode t key = .ok pos ∧ 0 ≤ pos ∧ pos < t.size ∧
      pos.toInt.toNat = bucketOf t.size key.toInt := by
  have hpos := toInt_pos hsize
  have hlt := t.size.toInt_lt
  have hzero : t.size ≠ 0 := by
    rintro h
    simp [h] at hpos
  have hminus : t.size ≠ -1 := by
    intro h
    rw [h] at hpos
    exact absurd hpos (by decide)
  have hguard : ¬ (t.size = 0 ∨ key = Int32.minValue ∧ t.size = -1) := by simp [hzero, hminus]
  have hmod : 0 ≤ key.toInt.natAbs % t.size.toInt.toNat ∧
      key.toInt.natAbs % t.size.toInt.toNat < t.size.toInt.toNat :=
    ⟨Nat.zero_le _, Nat.mod_lt _ (by omega)⟩
  -- The remainder of the absolute value, as an `int`.
  have hpick (pos : Int32)
      (hpos : pos.toInt = (key.toInt.natAbs % t.size.toInt.toNat : Nat)) :
      0 ≤ pos ∧ pos < t.size ∧ pos.toInt.toNat = bucketOf t.size key.toInt := by
    have hnonneg : (0 : Int32).toInt = 0 := rfl
    rw [Int32.le_iff_toInt_le, Int32.lt_iff_toInt_lt, hpos, bucketOf, hnonneg]
    exact ⟨by omega, by omega, by omega⟩
  unfold hashCode
  rw [if_neg hguard]
  by_cases hneg : key < 0
  · rw [if_pos hneg]
    refine ⟨_, rfl, hpick _ ?_⟩
    have hkey : key.toInt < 0 := by simpa using Int32.lt_iff_toInt_lt.mp hneg
    have habs : key.toInt = -(key.toInt.natAbs : Int) := by omega
    have hsize : t.size.toInt = (t.size.toInt.toNat : Int) := by omega
    have hrem : -(key % t.size).toInt = (key.toInt.natAbs % t.size.toInt.toNat : Nat) := by
      rw [Int32.toInt_mod, habs, hsize, Int.neg_tmod, neg_neg, ← Int.ofNat_tmod]
      simp
    rw [Int32.toInt_neg, hrem, Int.bmod_eq_of_le (by omega) (by omega)]
  · rw [if_neg hneg]
    refine ⟨_, rfl, hpick _ ?_⟩
    have hkey : 0 ≤ key.toInt := by
      simpa using Int32.le_iff_toInt_le.mp (Int32.not_lt.mp hneg)
    have habs : key.toInt = (key.toInt.natAbs : Int) := by omega
    have hsize : t.size.toInt = (t.size.toInt.toNat : Int) := by omega
    rw [Int32.toInt_mod, habs, hsize, ← Int.ofNat_tmod]
    simp

/-- A pointer has at least the bits of an `int`. -/
theorem ofPointer_toPointer : ofPointer (toPointer dataModel val) = val := by
  have hle := val.le_toInt
  have hlt := val.toInt_lt
  apply Int32.toInt_inj.mp
  rw [ofPointer, Int32.toInt_ofNat', toPointer]
  have hpow : (0 : Int) < 2 ^ (8 * dataModel.pointerBytes) := by positivity
  rw [Int.toNat_of_nonneg (Int.emod_nonneg _ hpow.ne')]
  have hdvd : ((Int32.size : Nat) : Int) ∣ 2 ^ (8 * dataModel.pointerBytes) := by
    cases dataModel <;> decide
  rw [Int.bmod_def, Int.emod_emod_of_dvd _ hdvd, ← Int.bmod_def]
  exact Int.bmod_eq_of_le hle hlt

end Hash

/-! ## Histories -/

section History

variable {dataModel : DataModel} {t t' : Flowtable} {size key val : Int32}
  {history : List (Int32 × Int32)}

/-- What `insert_flow` was last called with for this `long`. -/
def lastInsert (history : List (Int32 × Int32)) (key : Int) : Option Int32 :=
  lastSet (history.map fun entry => (entry.1.toInt, entry.2)) key

/-- The table holds what a history of insertions left. -/
structure Holds (dataModel : DataModel) (size : Int32) (t : Flowtable)
    (history : List (Int32 × Int32)) : Prop where
  sizeEq : t.size = size
  length : t.list.length = size.toInt.toNat
  filed : Filed Flow.key (bucketOf size) t.list
  found : ∀ key, (lookup Flow.key (bucketOf size) t.list key).map Flow.val =
    (lastInsert history key).map (toPointer dataModel)

/-- The pointers of a table fit into a `size_t`. -/
def PointersFit (dataModel : DataModel) (size : Int32) : Prop :=
  dataModel.pointerBytes * size.toInt < 2 ^ (8 * dataModel.pointerBytes)

theorem create_of_fit (hsize : 0 < size) (hfit : PointersFit dataModel size) :
    ∃ t, create dataModel size = .ok t ∧ Holds dataModel size t [] := by
  have hpos := toInt_pos hsize
  have hblock : (dataModel.pointerBytes * size.toInt) % 2 ^ (8 * dataModel.pointerBytes) =
      dataModel.pointerBytes * size.toInt := Int.emod_eq_of_lt (by positivity) hfit
  rw [create, hblock, if_neg (lt_irrefl _)]
  refine ⟨_, rfl, rfl, List.length_replicate, filed_replicate _, fun key => ?_⟩
  rw [lookup_replicate]
  rfl

theorem create_of_not_fit (hfit : ¬ PointersFit dataModel size) :
    create dataModel size = .error (.undefined "create_flow_table" "t->list[i]") := by
  have hpow : (0 : Int) < 2 ^ (8 * dataModel.pointerBytes) := by positivity
  have hlt := Int.emod_lt_of_pos (dataModel.pointerBytes * size.toInt) hpow
  rw [create, if_pos (hlt.trans_le (not_lt.mp hfit))]

theorem Holds.listAt (ht : Holds dataModel size t history) (hsize : 0 < size)
    (function : String) (key : Int32) :
    ∃ pos list, hashCode t key = .ok pos ∧ 0 ≤ pos ∧ pos < t.size ∧
      pos.toInt.toNat = bucketOf size key.toInt ∧ listAt function t pos = .ok list ∧
      t.list[bucketOf size key.toInt]? = some list := by
  obtain ⟨pos, hpos, hnonneg, hlt, hbucket⟩ := hashCode_spec (ht.sizeEq ▸ hsize) key
  rw [ht.sizeEq] at hbucket
  have hinside : bucketOf size key.toInt < t.list.length := by
    have := toInt_pos hsize
    rw [ht.length]
    exact Nat.mod_lt _ (by omega)
  refine ⟨pos, _, hpos, hnonneg, hlt, hbucket, ?_, List.getElem?_eq_getElem hinside⟩
  rw [Flowtable.listAt, if_neg (Int32.not_lt.mpr hnonneg), hbucket,
    List.getElem?_eq_getElem hinside]

theorem Holds.insertFlow (ht : Holds dataModel size t history) (hsize : 0 < size)
    (key val : Int32) : ∃ t', insertFlow dataModel t key val = .ok t' ∧
      Holds dataModel size t' (history ++ [(key, val)]) := by
  obtain ⟨pos, list, hpos, -, -, hbucket, hlist, hchain⟩ := ht.listAt hsize "insert_flow" key
  unfold Flowtable.insertFlow
  rw [bind_of_ok hpos, bind_of_ok hlist]
  have hlast (k : Int) : (lastInsert (history ++ [(key, val)]) k).map (toPointer dataModel) =
      if key.toInt = k then some (toPointer dataModel val)
      else (lastInsert history k).map (toPointer dataModel) := by
    rw [lastInsert, List.map_append, List.map_singleton, lastSet_concat]
    by_cases hk : key.toInt = k <;> simp [hk, lastInsert]
  have hset (chain : List Flow) : (t.setListAt pos chain).list =
      t.list.set (bucketOf size key.toInt) chain := by
    rw [setListAt, hbucket]
  cases hmod : modifyKey Flow.key key.toInt
      (fun temp => { temp with val := toPointer dataModel val }) list with
  | some list' =>
    refine ⟨t.setListAt pos list', ?_, ht.sizeEq, ?_, ?_, fun k => ?_⟩
    · simp only [hmod]
      rfl
    · rw [hset, List.length_set, ht.length]
    · rw [hset]
      exact ht.filed.overwrite (by simp) hchain hmod
    · rw [hset, lookup_overwrite (by simp) hchain hmod, hlast]
      by_cases hk : key.toInt = k
      · obtain ⟨x, hx⟩ : ∃ x, Buckets.lookup Flow.key (bucketOf size) t.list k = some x := by
          rw [← Option.isSome_iff_exists, ← hk, lookup_of_getElem? hchain,
            Option.isSome_iff_ne_none, Ne, ← modifyKey_eq_none_iff, hmod]
          simp
        simp [hk, hx]
      · rw [if_neg hk, if_neg hk, ht.found]
  | none =>
    have hnew : Buckets.lookup Flow.key (bucketOf size) t.list key.toInt = none := by
      rw [lookup_of_getElem? hchain]
      exact modifyKey_eq_none_iff.mp hmod
    have hlt : bucketOf size key.toInt < t.list.length := (List.getElem?_eq_some_iff.mp hchain).1
    have hlink : t.list.set (bucketOf size key.toInt)
        (⟨key.toInt, toPointer dataModel val⟩ :: list) =
          link Flow.key (bucketOf size) t.list ⟨key.toInt, toPointer dataModel val⟩ := by
      rw [link, List.getD, hchain]
      rfl
    refine ⟨t.setListAt pos (⟨key.toInt, toPointer dataModel val⟩ :: list), ?_, ht.sizeEq, ?_, ?_,
      fun k => ?_⟩
    · simp only [hmod]
      rfl
    · rw [hset, List.length_set, ht.length]
    · rw [hset, hlink]
      exact ht.filed.linked hlt hnew
    · rw [hset, hlink, lookup_link hlt, hlast]
      by_cases hk : key.toInt = k
      · simp [hk]
      · rw [if_neg hk, if_neg hk, ht.found]

theorem Holds.insertFlows (ht : Holds dataModel size t history) (hsize : 0 < size)
    (more : List (Int32 × Int32)) : ∃ t', insertFlows dataModel t more = .ok t' ∧
      Holds dataModel size t' (history ++ more) := by
  induction more generalizing t history with
  | nil => exact ⟨t, rfl, by simpa using ht⟩
  | cons entry more ih =>
    obtain ⟨t', hinsert, ht'⟩ := ht.insertFlow hsize entry.1 entry.2
    obtain ⟨t'', hrest, ht''⟩ := ih ht'
    refine ⟨t'', ?_, by simpa using ht''⟩
    rw [Flowtable.insertFlows, bind_of_ok hinsert, hrest]

theorem Holds.lookupFlow (ht : Holds dataModel size t history) (hsize : 0 < size)
    (key : Int32) : lookupFlow t key = .ok ((lastSet history key).getD (-1)) := by
  obtain ⟨pos, list, hpos, -, -, -, hlist, hchain⟩ := ht.listAt hsize "lookup_flow" key
  have hfound := ht.found key.toInt
  rw [lookup_of_getElem? hchain] at hfound
  have hlast : lastInsert history key.toInt = lastSet history key :=
    lastSet_map (fun _ _ h => Int32.toInt_inj.mp h) history key
  rw [hlast] at hfound
  unfold Flowtable.lookupFlow
  rw [bind_of_ok hpos, bind_of_ok hlist]
  cases hval : lastSet history key with
  | none =>
    have hnone : findKey Flow.key key.toInt list = none := by simpa [hval] using hfound
    rw [hnone]
    rfl
  | some val =>
    obtain ⟨temp, htemp, hstored⟩ : ∃ temp, findKey Flow.key key.toInt list = some temp ∧
        temp.val = toPointer dataModel val := by simpa [hval] using hfound
    rw [htemp]
    simp [hstored, ofPointer_toPointer, pure, Except.pure]

end History

/-- After any insertions into a fresh table every hash code is an index of it, no list has a
key twice, and a lookup gives the last value inserted for its key, or -1. -/
def Refines (dataModel : DataModel) (size : Int32) (history : List (Int32 × Int32)) : Prop :=
  ∃ fresh t, create dataModel size = .ok fresh ∧ insertFlows dataModel fresh history = .ok t ∧
    (∀ key, ∃ pos, hashCode t key = .ok pos ∧ 0 ≤ pos ∧ pos < size) ∧
    (∀ list ∈ t.list, (list.map Flow.key).Nodup) ∧
    ∀ key, lookupFlow t key = .ok ((lastSet history key).getD (-1))

/-- A table refines the map exactly if its pointers fit into a `size_t`. -/
theorem flowtable_refines_iff (dataModel : DataModel) {size : Int32} (hsize : 0 < size)
    (history : List (Int32 × Int32)) :
    Refines dataModel size history ↔ PointersFit dataModel size := by
  constructor
  · rintro ⟨fresh, t, hcreate, -⟩
    by_contra hfit
    rw [create_of_not_fit hfit] at hcreate
    cases hcreate
  · intro hfit
    obtain ⟨fresh, hcreate, hfresh⟩ := create_of_fit hsize hfit
    obtain ⟨t, hrun, ht⟩ := hfresh.insertFlows hsize history
    refine ⟨fresh, t, hcreate, hrun, fun key => ?_, ht.filed.distinct, ht.lookupFlow hsize⟩
    obtain ⟨pos, hpos, hnonneg, hlt, -⟩ := hashCode_spec (ht.sizeEq ▸ hsize) key
    exact ⟨pos, hpos, hnonneg, ht.sizeEq ▸ hlt⟩

theorem flowtable_refines_iff_three :
    Refines .lp64 3 [(-2, 5), (1, -7), (-2147483648, 9), (-2, -1)] ↔ PointersFit .lp64 3 :=
  flowtable_refines_iff .lp64 (by decide) _

/-- With pointers of four bytes there are sizes whose product is zero. -/
theorem not_forall_flowtable_refines :
    ¬ ∀ (dataModel : DataModel) (size : Int32) (history : List (Int32 × Int32)), 0 < size →
      Refines dataModel size history := by
  intro h
  obtain ⟨fresh, t, hcreate, -⟩ := h .ilp32 1073741824 [] (by decide)
  have hfit : ¬ PointersFit .ilp32 1073741824 := by
    unfold PointersFit
    decide
  rw [create_of_not_fit hfit] at hcreate
  cases hcreate

end Flowtable

end QoSMos
