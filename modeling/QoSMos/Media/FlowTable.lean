import Mathlib.Algebra.Order.Group.Unbundled.Int
import Mathlib.Data.List.AList
import QoSMos.Media.Program
import QoSMos.Session.Configure

/-!
# The times of the flows

The flow table of `MetaMineConstants.java` holds a record for each flow, numbers with colons between
them. Three functions read the time of a flow out of its record: `getFlowTime`, `getCandidateFlow`,
and `getCandidateFlows` of `MediaContext.java`.
-/

namespace QoSMos.Media

open Configure (split)
open Numeral (parseLong)

/-! ## The functions -/

/-- `Long.parseLong(record.split(":")[i])`, without a value where it throws. -/
def timeField (record : String) (i : Nat) : Option Int64 := do parseLong (← (split record ':')[i]?)

/-- A map of the flows, with its entries in the order of the iteration. -/
abbrev FlowTable := AList fun _ : String => String

def getFlowTime (globalFlowTable : FlowTable) (flow : String) : Option Int64 :=
  match globalFlowTable.lookup flow with
  | none => some 0
  | some val => timeField val 2

/-- The test `Math.abs(value-time)<=delta`. -/
def isCandidate (time : Int64) (delta : Int32) (value : Int64) : Bool :=
  (value - time).abs ≤ delta.toInt64

/-- The body of the loop of `getCandidateFlow`. -/
def addCandidate (time : Int64) (delta : Int32) (candidateFlowSet : FlowTable)
    (entry : Sigma fun _ : String => String) : Option FlowTable := do
  let value ← timeField entry.2 0
  return if isCandidate time delta value then candidateFlowSet.insert entry.1 entry.2
    else candidateFlowSet

def getCandidateFlow (globalFlowTable : FlowTable) (time : Int64) (delta : Int32) :
    Option FlowTable := globalFlowTable.entries.foldlM (addCandidate time delta) ∅

/-- The parts of a text between the `::` in it. -/
def partsAtColons : List Char → List (List Char)
  | [] => [[]]
  | ':' :: ':' :: rest => [] :: partsAtColons rest
  | c :: rest =>
    match partsAtColons rest with
    | [] => [[c]]
    | part :: parts => (c :: part) :: parts

/-- `text.split("::")` -/
def splitAtColons (text : String) : List String :=
  let parts := partsAtColons text.toList
  if parts.length = 1 then [text] else (parts.rdropWhile List.isEmpty).map String.ofList

/-- `text.contains(part)` -/
def contains (text part : String) : Bool := text.toList.tails.any part.toList.isPrefixOf

/-- The body of the loop of `getCandidateFlows`. -/
def addCandidateFlow (time : Int64) (candidateFlowSet : List String) (flow : String) :
    Option (List String) :=
  if contains flow "null" then some candidateFlowSet
  else do
    let fiveTuple ← (splitAtColons flow)[0]?
    let timeInfo ← (splitAtColons flow)[1]?
    let value ← timeField timeInfo 2
    return if isCandidate time 1000 value
      then candidateFlowSet.insert (fiveTuple ++ "::" ++ timeInfo) else candidateFlowSet

/-- `getCandidateFlows` of `MediaContext.java`, where a set is a list without duplicates. -/
def getCandidateFlows (candidates : List String) (time : Int64) : Option (List String) :=
  candidates.foldlM (addCandidateFlow time) []

/-! ## Flow times -/

/-- A record with three numbers at least. -/
def IsRecord (record : String) : Prop := ∀ i < 3, (timeField record i).isSome

instance (record : String) : Decidable (IsRecord record) :=
  inferInstanceAs (Decidable (∀ i < 3, (timeField record i).isSome))

/-- The time lies within `delta` of `time`. -/
def Near (time : Int64) (delta : Int32) (t : Int64) : Prop :=
  |t.toInt - time.toInt| ≤ delta.toInt

instance (time : Int64) (delta : Int32) (t : Int64) : Decidable (Near time delta t) :=
  inferInstanceAs (Decidable (|t.toInt - time.toInt| ≤ delta.toInt))

/-- The flows of the table that lie within `delta` of `time` are selected, each with its record. -/
def FlowTimesAgree (table : FlowTable) (time : Int64) (delta : Int32) : Prop :=
  ∃ selected, getCandidateFlow table time delta = some selected ∧
    (∀ flow, flow ∈ selected ↔
      flow ∈ table ∧ ∃ t, getFlowTime table flow = some t ∧ Near time delta t) ∧
    ∀ flow ∈ selected, selected.lookup flow = table.lookup flow

/-- The test in numbers: the difference wraps around, and the most negative one has no absolute
value. -/
def NearWrapped (time : Int64) (delta : Int32) (t : Int64) : Prop :=
  let difference := (t.toInt - time.toInt).bmod 18446744073709551616
  |difference| ≤ delta.toInt ∨ difference = -9223372036854775808

/-! ## The candidates -/

section Candidates

variable {table : FlowTable} {time t : Int64} {delta : Int32} {flow record : String}

theorem isCandidate_iff : isCandidate time delta t = true ↔ NearWrapped time delta t := by
  have hsub : (t - time).toInt = (t.toInt - time.toInt).bmod 18446744073709551616 :=
    Int64.toInt_sub ..
  have hlow : -2147483648 ≤ delta.toInt := delta.le_toInt
  rw [isCandidate, decide_eq_true_iff, Int64.le_iff_toInt_le, Int32.toInt_toInt64, NearWrapped,
    ← hsub, ← Int.natCast_natAbs]
  have habs : (t - time).abs.toInt = if (t - time).toBitVec = BitVec.intMin 64
      then (BitVec.intMin 64).toInt else (t - time).toInt.natAbs := BitVec.toInt_abs_eq_natAbs
  have hmin : (BitVec.intMin 64).toInt = -9223372036854775808 := by decide
  have hmin_iff : (t - time).toBitVec = BitVec.intMin 64 ↔
      (t - time).toInt = -9223372036854775808 := by
    rw [← hmin]
    exact BitVec.toInt_inj.symm
  rw [habs]
  by_cases hsmallest : (t - time).toInt = -9223372036854775808
  · rw [if_pos (hmin_iff.mpr hsmallest), hmin]
    exact iff_of_true (by omega) (.inr hsmallest)
  · rw [if_neg (mt hmin_iff.mp hsmallest), or_iff_left hsmallest]

/-- The loop selects a record by its first field. -/
def selects (time : Int64) (delta : Int32) (record : String) : Bool :=
  match timeField record 0 with
  | some value => isCandidate time delta value
  | none => false

/-- One turn of the loop: the entry is looked up if it is selected, and all others as before. -/
theorem addCandidate_spec (time : Int64) (delta : Int32) (candidateFlowSet : FlowTable)
    {entry : Sigma fun _ : String => String}
    (hfield : (timeField entry.2 0).isSome) :
    ∃ added, addCandidate time delta candidateFlowSet entry = some added ∧
      ∀ flow, added.lookup flow =
        if flow = entry.1 ∧ selects time delta entry.2 then some entry.2
        else candidateFlowSet.lookup flow := by
  obtain ⟨value, hvalue⟩ := Option.isSome_iff_exists.mp hfield
  refine ⟨_, by simp only [addCandidate, hvalue, Option.bind_eq_bind, Option.bind_some]; rfl, ?_⟩
  intro flow
  have hselects : selects time delta entry.2 = isCandidate time delta value := by
    rw [selects, hvalue]
  rw [hselects]
  by_cases htest : isCandidate time delta value = true
  · rw [if_pos htest]
    by_cases hflow : flow = entry.1
    · subst hflow
      rw [AList.lookup_insert, if_pos ⟨rfl, htest⟩]
    · rw [AList.lookup_insert_ne hflow, if_neg (fun h => hflow h.1)]
  · rw [if_neg htest, if_neg (fun h => htest h.2)]

/-- The loop over some entries. -/
theorem foldlM_addCandidate {entries : List (Sigma fun _ : String => String)}
    (hnodup : entries.NodupKeys) (hfields : ∀ entry ∈ entries, (timeField entry.2 0).isSome)
    (candidateFlowSet : FlowTable) :
    ∃ selected, entries.foldlM (addCandidate time delta) candidateFlowSet = some selected ∧
      ∀ flow, selected.lookup flow =
        ((entries.dlookup flow).filter (selects time delta)).or (candidateFlowSet.lookup flow) := by
  induction entries generalizing candidateFlowSet with
  | nil => exact ⟨candidateFlowSet, rfl, fun flow => rfl⟩
  | cons entry entries ih =>
    obtain ⟨hfield, hfields⟩ := List.forall_mem_cons.mp hfields
    obtain ⟨hnew, hnodup⟩ := List.nodupKeys_cons.mp hnodup
    obtain ⟨added, hadded, hlookup⟩ := addCandidate_spec time delta candidateFlowSet hfield
    obtain ⟨selected, hselected, hall⟩ := ih hnodup hfields added
    refine ⟨selected, ?_, ?_⟩
    · rw [List.foldlM_cons, hadded]
      exact hselected
    · intro flow
      rw [hall, hlookup]
      by_cases hflow : flow = entry.1
      · -- the key of the entry does not come again
        subst hflow
        rw [List.dlookup_eq_none.mpr hnew, List.dlookup_cons_eq]
        by_cases hselects : selects time delta entry.2 <;> simp [hselects, Option.filter]
      · rw [List.dlookup_cons_ne _ _ hflow, if_neg (fun h => hflow h.1)]

/-- The whole loop: what stays of the table are the entries that are selected. -/
theorem getCandidateFlow_spec (time : Int64) (delta : Int32)
    (hfields : ∀ flow record, table.lookup flow = some record → (timeField record 0).isSome) :
    ∃ selected, getCandidateFlow table time delta = some selected ∧
      ∀ flow, selected.lookup flow = (table.lookup flow).filter (selects time delta) := by
  have hentries : ∀ entry ∈ table.entries, (timeField entry.2 0).isSome := by
    intro entry hentry
    exact hfields entry.1 entry.2 (AList.mem_lookup_iff.mpr hentry)
  obtain ⟨selected, hselected, hlookup⟩ := foldlM_addCandidate table.nodupKeys hentries ∅
  refine ⟨selected, hselected, fun flow => ?_⟩
  rw [hlookup, AList.lookup_empty, Option.or_none]
  rfl

/-- The table has a record for each of its flows. -/
def HoldsRecords (table : FlowTable) : Prop :=
  ∀ flow record, table.lookup flow = some record → IsRecord record

theorem selects_eq_true_iff {first : Int64} (hfirst : timeField record 0 = some first) :
    selects time delta record = true ↔ NearWrapped time delta first := by
  rw [selects, hfirst]
  exact isCandidate_iff

theorem mem_iff_of_lookup_filter {selected : FlowTable}
    (hlookup : selected.lookup flow = (table.lookup flow).filter (selects time delta)) :
    flow ∈ selected ↔ ∃ record, table.lookup flow = some record ∧
      selects time delta record = true := by
  rw [← AList.lookup_isSome, hlookup, Option.isSome_iff_exists]
  simp only [Option.filter_eq_some_iff]

theorem getFlowTime_of_lookup (hrecord : table.lookup flow = some record) :
    getFlowTime table flow = timeField record 2 := by
  rw [getFlowTime, hrecord]

/-- The flow time is the third field of a record, and the loop looks at the first. -/
theorem getCandidateFlow_agrees_iff (hrecords : HoldsRecords table) :
    FlowTimesAgree table time delta ↔
      ∀ flow record first third, table.lookup flow = some record →
        timeField record 0 = some first → timeField record 2 = some third →
        (NearWrapped time delta first ↔ Near time delta third) := by
  obtain ⟨selected, hselected, hlookup⟩ := getCandidateFlow_spec time delta
    fun flow record hrecord => hrecords flow record hrecord 0 (by omega)
  constructor
  · rintro ⟨_, hsame, hmem, -⟩ flow record first third hrecord hfirst hthird
    obtain rfl := Option.some.inj (hselected.symm.trans hsame)
    have htime := (getFlowTime_of_lookup hrecord).trans hthird
    have hflow : flow ∈ table := AList.lookup_isSome.mp (hrecord ▸ rfl)
    have hmem := hmem flow
    rw [mem_iff_of_lookup_filter (hlookup flow), hrecord, htime] at hmem
    simpa [hflow, selects_eq_true_iff hfirst] using hmem
  · intro hagree
    refine ⟨selected, hselected, fun flow => ?_, fun flow hflow => ?_⟩
    · rw [mem_iff_of_lookup_filter (hlookup flow), ← AList.lookup_isSome]
      cases hrecord : table.lookup flow with
      | none => simp
      | some record =>
        have hfields := hrecords flow record hrecord
        obtain ⟨first, hfirst⟩ := Option.isSome_iff_exists.mp (hfields 0 (by omega))
        obtain ⟨third, hthird⟩ := Option.isSome_iff_exists.mp (hfields 2 (by omega))
        have htime := (getFlowTime_of_lookup hrecord).trans hthird
        have hagree := hagree flow record first third hrecord hfirst hthird
        simp [htime, selects_eq_true_iff hfirst, hagree]
    · obtain ⟨record, hrecord, hselects⟩ := (mem_iff_of_lookup_filter (hlookup flow)).mp hflow
      rw [hlookup, hrecord, Option.filter_some, if_pos hselects]

/-- A table of one flow. -/
def tableOf (flow record : String) : FlowTable := AList.singleton flow record

theorem holdsRecords_tableOf (hrecord : IsRecord record) : HoldsRecords (tableOf flow record) := by
  intro flow' record' hlookup
  have hmem := AList.mem_lookup_iff.mp hlookup
  rw [tableOf, AList.singleton_entries, List.mem_singleton] at hmem
  cases hmem
  exact hrecord

/-- Two flows, of which the first one is of this time in both fields and the other in neither. -/
def twoFlows : FlowTable :=
  (tableOf "10.0.0.2:4711 > 10.0.0.3:80" "5000:17:5100").insert "10.0.0.2:4712 > 10.0.0.3:443"
    "90:6:100"

theorem twoFlows_cases {flow record : String} (h : twoFlows.lookup flow = some record) :
    record = "90:6:100" ∨ record = "5000:17:5100" := by
  by_cases hflow : flow = "10.0.0.2:4712 > 10.0.0.3:443"
  · rw [hflow, twoFlows, AList.lookup_insert] at h
    exact .inl (Option.some.inj h).symm
  · rw [twoFlows, AList.lookup_insert_ne hflow] at h
    have hmem := AList.mem_lookup_iff.mp h
    rw [tableOf, AList.singleton_entries, List.mem_singleton] at hmem
    cases hmem
    exact .inr rfl

theorem getCandidateFlow_agrees_twoFlows : FlowTimesAgree twoFlows 5400 1000 := by
  refine (getCandidateFlow_agrees_iff fun flow record hlookup => ?_).mpr ?_
  · rcases twoFlows_cases hlookup with rfl | rfl <;> decide
  · intro flow record first third hlookup hfirst hthird
    rcases twoFlows_cases hlookup with rfl | rfl
    · obtain rfl := Option.some.inj (hfirst.symm.trans (show _ = some 90 by decide))
      obtain rfl := Option.some.inj (hthird.symm.trans (show _ = some 100 by decide))
      exact iff_of_false (not_or.mpr ⟨by decide, by decide⟩) (by decide)
    · obtain rfl := Option.some.inj (hfirst.symm.trans (show _ = some 5000 by decide))
      obtain rfl := Option.some.inj (hthird.symm.trans (show _ = some 5100 by decide))
      exact iff_of_true (.inl (by decide)) (by decide)

/-- A flow of this very time that is not selected. -/
theorem getCandidateFlow_misses : ¬ ∀ (table : FlowTable) (time : Int64) (delta : Int32),
    HoldsRecords table → 0 ≤ delta → FlowTimesAgree table time delta := by
  intro h
  let flow := "10.0.0.2:4711 > 10.0.0.3:80"
  obtain ⟨selected, hselected, hmem, -⟩ := h (tableOf flow "100:17:5000") 5000 1000
    (holdsRecords_tableOf (by decide)) (by decide)
  have hkeys : (getCandidateFlow (tableOf flow "100:17:5000") 5000 1000).map AList.keys = some [] :=
    by decide
  rw [hselected, Option.map_some, Option.some_inj] at hkeys
  have hflow := AList.mem_keys.mp ((hmem flow).mpr
    ⟨AList.mem_keys.mpr (by decide), 5000, by decide, by decide⟩)
  rw [hkeys] at hflow
  exact List.not_mem_nil hflow

/-! ## The candidates of the media context -/

/-- The parts of a candidate that the loop reads, and the time in them. -/
structure Reads (candidate fiveTuple timeInfo : String) (value : Int64) : Prop where
  usable : ¬ contains candidate "null" = true
  first : (splitAtColons candidate)[0]? = some fiveTuple
  second : (splitAtColons candidate)[1]? = some timeInfo
  time : timeField timeInfo 2 = some value

section Reads

variable {candidate fiveTuple fiveTuple' timeInfo timeInfo' result : String} {value value' : Int64}
  {candidates : List String}

theorem Reads.unique (h : Reads candidate fiveTuple timeInfo value)
    (h' : Reads candidate fiveTuple' timeInfo' value') :
    fiveTuple = fiveTuple' ∧ timeInfo = timeInfo' ∧ value = value' := by
  obtain rfl := Option.some.inj (h.second.symm.trans h'.second)
  exact ⟨Option.some.inj (h.first.symm.trans h'.first), rfl,
    Option.some.inj (h.time.symm.trans h'.time)⟩

theorem Reads.addCandidateFlow (h : Reads candidate fiveTuple timeInfo value)
    (candidateFlowSet : List String) : addCandidateFlow time candidateFlowSet candidate =
      some (if isCandidate time 1000 value
        then candidateFlowSet.insert (fiveTuple ++ "::" ++ timeInfo) else candidateFlowSet) := by
  simp only [Media.addCandidateFlow, if_neg h.usable, h.first, h.second, h.time,
    Option.bind_eq_bind, Option.bind_some]
  rfl

/-- A time near enough is added to the candidates with the text that they are known by. -/
def Adds (time : Int64) (candidate result : String) : Prop :=
  ∃ fiveTuple timeInfo value, Reads candidate fiveTuple timeInfo value ∧
    NearWrapped time 1000 value ∧ result = fiveTuple ++ "::" ++ timeInfo

theorem Reads.adds_iff (h : Reads candidate fiveTuple timeInfo value) :
    Adds time candidate result ↔
      isCandidate time 1000 value = true ∧ result = fiveTuple ++ "::" ++ timeInfo := by
  rw [isCandidate_iff]
  constructor
  · rintro ⟨_, _, _, hsame, hnear, hresult⟩
    obtain ⟨rfl, rfl, rfl⟩ := h.unique hsame
    exact ⟨hnear, hresult⟩
  · rintro ⟨hnear, hresult⟩
    exact ⟨fiveTuple, timeInfo, value, h, hnear, hresult⟩

theorem foldlM_addCandidateFlow (time : Int64)
    (hreads : ∀ candidate ∈ candidates, ∃ fiveTuple timeInfo value,
      Reads candidate fiveTuple timeInfo value) (candidateFlowSet : List String) :
    ∃ selected, candidates.foldlM (addCandidateFlow time) candidateFlowSet = some selected ∧
      ∀ result, result ∈ selected ↔ result ∈ candidateFlowSet ∨
        ∃ candidate ∈ candidates, Adds time candidate result := by
  induction candidates generalizing candidateFlowSet with
  | nil => exact ⟨candidateFlowSet, rfl, by simp⟩
  | cons candidate candidates ih =>
    obtain ⟨⟨fiveTuple, timeInfo, value, hread⟩, hreads⟩ := List.forall_mem_cons.mp hreads
    obtain ⟨selected, hselected, hmem⟩ := ih hreads (if isCandidate time 1000 value
      then candidateFlowSet.insert (fiveTuple ++ "::" ++ timeInfo) else candidateFlowSet)
    refine ⟨selected, ?_, fun result => ?_⟩
    · rw [List.foldlM_cons, hread.addCandidateFlow]
      exact hselected
    · rw [hmem, List.exists_mem_cons_iff, hread.adds_iff]
      by_cases htest : isCandidate time 1000 value = true
      · rw [if_pos htest, List.mem_insert_iff]
        tauto
      · rw [if_neg htest]
        tauto

/-- The candidates of the media context are selected by the very field that `getFlowTime` reads. -/
theorem getCandidateFlows_agree
    (hcandidates : ∀ candidate ∈ candidates, ∃ fiveTuple timeInfo value,
      Reads candidate fiveTuple timeInfo value ∧ table.lookup fiveTuple = some timeInfo) :
    ∃ selected, getCandidateFlows candidates time = some selected ∧
      ∀ result, result ∈ selected ↔ ∃ candidate ∈ candidates, ∃ fiveTuple timeInfo value t,
        Reads candidate fiveTuple timeInfo value ∧ getFlowTime table fiveTuple = some t ∧
          NearWrapped time 1000 t ∧ result = fiveTuple ++ "::" ++ timeInfo := by
  have hreads : ∀ candidate ∈ candidates, ∃ fiveTuple timeInfo value,
      Reads candidate fiveTuple timeInfo value := by
    intro candidate hcandidate
    obtain ⟨fiveTuple, timeInfo, value, hread, -⟩ := hcandidates candidate hcandidate
    exact ⟨fiveTuple, timeInfo, value, hread⟩
  obtain ⟨selected, hselected, hmem⟩ := foldlM_addCandidateFlow time hreads []
  refine ⟨selected, hselected, fun result => ?_⟩
  rw [hmem, or_iff_right List.not_mem_nil]
  refine exists_congr fun candidate => and_congr_right fun hcandidate => ?_
  obtain ⟨fiveTuple, timeInfo, value, hread, hlookup⟩ := hcandidates candidate hcandidate
  have htime := (getFlowTime_of_lookup hlookup).trans hread.time
  constructor
  · rintro ⟨_, _, _, hsame, hnear, hresult⟩
    obtain ⟨rfl, rfl, rfl⟩ := hread.unique hsame
    exact ⟨fiveTuple, timeInfo, value, value, hread, htime, hnear, hresult⟩
  · rintro ⟨_, _, _, t, hsame, ht, hnear, hresult⟩
    obtain ⟨rfl, rfl, rfl⟩ := hread.unique hsame
    obtain rfl := Option.some.inj (htime.symm.trans ht)
    exact ⟨fiveTuple, timeInfo, value, hread, hnear, hresult⟩

end Reads

end Candidates

end QoSMos.Media
