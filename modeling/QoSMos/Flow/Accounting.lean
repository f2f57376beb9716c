import Mathlib.Data.List.Induction
import QoSMos.Flow.FiveTuple

/-!
# The accounting of a flow

What the record of a flow is to hold after some calls of `check_modify_dscp`. No call
returns, so no record ever holds it. `recordFlow` is the part of the function that keeps
the record; by itself it is right under three conditions.
-/

namespace QoSMos

/-- A call of `check_modify_dscp`, with what it finds around it. -/
structure Call where
  around : Surroundings
  data : Memory
  desired : Int

/-- The flow table after the calls, one after the other. -/
def runCalls (platform : Platform) : FlowTable → List Call → Except Fault FlowTable
  | flowTable, [] => .ok flowTable
  | flowTable, c :: cs => do
    let (_, flowTable) ← checkModifyDscp platform c.around c.data c.desired flowTable
    runCalls platform flowTable cs

/-- The call gets an IPv4 datagram of the flow `x`. -/
def Call.OfFlow (x : FiveTuple) (c : Call) : Prop :=
  ∃ n packet, AcceptedDatagram c.data n packet ∧ AcceptedFlow packet x

/-- The number of entries in `uplink_bytes`. -/
def UPLINK_BYTES_ENTRIES : Nat := 10000

/-- The record after the calls: their lengths in order, the index and the time of the last
one and the time of the first one. The index is the one that was written last. -/
structure Accounts (calls : List Call) (flow : Flow) : Prop where
  lengths : ∀ (i : Nat) (h : i < calls.length),
    flow.uplinkBytes i = Ipv4.totLen (calls.get ⟨i, h⟩).data 0
  upPackets : flow.upPackets = calls.length - 1
  firstSeen : ∃ c, calls.head? = some c ∧ flow.firstSeen = c.around.getTimeSecond 0
  lastSeen : ∃ c k, calls.getLast? = some c ∧ flow.lastSeen = c.around.getTimeSecond k
  inside : 0 ≤ flow.upPackets ∧ flow.upPackets < UPLINK_BYTES_ENTRIES

/-- The calls return, and then the record of the flow accounts for them. -/
def KeepsAccount (platform : Platform) (flowTable : FlowTable) (calls : List Call)
    (x : FiveTuple) : Prop :=
  ∃ flowTable' flow, runCalls platform flowTable calls = .ok flowTable' ∧
    flowTable' (tupleToString platform x.tuple) = some flow ∧ Accounts calls flow

/-- No sequence of calls is accounted for. -/
theorem not_keepsAccount (platform : Platform) (flowTable : FlowTable) {calls : List Call}
    (hne : calls ≠ []) {x : FiveTuple} (_ : ∀ c ∈ calls, c.OfFlow x) :
    ¬ KeepsAccount platform flowTable calls x := by
  rintro ⟨flowTable', flow, hrun, -⟩
  cases calls with
  | nil => exact hne rfl
  | cons c cs =>
    rw [runCalls, checkModifyDscp_dies] at hrun
    cases hrun

/-- A call with the datagram `udpDatagram`. -/
def udpCall : Call := ⟨zeroSurroundings, .ofList udpDatagram, 46⟩

theorem udpCall_ofFlow : udpCall.OfFlow ⟨.udp, testTuple⟩ := by
  obtain ⟨p, hdatagram, hflow⟩ := exists_accepted_udp
  exact ⟨32, p, hdatagram, hflow⟩

theorem not_keepsAccount_udpCall :
    ¬ KeepsAccount plainPlatform (fun _ => none) [udpCall] ⟨.udp, testTuple⟩ :=
  not_keepsAccount plainPlatform (fun _ => none) (by simp) (by simpa using udpCall_ofFlow)

theorem not_forall_keepsAccount :
    ¬ ∀ (platform : Platform) (flowTable : FlowTable) (calls : List Call) (x : FiveTuple),
      calls ≠ [] → (∀ c ∈ calls, c.OfFlow x) → flowTable (tupleToString platform x.tuple) = none →
      KeepsAccount platform flowTable calls x := by
  intro h
  obtain ⟨flowTable', flow, hrun, -⟩ := h plainPlatform (fun _ => none) [udpCall] _ (by simp)
    (by simpa using udpCall_ofFlow) rfl
  rw [runCalls, checkModifyDscp_dies] at hrun
  cases hrun

/-! ## The record by itself -/

/-- The part of `check_modify_dscp` that keeps the record of a flow. -/
def recordFlow (around : Surroundings) (remainSize : Int) : Option Flow → Flow
  | none =>
    let flow := around.mallocFlow
    { flow with
      firstSeen := around.getTimeSecond 0
      lastSeen := around.getTimeSecond 1
      uplinkBytes := Function.update flow.uplinkBytes flow.upPackets remainSize
      flowType := 0 }
  | some flow =>
    { flow with
      lastSeen := around.getTimeSecond 0
      upPackets := flow.upPackets + 1
      uplinkBytes := Function.update flow.uplinkBytes (flow.upPackets + 1) remainSize }

/-- Where the packet has a key, a call changes the table as `recordFlow` says. -/
theorem checkModifyDscp_recordFlow {platform : Platform} {around : Surroundings} {data : Memory}
    {desired : Int} {flowTable : FlowTable} {r : ParseResult} {s : ParseState} {key : String}
    (hrun : runParsePacket (copyBytes data around.heap platform.dataModel.pointerBytes)
      platform.dataModel.pointerBytes platform.dataModel.pointerBytes .layer3Ip = .ok (r, s))
    (hkey : getFlowTuples platform around.leftover s.packet = .ok (some key)) :
    ∃ result, checkModifyDscp platform around data desired flowTable = .ok (result,
      Function.update flowTable key
        (some (recordFlow around (le16At s.packet.buffer 2) (flowTable key)))) := by
  unfold checkModifyDscp recordFlow
  simp only [hrun, hkey, bind, Except.bind]
  cases hflow : flowTable key <;> simp only <;> split_ifs <;> exact ⟨_, rfl⟩

/-- The record after the packets of the calls, of which the first creates it. -/
def recordAll (calls : List Call) : Option Flow :=
  calls.foldl (fun flow c => some (recordFlow c.around (le16At c.data 2) flow)) none

theorem recordAll_snoc (calls : List Call) (c : Call) :
    recordAll (calls ++ [c]) = some (recordFlow c.around (le16At c.data 2) (recordAll calls)) := by
  simp [recordAll]

/-- The record of some calls: it counts on from the index that it was created with. -/
structure Recorded (first : Call) (calls : List Call) (flow : Flow) : Prop where
  lengths : ∀ (i : Nat) (h : i < calls.length),
    flow.uplinkBytes (first.around.mallocFlow.upPackets + i) =
      le16At (calls.get ⟨i, h⟩).data 2
  upPackets : flow.upPackets = first.around.mallocFlow.upPackets + (calls.length - 1)
  firstSeen : flow.firstSeen = first.around.getTimeSecond 0
  lastSeen : ∃ c k, calls.getLast? = some c ∧ flow.lastSeen = c.around.getTimeSecond k

theorem recorded_recordAll (first : Call) (calls : List Call) :
    ∃ flow, recordAll (first :: calls) = some flow ∧ Recorded first (first :: calls) flow := by
  induction calls using List.reverseRecOn with
  | nil =>
    refine ⟨_, rfl, fun i hi => ?_, by simp [recordFlow], rfl, first, 1, rfl, rfl⟩
    obtain rfl : i = 0 := by simpa using hi
    simp [recordFlow]
  | append_singleton calls c ih =>
    obtain ⟨flow, hflow, hlengths, hup, hfirst, -⟩ := ih
    refine ⟨_, recordAll_snoc (first :: calls) c, fun i hi => ?_, ?_, ?_, c, 0, ?_, ?_⟩
    · rw [hflow]
      simp only [List.length_cons, List.length_append] at hi hup hlengths
      by_cases hold : i < calls.length + 1
      · have hne : first.around.mallocFlow.upPackets + (i : Int) ≠ flow.upPackets + 1 := by
          omega
        have hget : (first :: (calls ++ [c]))[i] = (first :: calls)[i] :=
          (List.getElem_append_left' (show i < (first :: calls).length from hold) [c]).symm
        simpa [recordFlow, hne, hget] using hlengths i hold
      · obtain rfl : i = calls.length + 1 := by simp at hi; omega
        have heq : first.around.mallocFlow.upPackets + ((calls.length + 1 : Nat) : Int) =
            flow.upPackets + 1 := by omega
        have hget : (first :: (calls ++ [c]))[calls.length + 1] = c := by simp
        simp only [heq, recordFlow, Function.update_self, List.get_eq_getElem, hget]
    · rw [hflow]
      simp only [recordFlow, hup, List.length_cons, List.length_append, List.length_nil]
      omega
    · rw [hflow]
      exact hfirst
    · exact List.getLast?_concat (l := first :: calls)
    · rw [hflow]
      rfl

/-- By itself, the record accounts for its packets exactly if it is created with index 0,
every length reads the same in both byte orders, and there are no more packets than entries. -/
theorem accounts_recordAll_iff (first : Call) (calls : List Call) :
    (∃ flow, recordAll (first :: calls) = some flow ∧ Accounts (first :: calls) flow) ↔
      first.around.mallocFlow.upPackets = 0 ∧
      (∀ c ∈ first :: calls, le16At c.data 2 = Ipv4.totLen c.data 0) ∧
      (first :: calls).length ≤ UPLINK_BYTES_ENTRIES := by
  obtain ⟨flow, hflow, hlengths, hup, hfirst, hlast⟩ := recorded_recordAll first calls
  constructor
  · rintro ⟨flow', hflow', haccounts⟩
    obtain rfl : flow = flow' := Option.some.inj (hflow.symm.trans hflow')
    have hup' := haccounts.upPackets
    have hinside := haccounts.inside
    have hzero : first.around.mallocFlow.upPackets = 0 := by omega
    refine ⟨hzero, fun c hc => ?_, by omega⟩
    obtain ⟨⟨i, hi⟩, rfl⟩ := List.mem_iff_get.mp hc
    have hi' := hlengths i hi
    rw [hzero, zero_add, haccounts.lengths i hi] at hi'
    exact_mod_cast hi'.symm
  · rintro ⟨hzero, hsame, hlen⟩
    refine ⟨flow, hflow, fun i hi => ?_, by omega, ⟨first, rfl, hfirst⟩, hlast, ?_⟩
    · have hi' := hlengths i hi
      rw [hzero, zero_add, hsame _ (List.get_mem _ _)] at hi'
      exact hi'
    · simp only [List.length_cons] at hlen hup
      omega

end QoSMos
