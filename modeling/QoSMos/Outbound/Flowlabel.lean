import QoSMos.Outbound.Verify

/-!
# Flow labels

A script writes its own flow labels. A socket remembers the last pair of a script label and a
live label that was accepted, and the next packet is compared with it.
-/

namespace QoSMos

/-- `struct flowlabel_map` -/
structure FlowlabelMap where
  flowlabelScript : Nat
  flowlabelLive : Nat
  deriving DecidableEq, Repr

/-- `verify_outbound_live_ipv6_flowlabel` from the two labels on. -/
def verifyFlowlabels (flowlabelMap : FlowlabelMap) (liveFlowlabel scriptFlowlabel : Nat) :
    Status Unit × FlowlabelMap :=
  if scriptFlowlabel = 0 then (.ok (), flowlabelMap)
  else if liveFlowlabel = 0 then
    (.error (.error "flowlabel unmarked in the live packet"), flowlabelMap)
  else if flowlabelMap.flowlabelScript = 0 then (.ok (), ⟨scriptFlowlabel, liveFlowlabel⟩)
  else if scriptFlowlabel ≠ flowlabelMap.flowlabelScript then
    if liveFlowlabel ≠ flowlabelMap.flowlabelLive then
      (.ok (), ⟨scriptFlowlabel, liveFlowlabel⟩)
    else (.error (.error "expected a different flowlabel but got the same"), flowlabelMap)
  else if liveFlowlabel = flowlabelMap.flowlabelLive then (.ok (), flowlabelMap)
  else
    (.error (.error ("inconsistent flowlabels for this packet: " ++
      s!"expected: 0x{hex flowlabelMap.flowlabelLive} vs actual: 0x{hex liveFlowlabel}")),
      flowlabelMap)

/-- `verify_outbound_live_ipv6_flowlabel`: the status, and the map that the socket has then. -/
def verifyOutboundLiveIpv6Flowlabel (flowlabelMap : FlowlabelMap) (actual script : FullPacket) :
    Status Unit × FlowlabelMap :=
  let function := "verify_outbound_live_ipv6_flowlabel"
  match script.ipv6, actual.ipv6 with
  | none, _ => (.error (.halt (.undefined function "script_packet->ipv6")), flowlabelMap)
  | _, none => (.error (.halt (.undefined function "actual_packet->ipv6")), flowlabelMap)
  | some scriptIpv6, some actualIpv6 =>
    verifyFlowlabels flowlabelMap (Ipv6.flowLabel actual.buffer actualIpv6)
      (Ipv6.flowLabel script.buffer scriptIpv6)

/-! ## Series of calls -/

/-- A call for two packets that have an IPv6 header. -/
structure FlowlabelCall where
  actual : FullPacket
  script : FullPacket
  actualIpv6 : Nat
  scriptIpv6 : Nat
  hactual : actual.ipv6 = some actualIpv6
  hscript : script.ipv6 = some scriptIpv6

def FlowlabelCall.live (call : FlowlabelCall) : Nat :=
  Ipv6.flowLabel call.actual.buffer call.actualIpv6

/-- The label that the script expects. -/
def FlowlabelCall.expected (call : FlowlabelCall) : Nat :=
  Ipv6.flowLabel call.script.buffer call.scriptIpv6

def FlowlabelCall.run (call : FlowlabelCall) (flowlabelMap : FlowlabelMap) :
    Status Unit × FlowlabelMap :=
  verifyOutboundLiveIpv6Flowlabel flowlabelMap call.actual call.script

/-- A call with the map before it, its status and the map after it. -/
structure FlowlabelStep where
  call : FlowlabelCall
  before : FlowlabelMap
  status : Status Unit
  after : FlowlabelMap

def FlowlabelCall.step (call : FlowlabelCall) (flowlabelMap : FlowlabelMap) : FlowlabelStep :=
  let (status, after) := call.run flowlabelMap
  ⟨call, flowlabelMap, status, after⟩

/-- The calls for one socket, one after the other. -/
def flowlabelSteps (flowlabelMap : FlowlabelMap) : List FlowlabelCall → List FlowlabelStep
  | [] => []
  | call :: calls =>
    let step := call.step flowlabelMap
    step :: flowlabelSteps step.after calls

/-- The call accepted a packet for which the script has a label. -/
def FlowlabelStep.Accepts (step : FlowlabelStep) : Prop :=
  step.status = .ok () ∧ step.call.expected ≠ 0

instance (step : FlowlabelStep) : Decidable step.Accepts :=
  inferInstanceAs (Decidable (_ ∧ _))

/-- The calls that accepted a packet for which the script has a label. -/
def acceptedCalls (steps : List FlowlabelStep) : List FlowlabelCall :=
  (steps.filter FlowlabelStep.Accepts).map FlowlabelStep.call

/-- From one packet to the next the live label changes where that of the script does. -/
def ChangeTogether (call next : FlowlabelCall) : Prop :=
  next.live = call.live ↔ next.expected = call.expected

/-- What a series of calls keeps to. -/
structure FlowlabelsConsistent (steps : List FlowlabelStep) : Prop where
  chain : (acceptedCalls steps).IsChain ChangeTogether
  marked : ∀ call ∈ acceptedCalls steps, call.live ≠ 0
  rejected : ∀ step ∈ steps, step.status ≠ .ok () → step.after = step.before
  unset : ∀ step ∈ steps, step.call.expected = 0 →
    step.status = .ok () ∧ step.after = step.before

section Law

variable {flowlabelMap : FlowlabelMap} {call : FlowlabelCall} {calls : List FlowlabelCall}
  {steps : List FlowlabelStep}

theorem FlowlabelCall.run_eq :
    call.run flowlabelMap = verifyFlowlabels flowlabelMap call.live call.expected := by
  simp only [FlowlabelCall.run, verifyOutboundLiveIpv6Flowlabel, call.hactual, call.hscript]
  rfl

/-- What one call does. -/
structure StepSpec (step : FlowlabelStep) : Prop where
  unset : step.call.expected = 0 → step.status = .ok () ∧ step.after = step.before
  rejected : step.status ≠ .ok () → step.after = step.before
  accepted : step.Accepts → step.call.live ≠ 0 ∧ step.after = ⟨step.call.expected, step.call.live⟩
  agrees : step.Accepts → step.before.flowlabelScript ≠ 0 →
    (step.call.live = step.before.flowlabelLive ↔
      step.call.expected = step.before.flowlabelScript)

theorem FlowlabelCall.step_spec : StepSpec (call.step flowlabelMap) := by
  unfold FlowlabelCall.step
  rw [FlowlabelCall.run_eq]
  fun_cases verifyFlowlabels flowlabelMap call.live call.expected
  · next hunset =>
    exact ⟨by simp, by simp, fun h => (h.2 hunset).elim, fun h => (h.2 hunset).elim⟩
  · next hset _ =>
    exact ⟨by simp [hset], by simp, by simp [FlowlabelStep.Accepts],
      by simp [FlowlabelStep.Accepts]⟩
  · next hset hmarked hfirst =>
    exact ⟨by simp [hset], by simp, by simp [hmarked], by simp [hfirst]⟩
  · next hset hmarked _ hother hlive =>
    exact ⟨by simp [hset], by simp, by simp [hmarked], by simp [hother, hlive]⟩
  · next hset _ _ _ _ =>
    exact ⟨by simp [hset], by simp, by simp [FlowlabelStep.Accepts],
      by simp [FlowlabelStep.Accepts]⟩
  · next hset hmarked _ hsame hlive =>
    have hscript := not_not.mp hsame
    refine ⟨by simp [hset], by simp, fun _ => ⟨hmarked, ?_⟩, by simp [hscript, hlive]⟩
    rw [hscript, hlive]
  · next hset _ _ _ _ =>
    exact ⟨by simp [hset], by simp, by simp [FlowlabelStep.Accepts],
      by simp [FlowlabelStep.Accepts]⟩

/-- A call that accepts nothing for which the script has a label leaves the map as it was. -/
theorem StepSpec.after_of_not_accepts {step : FlowlabelStep} (hspec : StepSpec step)
    (h : ¬ step.Accepts) : step.after = step.before := by
  by_cases hok : step.status = .ok ()
  · exact (hspec.unset (by_contra fun hset => h ⟨hok, hset⟩)).2
  · exact hspec.rejected hok

theorem acceptedCalls_cons_of_accepts {step : FlowlabelStep} (h : step.Accepts) :
    acceptedCalls (step :: steps) = step.call :: acceptedCalls steps := by
  simp [acceptedCalls, h]

theorem acceptedCalls_cons_of_not {step : FlowlabelStep} (h : ¬ step.Accepts) :
    acceptedCalls (step :: steps) = acceptedCalls steps := by
  simp [acceptedCalls, h]

/-- What is accepted behind a packet whose labels the map has. -/
theorem isChain_acceptedCalls_of_last {last : FlowlabelCall} (hset : last.expected ≠ 0) :
    (last :: acceptedCalls (flowlabelSteps ⟨last.expected, last.live⟩ calls)).IsChain
      ChangeTogether := by
  induction calls generalizing last with
  | nil => simp [flowlabelSteps, acceptedCalls]
  | cons call calls ih =>
    have hspec : StepSpec (call.step ⟨last.expected, last.live⟩) := call.step_spec
    rw [flowlabelSteps]
    by_cases haccepts : (call.step ⟨last.expected, last.live⟩).Accepts
    · rw [acceptedCalls_cons_of_accepts haccepts, (hspec.accepted haccepts).2]
      exact .cons_cons (hspec.agrees haccepts hset) (ih haccepts.2)
    · rw [acceptedCalls_cons_of_not haccepts, hspec.after_of_not_accepts haccepts]
      exact ih hset

theorem isChain_acceptedCalls :
    (acceptedCalls (flowlabelSteps flowlabelMap calls)).IsChain ChangeTogether := by
  induction calls generalizing flowlabelMap with
  | nil => simp [flowlabelSteps, acceptedCalls]
  | cons call calls ih =>
    rw [flowlabelSteps]
    by_cases haccepts : (call.step flowlabelMap).Accepts
    · rw [acceptedCalls_cons_of_accepts haccepts, (call.step_spec.accepted haccepts).2]
      exact isChain_acceptedCalls_of_last haccepts.2
    · rw [acceptedCalls_cons_of_not haccepts]
      exact ih

theorem stepSpec_of_mem {step : FlowlabelStep} (h : step ∈ flowlabelSteps flowlabelMap calls) :
    StepSpec step := by
  induction calls generalizing flowlabelMap with
  | nil => cases h
  | cons call calls ih =>
    rcases List.mem_cons.mp h with rfl | h
    · exact call.step_spec
    · exact ih h

/-- Whatever a socket's map is to start with, and however packets are accepted, rejected or have
no label in the script: the live label changes where the label of the script does. -/
theorem flowlabels_consistent (flowlabelMap : FlowlabelMap) (calls : List FlowlabelCall) :
    FlowlabelsConsistent (flowlabelSteps flowlabelMap calls) := by
  refine ⟨isChain_acceptedCalls, fun call hcall => ?_, fun step hstep => ?_, fun step hstep => ?_⟩
  · obtain ⟨step, hstep, rfl⟩ := List.mem_map.mp hcall
    obtain ⟨hmem, haccepts⟩ := List.mem_filter.mp hstep
    exact ((stepSpec_of_mem hmem).accepted (of_decide_eq_true haccepts)).1
  · exact (stepSpec_of_mem hstep).rejected
  · exact (stepSpec_of_mem hstep).unset

end Law

end QoSMos
