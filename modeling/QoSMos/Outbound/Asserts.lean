import QoSMos.Outbound.Dumps
import QoSMos.Outbound.Verdict

/-!
# The assertions of the comparison

Where the options of both packets are well formed, every assertion of the comparison holds. The
one operation that can go wrong is the multiplication of a difference of timestamps.
-/

namespace QoSMos

open Returns

/-- The one operation on the way that can be undefined. -/
def Halt.IsOverflow (halt : Halt) : Prop :=
  ∃ expression, halt = .undefined "verify_outbound_tcp_option" expression

/-- An error that is reported, or the overflow. -/
def Failure.Allowed : Failure → Prop
  | .error _ => True
  | .halt undefined => undefined.IsOverflow

/-- Both packets have a well-formed option area, or neither has one. -/
def OptionsFormed (live script : FullPacket) : Prop :=
  (live.tcp = none ∧ script.tcp = none) ∨
    ((∃ tcp options, OptionsAt live.toPacket tcp options) ∧
      ∃ tcp options, OptionsAt script.toPacket tcp options)

/-- A comparison that halts with an overflow only. -/
abbrev Status.Sane {α : Type} (m : Status α) : Prop := StopsWith Failure.Allowed m

/-! ## Headers -/

section Fields

variable {c : Prop} [Decidable c] {message name function : String} {α : Type} {x : Except Halt α}
  {a : α} {expected found : Nat} {tosChk : TosCheck} {b b' : Memory} {i k r s : Nat}

theorem sane_check : Status.Sane (check c message) := by
  unfold check
  exact .ite (fun _ => stopsWith_ok) fun _ => stopsWith_error trivial

theorem sane_checkField : Status.Sane (checkField name expected found) := sane_check

theorem sane_halting (h : x = .ok a) : Status.Sane (halting x) :=
  stopsWith_of_ok (halting_eq_ok_iff.mpr h)

/-- A step that is taken under a condition. -/
theorem sane_optional {m rest : Status Unit} (hm : m.Sane) (hrest : rest.Sane) :
    Status.Sane (if c then m >>= fun _ => rest else rest) :=
  .ite (fun _ => hm.bind fun _ _ => hrest) fun _ => hrest

theorem sane_verifyOutboundLiveTos :
    Status.Sane (verifyOutboundLiveTos tosChk found expected) := by
  unfold verifyOutboundLiveTos
  cases tosChk with
  | none => exact stopsWith_ok
  | tos => exact sane_check
  | ecn => exact .ite (fun _ => sane_check) fun _ => sane_check

theorem sane_verifyOutboundLiveTtlOrHl :
    Status.Sane (verifyOutboundLiveTtlOrHl found expected) := by
  unfold verifyOutboundLiveTtlOrHl
  exact .ite (fun _ => sane_check) fun _ => stopsWith_ok

theorem sane_verifyTcpFlags {strict : Bool}
    {checks : List (String × (Memory → Nat → Bool) × Bool)} :
    Status.Sane (verifyTcpFlags b b' r s strict checks) := by
  induction checks with
  | nil => exact stopsWith_ok
  | cons flag checks ih =>
    unfold verifyTcpFlags
    exact sane_optional sane_checkField ih

theorem sane_verifyMplsEntries : Status.Sane (verifyMplsEntries b b' r s i k) := by
  induction k generalizing i with
  | zero => exact stopsWith_ok
  | succ k ih => exact StopsWith.bind sane_check fun _ _ => ih

end Fields

section Headers

variable {actual script : FullPacket} {layer a s : Nat}

theorem sane_verifyIpv4 (ha : (actual.headerAt layer).ptr = some a)
    (hs : (script.headerAt layer).ptr = some s) {allowance : Int}
    (hallowance : tcpOptionsAllowance actual script = .ok allowance) :
    Status.Sane (verifyIpv4 actual script layer true) := by
  unfold verifyIpv4
  simp only [layerPtr_of_ptr ha, layerPtr_of_ptr hs, bind_of_ok rfl, if_true, hallowance, halting]
  refine sane_checkField.bind fun _ _ => ?_
  refine sane_checkField.bind fun _ _ => ?_
  refine sane_checkField.bind fun _ _ => ?_
  refine sane_checkField.bind fun _ _ => ?_
  exact sane_verifyOutboundLiveTos.bind fun _ _ => sane_verifyOutboundLiveTtlOrHl

theorem sane_verifyIpv6 (ha : (actual.headerAt layer).ptr = some a)
    (hs : (script.headerAt layer).ptr = some s) {allowance : Int}
    (hallowance : tcpOptionsAllowance actual script = .ok allowance) :
    Status.Sane (verifyIpv6 actual script layer true) := by
  unfold verifyIpv6
  simp only [layerPtr_of_ptr ha, layerPtr_of_ptr hs, bind_of_ok rfl, if_true, hallowance, halting]
  refine sane_checkField.bind fun _ _ => ?_
  refine sane_checkField.bind fun _ _ => ?_
  refine sane_checkField.bind fun _ _ => ?_
  exact sane_verifyOutboundLiveTos.bind fun _ _ => sane_verifyOutboundLiveTtlOrHl

theorem sane_verifyTcp (ha : (actual.headerAt layer).ptr = some a)
    (hs : (script.headerAt layer).ptr = some s) {allowance len : Int}
    (hallowance : tcpOptionsAllowance actual script = .ok allowance)
    (hlen : packetPayloadLen script.toPacket = .ok len) :
    Status.Sane (verifyTcp actual script layer true) := by
  unfold verifyTcp
  simp only [layerPtr_of_ptr ha, layerPtr_of_ptr hs, bind_of_ok rfl, if_true, hallowance, halting,
    hlen, ofFault]
  refine sane_checkField.bind fun _ _ => ?_
  refine sane_verifyTcpFlags.bind fun _ _ => ?_
  refine sane_checkField.bind fun _ _ => ?_
  refine sane_checkField.bind fun _ _ => ?_
  refine sane_checkField.bind fun _ _ => ?_
  exact sane_optional sane_checkField sane_checkField

theorem sane_verifyGre (ha : (actual.headerAt layer).ptr = some a)
    (hs : (script.headerAt layer).ptr = some s) {len len' : Nat}
    (hactual : greLenAt actual.buffer a = .ok len)
    (hscript : greLenAt script.buffer s = .ok len') :
    Status.Sane (verifyGre actual script layer true) := by
  unfold verifyGre
  simp only [layerPtr_of_ptr ha, layerPtr_of_ptr hs, bind_of_ok rfl, hactual, hscript, halting]
  refine sane_checkField.bind fun _ _ => ?_
  refine sane_check.bind fun _ _ => ?_
  refine sane_check.bind fun _ _ => ?_
  have hseq (i : Nat) : Status.Sane (if Gre.hasSeq script.buffer s = true then
      check (Gre.be32 script.buffer s i = Gre.be32 actual.buffer a i) "mismatch in GRE seq"
      else pure ()) :=
    .ite (fun _ => sane_check) fun _ => stopsWith_ok
  refine .ite (fun _ => ?_) fun _ => ?_
  · refine sane_check.bind fun _ _ => ?_
    refine sane_check.bind fun _ _ => ?_
    exact sane_optional sane_check (hseq _)
  · exact sane_optional sane_check (hseq _)

theorem sane_verifyMpls (ha : (actual.headerAt layer).ptr = some a)
    (hs : (script.headerAt layer).ptr = some s) :
    Status.Sane (verifyMpls actual script layer true) := by
  unfold verifyMpls
  simp only [layerPtr_of_ptr ha, layerPtr_of_ptr hs, bind_of_ok rfl]
  exact sane_check.bind fun _ _ => sane_verifyMplsEntries

theorem sane_verifyUdp (ha : (actual.headerAt layer).ptr = some a)
    (hs : (script.headerAt layer).ptr = some s) :
    Status.Sane (verifyUdp actual script layer true) := by
  unfold verifyUdp
  simp only [layerPtr_of_ptr ha, layerPtr_of_ptr hs, bind_of_ok rfl, if_true]
  exact sane_checkField

theorem sane_verifyIcmp {function : String} (ha : (actual.headerAt layer).ptr = some a)
    (hs : (script.headerAt layer).ptr = some s) :
    Status.Sane (verifyIcmp function actual script layer true) := by
  unfold verifyIcmp
  simp only [layerPtr_of_ptr ha, layerPtr_of_ptr hs, bind_of_ok rfl]
  exact sane_checkField.bind fun _ _ => sane_checkField

/-- What the verifiers need of a header besides its pointer. -/
structure Comparable (packet : FullPacket) (h : Header) : Prop where
  used : h.type ≠ .none
  ptr : ∃ r, h.ptr = some r
  gre : h.type = .gre → ∀ r, h.ptr = some r → ∃ len, greLenAt packet.buffer r = .ok len

theorem sane_verifyHeader (hv : Comparable actual (actual.headerAt layer))
    (hv' : Comparable script (script.headerAt layer)) {allowance len : Int}
    (hallowance : tcpOptionsAllowance actual script = .ok allowance)
    (hlen : packetPayloadLen script.toPacket = .ok len) :
    Status.Sane (verifyHeader actual script layer true) := by
  obtain ⟨hused, ⟨a, ha⟩, hgre⟩ := hv
  obtain ⟨hused', ⟨s, hs⟩, hgre'⟩ := hv'
  unfold verifyHeader
  refine .ite (fun _ => ?_) fun hsame => ?_
  · refine (sane_halting (require_ok hused')).bind fun _ _ => ?_
    refine (sane_halting (require_ok hused)).bind fun _ _ => ?_
    exact stopsWith_error trivial
  · have hsame := not_not.mp hsame
    cases htype : (script.headerAt layer).type with
    | none => exact absurd htype hused'
    | ipv4 => exact sane_verifyIpv4 ha hs hallowance
    | ipv6 => exact sane_verifyIpv6 ha hs hallowance
    | gre =>
      obtain ⟨len, hactual⟩ := hgre (hsame.symm.trans htype) a ha
      obtain ⟨len', hscript⟩ := hgre' htype s hs
      exact sane_verifyGre ha hs hactual hscript
    | mpls => exact sane_verifyMpls ha hs
    | tcp => exact sane_verifyTcp ha hs hallowance hlen
    | udp => exact sane_verifyUdp ha hs
    | icmpv4 | icmpv6 => exact sane_verifyIcmp ha hs

end Headers

/-! ## Layers -/

section Layers

variable {packet actual script : FullPacket} {outer outer' hs gs rest : List Header}
  {ip last ip' last' h : Header} {p q p' q' layer : Nat} {allowance : Int}

theorem Layers.comparable (hl : Layers packet.toPacket outer ip last p q)
    (hh : h ∈ outer ++ [ip, last]) : Comparable packet h := by
  refine ⟨hl.table.used h hh, hl.exists_ptr hh, fun hgre r hr => ?_⟩
  simp only [List.mem_append, List.mem_cons, List.not_mem_nil, or_false] at hh
  rcases hh with hh | rfl | rfl
  · obtain ⟨hversion, hrouting⟩ := (hl.carriers h hh).gre hgre r hr
    exact ⟨_, by rw [greLenAt, require_ok hversion, bind_of_ok rfl, require_ok hrouting]; rfl⟩
  · have hip := hl.isIp
    rw [hgre] at hip
    cases hip
  · have htransport := hl.isTransport
    rw [hgre] at htransport
    cases htransport

theorem sane_verifyLayers (hall : ∀ i < gs.length,
      Status.Sane (verifyHeader actual script (layer + i) true))
    (hrest : ∀ h ∈ rest, h.type = .none) :
    Status.Sane (verifyLayers actual script true layer (gs ++ rest)) := by
  induction gs generalizing layer with
  | nil =>
    cases rest with
    | nil => exact stopsWith_ok
    | cons h rest =>
      rw [List.nil_append, verifyLayers, if_pos (hrest h List.mem_cons_self)]
      exact stopsWith_ok
  | cons g gs ih =>
    rw [List.cons_append, verifyLayers]
    refine .ite (fun _ => stopsWith_ok) fun _ => ?_
    refine (hall 0 (by simp)).bind fun _ _ => ih fun i hi => ?_
    have hnext := hall (i + 1) (by simpa using hi)
    rwa [← Nat.add_assoc, Nat.add_right_comm] at hnext

theorem sane_verifyOutboundLiveHeaders (hl : Layers actual.toPacket outer ip last p q)
    (hs : ScriptShape script outer' ip' last' p' q')
    (hallowance : tcpOptionsAllowance actual script = .ok allowance) :
    Status.Sane (verifyOutboundLiveHeaders actual script true) := by
  obtain ⟨len, hlen, -⟩ := hs.payloadLen
  unfold verifyOutboundLiveHeaders
  refine (sane_halting (require_ok ?_)).bind fun _ _ => ?_
  · rw [hl.ipv4, hl.ipv6]
    rcases hl.ip_cases with ht | ht <;> simp [ht]
  refine (sane_halting (require_ok ?_)).bind fun _ _ => ?_
  · rw [hl.tcp, hl.udp, hl.icmpv4, hl.icmpv6]
    rcases hl.last_cases with ht | ht | ht | ht <;> simp [ht]
  refine sane_check.bind fun _ hcount => ?_
  have hcount := check_eq_ok_iff.mp hcount
  rw [hl.table.count, hs.table.count] at hcount
  rw [hs.table.entries]
  refine sane_verifyLayers (fun i hi => ?_) fun h hh => ?_
  · rw [Nat.zero_add]
    have hi' : i < (outer ++ [ip, last]).length := hcount.symm ▸ hi
    refine sane_verifyHeader ?_ ?_ hallowance hlen
    · rw [hl.table.headerAt hi']
      exact hl.comparable (List.getElem_mem hi')
    · rw [hs.table.headerAt hi]
      exact hs.comparable (List.getElem_mem hi)
  · rw [List.eq_of_mem_replicate hh]
    rfl

end Layers

/-! ## The other comparisons -/

section Others

variable {actual script : FullPacket} {flowlabelMap : FlowlabelMap} {config : OptionConfig}
  {options options' : List Nat} {b : Memory} {o : Nat} {printing : Printing} {state : VerifyState}
  {a s len : Nat}

theorem sane_flowlabels {live expected : Nat} :
    Status.Sane (verifyFlowlabels flowlabelMap live expected).1 := by
  fun_cases verifyFlowlabels flowlabelMap live expected
  all_goals first | exact stopsWith_ok | exact stopsWith_error trivial

/-- Flow labels are compared if both packets have one. -/
theorem sane_flowlabel (h : script.ipv6 ≠ none → actual.ipv6 ≠ none) :
    Status.Sane (if script.ipv6 ≠ none then
      verifyOutboundLiveIpv6Flowlabel flowlabelMap actual script
      else (.ok (), flowlabelMap)).1 := by
  split
  · rename_i hscript
    obtain ⟨s, hs⟩ := Option.ne_none_iff_exists'.mp hscript
    obtain ⟨a, ha⟩ := Option.ne_none_iff_exists'.mp (h hscript)
    rw [verifyOutboundLiveIpv6Flowlabel, hs, ha]
    exact sane_flowlabels
  · exact stopsWith_ok

theorem lastTimestamp_of_mem (ho : o ∈ options) (hkind : u8At b o = TCPOPT_TIMESTAMP) :
    ∃ o', lastTimestamp b options = some o' := by
  have hsome : (lastTimestamp b options).isSome :=
    List.find?_isSome.mpr ⟨o, List.mem_reverse.mpr ho, by simpa using hkind⟩
  exact Option.isSome_iff_exists.mp hsome

theorem sane_signed {function expression : String} {x : Int}
    (h : function = "verify_outbound_tcp_option") :
    Status.Sane (signed function expression x) := by
  subst h
  exact .ite (fun _ => stopsWith_ok) fun _ => stopsWith_error ⟨_, rfl⟩

theorem sane_verifyTimestamp {actualTsVal scriptTsVal : UInt32} :
    Status.Sane (verifyTimestamp config actualTsVal scriptTsVal) := by
  unfold verifyTimestamp
  refine .ite (fun _ => ?_) fun _ => stopsWith_ok
  exact (sane_signed rfl).bind fun _ _ => (sane_signed rfl).bind fun _ _ => sane_check

/-- A timestamp is compared where both packets have one. -/
theorem sane_compareOptions
    (hts : ∀ o ∈ options, ∀ o' ∈ options', u8At actual.buffer o = TCPOPT_TIMESTAMP →
      u8At script.buffer o' = TCPOPT_TIMESTAMP →
        actual.tcpTsVal ≠ none ∧ script.tcpTsVal ≠ none) :
    Status.Sane (compareOptions config actual script options options') := by
  induction options generalizing options' with
  | nil =>
    cases options' with
    | nil => exact stopsWith_ok
    | cons => exact stopsWith_error trivial
  | cons o options ih =>
    cases options' with
    | nil => exact stopsWith_error trivial
    | cons o' options' =>
      rw [compareOptions]
      refine .ite (fun _ => stopsWith_error trivial) fun hsame => ?_
      refine StopsWith.bind ?_ fun _ _ => ih fun p hp p' hp' =>
        hts p (List.mem_cons_of_mem _ hp) p' (List.mem_cons_of_mem _ hp')
      unfold verifyOutboundTcpOption
      refine .ite (fun _ => stopsWith_ok) fun _ => .ite (fun hkind => ?_) fun _ => ?_
      · have hkind' := (not_not.mp hsame).symm.trans hkind
        obtain ⟨hactual, hscript⟩ := hts o List.mem_cons_self o' List.mem_cons_self hkind hkind'
        obtain ⟨a, ha⟩ := Option.ne_none_iff_exists'.mp hactual
        obtain ⟨s, hs⟩ := Option.ne_none_iff_exists'.mp hscript
        rw [packetTcpTsVal, packetTcpTsVal, ha, hs]
        exact sane_verifyTimestamp
      · exact sane_check.bind fun _ _ => sane_check

theorem sane_verifyOutboundLivePayload (hlen : packetPayloadLen actual.toPacket = .ok (len : Nat))
    (hlen' : packetPayloadLen script.toPacket = .ok (len : Nat))
    (ha : packetPayload actual.toPacket = .ok a) (hs : packetPayload script.toPacket = .ok s) :
    Status.Sane (verifyOutboundLivePayload actual script) := by
  unfold verifyOutboundLivePayload
  rw [hlen, hlen', ha, hs]
  have hpos : ¬ (len : Int) < 0 := not_lt.mpr (Int.natCast_nonneg len)
  simp only [ofFault, halting, bind_of_ok rfl, require_ok, if_neg hpos]
  exact sane_check

theorem sane_verifyTime {timeType : EventTime} {scriptUsecs scriptUsecsEnd liveUsecs : Int}
    {description : String} : Status.Sane (verifyTime printing state timeType scriptUsecs
      scriptUsecsEnd liveUsecs description) := by
  unfold verifyTime
  cases timeType with
  | any => exact stopsWith_ok
  | absolute | relative | absoluteRange | relativeRange => exact sane_check

end Others

/-! ## The call -/

section Call

variable {printing : Printing} {hashKey : UInt32 → UInt32} {heap : Memory} {state : VerifyState}
  {socket : Socket} {flowlabelMap : FlowlabelMap} {config : OptionConfig}
  {live script actual : FullPacket} {mapping : OutboundMapping} {outer outer' : List Header}
  {ip last ip' last' : Header} {p q p' q' n : Nat}

theorem Mapping.scriptShape (hm : Mapping live script mapping outer ip last p q n)
    (hs : ScriptShape script outer' ip' last' p' q') :
    ScriptShape mapping.script outer' ip' last' p' q' := by
  rw [hm.scriptKept]
  exact ⟨hs.toLayers, hs.transport, hs.payloadLen, hs.unchecked⟩

/-- The options of both packets are compared with the timestamps that were found. -/
theorem Mapping.sane_options (hm : Mapping live script mapping outer ip last p q n)
    (ht : last.type = .tcp) :
    Status.Sane (verifyOutboundLiveTcpOptions config mapping.actual mapping.script) := by
  obtain ⟨options, tcp', options', hlive, hactual, hscript, htsVal, htsVal'⟩ := hm.stamped ht
  by_cases hchecked : mapping.script.flags &&& FLAG_OPTIONS_NOCHECK = 0
  · have hscript' : OptionsAt mapping.script.toPacket tcp' options' := by
      rw [hm.scriptKept]
      exact hscript
    rw [verifyOutboundLiveTcpOptions_eq hchecked hactual hscript']
    refine sane_compareOptions fun o ho o' ho' hkind hkind' => ?_
    rw [hm.option_kind ht hlive ho] at hkind
    have hbuffer : mapping.script.buffer = script.buffer := by rw [hm.scriptKept]
    rw [hbuffer] at hkind'
    obtain ⟨t, htime⟩ := lastTimestamp_of_mem ho hkind
    obtain ⟨t', htime'⟩ := lastTimestamp_of_mem ho' hkind'
    rw [htsVal, htsVal', htime, htime']
    simp
  · unfold verifyOutboundLiveTcpOptions
    rw [if_pos hchecked]
    exact stopsWith_ok

theorem tcpOptionsAllowance_formed (h : script.flags &&& FLAG_OPTIONS_NOCHECK ≠ 0 →
    actual.tcp ≠ none) : ∃ allowance, tcpOptionsAllowance actual script = .ok allowance := by
  unfold tcpOptionsAllowance packetTcpOptionsLen
  split
  · rename_i hnocheck
    obtain ⟨tcp, htcp⟩ := Option.ne_none_iff_exists'.mp (h hnocheck)
    rw [htcp]
    exact ⟨_, rfl⟩
  · exact ⟨_, rfl⟩

/-- Options that are not checked are those of a TCP packet. -/
theorem OptionsFormed.tcp_of_unchecked (hformed : OptionsFormed live script)
    (hs : ScriptShape script outer' ip' last' p' q')
    (hflag : script.flags &&& FLAG_OPTIONS_NOCHECK ≠ 0) : live.tcp ≠ none := by
  rcases hformed with ⟨-, hnone⟩ | ⟨⟨tcp, options, harea⟩, -⟩
  · rw [hs.unchecked hnone] at hflag
    exact absurd rfl hflag
  · rw [harea.header]
    simp

theorem Mapping.sane_compareMapped (hm : Mapping live script mapping outer ip last p q n)
    (hl : LiveLayers live outer ip last p q) (hend : packetEnd live.toPacket = .ok n)
    (hs : ScriptShape script outer' ip' last' p' q')
    (hlens : packetPayloadLen live.toPacket = packetPayloadLen script.toPacket)
    (hformed : OptionsFormed live script) :
    Status.Sane
      (compareMapped printing state flowlabelMap live mapping.actual mapping.script).1 := by
  have hs' := hm.scriptShape hs
  obtain ⟨len, hlen, hpos⟩ := hs'.payloadLen
  obtain ⟨len, rfl⟩ := Int.eq_ofNat_of_zero_le hpos
  have hlenScript : packetPayloadLen script.toPacket = .ok (len : Nat) := by
    rw [hm.scriptKept] at hlen
    exact hlen
  have hlenActual : packetPayloadLen mapping.actual.toPacket = .ok (len : Nat) :=
    (hm.packetPayloadLen_eq hl hend).trans (hlens.trans hlenScript)
  obtain ⟨allowance, hallowance⟩ : ∃ allowance,
      tcpOptionsAllowance mapping.actual mapping.script = .ok allowance := by
    refine tcpOptionsAllowance_formed fun hflag => ?_
    rw [hm.scriptKept] at hflag
    rw [hm.layers.tcp, ← hl.tcp]
    exact hformed.tcp_of_unchecked hs hflag
  have hheaders := sane_verifyOutboundLiveHeaders hm.layers.toLayers hs' hallowance
  unfold compareMapped
  cases hresult : verifyOutboundLiveHeaders mapping.actual mapping.script true with
  | error failure =>
    rw [hresult] at hheaders
    exact hheaders
  | ok u =>
    obtain ⟨hip, hlast⟩ :=
      last_type_of_types (verifyOutboundLiveHeaders_types hm.layers.table hs'.table hresult)
    refine StopsWith.bind ?_ fun _ _ => ?_
    · refine sane_flowlabel fun hipv6 => ?_
      rw [hs'.ipv6] at hipv6
      rw [hm.layers.ipv6, hip]
      simpa using hipv6
    · have hpayload := sane_verifyOutboundLivePayload hlenActual hlen hm.layers.packetPayload
        hs'.packetPayload
      refine .ite (fun htcp => ?_) fun _ => sane_optional hpayload sane_verifyTime
      refine (hm.sane_options ?_).bind fun _ _ => sane_optional hpayload sane_verifyTime
      rw [hs'.tcp] at htcp
      by_contra ht
      exact htcp (if_neg (hlast ▸ ht))

theorem addPacketDump_ok {packet : FullPacket} {error : Option String} {type : String}
    {timeUsecs : Int} (h : IsPrinted printing.ipToString packet) :
    ∃ error', addPacketDump printing error type packet timeUsecs .short = .ok error' := by
  obtain ⟨dumped, hdumped⟩ := h
  unfold addPacketDump
  split
  · rw [bind_of_ok hdumped]
    exact ⟨_, rfl⟩
  · exact ⟨_, rfl⟩

/-- A verdict is reported once both packets can be printed. -/
theorem reportVerdict_ok {status : PacketStatus} {error : Option String}
    (hscript : IsPrinted printing.ipToString script)
    (hactual : IsPrinted printing.ipToString actual) :
    StopsWith Halt.IsOverflow (reportVerdict printing state live actual script socket flowlabelMap
      status error) := by
  obtain ⟨error', hfirst⟩ := @addPacketDump_ok printing script error "script"
    state.event.timeUsecs hscript
  obtain ⟨error'', hsecond⟩ := @addPacketDump_ok printing actual error' "actual"
    (liveTimeToScriptTimeUsecs state live.timeUsecs) hactual
  unfold reportVerdict
  rw [bind_of_ok hfirst, bind_of_ok hsecond]
  exact stopsWith_ok

theorem OptionsFormed.scriptArea (hformed : OptionsFormed live script) (htcp : script.tcp ≠ none) :
    ∃ tcp options, OptionsAt script.toPacket tcp options := by
  rcases hformed with ⟨-, hnone⟩ | ⟨-, harea⟩
  · exact absurd hnone htcp
  · exact harea

theorem OptionsFormed.areas (hformed : OptionsFormed live script) (htcp : live.tcp ≠ none) :
    (∃ tcp options, OptionsAt live.toPacket tcp options) ∧
      ∃ tcp options, OptionsAt script.toPacket tcp options := by
  rcases hformed with ⟨hnone, -⟩ | hareas
  · exact absurd hnone htcp
  · exact hareas

theorem LiveShape.copy_isPrinted {ipToString : IpToString} {len : Int}
    (hl : LiveShape live outer ip last p q) (hcopy : packetCopy heap live = .ok actual)
    (hlen : packetPayloadLen live.toPacket = .ok len) (hpos : 0 ≤ len)
    (hformed : live.tcp ≠ none → ∃ tcp options, OptionsAt live.toPacket tcp options) :
    IsPrinted ipToString actual := by
  obtain ⟨n, hcopied, hend, hendActual, hbytes⟩ := hl.copied hcopy hlen hpos
  have hlenActual : ∃ len, packetPayloadLen actual.toPacket = .ok len := by
    rw [packetPayloadLen, hendActual, hcopied.packetPayload]
    exact ⟨_, rfl⟩
  obtain ⟨len', hlenActual⟩ := hlenActual
  refine hcopied.isPrinted hlenActual fun htcp => ?_
  have hsame : actual.tcp = live.tcp := hcopied.tcp.trans hl.tcp.symm
  obtain ⟨tcp, options, harea⟩ := hformed (hsame ▸ htcp)
  refine ⟨tcp, options, harea.same hsame fun i _ hi => hbytes i ?_⟩
  have hinside := hl.inside hlen hpos hend
  have hheader := hl.tcp.symm.trans harea.header
  split_ifs at hheader with ht
  obtain rfl := Option.some.inj hheader
  rw [if_pos ht] at hinside
  omega

theorem Mapping.actual_isPrinted {ipToString : IpToString} {len : Int}
    (hm : Mapping live script mapping outer ip last p q n) (hl : LiveLayers live outer ip last p q)
    (hend : packetEnd live.toPacket = .ok n) (hlen : packetPayloadLen live.toPacket = .ok len) :
    IsPrinted ipToString mapping.actual := by
  refine hm.layers.isPrinted ((hm.packetPayloadLen_eq hl hend).trans hlen) fun htcp => ?_
  have ht : last.type = .tcp := by
    rw [hm.layers.tcp] at htcp
    by_contra ht
    exact htcp (if_neg ht)
  obtain ⟨options, -, -, -, hactual, -⟩ := hm.stamped ht
  exact ⟨q, options, hactual⟩

/-- Nothing stops the comparison but the overflow. -/
theorem Compared.stopsWith (h : Compared socket script live) (hformed : OptionsFormed live script) :
    StopsWith Halt.IsOverflow (verifyOutboundLivePacket printing hashKey heap state socket
      flowlabelMap script live) := by
  obtain ⟨outer, ip, last, p, q, hl⟩ := h.isLive.shape
  obtain ⟨outer', ip', last', p', q', hs⟩ := h.isScript.shape
  obtain ⟨len, hlen, hpos⟩ := hs.payloadLen
  have hlenLive := h.sameLen.trans hlen
  obtain ⟨actual, hcopy⟩ := hl.packetCopy_ok heap
  have hscript : IsPrinted printing.ipToString script := hs.isPrinted hlen hformed.scriptArea
  unfold verifyOutboundLivePacket
  rw [bind_of_ok hcopy]
  cases hchecksums : verifyOutboundLiveChecksums live with
  | error failure =>
    have hsane : Status.Sane (verifyOutboundLiveChecksums live) := by
      unfold verifyOutboundLiveChecksums
      split
      · exact stopsWith_ok
      · exact sane_check
    cases failure with
    | halt halt => exact stopsWith_error (hsane _ hchecksums)
    | error message =>
      exact reportVerdict_ok hscript (hl.copy_isPrinted hcopy hlenLive hpos fun htcp =>
        (hformed.areas htcp).1)
  | ok u =>
    obtain ⟨mapping, hmap⟩ := @mapOutboundLivePacket_ok hashKey heap socket live actual script
      outer ip last p q len hl hcopy hlenLive hpos h.outbound hformed.areas
    obtain ⟨n, hend, hm⟩ := mapOutboundLivePacket_mapping hl hcopy hlenLive hpos hmap
    have hcompared := @Mapping.sane_compareMapped printing state flowlabelMap live script mapping
      outer outer' ip last ip' last' p q p' q' n hm hl.toLiveLayers hend hs h.sameLen hformed
    have hactual : IsPrinted printing.ipToString mapping.actual :=
      hm.actual_isPrinted hl.toLiveLayers hend hlenLive
    have hscript' : IsPrinted printing.ipToString mapping.script := by
      obtain ⟨len', hlen', -⟩ := (hm.scriptShape hs).payloadLen
      refine (hm.scriptShape hs).isPrinted hlen' ?_
      rw [hm.scriptKept]
      exact hformed.scriptArea
    rw [hmap]
    dsimp only
    cases hresult : compareMapped printing state flowlabelMap live mapping.actual
      mapping.script with
    | mk result labels =>
      rw [hresult] at hcompared
      cases result with
      | ok u => exact reportVerdict_ok hscript' hactual
      | error failure =>
        cases failure with
        | halt halt => exact stopsWith_error (hcompared _ rfl)
        | error message => exact reportVerdict_ok hscript' hactual

/-- `STATUS_OK` says that the packets agree, and well-formed options let no assertion fail. -/
theorem verifyOutboundLivePacket_sound (h : Compared socket script live) :
    (∀ verdict, verifyOutboundLivePacket printing hashKey heap state socket flowlabelMap script
        live = .ok verdict → verdict.status = .ok → VerdictSound live script) ∧
      (OptionsFormed live script → ∀ halt, verifyOutboundLivePacket printing hashKey heap state
        socket flowlabelMap script live = .error halt → halt.IsOverflow) :=
  ⟨fun _ hok hstatus => h.sound hok hstatus, fun hformed => h.stopsWith hformed⟩

end Call

/-- A run that has just started, in which timestamps are not compared. -/
def startedState : VerifyState := ⟨⟨⟨4000, 0⟩, false⟩, ⟨.absolute, 0, 0, 0⟩, 0, 0⟩

/-- An ACK that the kernel sends with a timestamp of its own. -/
theorem verifyOutboundLivePacket_sound_ack : ∃ (script live : FullPacket) (verdict : Verdict),
    Compared timestampSocket script live ∧
      verifyOutboundLivePacket plainPrinting id (fun _ => 0) startedState timestampSocket ⟨0, 0⟩
        script live = .ok verdict ∧ verdict.status = .ok ∧ VerdictSound live script ∧
      ∀ halt, verifyOutboundLivePacket plainPrinting id (fun _ => 0) startedState timestampSocket
        ⟨0, 0⟩ script live = .error halt → halt.IsOverflow := by
  obtain ⟨script, kernel, s, live, verdict, hscript, hkernel, hparsed, hbuffer, hlive,
      houtbound, hlen, hscriptShown, hliveShown, hok, hstatus⟩ :
      ∃ (script kernel : FullPacket) (s : ParseState) (live : FullPacket) (verdict : Verdict),
        newTcpPacket (fun _ => 0) (timestampArgs 5 0) = .ok (.ok script) ∧
        newTcpPacket (fun _ => 0) (timestampArgs 7000 0) = .ok (.ok kernel) ∧
        runParsePacket kernel.buffer 75 75 .layer3Ip = .ok (.ok, s) ∧
        s.packet.buffer = kernel.buffer ∧
        tcpConvertSeqNumber timestampSocket s.packet.full = .ok live ∧
        getPacketTuple live.toPacket = .ok (socketGetOutbound timestampSocket.live) ∧
        packetPayloadLen live.toPacket = packetPayloadLen script.toPacket ∧
        AckStamped script 40 [60, 70, 71] 60 ∧ AckStamped live 40 [60, 70, 71] 60 ∧
        verifyOutboundLivePacket plainPrinting id (fun _ => 0) startedState timestampSocket ⟨0, 0⟩
          script live = .ok verdict ∧ verdict.status = .ok :=
    ⟨_, _, _, _, _, rfl, rfl, rfl, rfl, rfl, rfl, rfl,
      (ackStamped_of_next ⟨rfl, rfl, rfl, rfl, rfl, rfl, rfl⟩).1,
      (ackStamped_of_next ⟨rfl, rfl, rfl, rfl, rfl, rfl, rfl⟩).1, rfl, rfl⟩
  rw [← hbuffer] at hparsed
  have hcompared : Compared timestampSocket script live :=
    ⟨⟨script, .inl ⟨_, _, hscript⟩, .alone⟩, .converted ⟨⟨75, 75, .layer3Ip, s, by decide,
      hparsed, rfl⟩, rfl⟩ hlive, houtbound, hlen⟩
  have hsound := @verifyOutboundLivePacket_sound plainPrinting id (fun _ => 0) startedState
    timestampSocket ⟨0, 0⟩ live script hcompared
  exact ⟨script, live, verdict, hcompared, hok, hstatus, hsound.1 verdict hok hstatus,
    hsound.2 (.inr ⟨⟨_, _, hliveShown.area⟩, _, _, hscriptShown.area⟩)⟩

end QoSMos
