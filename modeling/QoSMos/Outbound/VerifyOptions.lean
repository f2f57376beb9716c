import QoSMos.Dump.Flags
import QoSMos.Options.Search

/-!
# Comparing the options of an outbound packet

`verify_outbound_live_tcp_options` walks over the options of two packets in step. For every
timestamp it looks at the values that `find_tcp_timestamp` has found, which are those of the last
one, and it multiplies their difference by the length of a tick as an `int`.
-/

namespace QoSMos

open Returns

/-- `config->tolerance_usecs` and `config->tcp_ts_tick_usecs` -/
structure OptionConfig where
  toleranceUsecs : Int
  tcpTsTickUsecs : Int
  deriving DecidableEq, Repr

/-- What `parse_options` lets pass. -/
structure OptionConfig.Accepted (config : OptionConfig) : Prop where
  tolerance : 0 < config.toleranceUsecs ∧ config.toleranceUsecs ≤ 2147483647
  tick : 0 ≤ config.tcpTsTickUsecs ∧ config.tcpTsTickUsecs ≤ 1000000

/-- The result of an operation on values of type `int`. -/
def signed (function expression : String) (x : Int) : Status Int :=
  if -2147483648 ≤ x ∧ x ≤ 2147483647 then .ok x
  else .error (.halt (.undefined function expression))

/-- The comparison of two timestamps in `verify_outbound_tcp_option`. -/
def verifyTimestamp (config : OptionConfig) (actualTsVal scriptTsVal : UInt32) : Status Unit :=
  let function := "verify_outbound_tcp_option"
  let tsValTickUsecs := config.tcpTsTickUsecs
  if tsValTickUsecs ≠ 0 then do
    let difference := (actualTsVal - scriptTsVal).toBitVec.toInt
    let deviation ← signed function "abs((s32)(actual_ts_val - script_ts_val))" difference.natAbs
    let usecs ← signed function "abs((s32)(actual_ts_val - script_ts_val)) * ts_val_tick_usecs"
      (deviation * tsValTickUsecs)
    check (usecs ≤ config.toleranceUsecs)
      s!"bad outbound TCP timestamp value, tolerance {config.toleranceUsecs}"
  else .ok ()

section Program

variable (config : OptionConfig) (actual script : FullPacket)

/-- `verify_outbound_tcp_option` -/
def verifyOutboundTcpOption (actualOption scriptOption : Nat) : Status Unit :=
  let (b, c) := (actual.buffer, script.buffer)
  let kind := u8At b actualOption
  if kind = TCPOPT_EOL ∨ kind = TCPOPT_NOP then .ok ()
  else if kind = TCPOPT_TIMESTAMP then do
    let scriptTsVal ← packetTcpTsVal script
    let actualTsVal ← packetTcpTsVal actual
    verifyTimestamp config actualTsVal scriptTsVal
  else do
    let scriptKind := u8At c scriptOption
    let actualLength := u8At b (actualOption + 1)
    let scriptLength := u8At c (scriptOption + 1)
    check (scriptLength = actualLength) s!"bad lengths for outbound TCP option {scriptKind}"
    check (scriptLength ≤ 2 ∨ readBytes b (actualOption + 2) (actualLength - 2) =
      readBytes c (scriptOption + 2) (actualLength - 2))
      s!"bad value outbound TCP option {scriptKind}"

/-- The loop of `verify_outbound_live_tcp_options`. The iterators set `*error` where an option is
malformed, but the loop looks at the options only. -/
def verifyTcpOptionsLoop (actualEnd scriptEnd : Nat) :
    Nat → Option Nat → Option Nat → Status Unit
  | _, none, none => .ok ()
  | 0, _, _ => .error (.halt (.fault .outOfFuel))
  | n + 1, some actualOption, some scriptOption =>
    if u8At actual.buffer actualOption ≠ u8At script.buffer scriptOption then
      .error (.error "bad outbound TCP options")
    else do
      verifyOutboundTcpOption config actual script actualOption scriptOption
      let actualNext ← (nextIteration actual.buffer actualOption actualEnd).result
      let scriptNext ← (nextIteration script.buffer scriptOption scriptEnd).result
      verifyTcpOptionsLoop actualEnd scriptEnd n actualNext.option scriptNext.option
  | _ + 1, _, _ => .error (.error "bad outbound TCP options")

/-- `verify_outbound_live_tcp_options`. An option has at least one byte, so that there are at most
as many steps as bytes in front of the end. -/
def verifyOutboundLiveTcpOptions : Status Unit :=
  if script.flags &&& FLAG_OPTIONS_NOCHECK ≠ 0 then .ok ()
  else do
    let (actualEnd, actualFirst) ← (tcpOptionsBegin actual.toPacket).result
    let (scriptEnd, scriptFirst) ← (tcpOptionsBegin script.toPacket).result
    verifyTcpOptionsLoop config actual script actualEnd scriptEnd (actualEnd + 1)
      actualFirst.option scriptFirst.option

/-- The comparison of two lists of options. -/
def compareOptions : List Nat → List Nat → Status Unit
  | [], [] => .ok ()
  | actualOption :: actualRest, scriptOption :: scriptRest =>
    if u8At actual.buffer actualOption ≠ u8At script.buffer scriptOption then
      .error (.error "bad outbound TCP options")
    else do
      verifyOutboundTcpOption config actual script actualOption scriptOption
      compareOptions actualRest scriptRest
  | _, _ => .error (.error "bad outbound TCP options")

end Program

/-! ## The loop -/

section Loop

variable {config : OptionConfig} {actual script : FullPacket}
  {actualOptions scriptOptions : List Nat} {e f p q n tcp tcp' : Nat}

/-- On well-formed options the loop compares the lists. -/
theorem verifyTcpOptionsLoop_eq (ha : Tiles actual.buffer e p actualOptions e)
    (hs : Tiles script.buffer f q scriptOptions f) (hn : actualOptions.length < n) :
    verifyTcpOptionsLoop config actual script e f n (Iteration.at e p).option
      (Iteration.at f q).option = compareOptions config actual script actualOptions
        scriptOptions := by
  induction n generalizing p q actualOptions scriptOptions with
  | zero => omega
  | succ n ih =>
    cases ha with
    | nil =>
      have hend : (Iteration.at e e).option = none := if_pos le_rfl
      cases hs with
      | nil =>
        have hend' : (Iteration.at f f).option = none := if_pos le_rfl
        rw [hend, hend']
        rfl
      | cons hlt' hformed' hrest' =>
        have hsome' : (Iteration.at f q).option = some q := if_neg (by omega)
        rw [hend, hsome']
        rfl
    | cons hlt hformed hrest =>
      have hsome : (Iteration.at e p).option = some p := if_neg (by omega)
      cases hs with
      | nil =>
        have hend' : (Iteration.at f f).option = none := if_pos le_rfl
        rw [hsome, hend']
        rfl
      | cons hlt' hformed' hrest' =>
        have hsome' : (Iteration.at f q).option = some q := if_neg (by omega)
        rw [List.length_cons] at hn
        rw [hsome, hsome', verifyTcpOptionsLoop, compareOptions,
          nextIteration_of_formed hlt hformed, nextIteration_of_formed hlt' hformed']
        simp only [Returns.bind_of_ok rfl, ih hrest hrest' (by omega)]

theorem verifyOutboundLiveTcpOptions_eq
    (hcheck : script.flags &&& FLAG_OPTIONS_NOCHECK = 0)
    (ha : OptionsAt actual.toPacket tcp actualOptions)
    (hs : OptionsAt script.toPacket tcp' scriptOptions) :
    verifyOutboundLiveTcpOptions config actual script =
      compareOptions config actual script actualOptions scriptOptions := by
  have hlength := ha.tiles.add_length_le
  unfold verifyOutboundLiveTcpOptions
  rw [if_neg (not_not.mpr hcheck), tcpOptionsBegin_eq ha.header ha.doff,
    tcpOptionsBegin_eq hs.header hs.doff]
  exact verifyTcpOptionsLoop_eq ha.tiles hs.tiles (by omega)

end Loop

/-! ## Options that differ in timestamps only -/

/-- Two options of one kind which, timestamps apart, have the same bytes. -/
structure SameOption (b c : Memory) (o p : Nat) : Prop where
  kind : u8At b o = u8At c p
  bytes : u8At b o ≠ TCPOPT_TIMESTAMP →
    readBytes b o (wireLength b o) = readBytes c p (wireLength c p)

/-- Two packets with well-formed options that differ in timestamps only. If the options of the
script are not to be checked it has none. -/
structure OptionsPair (live script : FullPacket) (liveOptions scriptOptions : List Nat) : Prop where
  liveAt : ∃ tcp, OptionsAt live.toPacket tcp liveOptions
  scriptAt : ∃ tcp, OptionsAt script.toPacket tcp scriptOptions
  same : List.Forall₂ (SameOption live.buffer script.buffer) liveOptions scriptOptions
  unchecked : script.flags &&& FLAG_OPTIONS_NOCHECK ≠ 0 → scriptOptions = []

/-- The options of a packet of `new_tcp_packet` are not to be checked only if it has none. -/
theorem newTcpPacket_unchecked {heap : Memory} {args : TcpArgs} {packet : FullPacket} {tcp : Nat}
    {options : List Nat} (hok : newTcpPacket heap args = .ok (.ok packet))
    (harea : OptionsAt packet.toPacket tcp options)
    (hflag : packet.flags &&& FLAG_OPTIONS_NOCHECK ≠ 0) : options = [] := by
  have hb := newTcpPacket_built hok
  obtain ⟨-, -, -, -, -, -, withIp, withTcp, start, -, -, -, hpacket⟩ :=
    newTcpPacket_eq_ok_iff.mp hok
  have hnone : args.tcpOptions = none := by
    by_contra hsome
    have hflags := congrArg FullPacket.flags hpacket
    simp only [if_neg hsome, Nat.add_zero] at hflags
    rw [hflags] at hflag
    by_cases hwindow : args.window = -1
    · rw [if_pos hwindow] at hflag
      exact hflag rfl
    · rw [if_neg hwindow] at hflag
      exact hflag rfl
  have hlength : args.optionLength = 0 := by
    rw [TcpArgs.optionLength, hnone]
    rfl
  obtain rfl : tcp = ipHeaderBytes args.addressFamily :=
    Option.some.inj (harea.header.symm.trans hb.tcp)
  have htiles := harea.tiles
  rw [hb.tcpSet.doff, hlength] at htiles
  cases htiles with
  | nil => rfl
  | cons hlt => exact absurd hlt (lt_irrefl _)

/-- How far the values of two timestamp options are apart. -/
def deviation (b c : Memory) (o p : Nat) : Nat :=
  (getUnalignedBe32 b (o + 2) - getUnalignedBe32 c (p + 2)).toBitVec.toInt.natAbs

/-- No timestamp is further from that of the script than the tolerance allows. -/
def WithinTolerance (config : OptionConfig) (live script : FullPacket)
    (liveOptions scriptOptions : List Nat) : Prop :=
  config.tcpTsTickUsecs = 0 ∨ ∀ o p, (o, p) ∈ liveOptions.zip scriptOptions →
    u8At live.buffer o = TCPOPT_TIMESTAMP →
      deviation live.buffer script.buffer o p * config.tcpTsTickUsecs ≤ config.toleranceUsecs

/-- A function returns, and it returns `STATUS_OK` if and only if `p` holds. -/
def Decides (result : Status Unit) (p : Prop) : Prop :=
  match result with
  | .ok () => p
  | .error (.error _) => ¬ p
  | .error (.halt _) => False

/-- After `find_tcp_timestamp` on both packets the comparison decides whether all timestamps are
within the tolerance. -/
def VerdictExact (config : OptionConfig) (live script : FullPacket)
    (liveOptions scriptOptions : List Nat) : Prop :=
  ∃ actual expected, findTcpTimestamp live = .ok actual ∧ findTcpTimestamp script = .ok expected ∧
    Decides (verifyOutboundLiveTcpOptions config actual expected)
      (WithinTolerance config live script liveOptions scriptOptions)

section Law

variable {b c : Memory} {config : OptionConfig} {live script actual expected : FullPacket}
  {liveOptions scriptOptions options : List Nat} {e f o p r r' s s' : Nat} {verdict : Status Unit}
  {actualTsVal scriptTsVal : UInt32}

/-- The difference of two timestamps is compared as it is while its product with the tick is an
`int`. -/
theorem verifyTimestamp_eq (hconfig : config.Accepted)
    (htick : config.tcpTsTickUsecs ≠ 0) {usecs : Int}
    (husecs : usecs = (actualTsVal - scriptTsVal).toBitVec.toInt.natAbs * config.tcpTsTickUsecs) :
    if usecs < 2147483648 then verifyTimestamp config actualTsVal scriptTsVal =
      check (usecs ≤ config.toleranceUsecs)
        s!"bad outbound TCP timestamp value, tolerance {config.toleranceUsecs}"
    else ∃ halt, verifyTimestamp config actualTsVal scriptTsVal = .error (.halt halt) := by
  obtain ⟨-, hpos, -⟩ := hconfig
  have hone : 1 ≤ config.tcpTsTickUsecs := by omega
  unfold verifyTimestamp
  dsimp only
  generalize (actualTsVal - scriptTsVal).toBitVec.toInt.natAbs = deviation at *
  have hle : (deviation : Int) ≤ usecs := by
    rw [husecs]
    exact le_mul_of_one_le_right (Int.natCast_nonneg deviation) hone
  rw [if_pos htick]
  split
  · rw [signed, if_pos (by omega), Returns.bind_of_ok rfl, ← husecs, signed, if_pos (by omega),
      Returns.bind_of_ok rfl]
  · by_cases hint : (deviation : Int) ≤ 2147483647
    · rw [signed, if_pos (by omega), Returns.bind_of_ok rfl, ← husecs, signed, if_neg (by omega)]
      exact ⟨_, rfl⟩
    · rw [signed, if_neg (by omega)]
      exact ⟨_, rfl⟩

/-- Another option is taken if and only if it has the same bytes. -/
theorem verifyOutboundTcpOption_eq_ok_iff (ho : ¬ Malformed actual.buffer e o)
    (hkinds : u8At actual.buffer o = u8At expected.buffer p)
    (hkind : u8At actual.buffer o ≠ TCPOPT_TIMESTAMP) :
    verifyOutboundTcpOption config actual expected o p = .ok () ↔
      readBytes actual.buffer o (wireLength actual.buffer o) =
        readBytes expected.buffer p (wireLength expected.buffer p) := by
  have hbyte : actual.buffer o = expected.buffer p := UInt8.toNat_inj.mp hkinds
  unfold verifyOutboundTcpOption
  dsimp only
  by_cases hsingle : u8At actual.buffer o ∈ singleByteKinds
  · have hwire : wireLength actual.buffer o = 1 := if_pos hsingle
    have hwire' : wireLength expected.buffer p = 1 := if_pos (hkinds ▸ hsingle)
    rw [if_pos (by simpa [singleByteKinds] using hsingle), hwire, hwire']
    simp [readBytes, hbyte]
  · have hwire : wireLength actual.buffer o = u8At actual.buffer (o + 1) := if_neg hsingle
    have hwire' : wireLength expected.buffer p = u8At expected.buffer (p + 1) :=
      if_neg (hkinds ▸ hsingle)
    have hlong : 2 ≤ u8At actual.buffer (o + 1) := by
      by_contra hshort
      exact ho (.inr ⟨hsingle, .inr (.inl (by omega))⟩)
    have hsplit : u8At actual.buffer (o + 1) = 2 + (u8At actual.buffer (o + 1) - 2) := by omega
    rw [if_neg (by simpa [singleByteKinds] using hsingle), if_neg hkind, hwire, hwire']
    constructor
    · intro hok
      obtain ⟨_, hlength, hdata⟩ := Returns.bind_eq_ok_iff.mp hok
      have hlength := check_eq_ok_iff.mp hlength
      have hstart : readBytes actual.buffer o 2 = readBytes expected.buffer p 2 := by
        simp [readBytes, List.range_succ, hbyte, UInt8.toNat_inj.mp hlength.symm]
      rw [hlength, hsplit, readBytes_append, readBytes_append, hstart]
      refine congrArg (readBytes expected.buffer p 2 ++ ·) ?_
      rcases check_eq_ok_iff.mp hdata with hshort | hdata
      · rw [show u8At actual.buffer (o + 1) - 2 = 0 by omega]
        rfl
      · exact hdata
    · intro hbytes
      have hlength := congrArg List.length hbytes
      rw [length_readBytes, length_readBytes] at hlength
      rw [← hlength, hsplit, readBytes_append, readBytes_append] at hbytes
      have hdata := (List.append_inj hbytes (by simp)).2
      rw [check_ok hlength.symm, Returns.bind_of_ok rfl, check_ok (.inr hdata)]

theorem verifyOutboundTcpOption_timestamp (hkind : u8At actual.buffer o = TCPOPT_TIMESTAMP) :
    verifyOutboundTcpOption config actual expected o p = (do
      let scriptTsVal ← packetTcpTsVal expected
      let actualTsVal ← packetTcpTsVal actual
      verifyTimestamp config actualTsVal scriptTsVal) := by
  unfold verifyOutboundTcpOption
  dsimp only
  rw [hkind, if_neg (by decide), if_pos rfl]

/-- All timestamps of a packet get the same verdict. -/
theorem compareOptions_same (ha : Tiles actual.buffer e r liveOptions s)
    (hs : Tiles expected.buffer f r' scriptOptions s')
    (hsame : List.Forall₂ (SameOption actual.buffer expected.buffer) liveOptions scriptOptions)
    (hverdict : ∀ o ∈ liveOptions, u8At actual.buffer o = TCPOPT_TIMESTAMP →
      ∀ p, verifyOutboundTcpOption config actual expected o p = verdict) :
    ((∀ o ∈ liveOptions, u8At actual.buffer o ≠ TCPOPT_TIMESTAMP) →
      compareOptions config actual expected liveOptions scriptOptions = .ok ()) ∧
    ((∃ o ∈ liveOptions, u8At actual.buffer o = TCPOPT_TIMESTAMP) →
      compareOptions config actual expected liveOptions scriptOptions = verdict) := by
  induction hsame generalizing r r' with
  | nil => exact ⟨fun _ => rfl, by simp⟩
  | @cons o p liveOptions scriptOptions hfirst hrest ih =>
    cases ha with
    | cons hlt hformed htiles =>
      cases hs with
      | cons hlt' hformed' htiles' =>
        obtain ⟨hnone, hsome⟩ := ih htiles htiles'
          fun o ho => hverdict o (List.mem_cons_of_mem _ ho)
        have hstep : compareOptions config actual expected (o :: liveOptions)
            (p :: scriptOptions) = (do
              verifyOutboundTcpOption config actual expected o p
              compareOptions config actual expected liveOptions scriptOptions) :=
          if_neg (not_not.mpr hfirst.kind)
        rw [hstep]
        by_cases hkind : u8At actual.buffer o = TCPOPT_TIMESTAMP
        · refine ⟨fun hall => absurd hkind (hall o List.mem_cons_self), fun _ => ?_⟩
          rw [hverdict o List.mem_cons_self hkind]
          cases hv : verdict with
          | error failure => rfl
          | ok u =>
            rw [Returns.bind_of_ok rfl]
            by_cases hmore : ∃ o ∈ liveOptions, u8At actual.buffer o = TCPOPT_TIMESTAMP
            · rw [hsome hmore, hv]
            · exact hnone fun o ho hk => hmore ⟨o, ho, hk⟩
        · have htaken := (@verifyOutboundTcpOption_eq_ok_iff config actual expected e o p hformed
            hfirst.kind hkind).mpr (hfirst.bytes hkind)
          rw [htaken, Returns.bind_of_ok rfl]
          refine ⟨fun hall => hnone fun o ho => hall o (List.mem_cons_of_mem _ ho), ?_⟩
          rintro ⟨o', ho', hk⟩
          rcases List.mem_cons.mp ho' with rfl | ho'
          · exact absurd hk hkind
          · exact hsome ⟨o', ho', hk⟩

/-- Options that were compared are the same but for timestamps. -/
theorem compareOptions_ok (ha : Tiles actual.buffer e r liveOptions s)
    (hok : compareOptions config actual expected liveOptions scriptOptions = .ok ()) :
    List.Forall₂ (SameOption actual.buffer expected.buffer) liveOptions scriptOptions := by
  induction ha generalizing scriptOptions with
  | nil =>
    cases scriptOptions with
    | nil => exact .nil
    | cons => cases hok
  | @cons o r options hlt hformed hrest ih =>
    cases scriptOptions with
    | nil => cases hok
    | cons p scriptOptions =>
      rw [compareOptions] at hok
      split_ifs at hok with hkinds
      have hkinds := not_not.mp hkinds
      obtain ⟨_, hfirst, hok⟩ := Returns.bind_eq_ok_iff.mp hok
      exact .cons ⟨hkinds, fun hkind =>
        (verifyOutboundTcpOption_eq_ok_iff hformed hkinds hkind).mp hfirst⟩ (ih hok)

theorem lastTimestamp_cons : lastTimestamp b (o :: options) =
    (lastTimestamp b options).or (if u8At b o = TCPOPT_TIMESTAMP then some o else none) := by
  simp [lastTimestamp, List.find?_append, List.find?_singleton]

/-- The last timestamps of two such lists are at the same position. -/
theorem lastTimestamp_same (hsame : List.Forall₂ (SameOption b c) liveOptions scriptOptions) :
    (lastTimestamp b liveOptions = none ∧ lastTimestamp c scriptOptions = none ∧
      ∀ o ∈ liveOptions, u8At b o ≠ TCPOPT_TIMESTAMP) ∨
    ∃ o p, lastTimestamp b liveOptions = some o ∧ lastTimestamp c scriptOptions = some p ∧
      (o, p) ∈ liveOptions.zip scriptOptions ∧ u8At b o = TCPOPT_TIMESTAMP := by
  induction hsame with
  | nil => exact .inl ⟨rfl, rfl, by simp⟩
  | @cons o p liveOptions scriptOptions hfirst hrest ih =>
    simp only [lastTimestamp_cons, List.zip_cons_cons, List.mem_cons]
    rcases ih with ⟨hlive, hscript, hnone⟩ | ⟨o', p', hlive, hscript, hmem, hkind⟩
    · rw [hlive, hscript]
      by_cases hkind : u8At b o = TCPOPT_TIMESTAMP
      · exact .inr ⟨o, p, by simp [hkind], by simp [← hfirst.kind, hkind], .inl rfl, hkind⟩
      · refine .inl ⟨by simp [hkind], by simp [← hfirst.kind, hkind], ?_⟩
        rintro o' (rfl | ho')
        · exact hkind
        · exact hnone o' ho'
    · rw [hlive, hscript]
      exact .inr ⟨o', p', rfl, rfl, .inr hmem, hkind⟩

/-- What the comparison of such packets comes to, with the timestamps that were found. -/
theorem OptionsPair.verify (hpair : OptionsPair live script liveOptions scriptOptions) :
    let actual := live.withTimestamp (lastTimestamp live.buffer liveOptions)
    let expected := script.withTimestamp (lastTimestamp script.buffer scriptOptions)
    findTcpTimestamp live = .ok actual ∧ findTcpTimestamp script = .ok expected ∧
      ((lastTimestamp live.buffer liveOptions = none ∧
        (∀ o ∈ liveOptions, u8At live.buffer o ≠ TCPOPT_TIMESTAMP) ∧
        verifyOutboundLiveTcpOptions config actual expected = .ok ()) ∨
      ∃ o p, lastTimestamp live.buffer liveOptions = some o ∧
        lastTimestamp script.buffer scriptOptions = some p ∧
        (o, p) ∈ liveOptions.zip scriptOptions ∧ u8At live.buffer o = TCPOPT_TIMESTAMP ∧
        verifyOutboundLiveTcpOptions config actual expected = verifyTimestamp config
          (getUnalignedBe32 live.buffer (o + 2)) (getUnalignedBe32 script.buffer (p + 2))) := by
  obtain ⟨⟨tcp, hlive⟩, ⟨tcp', hscript⟩, hsame, hunchecked⟩ := hpair
  intro actual expected
  refine ⟨findTcpTimestamp_of_options hlive, findTcpTimestamp_of_options hscript, ?_⟩
  by_cases hcheck : script.flags &&& FLAG_OPTIONS_NOCHECK = 0
  · have hverify := @verifyOutboundLiveTcpOptions_eq config actual expected liveOptions
      scriptOptions tcp tcp' hcheck hlive hscript
    have hcompare (verdict : Status Unit) := @compareOptions_same config actual expected
      liveOptions scriptOptions _ _ _ _ _ _ verdict hlive.tiles hscript.tiles hsame
    rcases lastTimestamp_same hsame with ⟨hnone, -, hno⟩ | ⟨o, p, ho, hp, hmem, hkind⟩
    · refine .inl ⟨hnone, hno, ?_⟩
      rw [hverify]
      exact (hcompare (.ok ()) fun o ho hkind => absurd hkind (hno o ho)).1 hno
    · refine .inr ⟨o, p, ho, hp, hmem, hkind, ?_⟩
      rw [hverify]
      refine (hcompare _ fun o' _ hkind' p' => ?_).2 ⟨o, (List.of_mem_zip hmem).1, hkind⟩
      rw [verifyOutboundTcpOption_timestamp hkind']
      simp only [actual, expected, FullPacket.withTimestamp, ho, hp]
      rfl
  · obtain rfl := hunchecked hcheck
    obtain rfl := List.forall₂_nil_right_iff.mp hsame
    exact .inl ⟨rfl, by simp, if_pos hcheck⟩

/-- The comparison decides whether all timestamps are within the tolerance if and only if there
is no tick, or the product for the last timestamps is an `int` and is beyond the tolerance
whenever one of the others is. -/
theorem verdictExact_iff (hconfig : config.Accepted)
    (hpair : OptionsPair live script liveOptions scriptOptions) :
    VerdictExact config live script liveOptions scriptOptions ↔
      config.tcpTsTickUsecs = 0 ∨ ∀ o p, lastTimestamp live.buffer liveOptions = some o →
        lastTimestamp script.buffer scriptOptions = some p →
        deviation live.buffer script.buffer o p * config.tcpTsTickUsecs < 2147483648 ∧
          (config.toleranceUsecs <
              deviation live.buffer script.buffer o p * config.tcpTsTickUsecs ∨
            WithinTolerance config live script liveOptions scriptOptions) := by
  obtain ⟨hfoundLive, hfoundScript, hverify⟩ := @OptionsPair.verify config live script _ _ hpair
  have hexact : VerdictExact config live script liveOptions scriptOptions ↔
      Decides (verifyOutboundLiveTcpOptions config
          (live.withTimestamp (lastTimestamp live.buffer liveOptions))
          (script.withTimestamp (lastTimestamp script.buffer scriptOptions)))
        (WithinTolerance config live script liveOptions scriptOptions) := by
    constructor
    · rintro ⟨actual, expected, hactual, hexpected, hdecides⟩
      obtain rfl := Except.ok.inj (hfoundLive.symm.trans hactual)
      obtain rfl := Except.ok.inj (hfoundScript.symm.trans hexpected)
      exact hdecides
    · exact fun hdecides => ⟨_, _, hfoundLive, hfoundScript, hdecides⟩
  rw [hexact]
  rcases hverify with ⟨hnone, hno, hverify⟩ | ⟨o, p, ho, hp, hmem, hkind, hverify⟩
  · -- there is nothing to compare
    rw [hverify, hnone]
    have hwithin : WithinTolerance config live script liveOptions scriptOptions :=
      .inr fun o p hmem hkind => absurd hkind (hno o (List.of_mem_zip hmem).1)
    exact ⟨fun _ => .inr (by simp), fun _ => hwithin⟩
  rw [hverify]
  by_cases htick : config.tcpTsTickUsecs = 0
  · rw [verifyTimestamp, if_neg (not_not.mpr htick)]
    exact ⟨fun _ => .inl htick, fun _ => .inl htick⟩
  have hresult := @verifyTimestamp_eq config (getUnalignedBe32 live.buffer (o + 2))
    (getUnalignedBe32 script.buffer (p + 2)) hconfig htick
    (deviation live.buffer script.buffer o p * config.tcpTsTickUsecs) rfl
  have hcondition (q : Nat → Nat → Prop) : (config.tcpTsTickUsecs = 0 ∨ ∀ o' p',
      lastTimestamp live.buffer liveOptions = some o' →
      lastTimestamp script.buffer scriptOptions = some p' → q o' p') ↔ q o p := by
    constructor
    · rintro (hzero | hall)
      · exact absurd hzero htick
      · exact hall o p ho hp
    · intro hq
      right
      intro o' p' ho' hp'
      obtain rfl := Option.some.inj (ho.symm.trans ho')
      obtain rfl := Option.some.inj (hp.symm.trans hp')
      exact hq
  rw [hcondition]
  have hlast : WithinTolerance config live script liveOptions scriptOptions →
      deviation live.buffer script.buffer o p * config.tcpTsTickUsecs ≤ config.toleranceUsecs := by
    rintro (hzero | hall)
    · exact absurd hzero htick
    · exact hall o p hmem hkind
  generalize
    (deviation live.buffer script.buffer o p * config.tcpTsTickUsecs : Int) = usecs at *
  by_cases hint : usecs < 2147483648
  · rw [if_pos hint] at hresult
    rw [hresult]
    by_cases hle : usecs ≤ config.toleranceUsecs
    · rw [check_ok hle]
      exact ⟨fun hwithin => ⟨hint, .inr hwithin⟩, fun h => h.2.resolve_left (not_lt.mpr hle)⟩
    · rw [check_error hle]
      exact ⟨fun _ => ⟨hint, .inl (not_le.mp hle)⟩, fun _ => mt hlast hle⟩
  · rw [if_neg hint] at hresult
    obtain ⟨halt, hhalt⟩ := hresult
    rw [hhalt]
    exact ⟨False.elim, fun h => absurd h.1 hint⟩

end Law

/-- Two timestamps and four bytes of padding. -/
def twoTimestamps (first second : UInt32) : TcpArgs :=
  let options := [8, 10] ++ be32 first.toNat ++ be32 0 ++ [8, 10] ++ be32 second.toNat ++ be32 0 ++
    [1, 1, 1, 1]
  { synArgs with
    flags := ".".toList
    tcpOptions := some ⟨.ofFn fun i => options.getD i 0, 24⟩ }

/-- The options of such a packet. -/
structure ShowsTwo (packet : FullPacket) (first second : UInt32) : Prop where
  area : OptionsAt packet.toPacket 40 [60, 70, 80, 81, 82, 83]
  kinds : [60, 70, 80, 81, 82, 83].map (u8At packet.buffer) = [8, 8, 1, 1, 1, 1]
  values : [62, 72].map (getUnalignedBe32 packet.buffer) = [first, second]
  checked : packet.flags = 0

theorem showsTwo_of_next {packet : FullPacket} {first second : UInt32}
    (h : packet.tcp = some 40 ∧ Tcp.doff packet.buffer 40 = 11 ∧
      [60, 70, 80, 81, 82, 83].map (fun o => tcpOptionsNext packet.buffer o 84) =
        [70, 80, 81, 82, 83, 84].map .ok)
    (hkinds : [60, 70, 80, 81, 82, 83].map (u8At packet.buffer) = [8, 8, 1, 1, 1, 1])
    (hvalues : [62, 72].map (getUnalignedBe32 packet.buffer) = [first, second])
    (hchecked : packet.flags = 0) : ShowsTwo packet first second := by
  obtain ⟨htcp, hdoff, hnext⟩ := h
  simp only [List.map_cons, List.map_nil, List.cons.injEq, and_true] at hnext
  obtain ⟨h0, h1, h2, h3, h4, h5⟩ := hnext
  have hend : 40 + Tcp.doff packet.buffer 40 * 4 = 84 := by rw [hdoff]
  have htiles : Tiles packet.buffer 84 60 [60, 70, 80, 81, 82, 83] 84 :=
    .of_next (by decide) h0 (.of_next (by decide) h1 (.of_next (by decide) h2
      (.of_next (by decide) h3 (.of_next (by decide) h4 (.of_next (by decide) h5 (.nil 84))))))
  exact ⟨⟨htcp, by rw [hdoff]; decide, by rw [hend]; exact htiles⟩, hkinds, hvalues, hchecked⟩

theorem ShowsTwo.pair {live script : FullPacket} {first second first' second' : UInt32}
    (hl : ShowsTwo live first second) (hs : ShowsTwo script first' second') :
    OptionsPair live script [60, 70, 80, 81, 82, 83] [60, 70, 80, 81, 82, 83] := by
  have hkinds := hl.kinds
  have hkinds' := hs.kinds
  simp only [List.map_cons, List.map_nil, List.cons.injEq, and_true] at hkinds hkinds'
  obtain ⟨h0, h1, h2, h3, h4, h5⟩ := hkinds
  obtain ⟨h0', h1', h2', h3', h4', h5'⟩ := hkinds'
  have htimestamp (o : Nat) (h : u8At live.buffer o = 8) (h' : u8At script.buffer o = 8) :
      SameOption live.buffer script.buffer o o :=
    ⟨h.trans h'.symm, fun hne => absurd h hne⟩
  have hpadding (o : Nat) (h : u8At live.buffer o = 1) (h' : u8At script.buffer o = 1) :
      SameOption live.buffer script.buffer o o := by
    have hbyte : live.buffer o = script.buffer o := UInt8.toNat_inj.mp (h.trans h'.symm)
    refine ⟨h.trans h'.symm, fun _ => ?_⟩
    simp [wireLength, h, h', singleByteKinds, TCPOPT_EOL, TCPOPT_NOP, readBytes, hbyte]
  refine ⟨⟨40, hl.area⟩, ⟨40, hs.area⟩, ?_, fun hflag => ?_⟩
  · exact .cons (htimestamp _ h0 h0') (.cons (htimestamp _ h1 h1') (.cons (hpadding _ h2 h2')
      (.cons (hpadding _ h3 h3') (.cons (hpadding _ h4 h4') (.cons (hpadding _ h5 h5') .nil)))))
  · rw [hs.checked] at hflag
    exact absurd rfl hflag

theorem ShowsTwo.last {packet : FullPacket} {first second : UInt32}
    (h : ShowsTwo packet first second) :
    lastTimestamp packet.buffer [60, 70, 80, 81, 82, 83] = some 70 := by
  have hkinds := h.kinds
  simp only [List.map_cons, List.map_nil, List.cons.injEq, and_true] at hkinds
  simp [lastTimestamp, hkinds, TCPOPT_TIMESTAMP]

theorem ShowsTwo.deviation {live script : FullPacket} {first second first' second' : UInt32}
    (hl : ShowsTwo live first second) (hs : ShowsTwo script first' second') :
    deviation live.buffer script.buffer 60 60 = (first - first').toBitVec.toInt.natAbs ∧
      deviation live.buffer script.buffer 70 70 = (second - second').toBitVec.toInt.natAbs := by
  have hvalues := hl.values
  have hvalues' := hs.values
  simp only [List.map_cons, List.map_nil, List.cons.injEq, and_true] at hvalues hvalues'
  exact ⟨by rw [QoSMos.deviation, hvalues.1, hvalues'.1],
    by rw [QoSMos.deviation, hvalues.2, hvalues'.2]⟩

/-- The last timestamp is too far from that of the script. -/
theorem verdictExact_far : ∃ live script : FullPacket,
    newTcpPacket (fun _ => 0) (twoTimestamps 5 105) = .ok (.ok live) ∧
      newTcpPacket (fun _ => 0) (twoTimestamps 5 5) = .ok (.ok script) ∧
      VerdictExact ⟨4000, 1000⟩ live script [60, 70, 80, 81, 82, 83] [60, 70, 80, 81, 82, 83] := by
  obtain ⟨live, script, hlive, hscript, hl, hs⟩ : ∃ live script : FullPacket,
      newTcpPacket (fun _ => 0) (twoTimestamps 5 105) = .ok (.ok live) ∧
        newTcpPacket (fun _ => 0) (twoTimestamps 5 5) = .ok (.ok script) ∧
        ShowsTwo live 5 105 ∧ ShowsTwo script 5 5 :=
    ⟨_, _, rfl, rfl, showsTwo_of_next ⟨rfl, rfl, rfl⟩ rfl rfl rfl,
      showsTwo_of_next ⟨rfl, rfl, rfl⟩ rfl rfl rfl⟩
  refine ⟨live, script, hlive, hscript, ?_⟩
  refine (verdictExact_iff ⟨by decide, by decide⟩ (hl.pair hs)).mpr (.inr fun o p ho hp => ?_)
  obtain rfl := Option.some.inj (hl.last.symm.trans ho)
  obtain rfl := Option.some.inj (hs.last.symm.trans hp)
  rw [(hl.deviation hs).2]
  exact ⟨by decide, .inl (by decide)⟩

/-- A timestamp in front of the last one is not compared. -/
theorem not_forall_verdictExact : ¬ ∀ config live script liveOptions scriptOptions,
    config.Accepted → OptionsPair live script liveOptions scriptOptions →
      VerdictExact config live script liveOptions scriptOptions := by
  intro h
  obtain ⟨live, script, -, -, hl, hs⟩ : ∃ live script : FullPacket,
      newTcpPacket (fun _ => 0) (twoTimestamps 100005 5) = .ok (.ok live) ∧
        newTcpPacket (fun _ => 0) (twoTimestamps 5 5) = .ok (.ok script) ∧
        ShowsTwo live 100005 5 ∧ ShowsTwo script 5 5 :=
    ⟨_, _, rfl, rfl, showsTwo_of_next ⟨rfl, rfl, rfl⟩ rfl rfl rfl,
      showsTwo_of_next ⟨rfl, rfl, rfl⟩ rfl rfl rfl⟩
  have hpair := hl.pair hs
  obtain ⟨actual, expected, hactual, hexpected, hdecides⟩ :=
    h ⟨4000, 1⟩ live script _ _ ⟨by decide, by decide⟩ hpair
  obtain ⟨hfoundLive, hfoundScript, hverify⟩ := @OptionsPair.verify ⟨4000, 1⟩ live script _ _ hpair
  obtain rfl := Except.ok.inj (hfoundLive.symm.trans hactual)
  obtain rfl := Except.ok.inj (hfoundScript.symm.trans hexpected)
  have hkinds := hl.kinds
  have hvalues := hl.values
  have hvalues' := hs.values
  simp only [List.map_cons, List.map_nil, List.cons.injEq, and_true] at hkinds hvalues hvalues'
  have hlast := hl.last
  have hlast' := hs.last
  rcases hverify with ⟨hnone, -⟩ | ⟨o, p, ho, hp, -, -, hverify⟩
  · rw [hlast] at hnone
    cases hnone
  · obtain rfl := Option.some.inj (hlast.symm.trans ho)
    obtain rfl := Option.some.inj (hlast'.symm.trans hp)
    rw [hvalues.2, hvalues'.2] at hverify
    rw [hverify] at hdecides
    rcases (hdecides : WithinTolerance _ _ _ _ _) with hzero | hall
    · exact absurd hzero (by decide)
    · have hfirst := hall 60 60 (by simp) hkinds.1
      rw [(hl.deviation hs).1] at hfirst
      exact absurd hfirst (by decide)

end QoSMos
