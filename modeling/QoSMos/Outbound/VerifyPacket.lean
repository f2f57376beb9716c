import QoSMos.Flow.Key
import QoSMos.Outbound.Flowlabel
import QoSMos.Outbound.VerifyOptions

/-!
# The verdict on an outbound packet

`verify_outbound_live_packet` compares a copy of a sniffed packet, mapped to the values of the
script, with the packet of the script: checksums, headers, flow label, options, payload and time.
It ends with dumps of both packets behind the message, whatever the result.
-/

namespace QoSMos

/-- `enum event_time_t` -/
inductive EventTime where
  | absolute | relative | any | absoluteRange | relativeRange
  deriving DecidableEq, Repr

/-- `struct event`, with the fields for its time. -/
structure Event where
  timeType : EventTime
  timeUsecs : Int
  timeUsecsEnd : Int
  offsetUsecs : Int
  deriving DecidableEq, Repr

/-- `struct config` -/
structure VerifyConfig extends OptionConfig where
  nonFatalPacket : Bool
  deriving DecidableEq, Repr

/-- `struct state` -/
structure VerifyState where
  config : VerifyConfig
  event : Event
  scriptStartTimeUsecs : Int
  liveStartTimeUsecs : Int
  deriving DecidableEq, Repr

/-- What the platform prints: addresses, and numbers of microseconds as seconds with six digits
behind the point, for the formats `%.6f`, `%+.6f` and `%9.6f`. -/
structure Printing where
  ipToString : IpToString
  secs : Int → String
  signedSecs : Int → String
  paddedSecs : Int → String

/-- The absolute value of a number of microseconds, as `%.6f` prints it. -/
def secsText (usecs : Int) : String :=
  toString (usecs.natAbs / 1000000) ++ "." ++
    .ofList ((Nat.toDigits 10 (usecs.natAbs % 1000000)).leftpad 6 '0')

/-- Printing where of all IPv6 addresses with zeros next to each other only `::` occurs. -/
def plainPrinting : Printing where
  ipToString a := if a = ⟨.inet6, List.replicate 16 0⟩ then "::" else plainInetNtop a
  secs usecs := (if usecs < 0 then "-" else "") ++ secsText usecs
  signedSecs usecs := (if usecs < 0 then "-" else "+") ++ secsText usecs
  paddedSecs usecs :=
    .ofList (((if usecs < 0 then "-" else "") ++ secsText usecs).toList.leftpad 9 ' ')

/-- `live_time_to_script_time_usecs` -/
def liveTimeToScriptTimeUsecs (state : VerifyState) (liveTimeUsecs : Int) : Int :=
  state.scriptStartTimeUsecs + (liveTimeUsecs - state.liveStartTimeUsecs)

/-- `verify_outbound_live_checksums` -/
def verifyOutboundLiveChecksums (live : FullPacket) : Status Unit :=
  match live.ipv4 with
  | none => .ok ()
  | some ipv4 =>
    check (ipv4Checksum live.buffer ipv4 (Ipv4.ihl live.buffer ipv4 * 4) = 0)
      "bad outbound IP checksum"

/-- `verify_outbound_live_payload` -/
def verifyOutboundLivePayload (actual script : FullPacket) : Status Unit := do
  let function := "verify_outbound_live_payload"
  let actualLen ← halting (ofFault (packetPayloadLen actual.toPacket))
  let scriptLen ← halting (ofFault (packetPayloadLen script.toPacket))
  halting (require (actualLen = scriptLen) function
    "packet_payload_len(actual_packet) == packet_payload_len(script_packet)")
  let s ← halting (ofFault (packetPayload script.toPacket))
  let a ← halting (ofFault (packetPayload actual.toPacket))
  -- `memcmp` takes a negative length for one that no buffer has.
  if scriptLen < 0 then .error (.halt (.undefined function "memcmp"))
  else
    let len := scriptLen.toNat
    check (readBytes script.buffer s len = readBytes actual.buffer a len)
      "incorrect outbound data payload"

section Verdict

variable (printing : Printing)

/-- `verify_time` -/
def verifyTime (state : VerifyState) (timeType : EventTime)
    (scriptUsecs scriptUsecsEnd liveUsecs : Int) (description : String) : Status Unit :=
  let expectedUsecs := scriptUsecs - state.scriptStartTimeUsecs
  let expectedUsecsEnd := scriptUsecsEnd - state.scriptStartTimeUsecs
  let actualUsecs := liveUsecs - state.liveStartTimeUsecs
  let toleranceUsecs := state.config.toleranceUsecs
  let offsetUsecs := state.event.offsetUsecs
  let secs := printing.secs
  let signedSecs := printing.signedSecs
  match timeType with
  | .any => .ok ()
  | .absoluteRange =>
    check (expectedUsecs - toleranceUsecs ≤ actualUsecs ∧
        actualUsecs ≤ expectedUsecsEnd + toleranceUsecs)
      (s!"timing error: expected {description} in time range " ++
        s!"{secs scriptUsecs}~{secs scriptUsecsEnd} sec but happened at {secs actualUsecs} sec")
  | .relativeRange =>
    check (expectedUsecs - toleranceUsecs ≤ actualUsecs ∧
        actualUsecs ≤ expectedUsecsEnd + toleranceUsecs)
      (s!"timing error: expected {description} in relative time range " ++
        s!"+{secs (scriptUsecs - offsetUsecs)}~+{secs (scriptUsecsEnd - offsetUsecs)} " ++
        s!"sec but happened at {signedSecs (actualUsecs - offsetUsecs)} sec")
  | .absolute | .relative =>
    check (expectedUsecs - toleranceUsecs ≤ actualUsecs ∧
        actualUsecs ≤ expectedUsecs + toleranceUsecs)
      (s!"timing error: expected {description} at {secs scriptUsecs} sec " ++
        s!"but happened at {secs actualUsecs} sec; tolerance {secs toleranceUsecs} sec")

/-- `add_packet_dump`: the message, `none` where it is `NULL`, with the dump behind it. -/
def addPacketDump (error : Option String) (type : String) (packet : FullPacket) (timeUsecs : Int)
    (format : DumpFormat) : Except Halt (Option String) := do
  if packet.ipBytes ≠ 0 then
    let dumped ← packetToString printing.ipToString packet format
    let dumpError := match dumped.error with
      | some message => "\n" ++ message
      | none => ""
    let oldError := error.getD "(null)"
    return some (oldError ++ "\n" ++ s!"{type} packet: {printing.paddedSecs timeUsecs} " ++
      dumped.text ++ dumpError)
  else return error

/-- The comparison of the mapped packet with that of the script, all of whose errors are not fatal:
how it ends, and the map of flow labels that it leaves. -/
def compareMapped (state : VerifyState) (flowlabelMap : FlowlabelMap)
    (live actual script : FullPacket) : Status Unit × FlowlabelMap :=
  match verifyOutboundLiveHeaders actual script true with
  | .error failure => (.error failure, flowlabelMap)
  | .ok () =>
    let (labels, flowlabelMap) :=
      if script.ipv6 ≠ none then verifyOutboundLiveIpv6Flowlabel flowlabelMap actual script
      else (.ok (), flowlabelMap)
    let status := do
      labels
      if script.tcp ≠ none then
        verifyOutboundLiveTcpOptions state.config.toOptionConfig actual script
      if actual.icmpv4 = none ∧ actual.icmpv6 = none then verifyOutboundLivePayload actual script
      let event := state.event
      verifyTime printing state event.timeType event.timeUsecs event.timeUsecsEnd live.timeUsecs
        "outbound packet"
    (status, flowlabelMap)

/-- `STATUS_OK`, `STATUS_WARN` and `STATUS_ERR` -/
inductive PacketStatus where
  | ok | warn | err
  deriving DecidableEq, Repr

/-- What `verify_outbound_live_packet` returns and leaves in `*error` and the socket. -/
structure Verdict where
  status : PacketStatus
  error : Option String
  socket : Socket
  flowlabelMap : FlowlabelMap

/-- The part of `verify_outbound_live_packet` from `out` on. -/
def reportVerdict (state : VerifyState) (live actual script : FullPacket) (socket : Socket)
    (flowlabelMap : FlowlabelMap) (status : PacketStatus) (error : Option String) :
    Except Halt Verdict := do
  let error ← addPacketDump printing error "script" script state.event.timeUsecs .short
  let actualUsecs := liveTimeToScriptTimeUsecs state live.timeUsecs
  let error ← addPacketDump printing error "actual" actual actualUsecs .short
  return ⟨status, error, socket, flowlabelMap⟩

/-- `verify_outbound_live_packet`, called with `*error` still `NULL`. Where the mapping fails it has
set the tuple of the copy; the pointers to timestamps that it may have set are not printed. -/
def verifyOutboundLivePacket (hashKey : UInt32 → UInt32) (heap : Memory) (state : VerifyState)
    (socket : Socket) (flowlabelMap : FlowlabelMap) (script live : FullPacket) :
    Except Halt Verdict := do
  let actual ← packetCopy heap live
  match verifyOutboundLiveChecksums live with
  | .error (.halt halt) => .error halt
  | .error (.error message) =>
    reportVerdict printing state live actual script socket flowlabelMap .err (some message)
  | .ok () =>
    match mapOutboundLivePacket hashKey socket live actual script with
    | .error (.halt halt) => .error halt
    | .error (.error message) =>
      let actual ← ofFault (setPacketTuple actual (socketGetOutbound socket.script))
      reportVerdict printing state live actual script socket flowlabelMap .err (some message)
    | .ok ⟨socket, actual, script⟩ =>
      match compareMapped printing state flowlabelMap live actual script with
      | (.error (.halt halt), _) => .error halt
      | (.error (.error message), flowlabelMap) =>
        let status := if state.config.nonFatalPacket then .warn else .err
        reportVerdict printing state live actual script socket flowlabelMap status (some message)
      | (.ok (), flowlabelMap) =>
        reportVerdict printing state live actual script socket flowlabelMap .ok none

end Verdict

end QoSMos
