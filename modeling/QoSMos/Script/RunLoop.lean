import QoSMos.Outbound.VerifyPacket
import QoSMos.Script.Times

/-!
# The loop of `run_script`

In local mode each turn of the loop adjusts the times of the next event, waits for it in
`wait_for_event` and runs it. An outbound packet is not waited for; the time at which it is sniffed
is verified with the packet. The clock is read at several places of a turn, and never goes back.
-/

namespace QoSMos.EventTimes

open Returns Wire

/-- What the loop reads besides its state. -/
structure Setup where
  printing : Printing
  config : VerifyConfig
  script : Script
  liveStartTimeUsecs : Int

/-- What one turn of the loop finds: `now_usecs` in `adjust_relative_event_times`, in the loop of
`wait_for_event` and behind it, and the error that running the event ends in. -/
structure Turn where
  adjusting : Int
  waiting : List Int
  checking : Int
  error : Option String

/-- The readings of the clock in a turn, in their order. -/
def Turn.readings (turn : Turn) : List Int := turn.adjusting :: turn.waiting ++ [turn.checking]

/-- An event that was run, with the calls of `usleep` in front of it, each with the time of the
call, and the time at which `wait_for_event` returned. -/
structure Fired where
  event : Event
  numEvents : Nat
  sleeps : List (Int × Int)
  returned : Option Int

/-- Why the loop does not go on. -/
inductive RunStop where
  | script (stop : Stop)
  | die (text : String)
  | abort
  /-- The clock stands; the loop of `wait_for_event` goes on when it is read again. -/
  | waiting

def MAX_SPIN_USECS : Int := 20

/-- `event_description` -/
def eventDescription (event : Event) : String :=
  match event.type with
  | .packet => if event.direction = .inbound then "inbound packet" else "outbound packet"
  | .syscall => "system call start"
  | .command => "command"
  | .code => "data collection for code"

def EventTimeT.toVerify : EventTimeT → EventTime
  | .absolute => .absolute
  | .relative => .relative
  | .any => .any
  | .absoluteRange => .absoluteRange
  | .relativeRange => .relativeRange

/-- What `verify_time` reads of the state. -/
def Setup.verifyState (setup : Setup) (state : State) (event : Event) : VerifyState where
  config := setup.config
  event :=
    { timeType := EventTimeT.toVerify event.timeType
      timeUsecs := event.timeUsecs
      timeUsecsEnd := event.timeUsecsEnd
      offsetUsecs := event.offsetUsecs }
  scriptStartTimeUsecs := state.scriptStartTimeUsecs
  liveStartTimeUsecs := setup.liveStartTimeUsecs

/-- `script_time_to_live_time_usecs` -/
def scriptTimeToLiveTimeUsecs (setup : Setup) (state : State) (scriptTimeUsecs : Int) : Int :=
  setup.liveStartTimeUsecs + (scriptTimeUsecs - state.scriptStartTimeUsecs)

/-- `check_event_time` -/
def checkEventTime (setup : Setup) (state : State) (event : Event) (liveUsecs : Int) :
    Except RunStop Unit :=
  match verifyTime setup.printing (setup.verifyState state event)
      (EventTimeT.toVerify event.timeType) event.timeUsecs event.timeUsecsEnd liveUsecs
      (eventDescription event) with
  | .ok () => .ok ()
  | .error (.error message) =>
    .error (.die (setup.script.scriptPath ++ ":" ++ toString event.lineNumber ++ ": " ++ message ++
      "\n"))
  | .error (.halt _) => .error .abort

/-- The loop of `wait_for_event` over the readings of the clock: the sleeps, and the reading that
ends it. -/
def spin (eventUsecs : Int) (numEvents : Nat) : List Int → Option (List (Int × Int) × Int)
  | [] => none
  | now :: later =>
    let waitUsecs := eventUsecs - now
    if waitUsecs ≤ 0 then some ([], now)
    else
      let sleep := if numEvents > 0 ∧ waitUsecs > MAX_SPIN_USECS
        then [(now, waitUsecs - MAX_SPIN_USECS)] else []
      (spin eventUsecs numEvents later).map fun (sleeps, last) => (sleep ++ sleeps, last)

/-- `wait_for_event` -/
def waitForEvent (setup : Setup) (state : State) (event : Event) (numEvents : Nat) (turn : Turn) :
    Except RunStop Fired :=
  let eventUsecs := scriptTimeToLiveTimeUsecs setup state event.timeUsecs
  match spin eventUsecs numEvents turn.waiting with
  | none => .error .waiting
  | some (sleeps, last) =>
    if numEvents > 0 then do
      checkEventTime setup state event turn.checking
      return { event, numEvents, sleeps, returned := some turn.checking }
    else return { event, numEvents, sleeps, returned := some last }

/-- All but outbound packets wait for their time. -/
def startEvent (setup : Setup) (state : State) (event : Event) (numEvents : Nat) (turn : Turn) :
    Except RunStop Fired :=
  if event.type = .packet ∧ event.direction = .invalid then .error .abort
  else if event.type = .packet ∧ event.direction = .outbound then
    .ok { event, numEvents, sleeps := [], returned := none }
  else waitForEvent setup state event numEvents turn

/-- The `switch` of `run_script`, with what comes behind `wait_for_event`. -/
def runEvent (setup : Setup) (state : State) (event : Event) (numEvents : Nat) (turn : Turn) :
    Except RunStop Fired := do
  let fired ← startEvent setup state event numEvents turn
  match turn.error with
  | some text => .error (.die text)
  | none => return fired

structure RunState where
  walk : State
  numEvents : Nat
  log : List Fired

def RunState.initial : RunState := { walk := State.initial, numEvents := 0, log := [] }

/-- `get_next_event`, whose error the loop dies with. -/
def nextEvent (script : Script) (state : State) : Except RunStop State :=
  match getNextEvent script state with
  | .ok state => .ok state
  | .error stop => .error (.script stop)

/-- The loop of `run_script`. -/
def runLoop (setup : Setup) : List Turn → RunState → Except RunStop RunState
  | [], s => .ok s
  | turn :: turns, s => do
    let state ← nextEvent setup.script s.walk
    match state.event with
    | [] => return { s with walk := state }
    | event :: next =>
      let now := turn.adjusting - setup.liveStartTimeUsecs
      let event := adjustEvent state.lastEvent now event
      let state := { state with event := event :: next }
      let fired ← runEvent setup state event s.numEvents turn
      runLoop setup turns
        { walk := state, numEvents := s.numEvents + 1, log := s.log ++ [fired] }

/-- The loop has run the whole script, in turns that read a clock which does not go back. -/
structure RunsTo (setup : Setup) (turns : List Turn) (log : List Fired) : Prop where
  monotone : (turns.flatMap Turn.readings).Pairwise (· ≤ ·)
  begins : turns ≠ []
  ends : ∃ s, runLoop setup turns RunState.initial = .ok s ∧ s.walk.event = [] ∧ s.log = log

end QoSMos.EventTimes
