import QoSMos.Lib.Numeral
import QoSMos.Lib.Path

/-!
# The media context service

`MediaContext.java` with the `SensorQueue` it hands camera states through and the native
`setMediaContext` it calls. Camera callbacks and ticks of the runnable all run on the main
thread, so a step is one callback or one tick from beginning to end. An exception that a
callback throws is not caught and ends the process.

The logs at the end of `State` say what has happened so far; no step looks at them.
-/

namespace QoSMos.Media

open Numeral (parseInt)

/-! ## Data -/

/-- The `listMap` of `SensorQueue`, whose values are all Booleans. -/
abbrev SensorQueue := String → Option Bool

namespace SensorQueue

def push (queue : SensorQueue) (message : String) (data : Bool) : SensorQueue :=
  Function.update queue message (some data)

def get (queue : SensorQueue) (message : String) : Option Bool := queue message

def pop (queue : SensorQueue) (message : String) : Option Bool × SensorQueue :=
  (queue.get message, Function.update queue message none)

end SensorQueue

/-- The fields of the runnable that `updateFlowTables` posts. -/
structure Runnable where
  voipState : Bool
  musicState : Bool
  cameraState : Bool
  mediaState : Int32
  timeer : Int32
  deriving DecidableEq, Repr

/-- What a tick found: whether a call is on, whether music plays, and whether a camera is
in use by what was last reported of the cameras. -/
structure Reading where
  voip : Bool
  music : Bool
  camera : Bool
  deriving DecidableEq, Repr

/-- A callback for a camera, which is then in use or not. -/
structure Callback where
  cameraId : String
  unavailable : Bool
  deriving DecidableEq, Repr

structure State where
  queue : SensorQueue
  isCamoneinUse : Option Bool
  isCamtwoinUse : Option Bool
  runnable : Runnable
  deviceMediaContext : Int32
  mediaContextTime : Int
  /-- A callback threw an exception. -/
  crashed : Bool
  callbacks : List Callback
  /-- The values pushed under "Camera". -/
  pushed : List Bool
  readings : List Reading
  /-- The arguments of the calls of `setMediaContext`. -/
  contexts : List Int32

/-- Before the first callback and the first tick. -/
def initial : State where
  queue := fun _ => none
  isCamoneinUse := none
  isCamtwoinUse := none
  runnable := ⟨false, false, false, 0, 0⟩
  deviceMediaContext := 0
  mediaContextTime := 0
  crashed := false
  callbacks := []
  pushed := []
  readings := []
  contexts := []

/-! ## Steps -/

/-- `SensorQueue.getQueueInstance().push("Camera", data)` -/
@[grind =] def pushCamera (s : State) (data : Bool) : State :=
  { s with queue := s.queue.push "Camera" data, pushed := s.pushed ++ [data] }

def onCameraAvailable (s : State) (cameraId : String) : State :=
  let s := { s with callbacks := s.callbacks ++ [Callback.mk cameraId false] }
  match parseInt cameraId with
  | none => { s with crashed := true }
  | some id =>
    let s := if id = 0 then { s with isCamoneinUse := some false }
      else { s with isCamtwoinUse := some false }
    pushCamera s false

def onCameraUnavailable (s : State) (cameraId : String) : State :=
  let s := { s with callbacks := s.callbacks ++ [Callback.mk cameraId true] }
  match parseInt cameraId with
  | none => { s with crashed := true }
  | some id =>
    let s := if id = 0 then { s with isCamoneinUse := some true }
      -- the field of camera 0 again
      else { s with isCamoneinUse := some true }
    pushCamera s true

/-- The native `setMediaContext`. -/
@[grind =] def setMediaContext (s : State) (getTimeSecond : Int) (context : Int32) : State :=
  { s with
    deviceMediaContext := context
    mediaContextTime := (getTimeSecond - 1) * 1000
    contexts := s.contexts ++ [context] }

/-- The context that the runnable computes while its `mediaState` is 0. -/
@[grind =] def Runnable.detect (r : Runnable) : Int32 :=
  let mediaState := 0
  let mediaState := if r.voipState ∧ r.cameraState then 7 else mediaState
  let mediaState := if r.voipState ∧ ¬ r.cameraState then 3 else mediaState
  let mediaState := if ¬ r.voipState ∧ r.cameraState then 6 else mediaState
  if r.musicState then 1 else mediaState

/-- The camera state that the runnable takes out of the queue, or kept from before. -/
def sampleCamera (s : State) : Bool × SensorQueue :=
  match s.queue.get "Camera" with
  | none => (s.runnable.cameraState, s.queue)
  | some cameraState => (cameraState, (s.queue.pop "Camera").2)

/-- The runnable's fields and the queue after its first statements. -/
def sample (s : State) (voip music : Bool) : State :=
  let (cameraState, queue) := sampleCamera s
  { s with
    queue := queue
    runnable :=
      { s.runnable with voipState := voip, musicState := music, cameraState := cameraState }
    readings := s.readings ++ [⟨voip, music, s.pushed.getLast?.getD false⟩] }

/-- `if (mediaState == 0) { ... }` -/
def detectMedia (s : State) (getTimeSecond : Int) : State :=
  if s.runnable.mediaState = 0 then
    let mediaState := s.runnable.detect
    let s := { s with runnable := { s.runnable with mediaState := mediaState } }
    if mediaState > 0 then setMediaContext s getTimeSecond mediaState else s
  else s

/-- `run` of the runnable, where `audioStart` returned `voip`, `isMusicActive` returned
`music` and the clock stands at `getTimeSecond`. -/
def tick (s : State) (voip music : Bool) (getTimeSecond : Int) : State :=
  let s := detectMedia (sample s voip music) getTimeSecond
  -- Media context is over.
  let s := if s.runnable.timeer > 0 ∧ s.runnable.mediaState = 0 then
      setMediaContext s getTimeSecond s.runnable.mediaState
    else s
  if s.runnable.mediaState > 0 then
    { s with runnable := { s.runnable with timeer := s.runnable.timeer + 1 } }
  else s

inductive Act where
  | cameraAvailable (cameraId : String)
  | cameraUnavailable (cameraId : String)
  | tick (voip music : Bool) (getTimeSecond : Int)
  deriving DecidableEq, Repr

/-- What happens next on the main thread, as long as the process lives. -/
def step (s : State) : Act → Option State
  | .cameraAvailable cameraId => if s.crashed then none else some (onCameraAvailable s cameraId)
  | .cameraUnavailable cameraId => if s.crashed then none else some (onCameraUnavailable s cameraId)
  | .tick voip music getTimeSecond =>
    if s.crashed then none else some (tick s voip music getTimeSecond)

abbrev Step (s : State) (a : Act) (t : State) : Prop := step s a = some t

end QoSMos.Media
