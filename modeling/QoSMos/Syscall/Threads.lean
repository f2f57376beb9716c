import QoSMos.Lib.Path
import QoSMos.Syscall.Runtime

/-!
# The main thread and the system call thread

`run_script`, `run_system_call_event` and `syscalls_free` on one side and `system_call_thread` on
the other, as a transition system. A label of `step` names the thread that moves, a wake-up from a
condition variable that no signal has caused, or the end of the process by `die`. A signal wakes
the thread that waits for it.

Of a handler there is left that it calls `begin_syscall` and then `end_syscall`. What a thread does
between two operations on the shared state is one step, and where it may release the mutex to sleep
it can do so any number of times.
-/

namespace QoSMos.Syscall.Threads

/-! ## Data -/

inductive Thread where
  | main | syscall
  deriving DecidableEq, Repr

/-- The type of an event; a system call may be expected to block. -/
inductive EventKind where
  | packet | syscall (blocking : Bool) | command | code
  deriving DecidableEq, Repr

/-- What follows `await_idle_thread`. -/
inductive AfterIdle where
  | enqueue | invoke | free
  deriving DecidableEq, Repr

/-- Places in the main thread, each named for the step taken from it. -/
inductive MainPc where
  | nextEvent
  /-- An event is run, or a call that does not block; `workUnlocked` is inside its sleep. -/
  | work | workUnlocked
  | await (next : AfterIdle) | awaitBlocked (next : AfterIdle)
  | awaitWoken (next : AfterIdle) (timedOut : Bool)
  | setEnqueued | signalEnqueued | awaitDequeued | dequeuedBlocked | dequeuedWoken
  | unlockYield | yield | relock (done : Bool) | checkIdle (done : Bool)
  | setExiting | signalExit | unlockExit | join | lockExit | stateFree | returned
  deriving DecidableEq, Repr

/-- Places in `system_call_thread`, with the event that it runs. -/
inductive SyscallPc where
  | lockStart | loop | enqueuedBlocked | enqueuedWoken
  | invoke (event : Nat) | invokeUnlocked (event : Nat)
  | beginSyscall (event : Nat) | beginUnlock (event : Nat) | signalDequeued (event : Nat)
  | call (event : Nat) | endLock (event : Nat) | endSyscall (event : Nat)
  | checkEnd (event : Nat) | goIdle (event : Nat)
  | signalIdle | unlockEnd | returned
  deriving DecidableEq, Repr

/-- An operation on the mutex, `pthread_cond_wait` being one of each kind. -/
inductive MutexOp where
  | lock (T : Thread) | unlock (T : Thread)
  deriving DecidableEq, Repr

structure State where
  mutex : Option Thread
  main : MainPc
  syscall : SyscallPc
  /-- `syscalls->state` -/
  state : SyscallStateT
  /-- `state->event`, by its place in the script. -/
  event : Option Nat
  /-- `syscalls->event` -/
  running : Option Nat
  liveEndUsecs : Int
  died : Bool
  /-- The assertion that has failed. -/
  failed : Option String
  /-- The events that were enqueued, handed to their handlers, and finished. -/
  enqueued : List Nat
  invoked : List Nat
  finished : List Nat
  /-- The values of `syscalls->state` after the first, and the operations on the mutex. -/
  moves : List SyscallStateT
  ops : List MutexOp

/-- What is left open in a step: whether the mutex is released to sleep, what
`is_thread_sleeping` returns, and the time. -/
structure Choice where
  release : Bool
  sleeping : Bool
  now : Nat

inductive Act where
  | thread (T : Thread) (choice : Choice)
  | wakeMain (timedOut : Bool)
  | wakeSyscall
  | die

/-! ## Steps -/

@[grind =] def State.lock (s : State) (T : Thread) : State :=
  { s with mutex := some T, ops := s.ops ++ [.lock T] }

@[grind =] def State.unlock (s : State) (T : Thread) : State :=
  { s with mutex := none, ops := s.ops ++ [.unlock T] }

/-- `syscalls->state = ...` -/
@[grind =] def State.move (s : State) (state : SyscallStateT) : State :=
  { s with state := state, moves := s.moves ++ [state] }

@[grind =] def State.mainGoto (s : State) (pc : MainPc) : State := { s with main := pc }

@[grind =] def State.syscallGoto (s : State) (pc : SyscallPc) : State := { s with syscall := pc }

/-- `assert(...)`, and the thread goes on in the state `t` if it holds. -/
@[grind =] def State.require (s : State) (c : Prop) [Decidable c] (expression : String)
    (t : State) : State :=
  if c then t else { s with failed := some expression }

def signalEnqueued (s : State) : State :=
  if s.syscall = .enqueuedBlocked then s.syscallGoto .enqueuedWoken else s

def signalDequeued (s : State) : State :=
  if s.main = .dequeuedBlocked then s.mainGoto .dequeuedWoken else s

def signalIdle (s : State) : State :=
  match s.main with
  | .awaitBlocked next => s.mainGoto (.awaitWoken next false)
  | _ => s

/-- `get_next_event` and the `switch` of `run_script`. -/
def nextEvent (script : List EventKind) (s : State) : State :=
  let event : Nat := match s.event with
    | none => 0
    | some event => event + 1
  match script[event]? with
  | some (.syscall true) => { s.mainGoto (.await .enqueue) with event := some event }
  | some (.syscall false) => { s.mainGoto (.await .invoke) with event := some event }
  | some _ => { s.mainGoto .work with event := some event }
  | none =>
    -- The first event of an empty list is a null pointer.
    if s.event = none then { s with died := true }
    else { s.mainGoto (.await .free) with event := none }

/-- Behind `await_idle_thread`. -/
def afterIdle (s : State) : AfterIdle → State
  | .enqueue => s.mainGoto .setEnqueued
  | .invoke => s.mainGoto .work
  | .free => s.mainGoto .setExiting

def mainStep (script : List EventKind) (s : State) (choice : Choice) : Option State :=
  match s.main with
  | .nextEvent => some (nextEvent script s)
  | .work =>
    if choice.release then some ((s.unlock .main).mainGoto .workUnlocked)
    else some (s.mainGoto .nextEvent)
  | .workUnlocked => if s.mutex = none then some ((s.lock .main).mainGoto .work) else none
  | .await next =>
    if s.state = .idle then some (afterIdle s next)
    else some ((s.unlock .main).mainGoto (.awaitBlocked next))
  | .awaitBlocked _ => none
  | .awaitWoken next timedOut =>
    if s.mutex = none then
      let s := s.lock .main
      if timedOut then
        -- Only `run_system_call_event` goes on without an idle thread.
        match next with
        | .invoke => some (s.mainGoto .work)
        | .enqueue | .free => some { s.mainGoto (.await next) with died := true }
      else some (s.mainGoto (.await next))
    else none
  | .setEnqueued =>
    some ({ s.move .enqueued with enqueued := s.enqueued ++ s.event.toList }.mainGoto
      .signalEnqueued)
  | .signalEnqueued => some ((signalEnqueued s).mainGoto .awaitDequeued)
  | .awaitDequeued =>
    if s.state = .enqueued then some ((s.unlock .main).mainGoto .dequeuedBlocked)
    else some (s.mainGoto .unlockYield)
  | .dequeuedBlocked => none
  | .dequeuedWoken =>
    if s.mutex = none then some ((s.lock .main).mainGoto .awaitDequeued) else none
  | .unlockYield => some ((s.unlock .main).mainGoto .yield)
  | .yield => some (s.mainGoto (.relock choice.sleeping))
  | .relock done =>
    if s.mutex = none then some ((s.lock .main).mainGoto (.checkIdle done)) else none
  | .checkIdle done =>
    some (s.mainGoto (if done ∨ s.state = .idle then .nextEvent else .unlockYield))
  | .setExiting => some ((s.move .exiting).mainGoto .signalExit)
  | .signalExit => some ((signalEnqueued s).mainGoto .unlockExit)
  | .unlockExit => some ((s.unlock .main).mainGoto .join)
  | .join => if s.syscall = .returned then some (s.mainGoto .lockExit) else none
  | .lockExit => if s.mutex = none then some ((s.lock .main).mainGoto .stateFree) else none
  | .stateFree => some ((s.unlock .main).mainGoto .returned)
  | .returned => none

/-- `is_blocking_syscall` of an event -/
def isBlocking (script : List EventKind) (event : Nat) : Bool :=
  script[event]? = some (.syscall true)

/-- The case `SYSCALL_ENQUEUED` up to the call of `invoke_system_call`. -/
def dequeue (script : List EventKind) (s : State) : State :=
  match s.event with
  | some event =>
    let isSyscall := script[event]? = some (.syscall true) ∨ script[event]? = some (.syscall false)
    s.require isSyscall "event->type == SYSCALL_EVENT"
      ({ s with
        running := some event
        liveEndUsecs := -1
        invoked := s.invoked ++ [event] }.syscallGoto (.invoke event))
  | none => { s with died := true }

def syscallStep (script : List EventKind) (s : State) (choice : Choice) : Option State :=
  match s.syscall with
  | .lockStart => if s.mutex = none then some ((s.lock .syscall).syscallGoto .loop) else none
  | .loop =>
    match s.state with
    | .idle => some ((s.unlock .syscall).syscallGoto .enqueuedBlocked)
    | .running | .done => some { s with failed := some "0" }
    | .enqueued => some (dequeue script s)
    | .exiting => some (s.syscallGoto .unlockEnd)
  | .enqueuedBlocked => none
  | .enqueuedWoken => if s.mutex = none then some ((s.lock .syscall).syscallGoto .loop) else none
  | .invoke event =>
    if choice.release then some ((s.unlock .syscall).syscallGoto (.invokeUnlocked event))
    else some (s.syscallGoto (.beginSyscall event))
  | .invokeUnlocked event =>
    if s.mutex = none then some ((s.lock .syscall).syscallGoto (.invoke event)) else none
  | .beginSyscall event =>
    if isBlocking script event then
      some (s.require (s.state = .enqueued) "state->syscalls->state == SYSCALL_ENQUEUED"
        ((s.move .running).syscallGoto (.beginUnlock event)))
    else some (s.syscallGoto (.checkEnd event))
  | .beginUnlock event => some ((s.unlock .syscall).syscallGoto (.signalDequeued event))
  | .signalDequeued event => some ((signalDequeued s).syscallGoto (.call event))
  | .call event => some (s.syscallGoto (.endLock event))
  | .endLock event =>
    if s.mutex = none then some ((s.lock .syscall).syscallGoto (.endSyscall event)) else none
  | .endSyscall event =>
    let s := { s with liveEndUsecs := choice.now }
    some (s.require (s.state = .running) "state->syscalls->state == SYSCALL_RUNNING"
      ((s.move .done).syscallGoto (.checkEnd event)))
  | .checkEnd event =>
    some (s.require (s.liveEndUsecs ≥ 0) "state->syscalls->live_end_usecs >= 0"
      (s.syscallGoto (.goIdle event)))
  | .goIdle event =>
    some (s.require (s.state = .done) "state->syscalls->state == SYSCALL_DONE"
      ({ s.move .idle with
        running := none
        liveEndUsecs := -1
        finished := s.finished ++ [event] }.syscallGoto .signalIdle))
  | .signalIdle => some ((signalIdle s).syscallGoto .loop)
  | .unlockEnd => some ((s.unlock .syscall).syscallGoto .returned)
  | .returned => none

/-- The process goes on. -/
def State.Alive (s : State) : Prop := s.died = false ∧ s.failed = none

instance (s : State) : Decidable s.Alive := inferInstanceAs (Decidable (_ ∧ _))

def step (script : List EventKind) (s : State) (act : Act) : Option State :=
  if s.Alive then
    match act with
    | .thread .main choice => mainStep script s choice
    | .thread .syscall choice => syscallStep script s choice
    | .wakeMain timedOut =>
      match s.main with
      | .awaitBlocked next => some (s.mainGoto (.awaitWoken next timedOut))
      | .dequeuedBlocked => if timedOut then none else some (s.mainGoto .dequeuedWoken)
      | _ => none
    | .wakeSyscall =>
      if s.syscall = .enqueuedBlocked then some (s.syscallGoto .enqueuedWoken) else none
    | .die => some { s with died := true }
  else none

def Step (script : List EventKind) (s : State) (act : Act) (t : State) : Prop :=
  step script s act = some t

/-- The state in which `state_new` has locked the mutex and created the thread. -/
def stateNew : State where
  mutex := some .main
  main := .nextEvent
  syscall := .lockStart
  state := .idle
  event := none
  running := none
  liveEndUsecs := 0
  died := false
  failed := none
  enqueued := []
  invoked := []
  finished := []
  moves := []
  ops := [.lock .main]

end QoSMos.Syscall.Threads
