import QoSMos.Syscall.Threads

/-!
# The protocol of the system call thread

`Protocol` is what a state of the two threads owes: how `syscalls->state` has moved, which events
were run, and how the mutex was used. It holds of every state that any interleaving reaches, for
every script. The proof has three invariants, each of which the next one uses: who is inside the
mutex, what each place of a thread says about `syscalls->state`, and what has happened to the
events.
-/

namespace QoSMos.Syscall.Threads

open LabelledPath

/-! ## Places -/

/-- The main thread has the mutex. -/
@[grind =] def MainPc.inside : MainPc → Bool
  | .workUnlocked | .awaitBlocked _ | .awaitWoken _ _ | .dequeuedBlocked | .dequeuedWoken | .yield
  | .relock _ | .join | .lockExit | .returned => false
  | .nextEvent | .work | .await _ | .setEnqueued | .signalEnqueued | .awaitDequeued | .unlockYield
  | .checkIdle _ | .setExiting | .signalExit | .unlockExit | .stateFree => true

/-- The system call thread has the mutex. -/
@[grind =] def SyscallPc.inside : SyscallPc → Bool
  | .lockStart | .enqueuedBlocked | .enqueuedWoken | .invokeUnlocked _ | .signalDequeued _
  | .call _ | .endLock _ | .returned => false
  | .loop | .invoke _ | .beginSyscall _ | .beginUnlock _ | .endSyscall _ | .checkEnd _ | .goIdle _
  | .signalIdle | .unlockEnd => true

/-- What a place of the main thread says about `syscalls->state`. -/
@[grind =] def MainPc.allows (pc : MainPc) (state : SyscallStateT) : Bool :=
  match pc with
  | .setEnqueued | .setExiting => state = .idle
  | .signalEnqueued => state = .enqueued
  | .awaitDequeued | .dequeuedBlocked | .dequeuedWoken => state ≠ .exiting
  | .signalExit | .unlockExit | .join | .lockExit | .stateFree | .returned => state = .exiting
  | .nextEvent | .work | .workUnlocked | .await _ | .awaitBlocked _ | .awaitWoken _ _ | .unlockYield
  | .yield | .relock _ | .checkIdle _ => state ≠ .enqueued ∧ state ≠ .exiting

/-- What a place of the system call thread says about `syscalls->state`. -/
@[grind =] def SyscallPc.allows (pc : SyscallPc) (state : SyscallStateT) : Bool :=
  match pc with
  | .lockStart | .loop | .enqueuedBlocked | .enqueuedWoken => state ≠ .running ∧ state ≠ .done
  | .invoke _ | .invokeUnlocked _ | .beginSyscall _ => state = .enqueued
  | .beginUnlock _ | .signalDequeued _ | .call _ | .endLock _ | .endSyscall _ => state = .running
  | .checkEnd _ | .goIdle _ => state = .done
  | .signalIdle => state = .idle
  | .unlockEnd | .returned => state = .exiting

/-- The event that the system call thread has taken and not finished. -/
@[grind =] def SyscallPc.event? : SyscallPc → Option Nat
  | .invoke event | .invokeUnlocked event | .beginSyscall event | .beginUnlock event
  | .signalDequeued event | .call event | .endLock event | .endSyscall event | .checkEnd event
  | .goIdle event => some event
  | _ => none

/-- The main thread is about to enqueue `state->event`. -/
@[grind =] def MainPc.enqueues : MainPc → Bool
  | .await next | .awaitBlocked next | .awaitWoken next _ => next = .enqueue
  | .setEnqueued => true
  | _ => false

/-- The main thread has seen the other one return. -/
@[grind =] def MainPc.joined : MainPc → Bool
  | .lockExit | .stateFree | .returned => true
  | _ => false

/-- Where the main thread goes when the other one is idle. -/
def AfterIdle.target : AfterIdle → MainPc
  | .enqueue => .setEnqueued
  | .invoke => .work
  | .free => .setExiting

@[grind =] theorem afterIdle_eq (s : State) (next : AfterIdle) :
    afterIdle s next = s.mainGoto next.target := by
  cases next <;> rfl

@[grind =] theorem AfterIdle.inside_target (next : AfterIdle) : next.target.inside = true := by
  cases next <;> rfl

@[grind =] theorem AfterIdle.joined_target (next : AfterIdle) : next.target.joined = false := by
  cases next <;> rfl

@[grind =] theorem AfterIdle.allows_target (next : AfterIdle) :
    next.target.allows .idle = true := by
  cases next <;> rfl

@[grind =] theorem AfterIdle.enqueues_target (next : AfterIdle) :
    next.target.enqueues = (MainPc.await next).enqueues := by
  cases next <;> rfl

/-! ## The protocol -/

/-- The part of a state that the events are about. -/
structure Books where
  state : SyscallStateT
  event : Option Nat
  running : Option Nat
  /-- The event that the system call thread has taken. -/
  taken : Option Nat
  failed : Option String
  enqueued : List Nat
  invoked : List Nat
  finished : List Nat
  moves : List SyscallStateT

@[grind =] def State.books (s : State) : Books where
  state := s.state
  event := s.event
  running := s.running
  taken := s.syscall.event?
  failed := s.failed
  enqueued := s.enqueued
  invoked := s.invoked
  finished := s.finished
  moves := s.moves

/-- The event that was enqueued and is not finished. -/
@[grind =] def Books.inFlight (b : Books) : Option Nat :=
  match b.state with
  | .idle | .exiting => none
  | .enqueued => b.event
  | .running | .done => b.taken

/-- The arrows between the values of `syscalls->state`. -/
@[grind] inductive Moves : SyscallStateT → SyscallStateT → Prop where
  | enqueue : Moves .idle .enqueued
  | begin : Moves .enqueued .running
  | finish : Moves .running .done
  | idle : Moves .done .idle
  | exit : Moves .idle .exiting

/-- An arrow labelled with its end. -/
def Moving (a label b : SyscallStateT) : Prop := label = b ∧ Moves a b

/-- The holder of the mutex after an operation, unless it locks a mutex that is not free or
unlocks one that the thread does not hold. -/
@[grind =] def MutexOp.apply : MutexOp → Option Thread → Option (Option Thread)
  | .lock T, holder => if holder = none then some (some T) else none
  | .unlock T, holder => if holder = some T then some none else none

def replay (ops : List MutexOp) : Option (Option Thread) :=
  ops.foldlM (fun holder op => op.apply holder) none

@[grind =] theorem replay_snoc (ops : List MutexOp) (op : MutexOp) :
    replay (ops ++ [op]) = (replay ops).bind op.apply := by
  simp [replay, List.foldlM_append]

def Act.isBy (T : Thread) : Act → Bool
  | .thread U _ => U = T
  | _ => false

/-- Steps during which the thread keeps the mutex. -/
def Keeping (script : List EventKind) (T : Thread) (s : State) (a : Act) (t : State) : Prop :=
  Step script s a t ∧ s.mutex = some T ∧ t.mutex = some T

structure Protocol (script : List EventKind) (s : State) : Prop where
  /-- None of the assertions fails. -/
  failed : s.failed = none
  /-- `syscalls->state` moves along the arrows, and to `SYSCALL_EXITING` once. -/
  moves : Path Moving .idle s.moves s.state ∧ s.moves.count .exiting ≤ 1
  /-- Of the enqueued events all are finished but the one in flight, if any; it is a blocking
  call, and while its state is `SYSCALL_ENQUEUED` it is `state->event`. -/
  inFlight : s.enqueued = s.finished ++ s.books.inFlight.toList ∧
    (∀ event ∈ s.enqueued, isBlocking script event)
  /-- The system call thread has run these events, each once, except that one which is still
  enqueued may have to wait. -/
  invoked : s.invoked = s.enqueued ∨
    s.state = .enqueued ∧ s.running = none ∧ s.enqueued = s.invoked ++ s.event.toList
  /-- `syscalls->event` is the event that the thread runs. -/
  running : s.invoked = s.finished ++ s.running.toList
  /-- Each lock finds the mutex free, and each unlock finds it locked by the same thread. -/
  mutex : replay s.ops = some s.mutex
  /-- A thread that has the mutex can go on, ... -/
  progress : s.Alive → ∀ T choice, s.mutex = some T → ∃ t, Step script s (.thread T choice) t
  /-- ... and unlocks it after so many steps at the latest. -/
  released : ∀ T as t, s.mutex = some T → Path (Keeping script T) s as t →
    as.countP (Act.isBy T) ≤ 3 * script.length + 12
  /-- No thread returns with the mutex. -/
  returned : (s.main = .returned → s.mutex ≠ some .main) ∧
    (s.syscall = .returned → s.mutex ≠ some .syscall)

/-! ## The mutex -/

/-- The threads are inside when they have the mutex, and its operations led to that. -/
@[grind] structure Exclusive (s : State) : Prop where
  main : s.mutex = some .main ↔ s.main.inside
  syscall : s.mutex = some .syscall ↔ s.syscall.inside
  replay : replay s.ops = some s.mutex

section Mutex

variable {script : List EventKind} {s t : State} {choice : Choice} {act : Act} {T : Thread}

theorem mainStep_exclusive (h : mainStep script s choice = some t) (hs : Exclusive s) :
    Exclusive t := by
  obtain ⟨hmain, hsyscall, hreplay⟩ := hs
  unfold mainStep at h
  cases hpc : s.main <;> simp only [hpc] at h <;> grind [nextEvent, signalEnqueued]

theorem syscallStep_exclusive (h : syscallStep script s choice = some t) (hs : Exclusive s) :
    Exclusive t := by
  obtain ⟨hmain, hsyscall, hreplay⟩ := hs
  unfold syscallStep at h
  cases hpc : s.syscall <;> simp only [hpc] at h <;> grind [dequeue, signalDequeued, signalIdle]

end Mutex

/-! ## The phases -/

/-- Outside, the system call thread lets the other one leave `SYSCALL_IDLE`. -/
@[grind →] theorem SyscallPc.allows_of_idle {pc : SyscallPc} (hin : pc.inside = false)
    (h : pc.allows .idle = true) : pc.allows .enqueued = true ∧ pc.allows .exiting = true := by
  cases pc <;> simp_all [inside, allows]

/-- Outside, the main thread lets the other one go back to `SYSCALL_IDLE`. -/
@[grind →] theorem MainPc.allows_of_enqueued {pc : MainPc} (hin : pc.inside = false)
    (h : pc.allows .enqueued = true) : pc.allows .running = true := by
  cases pc <;> simp_all [inside, allows]

@[grind →] theorem MainPc.allows_of_running {pc : MainPc} (h : pc.allows .running = true) :
    pc.allows .done = true := by
  cases pc <;> simp_all [allows]

@[grind →] theorem MainPc.allows_of_done {pc : MainPc} (hin : pc.inside = false)
    (h : pc.allows .done = true) : pc.allows .idle = true := by
  cases pc <;> simp_all [inside, allows]

@[grind] structure Phases (s : State) : Prop where
  main : s.main.allows s.state
  syscall : s.syscall.allows s.state
  joined : s.main.joined → s.syscall = .returned
  finished : ∀ event, s.syscall = .checkEnd event → s.liveEndUsecs ≥ 0

section Phase

variable {script : List EventKind} {s t : State} {choice : Choice} {act : Act} {T : Thread}

theorem mainStep_phases (h : mainStep script s choice = some t) (hx : Exclusive s)
    (hs : Phases s) : Phases t := by
  obtain ⟨hmain, hsyscall, -⟩ := hx
  obtain ⟨hphase, hother, hjoined, hfinished⟩ := hs
  unfold mainStep at h
  cases hpc : s.main <;> simp only [hpc] at h <;> grind [nextEvent, signalEnqueued]

theorem syscallStep_phases (h : syscallStep script s choice = some t) (hx : Exclusive s)
    (hs : Phases s) (hblocking : ∀ event, s.syscall.event? = some event → isBlocking script event) :
    Phases t := by
  obtain ⟨hmain, hsyscall, -⟩ := hx
  obtain ⟨hphase, hother, hjoined, hfinished⟩ := hs
  unfold syscallStep at h
  cases hpc : s.syscall <;> simp only [hpc] at h <;> grind [dequeue, signalDequeued, signalIdle]

end Phase

/-! ## The events -/

theorem Path.moving_snoc {moves : List SyscallStateT} {a b c : SyscallStateT}
    (h : Path Moving a moves b) (hm : Moves b c) : Path Moving a (moves ++ [c]) c :=
  Path.snoc_iff.mpr ⟨b, h, rfl, hm⟩

/-- From `SYSCALL_EXITING` there is no way on. -/
theorem Path.count_exiting {moves : List SyscallStateT} {a b : SyscallStateT}
    (h : Path Moving a moves b) : moves.count .exiting ≤ 1 ∧ (a = .exiting → moves = []) := by
  induction h with
  | nil => simp
  | cons hm _ ih =>
    obtain ⟨rfl, hm⟩ := hm
    refine ⟨?_, fun ha => ?_⟩
    · grind
    · subst ha
      cases hm

/-- The books agree with each other. -/
structure Books.Kept (script : List EventKind) (b : Books) : Prop where
  failed : b.failed = none
  moves : Path Moving .idle b.moves b.state
  blocking : ∀ event ∈ b.enqueued, isBlocking script event
  enqueued : b.enqueued = b.finished ++ b.inFlight.toList
  event : b.state = .enqueued → b.event.any (isBlocking script) ∧
    (b.taken = none ∨ b.taken = b.event)
  invoked : b.invoked = b.finished ++ b.taken.toList
  running : b.running = b.taken

namespace Books.Kept

variable {script : List EventKind} {b : Books}

theorem nextEvent (hb : b.Kept script) (h : b.state ≠ .enqueued) (event : Option Nat) :
    Kept script { b with event := event } where
  __ := hb
  enqueued := by
    rw [hb.enqueued]
    cases hstate : b.state <;> simp_all [inFlight]
  event hstate := absurd hstate h

theorem enqueue (hb : b.Kept script) (h : b.state = .idle)
    (hevent : b.event.any (isBlocking script)) (htaken : b.taken = none) :
    Kept script { b with
      state := .enqueued
      moves := b.moves ++ [.enqueued]
      enqueued := b.enqueued ++ b.event.toList } where
  __ := hb
  moves := Path.moving_snoc hb.moves (h ▸ .enqueue)
  blocking event hmem := by
    rcases List.mem_append.mp hmem with hmem | hmem
    · exact hb.blocking event hmem
    · simp_all
  enqueued := by
    have hfinished : b.enqueued = b.finished := by simpa [inFlight, h] using hb.enqueued
    simp only [hfinished, inFlight]
  event _ := ⟨hevent, .inl htaken⟩

theorem exit (hb : b.Kept script) (h : b.state = .idle) :
    Kept script { b with state := .exiting, moves := b.moves ++ [.exiting] } where
  __ := hb
  moves := Path.moving_snoc hb.moves (h ▸ .exit)
  enqueued := by simpa [inFlight, h] using hb.enqueued
  event hstate := nomatch hstate

theorem take (hb : b.Kept script) {event : Nat} (hstate : b.state = .enqueued)
    (h : b.event = some event) (htaken : b.taken = none) :
    Kept script { b with
      running := some event
      taken := some event
      invoked := b.invoked ++ [event] } where
  __ := hb
  enqueued := by simpa [inFlight, hstate] using hb.enqueued
  event hstate := ⟨(hb.event hstate).1, .inr h.symm⟩
  invoked := by simp [hb.invoked, htaken]
  running := rfl

theorem begin (hb : b.Kept script) (h : b.state = .enqueued) (htaken : b.taken ≠ none) :
    Kept script { b with state := .running, moves := b.moves ++ [.running] } where
  __ := hb
  moves := Path.moving_snoc hb.moves (h ▸ .begin)
  enqueued := by
    have hevent := (hb.event h).2.resolve_left htaken
    simpa [inFlight, h, hevent] using hb.enqueued
  event hstate := nomatch hstate

theorem finish (hb : b.Kept script) (h : b.state = .running) :
    Kept script { b with state := .done, moves := b.moves ++ [.done] } where
  __ := hb
  moves := Path.moving_snoc hb.moves (h ▸ .finish)
  enqueued := by simpa [inFlight, h] using hb.enqueued
  event hstate := nomatch hstate

theorem idle (hb : b.Kept script) {event : Nat} (h : b.state = .done)
    (htaken : b.taken = some event) : Kept script { b with
      state := .idle
      moves := b.moves ++ [.idle]
      running := none
      taken := none
      finished := b.finished ++ [event] } where
  __ := hb
  moves := Path.moving_snoc hb.moves (h ▸ .idle)
  enqueued := by simpa [inFlight, h, htaken] using hb.enqueued
  event hstate := nomatch hstate
  invoked := by simp [hb.invoked, htaken]
  running := rfl

/-- The event that was taken is one of the enqueued ones. -/
theorem taken_blocking (hb : b.Kept script) {event : Nat} (htaken : b.taken = some event)
    (h : b.state ≠ .idle ∧ b.state ≠ .exiting) : isBlocking script event := by
  refine hb.blocking event ?_
  rw [hb.enqueued]
  have hflight : b.inFlight = some event := by
    have hevent := hb.event
    grind
  simp [hflight]

end Books.Kept

section Events

variable {script : List EventKind} {s t : State} {choice : Choice} {act : Act} {T : Thread}

/-- What the main thread can do to the books. -/
theorem mainStep_books (h : mainStep script s choice = some t) :
    t.books = s.books ∧ (t.main.enqueues → s.main.enqueues) ∨
    (∃ event, s.main = .nextEvent ∧ t.books = { s.books with event := event } ∧
      (t.main.enqueues → event.any (isBlocking script))) ∨
    s.main = .setEnqueued ∧ t.main = .signalEnqueued ∧
      t.books = { s.books with
        state := .enqueued
        moves := s.moves ++ [.enqueued]
        enqueued := s.enqueued ++ s.event.toList } ∨
    s.main = .setExiting ∧ t.main = .signalExit ∧
      t.books = { s.books with state := .exiting, moves := s.moves ++ [.exiting] } := by
  unfold mainStep at h
  cases hpc : s.main <;> simp only [hpc] at h <;> grind [nextEvent, signalEnqueued, isBlocking]

/-- What the system call thread can do to the books. -/
theorem syscallStep_books (h : syscallStep script s choice = some t) (hp : Phases s)
    (hblocking : ∀ event, s.syscall.event? = some event → isBlocking script event) :
    t.main.enqueues = s.main.enqueues ∧ t.event = s.event ∧
    (t.books = s.books ∨
    (∃ event, s.state = .enqueued ∧ s.syscall.event? = none ∧ s.event = some event ∧
      (isBlocking script event → t.books = { s.books with
        running := some event
        taken := some event
        invoked := s.invoked ++ [event] })) ∨
    s.state = .enqueued ∧ s.syscall.event? ≠ none ∧
      t.books = { s.books with state := .running, moves := s.moves ++ [.running] } ∨
    s.state = .running ∧
      t.books = { s.books with state := .done, moves := s.moves ++ [.done] } ∨
    ∃ event, s.state = .done ∧ s.syscall.event? = some event ∧
      t.books = { s.books with
        state := .idle
        moves := s.moves ++ [.idle]
        running := none
        taken := none
        finished := s.finished ++ [event] }) := by
  obtain ⟨-, hphase, -, hfinished⟩ := hp
  unfold syscallStep at h
  cases hpc : s.syscall <;> simp only [hpc] at h <;>
    grind [dequeue, signalDequeued, signalIdle, isBlocking]

end Events

/-! ## Runs -/

/-- The invariant of the runs. -/
structure Inv (script : List EventKind) (s : State) : Prop where
  exclusive : Exclusive s
  phases : Phases s
  kept : s.books.Kept script
  enqueues : s.main.enqueues → s.event.any (isBlocking script)

section Runs

variable {script : List EventKind} {s t u : State} {choice : Choice} {act : Act} {as : List Act}
  {T : Thread}

theorem Phases.taken_eq_none (hp : Phases s) (h : s.state = .idle ∨ s.state = .exiting) :
    s.syscall.event? = none := by
  have hphase := hp.syscall
  cases hpc : s.syscall <;> grind

theorem Inv.blocking (hs : Inv script s) (event : Nat) (h : s.syscall.event? = some event) :
    isBlocking script event := by
  refine hs.kept.taken_blocking h ?_
  have := hs.phases.taken_eq_none
  grind

theorem mainStep_kept (h : mainStep script s choice = some t) (hs : Inv script s) :
    t.books.Kept script ∧ (t.main.enqueues → t.event.any (isBlocking script)) := by
  obtain ⟨-, hp, hb, henqueues⟩ := hs
  have hphase := hp.main
  obtain ⟨hbooks, hpc⟩ | ⟨event, hpc, hbooks, hevent⟩ | ⟨hpc, hgoto, hbooks⟩ |
    ⟨hpc, hgoto, hbooks⟩ := mainStep_books h
  · have hevent : t.event = s.event := congrArg Books.event hbooks
    rw [hbooks, hevent]
    exact ⟨hb, fun hgoes => henqueues (hpc hgoes)⟩
  · have hevent' : t.event = event := congrArg Books.event hbooks
    rw [hbooks, hevent']
    refine ⟨hb.nextEvent ?_ event, hevent⟩
    rw [hpc] at hphase
    simp_all [MainPc.allows, State.books]
  · have hstate : s.state = .idle := by simpa [hpc, MainPc.allows] using hphase
    have hevent := henqueues (by rw [hpc]; rfl)
    rw [hbooks, hgoto]
    exact ⟨hb.enqueue hstate hevent (hp.taken_eq_none (.inl hstate)), nofun⟩
  · have hstate : s.state = .idle := by simpa [hpc, MainPc.allows] using hphase
    rw [hbooks, hgoto]
    exact ⟨hb.exit hstate, nofun⟩

theorem syscallStep_kept (h : syscallStep script s choice = some t) (hs : Inv script s) :
    t.books.Kept script ∧ (t.main.enqueues → t.event.any (isBlocking script)) := by
  obtain ⟨henqueues, hevent, hbooks⟩ := syscallStep_books h hs.phases hs.blocking
  have hb := hs.kept
  rw [henqueues, hevent]
  refine ⟨?_, hs.enqueues⟩
  obtain hbooks | ⟨event, hstate, htaken, hevent, hbooks⟩ | ⟨hstate, htaken, hbooks⟩ |
    ⟨hstate, hbooks⟩ | ⟨event, hstate, htaken, hbooks⟩ := hbooks
  · rw [hbooks]
    exact hb
  · have hblocking := (hb.event hstate).1
    rw [hbooks (by simpa [State.books, hevent] using hblocking)]
    exact hb.take hstate hevent htaken
  · rw [hbooks]
    exact hb.begin hstate htaken
  · rw [hbooks]
    exact hb.finish hstate
  · rw [hbooks]
    exact hb.idle hstate htaken

/-- The step function of a thread. -/
def threadStep (script : List EventKind) : Thread → State → Choice → Option State
  | .main => mainStep script
  | .syscall => syscallStep script

theorem step_thread_iff : Threads.step script s (.thread T choice) = some t ↔
    s.Alive ∧ threadStep script T s choice = some t := by
  cases T <;> simp [Threads.step, threadStep]

/-- The steps that are not the thread's own. -/
theorem wake_cases (h : Threads.step script s act = some t)
    (hact : ∀ T choice, act ≠ .thread T choice) :
    (∃ next timedOut, s.main = .awaitBlocked next ∧
      t = s.mainGoto (.awaitWoken next timedOut)) ∨
    s.main = .dequeuedBlocked ∧ t = s.mainGoto .dequeuedWoken ∨
    s.syscall = .enqueuedBlocked ∧ t = s.syscallGoto .enqueuedWoken ∨
    t = { s with died := true } := by
  unfold Threads.step at h
  split at h
  · cases act with
    | thread T choice => exact absurd rfl (hact T choice)
    | wakeMain timedOut => split at h <;> grind
    | wakeSyscall => grind
    | die => grind
  · cases h

/-- They leave alone all that the invariant is about. -/
theorem wake_frame (h : Threads.step script s act = some t)
    (hact : ∀ T choice, act ≠ .thread T choice) :
    (Exclusive s → Exclusive t) ∧ (Phases s → Phases t) ∧ t.books = s.books ∧
      t.main.enqueues = s.main.enqueues := by
  obtain ⟨next, timedOut, hpc, rfl⟩ | ⟨hpc, rfl⟩ | ⟨hpc, rfl⟩ | rfl := wake_cases h hact <;> grind

theorem Inv.step (hs : Inv script s) (h : Step script s act t) : Inv script t := by
  have ⟨hx, hp, hb, henqueues⟩ := hs
  by_cases hact : ∀ T choice, act ≠ .thread T choice
  · obtain ⟨hexclusive, hphases, hbooks, hgoes⟩ := wake_frame h hact
    have hevent : t.event = s.event := congrArg Books.event hbooks
    exact ⟨hexclusive hx, hphases hp, hbooks ▸ hb, by rwa [hgoes, hevent]⟩
  · push Not at hact
    obtain ⟨T, choice, rfl⟩ := hact
    obtain ⟨-, h⟩ := step_thread_iff.mp h
    cases T with
    | main =>
      obtain ⟨hkept, hgoes⟩ := mainStep_kept h hs
      exact ⟨mainStep_exclusive h hx, mainStep_phases h hx hp, hkept, hgoes⟩
    | syscall =>
      obtain ⟨hkept, hgoes⟩ := syscallStep_kept h hs
      exact ⟨syscallStep_exclusive h hx, syscallStep_phases h hx hp hs.blocking, hkept, hgoes⟩

theorem inv_stateNew (script : List EventKind) : Inv script stateNew where
  exclusive := ⟨by decide, by decide, rfl⟩
  phases := ⟨rfl, rfl, nofun, nofun⟩
  kept := ⟨rfl, .nil _, nofun, rfl, nofun, rfl, rfl⟩
  enqueues := nofun

end Runs

/-! ## Giving the mutex back -/

/-- How many steps a place of the main thread is from an unlock at most, with so many events
left. -/
@[grind =] def MainPc.rank (left : Nat) : MainPc → Nat
  | .nextEvent => 3 * left + 6
  | .work | .checkIdle _ => 3 * left + 7
  | .await .enqueue => 5
  | .await .invoke => 3 * left + 8
  | .await .free | .setEnqueued => 4
  | .signalEnqueued | .setExiting => 3
  | .awaitDequeued | .signalExit => 2
  | .unlockYield | .unlockExit | .stateFree => 1
  | _ => 0

@[grind! .] theorem AfterIdle.rank_target (next : AfterIdle) (left : Nat) :
    next.target.rank left < (MainPc.await next).rank left := by
  cases next <;> grind [target]

@[grind =] def SyscallPc.rank : SyscallPc → Nat
  | .endSyscall _ => 8
  | .checkEnd _ => 7
  | .goIdle _ => 6
  | .signalIdle => 5
  | .loop => 4
  | .invoke _ => 3
  | .beginSyscall _ => 2
  | .beginUnlock _ | .unlockEnd => 1
  | _ => 0

/-- How many events are left. -/
@[grind =] def State.left (script : List EventKind) (s : State) : Nat :=
  match s.event with
  | none => script.length
  | some event => script.length - (event + 1)

/-- A process that has ended takes no steps. -/
@[grind =] def State.rank (script : List EventKind) (s : State) (T : Thread) : Nat :=
  if s.Alive then
    match T with
    | .main => s.main.rank (s.left script)
    | .syscall => s.syscall.rank
  else 0

section Release

variable {script : List EventKind} {s t : State} {choice : Choice} {act : Act} {as : List Act}
  {T : Thread}

theorem mainStep_rank (h : mainStep script s choice = some t) (halive : s.Alive)
    (hin : s.main.inside) (ht : t.mutex ≠ none) :
    t.rank script .main < s.rank script .main := by
  unfold mainStep at h
  cases hpc : s.main <;> simp only [hpc] at h <;>
    grind [nextEvent, signalEnqueued, State.Alive]

theorem syscallStep_rank (h : syscallStep script s choice = some t) (halive : s.Alive)
    (hblocking : ∀ event, s.syscall.event? = some event → isBlocking script event)
    (hin : s.syscall.inside) (ht : t.mutex ≠ none) :
    t.rank script .syscall < s.rank script .syscall := by
  unfold syscallStep at h
  cases hpc : s.syscall <;> simp only [hpc] at h <;>
    grind [dequeue, signalDequeued, signalIdle, State.Alive]

/-- A signal wakes a thread outside of the mutex. -/
theorem mainStep_rank_other (h : mainStep script s choice = some t) (halive : s.Alive) :
    t.rank script .syscall ≤ s.rank script .syscall := by
  unfold mainStep at h
  cases hpc : s.main <;> simp only [hpc] at h <;>
    grind [nextEvent, signalEnqueued, State.Alive]

theorem syscallStep_rank_other (h : syscallStep script s choice = some t) (halive : s.Alive) :
    t.rank script .main ≤ s.rank script .main := by
  unfold syscallStep at h
  cases hpc : s.syscall <;> simp only [hpc] at h <;>
    grind [dequeue, signalDequeued, signalIdle, State.Alive]

theorem wake_rank (h : Threads.step script s act = some t)
    (hact : ∀ T choice, act ≠ .thread T choice) : t.rank script T ≤ s.rank script T := by
  obtain ⟨next, timedOut, hpc, rfl⟩ | ⟨hpc, rfl⟩ | ⟨hpc, rfl⟩ | rfl := wake_cases h hact <;>
    cases T <;> grind [State.Alive]

theorem Inv.rank_step (hs : Inv script s) (h : Keeping script T s act t) :
    t.rank script T + (if Act.isBy T act then 1 else 0) ≤ s.rank script T := by
  obtain ⟨hstep, hheld, hheld'⟩ := h
  have ht : t.mutex ≠ none := by simp [hheld']
  by_cases hact : ∀ T choice, act ≠ .thread T choice
  · have hby : Act.isBy T act = false := by
      cases act <;> simp_all [Act.isBy]
    simpa [hby] using wake_rank hstep hact
  · push Not at hact
    obtain ⟨U, choice, rfl⟩ := hact
    obtain ⟨halive, hstep⟩ := step_thread_iff.mp hstep
    have hx := hs.exclusive
    cases T with
    | main =>
      cases U with
      | main =>
        have := mainStep_rank hstep halive (hx.main.mp hheld) ht
        simp only [Act.isBy, decide_true, if_true]
        omega
      | syscall => simpa [Act.isBy] using syscallStep_rank_other hstep halive
    | syscall =>
      cases U with
      | main => simpa [Act.isBy] using mainStep_rank_other hstep halive
      | syscall =>
        have := syscallStep_rank hstep halive hs.blocking (hx.syscall.mp hheld) ht
        simp only [Act.isBy, decide_true, if_true]
        omega

theorem Inv.rank_le (hs : Inv script s) (h : Path (Keeping script T) s as t) :
    t.rank script T + as.countP (Act.isBy T) ≤ s.rank script T := by
  induction h with
  | nil => simp
  | cons hr _ ih =>
    have hrank := hs.rank_step hr
    have hrest := ih (hs.step hr.1)
    rw [List.countP_cons]
    omega

theorem MainPc.rank_le (pc : MainPc) (left : Nat) : pc.rank left ≤ 3 * left + 8 := by
  unfold rank
  split <;> omega

theorem SyscallPc.rank_le (pc : SyscallPc) : pc.rank ≤ 8 := by
  cases pc <;> simp [rank]

theorem State.rank_bound (script : List EventKind) (s : State) (T : Thread) :
    s.rank script T ≤ 3 * script.length + 12 := by
  have hleft : s.left script ≤ script.length := by grind
  unfold State.rank
  split
  · cases T with
    | main =>
      have := s.main.rank_le (s.left script)
      show s.main.rank (s.left script) ≤ _
      omega
    | syscall =>
      have := s.syscall.rank_le
      show s.syscall.rank ≤ _
      omega
  · omega

/-- A thread that has the mutex waits for nothing. -/
theorem Inv.progress (hs : Inv script s) (halive : s.Alive) (choice : Choice)
    (h : s.mutex = some T) : ∃ t, Step script s (.thread T choice) t := by
  simp only [Step, step_thread_iff, halive, true_and]
  rw [← Option.isSome_iff_exists]
  cases T with
  | main =>
    have hin := hs.exclusive.main.mp h
    cases hpc : s.main <;> rw [hpc] at hin <;> simp only [threadStep, mainStep, hpc] <;>
      first | rfl | (split <;> rfl) | cases hin
  | syscall =>
    have hin := hs.exclusive.syscall.mp h
    cases hpc : s.syscall <;> rw [hpc] at hin <;> simp only [threadStep, syscallStep, hpc] <;>
      first | rfl | (split <;> rfl) | cases hin

/-! ## The main result -/

theorem Inv.invoked (hs : Inv script s) : s.invoked = s.enqueued ∨
    s.state = .enqueued ∧ s.running = none ∧ s.enqueued = s.invoked ++ s.event.toList := by
  have hevent := hs.kept.event
  have hidle := hs.phases.taken_eq_none
  have henqueued := hs.kept.enqueued
  have hinvoked := hs.kept.invoked
  have hrunning := hs.kept.running
  simp only [State.books] at *
  cases hstate : s.state with
  | idle => simp_all [Books.inFlight]
  | exiting => simp_all [Books.inFlight]
  | running => simp_all [Books.inFlight]
  | done => simp_all [Books.inFlight]
  | enqueued =>
    obtain ⟨-, htaken | htaken⟩ := hevent hstate
    · exact .inr ⟨rfl, by rw [hrunning, htaken], by simp_all [Books.inFlight]⟩
    · exact .inl (by simp_all [Books.inFlight])

theorem Inv.protocol (hs : Inv script s) : Protocol script s where
  failed := hs.kept.failed
  moves := ⟨hs.kept.moves, (Path.count_exiting hs.kept.moves).1⟩
  inFlight := ⟨hs.kept.enqueued, hs.kept.blocking⟩
  invoked := hs.invoked
  running := by
    have hrunning := hs.kept.running
    have hinvoked := hs.kept.invoked
    simp_all [State.books]
  mutex := hs.exclusive.replay
  progress halive T choice h := hs.progress halive choice h
  released T as t _ hpath := by
    have hrank := hs.rank_le hpath
    have hbound := s.rank_bound script T
    omega
  returned := by
    have hx := hs.exclusive
    rw [Ne, Ne, hx.main, hx.syscall]
    constructor <;> intro hpc <;> rw [hpc] <;> decide

/-- Whatever the script and whatever the order of steps, wake-ups and the end of the process, both
threads keep to the protocol. -/
theorem protocol_of_path (script : List EventKind) (as : List Act) (t : State)
    (h : Path (Step script) stateNew as t) : Protocol script t :=
  (h.invariant (Inv script) (fun _ _ _ hs hr => hs.step hr) (inv_stateNew script)).protocol

/-- The main thread enqueues a call and waits, and the other one runs it. -/
theorem protocol_of_path_blocking :
    ∃ t, t.finished = [0] ∧ Protocol [.syscall true] t :=
  ⟨_, rfl, protocol_of_path [.syscall true]
    (List.replicate 5 (.thread .main ⟨false, false, 0⟩) ++
      List.replicate 11 (.thread .syscall ⟨false, false, 0⟩))
    _ (exec_eq_some_iff.mp rfl)⟩

end Release

end QoSMos.Syscall.Threads
