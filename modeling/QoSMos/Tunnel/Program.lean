import QoSMos.Lib.Path

/-!
# The tunnel threads

`threadIncoming` and `threadOutgoing` of `qosmos_native.cpp` as a transition system. A
label of `step` names who moves: a thread, with the result of its call if the step is one;
a caller of `tunnelStop`; or the clock. Between two steps of a thread the other one can
take any number of steps, `running` is read and written without a lock in places, and
`pthread_mutex_lock` waits while the mutex is held, also by the caller itself.

A thread's `trace` lists what it did so far and `iteration` counts how often it has begun
its loop body; no step looks at the two.
-/

namespace QoSMos.Tunnel

/-! ## Data -/

inductive Thread where
  | incoming | outgoing
  deriving DecidableEq, Repr

/-- The UDP sockets of the tunnel. -/
inductive Socket where
  | cssix | assForward31 | assForward33 | assForward41 | assForward43 | expForwardEF
  | classZeroCs0
  deriving DecidableEq, Repr

def EAGAIN : Nat := 11

/-- The bytes of a thread's `buf`. -/
def BUF_BYTES : Nat := 4096

/-- What a call came back with; `noCall` is for steps that make none. -/
inductive Io where
  | noCall
  | received (bytes : List UInt8)
  | sent (n : Nat)
  | failed (errno : Nat)
  deriving DecidableEq, Repr

/-- The value a call returns. -/
def Io.value : Io → Int
  | .noCall => 0
  | .received bytes => bytes.length
  | .sent n => n
  | .failed _ => -1

/-- `errno` after a call: only a failed one sets it. -/
def Io.errno (before : Nat) : Io → Nat
  | .failed errno => errno
  | _ => before

/-- The bytes that a call took in, if there are any. -/
def Io.datagram : Io → Option (List UInt8)
  | .received (byte :: bytes) => some (byte :: bytes)
  | _ => none

/-- The datagram in `buf` after a call. -/
def Io.fill (before : List UInt8) (io : Io) : List UInt8 := io.datagram.getD before

/-- The results of `recvfrom` and `read`. -/
def Io.isReceive : Io → Bool
  | .received bytes => bytes.length ≤ BUF_BYTES
  | .failed _ => true
  | _ => false

/-- The results of `sendto` and `write`. -/
def Io.isSend : Io → Bool
  | .sent _ | .failed _ => true
  | _ => false

inductive Event where
  | recvfrom (result : Io)
  | read (result : Io)
  | sendto (socket : Socket) (data : List UInt8) (result : Io)
  | write (data : List UInt8) (result : Io)
  | testRunning (value : Bool)
  | setRunning (value : Bool)
  | stamp
  | idle (seconds : Int)
  deriving DecidableEq, Repr

structure Entry where
  iteration : Nat
  clock : Nat
  event : Event
  deriving DecidableEq, Repr

/-- The variables of a thread, with its place in the code. -/
structure Local (Pc : Type) where
  pc : Pc
  buf : List UInt8
  len : Int
  errno : Nat
  iteration : Nat
  trace : List Entry

@[grind =] def Local.goto {Pc : Type} (th : Local Pc) (pc : Pc) : Local Pc := { th with pc := pc }

/-- The loop body begins again. -/
@[grind =] def Local.begin {Pc : Type} (th : Local Pc) : Local Pc :=
  { th with iteration := th.iteration + 1 }

@[grind =] def Local.observe {Pc : Type} (th : Local Pc) (clock : Nat) (event : Event) : Local Pc :=
  { th with trace := th.trace ++ [⟨th.iteration, clock, event⟩] }

/-- The variables after a call that fills `buf`. -/
@[grind =] def Local.receive {Pc : Type} (th : Local Pc) (io : Io) : Local Pc :=
  { th with buf := io.fill th.buf, len := io.value, errno := io.errno th.errno }

/-- The variables after a call whose value is assigned to `len`. -/
@[grind =] def Local.transmit {Pc : Type} (th : Local Pc) (io : Io) : Local Pc :=
  { th with len := io.value, errno := io.errno th.errno }

/-- Places in `threadIncoming`, each named for the step taken from it. The loop begins at
`recvfrom`, and `notify` is the statement behind it. -/
inductive IncomingPc where
  | recvfrom | lock | testRunning | unlockStopped | stamp | setRunning | idle | clearRunning
  | unlockIdle | unlock | keepAlive | forward | notify | returned
  deriving DecidableEq, Repr

/-- Places in `threadOutgoing`, whose loop begins at `lock`. -/
inductive OutgoingPc where
  | lock | testRunning | unlockStopped | read | sendto | notify | returned
  deriving DecidableEq, Repr

structure State where
  running : Bool
  /-- The thread that holds `lock`. -/
  lock : Option Thread
  /-- `time(NULL)` -/
  clock : Nat
  incoming : Local IncomingPc
  lastRecvTime : Int
  idleTime : Int
  outgoing : Local OutgoingPc

/-! ## Steps -/

/-- The conversion of a `time_t` to `int`. -/
def toInt32 (t : Int) : Int := t.bmod 0x100000000

/-- The place behind the `if (buf[0] == '\0')` of a received datagram. -/
@[grind =] def dispatch (buf : List UInt8) : IncomingPc :=
  if buf.head? = some 0 then .recvfrom else .forward

def incomingStep (s : State) (io : Io) : Option State :=
  let th := s.incoming
  match th.pc with
  | .recvfrom =>
    if io.isReceive then
      let th := (th.begin.receive io).observe s.clock (.recvfrom io)
      let next := if th.len ≤ 0 then if th.errno = EAGAIN then .recvfrom else .notify else .lock
      some { s with incoming := th.goto next }
    else none
  | .lock =>
    if s.lock = none then
      some { s with lock := some .incoming, incoming := th.goto .testRunning }
    else none
  | .testRunning =>
    let th := th.observe s.clock (.testRunning s.running)
    some { s with incoming := th.goto (if ¬ s.running then .unlockStopped else .stamp) }
  | .unlockStopped => some { s with lock := none, incoming := th.goto .notify }
  | .stamp =>
    if th.len > 0 then
      some { s with
        lastRecvTime := toInt32 s.clock
        incoming := (th.observe s.clock .stamp).goto .setRunning }
    else some { s with incoming := th.goto .idle }
  | .setRunning =>
    some { s with
      running := true
      incoming := (th.observe s.clock (.setRunning true)).goto .idle }
  | .idle =>
    let idleTime := toInt32 (s.clock - s.lastRecvTime)
    let next := if idleTime > 30 then .clearRunning else .unlock
    some { s with
      idleTime := idleTime
      incoming := (th.observe s.clock (.idle idleTime)).goto next }
  | .clearRunning =>
    some { s with
      running := false
      incoming := (th.observe s.clock (.setRunning false)).goto .unlockIdle }
  | .unlockIdle => some { s with lock := none, incoming := th.goto .notify }
  | .unlock =>
    let next := if s.idleTime ≥ 15 then .keepAlive else dispatch th.buf
    some { s with lock := none, incoming := th.goto next }
  | .keepAlive =>
    if io.isSend then
      -- the value is not assigned
      let th := { th with errno := io.errno th.errno }
      let th := th.observe s.clock (.sendto .cssix th.buf io)
      some { s with incoming := th.goto (dispatch th.buf) }
    else none
  | .forward =>
    if io.isSend then
      let th := (th.transmit io).observe s.clock (.write th.buf io)
      some { s with incoming := th.goto (if th.len ≤ 0 then .notify else .recvfrom) }
    else none
  | .notify =>
    some { s with
      running := false
      incoming := (th.observe s.clock (.setRunning false)).goto .returned }
  | .returned => none

/-- The `switch` of `threadOutgoing`. -/
def selectSocket (dscp : Int) : Socket :=
  if dscp = 140 then .assForward31
  else if dscp = 142 then .assForward33
  else if dscp = 143 then .assForward41
  else if dscp = 145 then .assForward43
  else if dscp = 146 then .expForwardEF
  else .classZeroCs0

def outgoingStep (getDscp : List UInt8 → Int) (s : State) (io : Io) : Option State :=
  let th := s.outgoing
  match th.pc with
  | .lock =>
    if s.lock = none then
      some { s with lock := some .outgoing, outgoing := th.begin.goto .testRunning }
    else none
  | .testRunning =>
    let th := th.observe s.clock (.testRunning s.running)
    some { s with outgoing := th.goto (if ¬ s.running then .unlockStopped else .read) }
  | .unlockStopped => some { s with lock := none, outgoing := th.goto .notify }
  | .read =>
    if io.isReceive then
      let th := (th.receive io).observe s.clock (.read io)
      -- `continue` does not pass a `pthread_mutex_unlock`
      let next := if th.len ≤ 0 then if th.errno = EAGAIN then .lock else .notify else .sendto
      some { s with outgoing := th.goto next }
    else none
  | .sendto =>
    if io.isSend then
      let socket := selectSocket (getDscp th.buf)
      let th := (th.transmit io).observe s.clock (.sendto socket th.buf io)
      some { s with outgoing := th.goto (if th.len ≤ 0 then .notify else .lock) }
    else none
  | .notify =>
    some { s with
      running := false
      outgoing := (th.observe s.clock (.setRunning false)).goto .returned }
  | .returned => none

inductive Act where
  | thread (T : Thread) (io : Io)
  | tunnelStop
  | tick
  deriving DecidableEq, Repr

def step (getDscp : List UInt8 → Int) (s : State) : Act → Option State
  | .thread .incoming io => incomingStep s io
  | .thread .outgoing io => outgoingStep getDscp s io
  | .tunnelStop => some { s with running := false }
  | .tick => some { s with clock := s.clock + 1 }

def Step (getDscp : List UInt8 → Int) (s : State) (a : Act) (t : State) : Prop :=
  step getDscp s a = some t

/-- A thread as `pthread_create` starts it. -/
def Local.start {Pc : Type} (pc : Pc) : Local Pc := ⟨pc, [], 0, 0, 0, []⟩

/-- The state in which `tunnelLoop` has started the two threads. -/
def tunnelLoop (clock : Nat) : State where
  running := true
  lock := none
  clock := clock
  incoming := .start .recvfrom
  lastRecvTime := 0
  idleTime := 0
  outgoing := .start .lock

/-! ## What a step leaves alone -/

def Act.isBy (T : Thread) : Act → Bool
  | .thread U _ => U = T
  | _ => false

section Frames

variable {getDscp : List UInt8 → Int} {s t : State} {a : Act} {io : Io}

theorem incomingStep_frame (h : incomingStep s io = some t) :
    t.outgoing = s.outgoing ∧ t.clock = s.clock := by
  unfold incomingStep at h
  cases hpc : s.incoming.pc <;> grind

theorem outgoingStep_frame (h : outgoingStep getDscp s io = some t) :
    t.incoming = s.incoming ∧ t.clock = s.clock ∧ t.lastRecvTime = s.lastRecvTime ∧
      t.idleTime = s.idleTime := by
  unfold outgoingStep at h
  cases hpc : s.outgoing.pc <;> grind

/-- Only its own steps change the variables of `threadIncoming`. -/
theorem Step.incoming_cases (h : Step getDscp s a t) :
    (∃ io, a = .thread .incoming io ∧ incomingStep s io = some t) ∨
    Act.isBy .incoming a = false ∧ t.incoming = s.incoming ∧
      t.lastRecvTime = s.lastRecvTime ∧ t.idleTime = s.idleTime := by
  cases a with
  | thread T io =>
    cases T with
    | incoming => exact .inl ⟨io, rfl, h⟩
    | outgoing =>
      obtain ⟨hin, -, hlast, hidle⟩ := outgoingStep_frame h
      exact .inr ⟨by simp [Act.isBy], hin, hlast, hidle⟩
  | tunnelStop | tick =>
    obtain rfl := Option.some.inj h
    exact .inr ⟨rfl, rfl, rfl, rfl⟩

/-- Only its own steps change the variables of `threadOutgoing`. -/
theorem Step.outgoing_cases (h : Step getDscp s a t) :
    (∃ io, a = .thread .outgoing io ∧ outgoingStep getDscp s io = some t) ∨
    Act.isBy .outgoing a = false ∧ t.outgoing = s.outgoing := by
  cases a with
  | thread T io =>
    cases T with
    | incoming => exact .inr ⟨by simp [Act.isBy], (incomingStep_frame h).1⟩
    | outgoing => exact .inl ⟨io, rfl, h⟩
  | tunnelStop | tick =>
    obtain rfl := Option.some.inj h
    exact .inr ⟨rfl, rfl⟩

end Frames

/-! ## Steps with a call -/

section Calls

variable {getDscp : List UInt8 → Int} {s t : State} {io : Io}

theorem Io.value_of_datagram {bytes : List UInt8} (hio : io.datagram = some bytes) :
    0 < io.value ∧ bytes ≠ [] := by
  cases io with
  | received received => cases received <;> grind [Io.datagram, Io.value]
  | _ => simp [Io.datagram] at hio

theorem Io.value_of_noDatagram (hio : io.datagram = none) (h : io.isReceive) :
    io.value ≤ 0 ∧ (io = .received [] ∨ ∃ errno, io = .failed errno) := by
  cases io with
  | received bytes => cases bytes <;> simp_all [Io.datagram, Io.value]
  | _ => simp_all [Io.isReceive, Io.value]

theorem Io.value_of_isSend (h : io.isSend) :
    (0 < io.value ∧ ∃ n, io = .sent (n + 1)) ∨
      (io.value ≤ 0 ∧ (io = .sent 0 ∨ ∃ errno, io = .failed errno)) := by
  cases io with
  | sent n => cases n <;> grind [Io.value]
  | _ => simp_all [Io.isSend, Io.value]

/-- A `recvfrom` with a datagram. -/
theorem incomingStep_datagram {bytes : List UInt8} (h : incomingStep s io = some t)
    (hpc : s.incoming.pc = .recvfrom) (hio : io.datagram = some bytes) :
    t.incoming.pc = .lock ∧ t.incoming.buf = bytes ∧ bytes ≠ [] ∧
      t.incoming.trace =
        s.incoming.trace ++ [⟨s.incoming.iteration + 1, s.clock, .recvfrom io⟩] := by
  simp only [incomingStep, hpc] at h
  have hvalue := Io.value_of_datagram hio
  grind [Io.fill]

/-- A `recvfrom` without one. -/
theorem incomingStep_noDatagram (h : incomingStep s io = some t)
    (hpc : s.incoming.pc = .recvfrom) (hio : io.datagram = none) :
    t.incoming.pc = (if io.errno s.incoming.errno = EAGAIN then .recvfrom else .notify) ∧
      (io = .received [] ∨ ∃ errno, io = .failed errno) ∧
      t.incoming.trace =
        s.incoming.trace ++ [⟨s.incoming.iteration + 1, s.clock, .recvfrom io⟩] := by
  simp only [incomingStep, hpc] at h
  have hvalue := Io.value_of_noDatagram hio
  grind

theorem incomingStep_forward (h : incomingStep s io = some t) (hpc : s.incoming.pc = .forward) :
    t.incoming.trace =
        s.incoming.trace ++ [⟨s.incoming.iteration, s.clock, .write s.incoming.buf io⟩] ∧
      ((∃ n, io = .sent (n + 1)) ∧ t.incoming.pc = .recvfrom ∨
        (io = .sent 0 ∨ ∃ errno, io = .failed errno) ∧ t.incoming.pc = .notify) := by
  simp only [incomingStep, hpc] at h
  have hvalue := @Io.value_of_isSend io
  grind

/-- A `read` with a packet. -/
theorem outgoingStep_packet {bytes : List UInt8} (h : outgoingStep getDscp s io = some t)
    (hpc : s.outgoing.pc = .read) (hio : io.datagram = some bytes) :
    t.outgoing.pc = .sendto ∧ t.outgoing.buf = bytes ∧
      t.outgoing.trace =
        s.outgoing.trace ++ [⟨s.outgoing.iteration, s.clock, .read io⟩] := by
  simp only [outgoingStep, hpc] at h
  have hvalue := Io.value_of_datagram hio
  grind [Io.fill]

/-- A `read` without one. -/
theorem outgoingStep_noPacket (h : outgoingStep getDscp s io = some t)
    (hpc : s.outgoing.pc = .read) (hio : io.datagram = none) :
    t.outgoing.pc = (if io.errno s.outgoing.errno = EAGAIN then .lock else .notify) ∧
      (io = .received [] ∨ ∃ errno, io = .failed errno) ∧
      t.outgoing.trace =
        s.outgoing.trace ++ [⟨s.outgoing.iteration, s.clock, .read io⟩] := by
  simp only [outgoingStep, hpc] at h
  have hvalue := Io.value_of_noDatagram hio
  grind

theorem outgoingStep_sendto (h : outgoingStep getDscp s io = some t)
    (hpc : s.outgoing.pc = .sendto) :
    t.outgoing.trace = s.outgoing.trace ++ [⟨s.outgoing.iteration, s.clock,
        .sendto (selectSocket (getDscp s.outgoing.buf)) s.outgoing.buf io⟩] ∧
      ((∃ n, io = .sent (n + 1)) ∧ t.outgoing.pc = .lock ∨
        (io = .sent 0 ∨ ∃ errno, io = .failed errno) ∧ t.outgoing.pc = .notify) := by
  simp only [outgoingStep, hpc] at h
  have hvalue := @Io.value_of_isSend io
  grind

end Calls

end QoSMos.Tunnel
