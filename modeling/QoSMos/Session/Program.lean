import QoSMos.Tunnel.Program

/-!
# Sessions of the VPN service

`NativeTunnels.java` with the parts of `qosmos_native.cpp` that open, use and close
descriptors. `run` is synchronized, so the sessions of the service follow each other, and
a session is a sequence of calls: a label of `step` is the next call with its outcome.

A descriptor is named after the call that returned it, not by its number: the numbers of
closed descriptors are given out again. `trace` says what was done with descriptors so far.
-/

namespace QoSMos.Session


/-! ## Data -/

/-- A tunnel socket, by the call of `getTunnelSock` that opened it, or the VPN interface of
a call of `establish`. -/
inductive Descriptor where
  | socket (which : Tunnel.Socket) (opening : Nat)
  | interface (opening : Nat)
  deriving DecidableEq, Repr

/-- What is done with a descriptor; `used` stands for reading, writing and `protect`. -/
inductive Event where
  | opened (d : Descriptor)
  | used (d : Descriptor)
  | closed (d : Descriptor)
  deriving DecidableEq, Repr

/-- A `ParcelFileDescriptor`, which closes its descriptor once. -/
structure ParcelFileDescriptor where
  fd : Descriptor
  isClosed : Bool
  deriving DecidableEq, Repr

/-- Places in a session, each named for the step taken from it. -/
inductive Pc where
  | idle | getTunnelSock
  /-- The sockets still to be protected; `none` is -1. -/
  | protect (socks : List (Option Descriptor))
  | startTunnel
  | configure (parameters : String)
  | sleep | getFd | mutexInit | threads | finallyBlock
  deriving DecidableEq, Repr

/-- How the builder takes the parameters, and what `establish` comes to. -/
inductive Built where
  | badParameter | establishThrows | establishNull | established
  deriving DecidableEq, Repr

structure State where
  pc : Pc
  attempt : Nat
  /-- The global variables of the seven sockets; `none` is -1. -/
  sockets : Tunnel.Socket → Option Descriptor
  vpnfd : Option Descriptor
  mInterface : Option ParcelFileDescriptor
  mParameters : Option String
  openings : Nat
  trace : List Event

/-- Before the first session. -/
def initial : State where
  pc := .idle
  attempt := 0
  sockets := fun _ => none
  vpnfd := none
  mInterface := none
  mParameters := none
  openings := 0
  trace := []

inductive Act where
  /-- `run` is entered; `Integer.parseInt(mServerPort)` may throw. -/
  | run (portParses : Bool)
  /-- `NewIntArray` may fail, and so may each call of `socket`. -/
  | getTunnelSock (array : Bool) (succeeds : Tunnel.Socket → Bool)
  | protect (result : Bool)
  /-- The calls of `recvfrom` and the parameters returned; nothing if the port does not
  parse any more. -/
  | startTunnel (returned : Option (Nat × String))
  | configure (built : Built)
  | sleep (interrupted : Bool)
  | getFd
  | mutexInit (result : Bool)
  /-- A thread of `tunnelLoop` reads or writes a socket, or the interface. -/
  | threadIo (which : Option Tunnel.Socket)
  /-- Both threads have ended, and `tunnelLoop` closes everything. -/
  | joined
  | finallyBlock

/-! ## Steps -/

/-- The sockets in the order of the array `socks`. -/
def socketOrder : List Tunnel.Socket :=
  [.cssix, .assForward31, .assForward33, .assForward41, .assForward43, .expForwardEF,
   .classZeroCs0]

@[grind =] def State.goto (s : State) (pc : Pc) : State := { s with pc := pc }

/-- Something is done with a descriptor, if there is one. -/
@[grind =] def State.log (s : State) (event : Descriptor → Event) (d : Option Descriptor) : State :=
  { s with trace := s.trace ++ (d.map event).toList }

/-- `mInterface.close()`, where an exception is ignored. -/
def closeInterface (s : State) : State :=
  match s.mInterface with
  | none => s
  | some pfd =>
    if pfd.isClosed then s
    else { s.log .closed (some pfd.fd) with mInterface := some { pfd with isClosed := true } }

/-- `getTunnelSock`, after its array was allocated. -/
def getTunnelSock (s : State) (succeeds : Tunnel.Socket → Bool) : State :=
  if s.sockets .cssix = none then
    let sockets := fun which =>
      if succeeds which then some (Descriptor.socket which s.openings) else none
    { s with
      sockets := sockets
      openings := s.openings + 1
      trace := s.trace ++ (socketOrder.filterMap sockets).map .opened }
  else s

/-- `configure`, and where `startNativeTunnel` and the caller go on from there. -/
def configure (s : State) (parameters : String) (built : Built) : State :=
  if s.mInterface ≠ none ∧ s.mParameters = some parameters then s.goto .getFd
  else if built = .badParameter then s.goto .sleep
  else
    let s := closeInterface s
    match built with
    | .badParameter | .establishThrows => s.goto .sleep
    | .establishNull => { s.goto .getFd with mInterface := none, mParameters := some parameters }
    | .established =>
      let fd := Descriptor.interface s.openings
      { (s.log .opened (some fd)).goto .getFd with
        mInterface := some ⟨fd, false⟩
        mParameters := some parameters
        openings := s.openings + 1 }

/-- The end of `tunnelLoop`. -/
def closeAll (s : State) : State :=
  { s with
    sockets := fun _ => none
    trace := s.trace ++
      (socketOrder.filterMap s.sockets ++ s.vpnfd.toList).map .closed }

/-- The next call of a session, or the beginning of one. -/
def step (s : State) : Act → Option State
  | .run portParses =>
    if s.pc = .idle then
      some { s.goto (if portParses then .getTunnelSock else .finallyBlock) with attempt := 0 }
    else none
  | .getTunnelSock array succeeds =>
    if s.pc = .getTunnelSock then
      if array then
        let s := getTunnelSock s succeeds
        some (s.goto (.protect (socketOrder.map s.sockets)))
      else some (s.goto .finallyBlock)
    else none
  | .protect result =>
    match s.pc with
    | .protect (fd :: socks) =>
      let next := if socks.isEmpty then .startTunnel else .protect socks
      some ((s.log .used fd).goto (if result then next else .finallyBlock))
    | _ => none
  | .startTunnel returned =>
    if s.pc = .startTunnel then
      match returned with
      | none => some (s.goto .finallyBlock)
      | some (received, parameters) =>
        if 1 ≤ received ∧ received ≤ 50 then
          -- two calls of `sendto` before those of `recvfrom`
          let uses := List.replicate (2 + received) (s.sockets .cssix)
          some { s with
            pc := .configure parameters
            trace := s.trace ++ uses.reduceOption.map .used }
        else none
    else none
  | .configure built =>
    match s.pc with
    | .configure parameters => some (configure s parameters built)
    | _ => none
  | .sleep interrupted =>
    if s.pc = .sleep then
      if interrupted then some (s.goto .finallyBlock)
      else
        let attempt := s.attempt + 1
        some { s.goto (if attempt < 10 then .getTunnelSock else .finallyBlock) with
          attempt := attempt }
    else none
  | .getFd =>
    if s.pc = .getFd then
      match s.mInterface with
      | none => some (s.goto .finallyBlock)
      | some pfd =>
        if pfd.isClosed then some (s.goto .finallyBlock)
        else some { s.goto .mutexInit with vpnfd := some pfd.fd }
    else none
  | .mutexInit result =>
    if s.pc = .mutexInit then some (s.goto (if result then .threads else .finallyBlock)) else none
  | .threadIo which =>
    if s.pc = .threads then
      match which with
      | some which => some (s.log .used (s.sockets which))
      | none => some (s.log .used s.vpnfd)
    else none
  | .joined => if s.pc = .threads then some ((closeAll s).goto .finallyBlock) else none
  | .finallyBlock =>
    if s.pc = .finallyBlock then
      some { (closeInterface s).goto .idle with mInterface := none, mParameters := none }
    else none

abbrev Step (s : State) (a : Act) (t : State) : Prop := step s a = some t

end QoSMos.Session
