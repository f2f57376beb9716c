import QoSMos.Syscall.Descriptors

/-!
# What a handler runs on

A handler reads its environment, changes the state of the test and stops early with an error. In
the environment are the parts of the call's specification, the two back ends that can answer the
call, and what the main thread does to the descriptors while the mutex is released. The functions
that allocate and compare control messages, the tables of platform symbols and what the handlers
use of the C library are in it too.

`begin_syscall`, `end_syscall`, their assertions and the mutex operations leave marks.
-/

namespace QoSMos.Syscall

/-- `enum syscall_state_t` -/
inductive SyscallStateT where
  | idle | enqueued | running | done | exiting
  deriving DecidableEq, Repr

/-- What is recorded of a run: the calls that the handlers are to pair, the operations on the mutex
that have returned, and the assertions on the state. -/
inductive Mark where
  | beginSyscall | endSyscall | unlock | lock
  | asserted (expected actual : SyscallStateT)
  deriving DecidableEq, Repr

/-- `struct state`, as far as the handlers read or set it. -/
structure State where
  fds : List FdState
  syscallState : SyscallStateT
  liveEndUsecs : Int
  /-- The thread that runs the handler holds the global mutex. -/
  locked : Bool
  marks : List Mark

/-- `struct msghdr`, with the lengths of its `iovec`s. -/
structure Msghdr where
  msgName : Option SockAddr
  hasNamelen : Bool
  msgIov : List Int
  msgIovlen : Int
  msgControl : Option (List UInt8)
  msgFlags : Int

/-- `struct pollfd` -/
structure Pollfd where
  fd : Int
  events : Int
  revents : Int

/-- The member of `epoll_data` that a script gives, after `enum epoll_data_type_t`. -/
inductive EpollData where
  | ptr (ptr : Int)
  | fd (fd : Int)
  | u32 (u32 : Int)
  | u64 (u64 : Int)
  deriving DecidableEq, Repr

/-- The calls that handlers make, with the arguments that are not buffers to be filled. -/
inductive Call where
  | socket (domain type protocol : Int)
  | bind (fd : Int) (addr : SockAddr)
  | listen (fd backlog : Int)
  | accept (fd : Int)
  | connect (fd : Int) (addr : SockAddr)
  | read (fd : Int) (isNull : Bool) (count : Int)
  | readv (fd : Int) (iov : List Int) (iovCount : Int)
  | recv (fd : Int) (isNull : Bool) (count flags : Int)
  | recvfrom (fd : Int) (isNull : Bool) (count flags : Int)
  | recvmsg (fd : Int) (msg : Msghdr) (flags : Int)
  | write (fd : Int) (isNull : Bool) (count : Int)
  | writev (fd : Int) (iov : List Int) (iovCount : Int)
  | send (fd : Int) (isNull : Bool) (count flags : Int)
  /-- `icmpType` is what is stored in the first byte of the zeroed buffer. -/
  | sendto (fd : Int) (isNull : Bool) (count flags : Int) (addr : SockAddr)
      (icmpType : Option Nat)
  | sendmsg (fd : Int) (msg : Msghdr) (flags : Int)
  | fcntl (fd command : Int) (arg : Option Int)
  | ioctl (fd command : Int) (hasOptval : Bool)
  | close (fd : Int)
  | shutdown (fd how : Int)
  | getsockopt (fd level optname optlen : Int)
  | setsockopt (fd level optname : Int) (optval : Expression) (optlen : Int)
  | poll (fds : List Pollfd) (nfds timeout : Int)
  | capSetProc (capFlag capValue capOp : Int)
  | open (name : String) (flags : Int)
  | sendfile (outFd inFd offset count : Int)
  | epollCreate (size : Int)
  | epollCtl (epfd op fd events : Int) (data : EpollData)
  | epollWait (epfd maxevents timeout : Int)
  | pipe
  | splice (fdIn offIn fdOut offOut len flags : Int)

/-- What a call returns, and what it leaves in its buffers and in `errno`. -/
structure Reply where
  result : Int
  errno : Int
  /-- `ip_from_sockaddr` of the address that `accept` stores. -/
  peer : Except Stop Endpoint
  msg : Msghdr
  /-- The bytes of `live_optval`, and `live_optlen`. -/
  optval : List UInt8
  optlen : Int
  ioctlOptval : Int
  revents : List Int
  /-- The events and the 64 bits of data of `event_live`. -/
  epollEvents : Nat
  epollData : Nat
  pipeFds : Int × Int

structure Env where
  config : Config
  /-- `is_blocking_syscall(syscall)` -/
  blocking : Bool
  /-- `syscall->result` and `syscall->error->errno_macro` -/
  result : Expression
  errnoMacro : Option String
  /-- `state->so_instance` is set. -/
  soInstance : Bool
  ifc : Call → Reply
  kernel : Call → Reply
  /-- The descriptors when a thread that released the mutex has got it back. -/
  meanwhile : List FdState → List FdState
  nowUsecs : Int
  /-- `malloc` or `calloc` of so many bytes succeeds. -/
  allocates : Int → Bool
  symbolToInt : String → Checked Int
  strerror : Int → String
  flagsToString : Int → String
  inetNtop : IpAddress → String
  /-- `%p` -/
  pointer : Int → String
  cmsgNew : Expression → Except Stop (List UInt8)
  cmsgExpectEq : Option (List UInt8) → Option (List UInt8) → Checked Unit
  /-- `cap_get_proc` and `cap_free` succeed. -/
  capGetProc : Bool
  capFree : Bool

/-- A call goes to the shared object under test, if there is one, or to the kernel. -/
def Env.answer (env : Env) (call : Call) : Reply :=
  if env.soInstance then env.ifc call else env.kernel call

/-- A handler returns, or stops early, in a new state. -/
def Handler (α : Type) := Env → State → Except Stop α × State

namespace Handler

instance : Monad Handler where
  pure a := fun _ s => (.ok a, s)
  bind m f := fun env s =>
    match m env s with
    | (.ok a, s) => f a env s
    | (.error stop, s) => (.error stop, s)

def stop {α : Type} (stop : Stop) : Handler α := fun _ s => (.error stop, s)

/-- `asprintf(error, ...)` and `STATUS_ERR` -/
def fail {α : Type} (message : String) : Handler α := stop (.error message)

def readEnv : Handler Env := fun env s => (.ok env, s)

/-- An argument, or the error of the function that takes it. -/
def take {α : Type} (x : Checked α) : Handler α := fun _ s => (checked x, s)

def lift {α : Type} (x : Except Stop α) : Handler α := fun _ s => (x, s)

/-- A function that reads the list of descriptors. -/
def withFds {α : Type} (f : List FdState → Except Stop α) : Handler α :=
  fun _ s => (f s.fds, s)

/-- A function that changes the list of descriptors. -/
def updateFds {α : Type} (f : List FdState → Except Stop (α × List FdState)) : Handler α :=
  fun _ s =>
    match f s.fds with
    | .ok (a, fds) => (.ok a, { s with fds })
    | .error stop => (.error stop, s)

def setFds (f : List FdState → Except Stop (List FdState)) : Handler Unit :=
  updateFds fun fds => (f fds).map ((), ·)

def require (c : Prop) [Decidable c] (function expression : String) : Handler Unit :=
  lift (assert c function expression)

/-- An error if the condition does not hold. -/
def expect (c : Prop) [Decidable c] (message : String) : Handler Unit :=
  if c then pure () else fail message

def mark (m : Mark) : Handler Unit := fun _ s => (.ok (), { s with marks := s.marks ++ [m] })

def runUnlock : Handler Unit := fun _ s =>
  if s.locked then (.ok (), { s with locked := false, marks := s.marks ++ [.unlock] })
  else (.error (.die "pthread_mutex_unlock"), s)

/-- The other thread has had the mutex in the meantime. -/
def runLock : Handler Unit := fun env s =>
  if s.locked then (.error .deadlock, s)
  else (.ok (), { s with
    locked := true, marks := s.marks ++ [.lock], fds := env.meanwhile s.fds })

def syscallState : Handler SyscallStateT := fun _ s => (.ok s.syscallState, s)

def setSyscallState (state : SyscallStateT) : Handler Unit :=
  fun _ s => (.ok (), { s with syscallState := state })

/-- `assert(state->syscalls->state == ...)` -/
def assertState (expected : SyscallStateT) (function expression : String) : Handler Unit := do
  let actual ← syscallState
  mark (.asserted expected actual)
  require (actual = expected) function expression

def setLiveEndUsecs (usecs : Int) : Handler Unit :=
  fun _ s => (.ok (), { s with liveEndUsecs := usecs })

def invoke (call : Call) : Handler Reply := do
  let env ← readEnv
  return env.answer call

/-- A call that goes to the kernel in any case. -/
def invokeKernel (call : Call) : Handler Reply := do
  let env ← readEnv
  return env.kernel call

/-- `begin_syscall` -/
def beginSyscall : Handler Unit := do
  mark .beginSyscall
  let env ← readEnv
  if env.blocking then
    assertState .enqueued "begin_syscall" "state->syscalls->state == SYSCALL_ENQUEUED"
    setSyscallState .running
    runUnlock

/-- `enum result_check_t` -/
inductive ResultCheckT where
  | checkExact | checkFd
  deriving DecidableEq, Repr

/-- What `end_syscall` does for a blocking call. -/
def reacquire : Handler Unit := do
  let env ← readEnv
  if env.blocking then
    runLock
    setLiveEndUsecs env.nowUsecs
    assertState .running "end_syscall" "state->syscalls->state == SYSCALL_RUNNING"
    setSyscallState .done

/-- The comparison with the expected result. -/
def checkResult (mode : ResultCheckT) (actual actualErrno : Int) : Handler Unit := do
  let env ← readEnv
  let expected ← take (getS32 env.result)
  let withErrno := s!"with errno {actualErrno} ({env.strerror actualErrno})"
  if mode = .checkFd ∧ expected ≥ 0 then
    expect (¬ actual < 0) s!"Expected non-negative result but got {actual} {withErrno}"
  else
    expect (actual = expected) s!"Expected result {expected} but got {actual} {withErrno}"

/-- The comparison with the expected `errno`, if there is one. -/
def checkErrno (actualErrno : Int) : Handler Unit := do
  let env ← readEnv
  match env.errnoMacro with
  | none => return ()
  | some errnoMacro =>
    let expectedErrno ← take (env.symbolToInt errnoMacro)
    expect (actualErrno = expectedErrno)
      (s!"Expected errno {toInt expectedErrno} " ++
        s!"({env.strerror (toInt expectedErrno)}) but got " ++
        s!"{actualErrno} ({env.strerror actualErrno})")

/-- `end_syscall` -/
def endSyscall (mode : ResultCheckT) (reply : Reply) : Handler Unit := do
  mark .endSyscall
  reacquire
  checkResult mode reply.result reply.errno
  checkErrno reply.errno

/-- `alloc_buffer` -/
def allocBuffer (isNull : Bool) (count : Int) : Handler Unit := do
  let env ← readEnv
  if ¬ isNull then require (env.allocates count = true) "alloc_buffer" "buf != NULL"

end Handler

end QoSMos.Syscall
