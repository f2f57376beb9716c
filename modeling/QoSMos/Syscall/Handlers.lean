import QoSMos.Outbound.Verify
import QoSMos.Packet.Bytes
import QoSMos.Syscall.Runtime

/-!
# The handlers of system calls

`system_call_table` and its handlers. Each takes its arguments, calls `begin_syscall`, makes the
call through one of the back ends, calls `end_syscall` with the result and looks at what the call
has left. `syscall_splice` has no call of `begin_syscall`.
-/

namespace QoSMos.Syscall

namespace Handler

/-! ## Structures built from expressions -/

/-- An element of the list that `iovec_new` is given. -/
def iovecElement : Expression → Except Stop Int
  | .iovec iovBase iovLen => do
    assert (iovBase.typeName = "ellipsis") "iovec_new" "iov_expr->iov_base->type == EXPR_ELLIPSIS"
    match iovLen with
    | .integer num => return num
    | _ => .error (.assertionFailed "iovec_new" "iov_expr->iov_len->type == EXPR_INTEGER")
  | expression => checked (badType expression "iovec")

/-- `iovec_new`: the lengths of the buffers -/
def iovecNew (expression : Expression) : Except Stop (List Int) := do
  (← checked (checkList expression)).mapM iovecElement

/-- An ellipsis, if the field is given. -/
def ellipsisField (field : Option Expression) (name : String) : Except Stop Bool :=
  match field with
  | none => .ok false
  | some expression => do
    assert (expression.typeName = "ellipsis") "msghdr_new" s!"{name}->type == EXPR_ELLIPSIS"
    return true

/-- A number, if the field is given. -/
def s32Field : Option Expression → Except Stop Int
  | none => .ok 0
  | some expression => checked (getS32 expression)

/-- `msghdr_new`; the second number is `*iov_len_ptr`, which it only sets if there is an array. -/
def msghdrNew (env : Env) (expression : Expression) (iovLen : Nat) :
    Except Stop (Msghdr × Nat) :=
  match expression with
  | .msghdr msgName msgNamelen msgIov msgIovlen msgControl msgFlags => do
    let hasName ← ellipsisField msgName "msg_expr->msg_name"
    let hasNamelen ← ellipsisField msgNamelen "msg_expr->msg_namelen"
    let (iov, iovLen) ← match msgIov with
      | none => .ok ([], iovLen)
      | some iov => (iovecNew iov).map fun iov => (iov, iov.length)
    let iovCount ← s32Field msgIovlen
    if iovCount ≠ iovLen then
      .error (.error s!"msg_iovlen {iovCount} does not match {iovLen}-element iovec array")
    let control ← match msgControl with
      | none => .ok none
      | some control => (env.cmsgNew control).map some
    let flags ← s32Field msgFlags
    return ({
      msgName := if hasName then some ⟨0, none⟩ else none
      hasNamelen := hasNamelen
      msgIov := iov
      msgIovlen := iovCount
      msgControl := control
      msgFlags := flags }, iovLen)
  | _ => checked (badType expression "msghdr")

/-- An element of the list that `pollfds_new` is given. -/
def pollfdElement (fds : List FdState) : Expression → Except Stop Pollfd
  | .pollfd fd events revents => do
    let fd ← checked (checkInteger fd)
    let events ← checked (checkInteger events)
    let revents ← checked (checkInteger revents)
    return ⟨← toLiveFd fds (toInt fd), events.bmod 65536, revents.bmod 65536⟩
  | expression => checked (badType expression "pollfd")

def pollfdsNew (fds : List FdState) (expression : Expression) : Except Stop (List Pollfd) := do
  (← checked (checkList expression)).mapM (pollfdElement fds)

/-- The comparison of `pollfds_check` for the element at `index`. -/
def pollfdCheck (env : Env) (index : Nat) (expression : Expression) (actualRevents : Int) :
    Except Stop Unit :=
  match expression with
  | .pollfd _ _ (.integer num) =>
    if actualRevents ≠ toInt num then
      .error (.error (s!"Expected revents of {env.flagsToString (toInt num)} but got " ++
        s!"{env.flagsToString actualRevents} for pollfd {index}"))
    else .ok ()
  | _ => .error (.assertionFailed "pollfds_check" "fds_expr->revents->type == EXPR_INTEGER")

/-- The loop of `pollfds_check`, from `index` on -/
def pollfdsCheckFrom (env : Env) (index : Nat) : List Expression → List Int → Except Stop Unit
  | expression :: list, revents :: rest => do
    pollfdCheck env index expression revents
    pollfdsCheckFrom env (index + 1) list rest
  | _, _ => .ok ()

def pollfdsCheck (env : Env) (expression : Expression) (revents : List Int) : Except Stop Unit :=
  match expression with
  | .list list => pollfdsCheckFrom env 0 list revents
  | _ => .error (.assertionFailed "pollfds_check" "fds_expression->type == EXPR_LIST")

/-- `get_epoll_event_from_expr`; the descriptors are those of the call, or none for -1. -/
def getEpollEventFromExpr (fds : List FdState) (expression : Expression)
    (descriptors : Option (Int × Int)) : Except Stop (Int × EpollData) :=
  match expression with
  | .epollev events ptr fd u32 u64 => do
    let events ← checked (checkInteger events)
    match ptr, fd, u32, u64 with
    | some ptr, _, _, _ => return (events, .ptr (← checked (checkInteger ptr)))
    | none, some fd, _, _ =>
      let num ← checked (checkInteger fd)
      match descriptors with
      | none => return (events, .fd (← toLiveFd fds (toInt num)))
      | some (scriptFd, liveFd) =>
        if num ≠ scriptFd then .error (.error "wrong fd specified in epoll_event\n")
        else return (events, .fd liveFd)
    | none, none, some u32, _ => return (events, .u32 (← checked (checkInteger u32)))
    | none, none, none, some u64 => return (events, .u64 (← checked (checkInteger u64)))
    | none, none, none, none => .error (.error "epoll_event specified incorrectly")
  | _ => checked (badType expression "epollev")

/-! ## Handlers -/

def syscallSocket (args : List Expression) : Handler Unit := do
  take (checkArgCount args 3)
  take (ellipsisArg args 0)
  let type ← take (s32Arg args 1)
  let protocol ← take (s32Arg args 2)
  let env ← readEnv
  let domain := env.config.socketDomain
  beginSyscall
  let reply ← invoke (.socket domain type protocol)
  endSyscall .checkFd reply
  if reply.result ≥ 0 then
    let scriptFd ← take (getS32 env.result)
    setFds (runSyscallSocket · domain type protocol scriptFd reply.result)

def syscallBind (args : List Expression) : Handler Unit := do
  take (checkArgCount args 3)
  let scriptFd ← take (s32Arg args 0)
  let liveFd ← withFds (toLiveFd · scriptFd)
  take (ellipsisArg args 1)
  take (ellipsisArg args 2)
  let env ← readEnv
  let liveAddr := ipToSockaddr env.config.liveBindIp env.config.liveBindPort
  beginSyscall
  let reply ← invoke (.bind liveFd liveAddr)
  endSyscall .checkExact reply

def syscallListen (args : List Expression) : Handler Unit := do
  take (checkArgCount args 2)
  let scriptFd ← take (s32Arg args 0)
  let liveFd ← withFds (toLiveFd · scriptFd)
  let backlog ← take (s32Arg args 1)
  beginSyscall
  let reply ← invoke (.listen liveFd backlog)
  endSyscall .checkExact reply
  setFds (runSyscallListen · scriptFd liveFd)

def syscallAccept (args : List Expression) : Handler Unit := do
  take (checkArgCount args 3)
  let scriptFd ← take (s32Arg args 0)
  let liveFd ← withFds (toLiveFd · scriptFd)
  take (ellipsisArg args 1)
  take (ellipsisArg args 2)
  beginSyscall
  let reply ← invoke (.accept liveFd)
  endSyscall .checkFd reply
  if reply.result ≥ 0 then
    let env ← readEnv
    let scriptAcceptedFd ← take (getS32 env.result)
    let peer ← lift reply.peer
    setFds (runSyscallAccept env.config · scriptAcceptedFd reply.result peer)

def syscallConnect (args : List Expression) : Handler Unit := do
  take (checkArgCount args 3)
  let scriptFd ← take (s32Arg args 0)
  let liveFd ← withFds (toLiveFd · scriptFd)
  let saFamily ← take (saFamilyArg args 1)
  take (ellipsisArg args 2)
  let env ← readEnv
  let liveAddr ← updateFds (runSyscallConnect env.config · scriptFd false saFamily)
  beginSyscall
  let reply ← invoke (.connect liveFd liveAddr)
  endSyscall .checkExact reply

/-- `syscall_read` and `syscall_write` -/
def readOrWrite (call : Int → Bool → Int → Call) (args : List Expression) : Handler Unit := do
  take (checkArgCount args 3)
  let scriptFd ← take (s32Arg args 0)
  let liveFd ← withFds (toLiveFd · scriptFd)
  let isNull ← take (bufferArg args 1)
  let count ← take (s32Arg args 2)
  allocBuffer isNull count
  beginSyscall
  let reply ← invoke (call liveFd isNull count)
  endSyscall .checkExact reply

def syscallRead : List Expression → Handler Unit := readOrWrite .read

def syscallWrite : List Expression → Handler Unit := readOrWrite .write

/-- `syscall_readv` and `syscall_writev` -/
def readvOrWritev (call : Int → List Int → Int → Call) (args : List Expression) :
    Handler Unit := do
  take (checkArgCount args 3)
  let scriptFd ← take (s32Arg args 0)
  let liveFd ← withFds (toLiveFd · scriptFd)
  let iovExpression ← take (getArg args 1)
  let iov ← lift (iovecNew iovExpression)
  let iovCount ← take (s32Arg args 2)
  expect (iovCount = iov.length)
    s!"iov_count {iovCount} does not match {iov.length}-element iovec array"
  beginSyscall
  let reply ← invoke (call liveFd iov iovCount)
  endSyscall .checkExact reply

def syscallReadv : List Expression → Handler Unit := readvOrWritev .readv

def syscallWritev : List Expression → Handler Unit := readvOrWritev .writev

/-- `syscall_recv` and `syscall_send` -/
def recvOrSend (call : Int → Bool → Int → Int → Call) (args : List Expression) :
    Handler Unit := do
  take (checkArgCount args 4)
  let scriptFd ← take (s32Arg args 0)
  let liveFd ← withFds (toLiveFd · scriptFd)
  let isNull ← take (bufferArg args 1)
  let count ← take (s32Arg args 2)
  let flags ← take (s32Arg args 3)
  allocBuffer isNull count
  beginSyscall
  let reply ← invoke (call liveFd isNull count flags)
  endSyscall .checkExact reply

def syscallRecv : List Expression → Handler Unit := recvOrSend .recv

def syscallSend : List Expression → Handler Unit := recvOrSend .send

def syscallRecvfrom (args : List Expression) : Handler Unit := do
  take (checkArgCount args 6)
  let scriptFd ← take (s32Arg args 0)
  let liveFd ← withFds (toLiveFd · scriptFd)
  let isNull ← take (bufferArg args 1)
  let count ← take (s32Arg args 2)
  let flags ← take (s32Arg args 3)
  take (ellipsisArg args 4)
  take (ellipsisArg args 5)
  allocBuffer isNull count
  beginSyscall
  let reply ← invoke (.recvfrom liveFd isNull count flags)
  endSyscall .checkExact reply

/-- `%08X` -/
def hex8 (x : Int) : String :=
  let digits := (Nat.toDigits 16 (x % 4294967296).toNat).map Char.toUpper
  String.ofList (List.replicate (8 - digits.length) '0' ++ digits)

def syscallRecvmsg (args : List Expression) : Handler Unit := do
  take (checkArgCount args 3)
  let scriptFd ← take (s32Arg args 0)
  let liveFd ← withFds (toLiveFd · scriptFd)
  let msgExpression ← take (getArg args 1)
  let env ← readEnv
  let (msg, iovLen) ← lift (msghdrNew env msgExpression 0)
  let (expectedMsg, _) ← lift (msghdrNew env msgExpression iovLen)
  let flags ← take (s32Arg args 2)
  beginSyscall
  let reply ← invoke (.recvmsg liveFd msg flags)
  endSyscall .checkExact reply
  expect (reply.msg.msgFlags = expectedMsg.msgFlags)
    s!"Expected msg_flags 0x{hex8 expectedMsg.msgFlags} but got 0x{hex8 reply.msg.msgFlags}"
  take (env.cmsgExpectEq expectedMsg.msgControl reply.msg.msgControl)

/-- What is stored in the buffer of an echo request. -/
def icmpTypeOf (config : Config) (count : Int) : Option Nat :=
  if config.wireProtocol = 2 ∧ count ≥ 8 then some 8
  else if config.wireProtocol = 10 ∧ count ≥ 8 then some 128
  else none

def syscallIcmpSendto (args : List Expression) : Handler Unit := do
  take (checkArgCount args 6)
  let scriptFd ← take (s32Arg args 0)
  let liveFd ← withFds (toLiveFd · scriptFd)
  let isNull ← take (bufferArg args 1)
  let count ← take (s32Arg args 2)
  let flags ← take (s32Arg args 3)
  take (ellipsisArg args 4)
  take (ellipsisArg args 5)
  let env ← readEnv
  let liveAddr ← updateFds (runSyscallConnect env.config · scriptFd false (-1))
  allocBuffer isNull count
  beginSyscall
  let reply ← invoke (.sendto liveFd isNull count flags liveAddr (icmpTypeOf env.config count))
  endSyscall .checkExact reply

/-- A datagram socket for ICMP. -/
def isIcmpSocket (socket : SocketInfo) : Bool :=
  socket.type = 2 && ((socket.addressFamily = 2 && socket.protocol = 1) ||
    (socket.addressFamily = 10 && socket.protocol = 58))

def syscallSendto (args : List Expression) : Handler Unit := do
  take (checkArgCount args 6)
  let scriptFd ← take (s32Arg args 0)
  let liveFd ← withFds (toLiveFd · scriptFd)
  let isNull ← take (bufferArg args 1)
  let count ← take (s32Arg args 2)
  let flags ← take (s32Arg args 3)
  let saFamily ← take (saFamilyArg args 4)
  take (ellipsisArg args 5)
  let fd ← withFds (findByScriptFd · scriptFd)
  if (fdToSocket fd).any isIcmpSocket then syscallIcmpSendto args
  else
    let env ← readEnv
    let liveAddr ← updateFds (runSyscallConnect env.config · scriptFd false saFamily)
    allocBuffer isNull count
    beginSyscall
    let reply ← invoke (.sendto liveFd isNull count flags liveAddr none)
    endSyscall .checkExact reply

/-- The address of a message, if it is to have one. -/
def connectMsg (scriptFd : Int) (msg : Msghdr) : Handler Msghdr := do
  let env ← readEnv
  match msg.msgName with
  | none => return msg
  | some _ =>
    let liveAddr ← updateFds (runSyscallConnect env.config · scriptFd false (-1))
    return { msg with msgName := some liveAddr }

def syscallSendmsg (args : List Expression) : Handler Unit := do
  take (checkArgCount args 3)
  let scriptFd ← take (s32Arg args 0)
  let liveFd ← withFds (toLiveFd · scriptFd)
  let msgExpression ← take (getArg args 1)
  let env ← readEnv
  let (msg, _) ← lift (msghdrNew env msgExpression 0)
  let flags ← take (s32Arg args 2)
  let msg ← connectMsg scriptFd msg
  expect (msg.msgFlags = 0) "sendmsg ignores msg_flags field in msghdr"
  beginSyscall
  let reply ← invoke (.sendmsg liveFd msg flags)
  endSyscall .checkExact reply

def syscallFcntl (args : List Expression) : Handler Unit := do
  let actualArgCount := args.length
  expect (actualArgCount = 2 ∨ actualArgCount = 3)
    s!"fcntl expected 2-3 args but got {actualArgCount}"
  let scriptFd ← take (s32Arg args 0)
  let liveFd ← withFds (toLiveFd · scriptFd)
  let command ← take (s32Arg args 1)
  if actualArgCount = 2 then
    beginSyscall
    let reply ← invoke (.fcntl liveFd command none)
    endSyscall .checkExact reply
  else
    let arg ← take (s32Arg args 2)
    beginSyscall
    let reply ← invoke (.fcntl liveFd command (some arg))
    endSyscall .checkExact reply

def syscallIoctl (args : List Expression) : Handler Unit := do
  let actualArgCount := args.length
  expect (actualArgCount = 2 ∨ actualArgCount = 3)
    s!"ioctl expected 2-3 args but got {actualArgCount}"
  let scriptFd ← take (s32Arg args 0)
  let liveFd ← withFds (toLiveFd · scriptFd)
  let command ← take (s32Arg args 1)
  if actualArgCount = 2 then
    beginSyscall
    let reply ← invoke (.ioctl liveFd command false)
    endSyscall .checkExact reply
  else
    let scriptOptval ← take (s32BracketedArg args 2)
    beginSyscall
    let reply ← invoke (.ioctl liveFd command true)
    endSyscall .checkExact reply
    expect (reply.ioctlOptval = scriptOptval)
      s!"Bad ioctl optval: expected: {scriptOptval} actual: {reply.ioctlOptval}"

def syscallClose (args : List Expression) : Handler Unit := do
  take (checkArgCount args 1)
  let scriptFd ← take (s32Arg args 0)
  let liveFd ← withFds (toLiveFd · scriptFd)
  beginSyscall
  let reply ← invoke (.close liveFd)
  endSyscall .checkExact reply
  setFds (runSyscallClose · scriptFd liveFd)

def syscallShutdown (args : List Expression) : Handler Unit := do
  take (checkArgCount args 2)
  let scriptFd ← take (s32Arg args 0)
  let liveFd ← withFds (toLiveFd · scriptFd)
  let how ← take (s32Arg args 1)
  beginSyscall
  let reply ← invoke (.shutdown liveFd how)
  endSyscall .checkExact reply

/-- `*(s32 *)live_optval` -/
def s32Optval (optval : List UInt8) : Int :=
  let b := Memory.ofList optval
  toInt (u8At b 0 + 256 * u8At b 1 + 65536 * u8At b 2 + 16777216 * u8At b 3)

/-- The comparison of the option with that of the script, by the type of the expression. -/
def checkOptval (valExpression : Expression) (args : List Expression) (scriptOptlen : Int)
    (optval : List UInt8) : Handler Unit :=
  match valExpression with
  | .string string => do
    let live := optval.takeWhile (· ≠ 0)
    expect (live = string.toUTF8.toList)
      (s!"Bad getsockopt optval: expected: '{string}' actual: " ++
        s!"'{String.ofList (live.map fun c => Char.ofNat c.toNat)}'")
  | .list _ => do
    expect (scriptOptlen = 4) s!"Unsupported getsockopt optlen: {scriptOptlen}"
    let scriptOptval ← take (s32BracketedArg args 3)
    expect (s32Optval optval = scriptOptval)
      s!"Bad getsockopt optval: expected: {scriptOptval} actual: {s32Optval optval}"
  | .gre flags be16First be16Second be32Second be32Third => do
    let b := Memory.ofList optval
    expect (scriptOptlen = 16) s!"Unsupported getsockopt optlen: {scriptOptlen}"
    expect (be16At b 0 = flags ∧ be16At b 4 = be16First ∧ be16At b 6 = be16Second ∧
      be32At b 8 = be32Second ∧ be32At b 12 = be32Third) "Bad getsockopt optval."
  | .in6Addr address => do
    let env ← readEnv
    expect (scriptOptlen = 16) s!"Unsupported getsockopt optlen: {scriptOptlen}"
    expect (optval.take 16 = address)
      (s!"Bad getsockopt optval: expected: {env.inetNtop ⟨.inet6, address⟩} actual: " ++
        s!"{env.inetNtop ⟨.inet6, optval.take 16⟩} ")
  | _ => fail s!"unsupported getsockopt value type: {valExpression.typeName}"

def syscallGetsockopt (args : List Expression) : Handler Unit := do
  take (checkArgCount args 5)
  let scriptFd ← take (s32Arg args 0)
  let liveFd ← withFds (toLiveFd · scriptFd)
  let level ← take (s32Arg args 1)
  let optname ← take (s32Arg args 2)
  let valExpression ← take (getArg args 3)
  let scriptOptlen ← take (s32BracketedArg args 4)
  let env ← readEnv
  require (env.allocates (scriptOptlen + 1) = true) "syscall_getsockopt" "live_optval != NULL"
  beginSyscall
  let reply ← invoke (.getsockopt liveFd level optname scriptOptlen)
  endSyscall .checkExact reply
  expect (reply.optlen = scriptOptlen)
    s!"Bad getsockopt optlen: expected: {scriptOptlen} actual: {reply.optlen}"
  checkOptval valExpression args scriptOptlen reply.optval

/-- The value of an option, by the type of the expression. -/
def setsockoptValue (valExpression : Expression) (args : List Expression) : Checked Expression :=
  match valExpression with
  | .linger _ _ | .gre _ _ _ _ _ | .in6Addr _ | .mplsStack _ | .string _ => .ok valExpression
  | .list _ => (s32BracketedArg args 3).map .integer
  | _ => .error s!"unsupported setsockopt value type: {valExpression.typeName}"

def syscallSetsockopt (args : List Expression) : Handler Unit := do
  take (checkArgCount args 5)
  let scriptFd ← take (s32Arg args 0)
  let liveFd ← withFds (toLiveFd · scriptFd)
  let level ← take (s32Arg args 1)
  let optname ← take (s32Arg args 2)
  let optlen ← take (s32Arg args 4)
  let valExpression ← take (getArg args 3)
  let optval ← take (setsockoptValue valExpression args)
  beginSyscall
  let reply ← invoke (.setsockopt liveFd level optname optval optlen)
  endSyscall .checkExact reply

def syscallPoll (args : List Expression) : Handler Unit := do
  take (checkArgCount args 3)
  let fdsExpression ← take (getArg args 0)
  let fds ← withFds (pollfdsNew · fdsExpression)
  let nfds ← take (s32Arg args 1)
  let timeout ← take (s32Arg args 2)
  expect (nfds = fds.length) s!"nfds {nfds} does not match {fds.length}-element pollfd array"
  beginSyscall
  let reply ← invoke (.poll fds nfds timeout)
  endSyscall .checkExact reply
  let env ← readEnv
  lift (pollfdsCheck env fdsExpression (reply.revents.take fds.length))

def syscallCapSet (args : List Expression) : Handler Unit := do
  take (checkArgCount args 3)
  let capFlag ← take (s32Arg args 0)
  let capValue ← take (s32Arg args 1)
  let capOp ← take (s32Arg args 2)
  let env ← readEnv
  if ¬ env.capGetProc then stop (.die "Error in cap_get_proc()\n")
  require (capFlag = 0) "cap_set_flag" "flag == CAP_EFFECTIVE"
  beginSyscall
  let reply ← invokeKernel (.capSetProc capFlag capValue capOp)
  endSyscall .checkFd reply
  if ¬ env.capFree then stop (.die "Error in cap_free()\n")

def syscallOpen (args : List Expression) : Handler Unit := do
  take (checkArgCount args 2)
  let nameExpression ← take (getArg args 0)
  let name ← take (checkString nameExpression)
  let flags ← take (s32Arg args 1)
  beginSyscall
  let reply ← invokeKernel (.open name flags)
  endSyscall .checkFd reply
  if reply.result ≥ 0 then
    let env ← readEnv
    let scriptFd ← take (getS32 env.result)
    setFds (runSyscallOpen · scriptFd reply.result)

def syscallSendfile (args : List Expression) : Handler Unit := do
  take (checkArgCount args 4)
  let scriptOutfd ← take (s32Arg args 0)
  let liveOutfd ← withFds (toLiveFd · scriptOutfd)
  let scriptInfd ← take (s32Arg args 1)
  let liveInfd ← withFds (toLiveFd · scriptInfd)
  let scriptOffset ← take (s64BracketedArg args 2)
  let count ← take (s32Arg args 3)
  beginSyscall
  let reply ← invokeKernel (.sendfile liveOutfd liveInfd scriptOffset count)
  endSyscall .checkExact reply

def syscallEpollCreate (args : List Expression) : Handler Unit := do
  take (checkArgCount args 1)
  let size ← take (s32Arg args 0)
  beginSyscall
  let reply ← invoke (.epollCreate size)
  endSyscall .checkFd reply
  if reply.result ≥ 0 then
    let env ← readEnv
    let scriptFd ← take (getS32 env.result)
    setFds (runSyscallEpollCreate · scriptFd reply.result)

def syscallEpollCtl (args : List Expression) : Handler Unit := do
  take (checkArgCount args 4)
  let epfdScript ← take (s32Arg args 0)
  let epfdLive ← withFds (toLiveFd · epfdScript)
  let op ← take (s32Arg args 1)
  let scriptFd ← take (s32Arg args 2)
  let liveFd ← withFds (toLiveFd · scriptFd)
  let epollev ← take (getArg args 3)
  -- A script descriptor of -1 would stand for none, but it is not found.
  let (events, data) ← withFds (getEpollEventFromExpr · epollev (some (scriptFd, liveFd)))
  beginSyscall
  let reply ← invoke (.epollCtl epfdLive op liveFd events data)
  endSyscall .checkExact reply

/-- The comparison of the event with that of the script. -/
def checkEpollEvent (env : Env) (events : Int) (data : EpollData) (reply : Reply) :
    Checked Unit :=
  let message (expected actual : String) :=
    s!"epoll_event->data does not match script: expected: {expected} actual: {actual}\n"
  let compare (expected actual : Int) (text : Int → String) : Checked Unit :=
    if expected ≠ actual then .error (message (text expected) (text actual)) else .ok ()
  let events := (events % 4294967296).toNat
  if events ≠ reply.epollEvents then
    .error (s!"epoll_event->events does not match script: expected: 0x{hex events} " ++
      s!"actual: 0x{hex reply.epollEvents}\n")
  else match data with
  | .ptr ptr => compare (ptr % 18446744073709551616) reply.epollData env.pointer
  | .fd fd => compare fd (toInt reply.epollData) toString
  | .u32 u32 => compare (u32 % 4294967296) (reply.epollData % 4294967296 : Nat) toString
  | .u64 u64 => compare (u64 % 18446744073709551616) reply.epollData toString

def syscallEpollWait (args : List Expression) : Handler Unit := do
  take (checkArgCount args 4)
  let epfdScript ← take (s32Arg args 0)
  let epfdLive ← withFds (toLiveFd · epfdScript)
  let epollev ← take (getArg args 1)
  let (events, data) ← withFds (getEpollEventFromExpr · epollev none)
  let maxevents ← take (s32Arg args 2)
  let timeout ← take (s32Arg args 3)
  let env ← readEnv
  expect (env.allocates (maxevents * 12) = true)
    s!"Failed to calloc {maxevents} struct epoll_event\n"
  beginSyscall
  let reply ← invoke (.epollWait epfdLive maxevents timeout)
  endSyscall .checkExact reply
  take (checkEpollEvent env events data reply)

def syscallPipe (args : List Expression) : Handler Unit := do
  take (checkArgCount args 1)
  let pipeExpr ← take (getArg args 0)
  let pipefdScript ← take (getPipeExpression pipeExpr)
  beginSyscall
  let reply ← invoke .pipe
  endSyscall .checkExact reply
  if reply.result ≥ 0 then
    setFds (runSyscallPipe · pipefdScript reply.pipeFds)

/-- The arguments of `splice`, taken one after the other. -/
def spliceArgs (args : List Expression) (fds : List FdState) : Except Stop Call := do
  checked (checkArgCount args 6)
  let fdInLive ← toLiveFd fds (← checked (s32Arg args 0))
  let offIn ← checked (s64Arg args 1)
  let fdOutLive ← toLiveFd fds (← checked (s32Arg args 2))
  let offOut ← checked (s64Arg args 3)
  let len ← checked (s32Arg args 4)
  let flags ← checked (s32Arg args 5)
  return .splice fdInLive offIn fdOutLive offOut len flags

def syscallSplice (args : List Expression) : Handler Unit := do
  let call ← withFds (spliceArgs args)
  let reply ← invoke call
  endSyscall .checkExact reply

end Handler

open Handler in
/-- `system_call_table` -/
def systemCallTable : List (String × (List Expression → Handler Unit)) :=
  [("socket", syscallSocket),
   ("bind", syscallBind),
   ("listen", syscallListen),
   ("accept", syscallAccept),
   ("connect", syscallConnect),
   ("read", syscallRead),
   ("readv", syscallReadv),
   ("recv", syscallRecv),
   ("recvfrom", syscallRecvfrom),
   ("recvmsg", syscallRecvmsg),
   ("write", syscallWrite),
   ("writev", syscallWritev),
   ("send", syscallSend),
   ("sendto", syscallSendto),
   ("sendmsg", syscallSendmsg),
   ("fcntl", syscallFcntl),
   ("ioctl", syscallIoctl),
   ("close", syscallClose),
   ("shutdown", syscallShutdown),
   ("getsockopt", syscallGetsockopt),
   ("setsockopt", syscallSetsockopt),
   ("poll", syscallPoll),
   ("cap_set", syscallCapSet),
   ("open", syscallOpen),
   ("sendfile", syscallSendfile),
   ("epoll_create", syscallEpollCreate),
   ("epoll_ctl", syscallEpollCtl),
   ("epoll_wait", syscallEpollWait),
   ("pipe", syscallPipe),
   ("splice", syscallSplice)]

end QoSMos.Syscall
