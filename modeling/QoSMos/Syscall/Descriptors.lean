import QoSMos.Outbound.Socket
import QoSMos.Packet.InternetChecksum
import QoSMos.Syscall.Expression

/-!
# The descriptors of a script

The list `state->fds`, which maps the descriptors of a script to live ones, and the functions
`run_syscall_*` that the handlers of system calls change it with. `ptr` stands for the address of
an entry: entries are never taken off the list, so its length names the next one.
-/

namespace QoSMos.Syscall

/-- How a handler stops before it returns `STATUS_OK`. The first is `STATUS_ERR`; a deadlock is
`run_lock` on a mutex that the thread holds. -/
inductive Stop where
  | error (message : String)
  | assertionFailed (function expression : String)
  | die (message : String)
  | deadlock
  deriving DecidableEq, Repr

/-- `assert(expression)` -/
def assert (c : Prop) [Decidable c] (function expression : String) : Except Stop Unit :=
  if c then .ok () else .error (.assertionFailed function expression)

/-- A function that only sets an error message, where one that may stop calls it. -/
def checked {α : Type} : Checked α → Except Stop α
  | .ok a => .ok a
  | .error message => .error (.error message)

/-- The local and the remote endpoint of `struct socket_state`; `none` if it was reset. -/
structure Endpoints where
  localEnd : Option Endpoint
  remoteEnd : Option Endpoint
  deriving DecidableEq, Repr

/-- The fields of `struct socket` that the handlers read or set. -/
structure SocketInfo where
  state : SocketStateT
  addressFamily : Int
  type : Int
  protocol : Int
  script : Endpoints
  live : Endpoints
  deriving DecidableEq, Repr

/-- `fd->ops->type`, with what the entry of a socket holds. -/
inductive FdType where
  | socket (socket : SocketInfo)
  | file
  | pipe
  | epoll
  deriving DecidableEq, Repr

/-- `struct fd_state` -/
structure FdState where
  ptr : Nat
  type : FdType
  scriptFd : Int
  liveFd : Int
  isClosed : Bool
  deriving DecidableEq, Repr

/-- The fields of `struct config` that the handlers read. -/
structure Config where
  socketDomain : Int
  wireProtocol : Int
  isWireClient : Bool
  liveBindIp : IpAddress
  liveBindPort : Nat
  liveConnectIp : IpAddress
  liveConnectPort : Nat
  liveLocalIp : IpAddress
  liveRemoteIp : IpAddress

/-! ## Finding an entry -/

/-- The assertions on an entry that was found. -/
def foundFd (function : String) : Option FdState → Except Stop (Option FdState)
  | none => .ok none
  | some fd => do
    assert (fd.liveFd ≥ 0) function "fd->live_fd >= 0"
    assert (fd.scriptFd ≥ 0) function "fd->script_fd >= 0"
    return some fd

def findByScriptFd (fds : List FdState) (scriptFd : Int) : Except Stop (Option FdState) :=
  foundFd "find_by_script_fd" (fds.find? fun fd => !fd.isClosed && decide (fd.scriptFd = scriptFd))

def findByLiveFd (fds : List FdState) (liveFd : Int) : Except Stop (Option FdState) :=
  foundFd "find_by_live_fd" (fds.find? fun fd => !fd.isClosed && decide (fd.liveFd = liveFd))

def toLiveFd (fds : List FdState) (scriptFd : Int) : Except Stop Int := do
  match ← findByScriptFd fds scriptFd with
  | some fd => return fd.liveFd
  | none => .error (.error s!"unable to find fd with script fd {scriptFd}")

def checkDuplicateFd (fds : List FdState) (scriptFd liveFd : Int) : Except Stop Unit := do
  if (← findByScriptFd fds scriptFd).isSome then
    .error (.error s!"duplicate fd {scriptFd} in script")
  else if (← findByLiveFd fds liveFd).isSome then
    .error (.error s!"duplicate live fd {liveFd}")
  else return ()

/-- `fd_to_socket` -/
def fdToSocket : Option FdState → Option SocketInfo
  | some fd => match fd.type with
    | .socket socket => some socket
    | _ => none
  | none => none

/-- An entry is changed through its address. -/
def updateFd (fds : List FdState) (ptr : Nat) (f : FdState → FdState) : List FdState :=
  fds.map fun fd => if fd.ptr = ptr then f fd else fd

/-- `state_add_fd` of a new entry, with the fields that are set after it. -/
def stateAddFd (fds : List FdState) (type : FdType) (scriptFd liveFd : Int) : List FdState :=
  ⟨fds.length, type, scriptFd, liveFd, false⟩ :: fds

/-- The socket that `socket_new` allocates. -/
def socketNew : SocketInfo := ⟨.init, 0, 0, 0, ⟨none, none⟩, ⟨none, none⟩⟩

/-! ## What the calls do to the list -/

def runSyscallOpen (fds : List FdState) (scriptFd liveFd : Int) : Except Stop (List FdState) := do
  checkDuplicateFd fds scriptFd liveFd
  return stateAddFd fds .file scriptFd liveFd

def runSyscallSocket (fds : List FdState) (addressFamily type protocol scriptFd liveFd : Int) :
    Except Stop (List FdState) := do
  if scriptFd < 0 then .error (.error s!"invalid socket fd {scriptFd} in script")
  else if liveFd < 0 then .error (.error s!"invalid live socket fd {liveFd}")
  else
    checkDuplicateFd fds scriptFd liveFd
    return stateAddFd fds (.socket { socketNew with state := .new, addressFamily, type, protocol })
      scriptFd liveFd

def runSyscallClose (fds : List FdState) (scriptFd liveFd : Int) : Except Stop (List FdState) := do
  let message := s!"unable to find fd with script fd {scriptFd} and live fd {liveFd}"
  match ← findByScriptFd fds scriptFd with
  | some fd =>
    if fd.liveFd ≠ liveFd then .error (.error message)
    else return updateFd fds fd.ptr fun fd => { fd with isClosed := true }
  | none => .error (.error message)

/-- An entry gets another socket. -/
def setSocket (fds : List FdState) (ptr : Nat) (socket : SocketInfo) : List FdState :=
  updateFd fds ptr fun fd => { fd with type := .socket socket }

def runSyscallListen (fds : List FdState) (scriptFd liveFd : Int) :
    Except Stop (List FdState) := do
  let fd ← findByScriptFd fds scriptFd
  match fd, fdToSocket fd with
  | some fd, some socket =>
    assert (fd.scriptFd = scriptFd) "run_syscall_listen" "socket->fd.script_fd == script_fd"
    assert (fd.liveFd = liveFd) "run_syscall_listen" "socket->fd.live_fd == live_fd"
    return setSocket fds fd.ptr { socket with state := .passiveListening }
  | _, _ => .error (.error s!"unable to find socket with script fd {scriptFd}")

/-- `ipv4_mapped_prefix` -/
def ipv4MappedPrefix : List UInt8 := [0, 0, 0, 0, 0, 0, 0, 0, 0, 0, 0xff, 0xff]

/-- `ipv6_map_to_ipv4` of an IPv6 address, where it succeeds -/
def ipv6MapToIpv4 (ip : IpAddress) : IpAddress :=
  if ip.addressFamily = .inet6 ∧ ip.bytes.take 12 = ipv4MappedPrefix then
    ⟨.inet, ip.bytes.drop 12 ++ List.replicate 12 0⟩
  else ip

/-- The loop of `run_syscall_accept`: the entry that is to get the accepted descriptors. -/
def findAccepted (peer : Endpoint) : List FdState → Except Stop (Option FdState)
  | [] => .ok none
  | fd :: fds =>
    match fd.type with
    | .socket socket =>
      if socket.state = .passiveSynackSent ∨ socket.state = .passiveSynackAcked then do
        let function := "run_syscall_accept"
        assert (socket.live.remoteEnd.map Endpoint.ip = some peer.ip) function
          "is_equal_ip(&socket->live.remote.ip, &ip)"
        assert (socket.live.remoteEnd.map Endpoint.port = some peer.port) function
          "is_equal_port(socket->live.remote.port, htons(port))"
        return some fd
      else findAccepted peer fds
    | _ => findAccepted peer fds

/-- `AF_INET` or `AF_INET6` -/
def familyNumber : AddressFamily → Int
  | .inet => 2
  | .inet6 => 10

/-- `run_syscall_accept`, with the peer that was read from the address. -/
def runSyscallAccept (config : Config) (fds : List FdState) (scriptAcceptedFd liveAcceptedFd : Int)
    (peer : Endpoint) : Except Stop (List FdState) := do
  let peer := { peer with ip := ipv6MapToIpv4 peer.ip }
  match ← findAccepted peer fds with
  | some fd =>
    return updateFd fds fd.ptr fun fd =>
      { fd with scriptFd := scriptAcceptedFd, liveFd := liveAcceptedFd }
  | none =>
    if ¬ config.isWireClient then
      .error (.error "unable to find socket matching accept() call")
    else
      -- the port goes into a field in network order as it is, which therefore reads swapped
      let live := ⟨some ⟨config.liveLocalIp, config.liveBindPort⟩, some ⟨peer.ip, ntohs peer.port⟩⟩
      return stateAddFd fds
        (.socket { socketNew with addressFamily := familyNumber peer.ip.addressFamily, live })
        scriptAcceptedFd liveAcceptedFd

/-- The family of `struct sockaddr` and what `ip_to_sockaddr` stores. -/
structure SockAddr where
  saFamily : Int
  endpoint : Option Endpoint
  deriving DecidableEq, Repr

/-- `ip_to_sockaddr` -/
def ipToSockaddr (ip : IpAddress) (port : Nat) : SockAddr :=
  ⟨familyNumber ip.addressFamily, some ⟨ip, port⟩⟩

/-- `run_syscall_connect`, with the address it fills in. -/
def runSyscallConnect (config : Config) (fds : List FdState) (scriptFd : Int)
    (mustBeNewSocket : Bool) (saFamily : Int) : Except Stop (SockAddr × List FdState) := do
  let liveAddr :=
    if saFamily ≠ -1 then ⟨saFamily % 65536, none⟩
    else ipToSockaddr config.liveConnectIp config.liveConnectPort
  let fd ← findByScriptFd fds scriptFd
  match fd, fdToSocket fd with
  | some fd, some socket =>
    if liveAddr.saFamily = 0 then
      return (liveAddr, setSocket fds fd.ptr { socket with state := .new })
    else if socket.state ≠ .new then
      if mustBeNewSocket then .error (.error "socket is not new") else return (liveAddr, fds)
    else
      let socket := { socket with
        state := .activeConnecting
        script := ⟨none, none⟩
        live := { socket.live with
          remoteEnd := some ⟨config.liveRemoteIp, config.liveConnectPort⟩ } }
      return (liveAddr, setSocket fds fd.ptr socket)
  | _, _ => .error (.assertionFailed "run_syscall_connect" "socket != NULL")

def runSyscallEpollCreate (fds : List FdState) (epfdScript epfdLive : Int) :
    Except Stop (List FdState) := do
  checkDuplicateFd fds epfdScript epfdLive
  return stateAddFd fds .epoll epfdScript epfdLive

def runSyscallPipe (fds : List FdState) (pfdScript pfdLive : Int × Int) :
    Except Stop (List FdState) := do
  checkDuplicateFd fds pfdScript.1 pfdLive.1
  checkDuplicateFd fds pfdScript.2 pfdLive.2
  return stateAddFd (stateAddFd fds .pipe pfdScript.1 pfdLive.1) .pipe pfdScript.2 pfdLive.2

end QoSMos.Syscall
