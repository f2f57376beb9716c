import QoSMos.Build.ChecksumBuilt
import QoSMos.Build.Lengths
import QoSMos.Outbound.MapPacket
import QoSMos.Syscall.Descriptors

/-!
# The socket of a script packet

`find_or_create_socket_for_script_packet` asks a listening socket and a connecting one, which may
make a socket for the packet, and then whether the socket under test can handle it. A packet with
a port gets the socket under test in the end, and without one the lookup succeeds with `NULL`.
-/

namespace QoSMos

open Returns

/-! ## The program -/

/-- `struct socket`, with the fields that the lookup sets. -/
structure TrackedSocket extends Syscall.SocketInfo where
  scriptFd : Int
  liveFd : Int
  scriptLocalIsn : Nat
  scriptRemoteIsn : Nat
  liveRemoteIsn : Nat
  deriving DecidableEq, Repr

/-- The fields of `struct config` that the lookup reads. -/
structure LookupConfig where
  scriptPath : String
  isWireServer : Bool
  liveRemoteIp : IpAddress
  liveLocalIp : IpAddress
  liveBindPort : UInt16
  liveConnectPort : UInt16
  deriving DecidableEq, Repr

/-- `struct state`. The cached port is `none` where it is -1 in the source, which asserts that it
has 16 bits. -/
structure LookupState where
  config : LookupConfig
  socketUnderTest : Option TrackedSocket
  nextEphemeralPort : Option UInt16
  deriving DecidableEq, Repr

/-- The socket that `socket_new` allocates. -/
def TrackedSocket.new : TrackedSocket where
  toSocketInfo := Syscall.socketNew
  scriptFd := 0
  liveFd := 0
  scriptLocalIsn := 0
  scriptRemoteIsn := 0
  liveRemoteIsn := 0

/-- `packet_ip_protocol` -/
def packetIpProtocol (packet : Packet) : Except Fault Nat :=
  match packet.ipv4, packet.ipv6 with
  | some ipv4, _ => .ok (Ipv4.protocol packet.buffer ipv4)
  | none, some ipv6 => .ok (Ipv6.nextHeader packet.buffer ipv6)
  | none, none => .error (.assertionFailed "packet_ip_protocol" "!\"no valid IP header\"")

section Lookup

variable (ephemeralPort : UInt16)

/-- `next_ephemeral_port`, where `ephemeralPort` is the port that the system would give. -/
def LookupState.takeEphemeralPort (state : LookupState) : UInt16 × LookupState :=
  match state.nextEphemeralPort with
  | some port => (port, { state with nextEphemeralPort := none })
  | none => (ephemeralPort, state)

/-- `match` in `handle_listen_for_script_packet` -/
def listenMatches (state : LookupState) (direction : Direction) : Bool :=
  decide (direction = .inbound) &&
    if state.config.isWireServer then state.socketUnderTest.isNone
    else match state.socketUnderTest with
      | none => true
      | some socket => decide (socket.state = .passiveListening)

/-- `match` in `handle_connect_for_script_packet`, with the TCP header at `tcp`. -/
def connectMatches (state : LookupState) (b : Memory) (tcp : Nat) (direction : Direction) : Bool :=
  decide (direction = .outbound) && Tcp.syn b tcp && !Tcp.ack b tcp &&
    if state.config.isWireServer then state.socketUnderTest.isNone
    else match state.socketUnderTest with
      | none => false
      | some socket => decide (socket.state = .activeConnecting)

/-- The new socket of one of the two handlers. -/
def newScriptSocket (function : String) (packet : FullPacket) : Status TrackedSocket := do
  let socket := TrackedSocket.new
  halting (require (socket.state = .init) function "socket->state == SOCKET_INIT")
  let protocol ← halting (ofFault (packetIpProtocol packet.toPacket))
  let addressFamily := packetAddressFamily packet.toPacket
  return { socket with
    addressFamily := addressFamily
    protocol := protocol
    scriptFd := -1
    liveFd := -1 }

/-- `handle_listen_for_script_packet` of a packet with the TCP header at `tcp`. -/
def handleListenForScriptPacket (state : LookupState) (packet : FullPacket) (tcp : Nat)
    (direction : Direction) : Status (LookupState × Option TrackedSocket) :=
  if listenMatches state direction then do
    let config := state.config
    let socket ← newScriptSocket "handle_listen_for_script_packet" packet
    let tuple ← halting (ofFault (getPacketTuple packet.toPacket))
    let (port, state) := state.takeEphemeralPort ephemeralPort
    let socket := { socket with
      state := .passivePacketReceived
      script := ⟨some tuple.dst, some tuple.src⟩
      scriptRemoteIsn := Tcp.seq packet.buffer tcp
      live := ⟨some ⟨config.liveLocalIp, config.liveBindPort.toNat⟩,
        some ⟨config.liveRemoteIp, port.toNat⟩⟩
      liveRemoteIsn := Tcp.seq packet.buffer tcp }
    return ({ state with socketUnderTest := some socket }, some socket)
  else return (state, none)

/-- `handle_connect_for_script_packet` of a packet with the TCP header at `tcp`. -/
def handleConnectForScriptPacket (state : LookupState) (packet : FullPacket) (tcp : Nat)
    (direction : Direction) : Status (LookupState × Option TrackedSocket) :=
  if connectMatches state packet.buffer tcp direction then do
    let config := state.config
    let socket ← match state.socketUnderTest with
      | some socket => pure socket
      | none => do
        let socket ← newScriptSocket "handle_connect_for_script_packet" packet
        pure { socket with
          live := ⟨none, some ⟨config.liveRemoteIp, config.liveConnectPort.toNat⟩⟩ }
    let tuple ← halting (ofFault (getPacketTuple packet.toPacket))
    let socket := { socket with
      state := .activeSynSent
      script := ⟨some tuple.src, some tuple.dst⟩
      scriptLocalIsn := Tcp.seq packet.buffer tcp }
    return ({ state with socketUnderTest := some socket }, some socket)
  else return (state, none)

/-- `is_script_packet_match_for_socket` -/
def isScriptPacketMatchForSocket (packet : Packet) (socket : TrackedSocket) : Except Fault Bool :=
  let isPacketIcmp := packet.icmpv4.isSome || packet.icmpv6.isSome
  if socket.protocol = IPPROTO_TCP then .ok (packet.tcp.isSome || isPacketIcmp)
  else if socket.protocol = IPPROTO_UDP then .ok (packet.udp.isSome || isPacketIcmp)
  else if socket.protocol = IPPROTO_ICMP then .ok packet.icmpv4.isSome
  else if socket.protocol = IPPROTO_ICMPV6 then .ok packet.icmpv6.isSome
  else .error (.assertionFailed "is_script_packet_match_for_socket"
    "!\"unsupported layer 4 protocol in socket\"")

/-- A header with a port. -/
def hasPort (b : Memory) : Option Nat → Bool
  | some p => decide (Ports.src b p ≠ 0) || decide (Ports.dst b p ≠ 0)
  | none => false

/-- The first part of `find_or_create_socket_for_script_packet`, for a TCP packet. -/
def askHandlers (state : LookupState) (packet : FullPacket) (direction : Direction) :
    Status (LookupState × Option TrackedSocket) :=
  match packet.tcp with
  | none => return (state, none)
  | some tcp => do
    let (state, socket) ← handleListenForScriptPacket ephemeralPort state packet tcp direction
    if socket ≠ none then return (state, socket)
    else handleConnectForScriptPacket state packet tcp direction

/-- The end of `find_or_create_socket_for_script_packet`, for a packet with a foreign port. -/
def socketForForeignPort (state : LookupState) (packet : FullPacket) :
    Status (Option TrackedSocket) :=
  if hasPort packet.buffer packet.tcp then return state.socketUnderTest
  else if hasPort packet.buffer packet.udp then return state.socketUnderTest
  else .error (.error "no matching socket for script packet")

/-- `find_or_create_socket_for_script_packet`. `STATUS_OK` comes with what `*socket` is set to. -/
def findOrCreateSocketForScriptPacket (state : LookupState) (packet : FullPacket)
    (direction : Direction) : Status (LookupState × Option TrackedSocket) := do
  let (state, socket) ← askHandlers ephemeralPort state packet direction
  if socket ≠ none then return (state, socket)
  else
    match state.socketUnderTest with
    | some underTest =>
      if ← halting (ofFault (isScriptPacketMatchForSocket packet.toPacket underTest)) then
        return (state, some underTest)
      else return (state, ← socketForForeignPort state packet)
    | none => return (state, ← socketForForeignPort state packet)

/-- The part of `run_packet_event` in front of the use of the socket. -/
def runPacketEventSocket (lineNumber : Nat) (state : LookupState) (packet : FullPacket) :
    Status (LookupState × TrackedSocket) := do
  let direction := packet.direction
  halting (require (direction ≠ .invalid) "run_packet_event" "direction != DIRECTION_INVALID")
  match findOrCreateSocketForScriptPacket ephemeralPort state packet direction with
  | .ok (state, some socket) => return (state, socket)
  | .ok (_, none) =>
    .error (.halt (.fault (.assertionFailed "run_packet_event" "socket != NULL")))
  | .error (.error err) => .error (.error
    (s!"{state.config.scriptPath}:{lineNumber}: error handling packet: {err}" ++ "\n"))
  | .error (.halt halt) => .error (.halt halt)

end Lookup

/-! ## Script packets -/

/-- A packet of one of the three builders, alone or behind outer headers. -/
def IsScriptPacket (packet : FullPacket) : Prop :=
  ∃ heap call inner, BuilderCall.run heap call = .ok (.ok inner) ∧ Enclosing inner packet

def Packet.HasIp (packet : Packet) : Prop := packet.ipv4 ≠ none ∨ packet.ipv6 ≠ none

section Packets

variable {packet inner outer : FullPacket} {heap : Memory}

theorem IpDeclares.hasIp {addressFamily : Int} (h : IpDeclares packet addressFamily) :
    packet.HasIp := by
  by_cases hfamily : addressFamily = AF_INET
  · left
    simp [h.ipv4, hfamily]
  · right
    simp [h.ipv6, hfamily]

theorem BuilderCall.hasIp {call : BuilderCall} (hok : call.run heap = .ok (.ok packet)) :
    packet.HasIp := by
  cases call with
  | tcp args =>
    have hb := newTcpPacket_built hok
    exact (hb.built.ipDeclares hb.family).hasIp
  | udp args =>
    have hb := newUdpPacket_built hok
    exact (hb.built.ipDeclares hb.family).hasIp
  | icmp args => exact (newIcmpPacket_built hok).ipDeclares.hasIp

theorem HasIp.offset {packet old : Packet} {n : Nat} (h4 : packet.ipv4 = offsetPtr n old.ipv4)
    (h6 : packet.ipv6 = offsetPtr n old.ipv6) (hip : old.HasIp) : packet.HasIp := by
  rcases hip with hip | hip
  · left
    simpa [h4, offsetPtr] using hip
  · right
    simpa [h6, offsetPtr] using hip

/-- The innermost IP header stays the innermost one. -/
theorem packetEncapsulate_hasIp (hok : packetEncapsulate heap outer inner = .ok packet)
    (hip : inner.HasIp) : packet.HasIp := by
  obtain ⟨-, -, hok⟩ := bind_eq_ok_iff.mp hok
  obtain ⟨copy, hcopy, hok⟩ := bind_eq_ok_iff.mp hok
  obtain ⟨-, -, hok⟩ := bind_eq_ok_iff.mp hok
  obtain ⟨finished, hfinish, hok⟩ := bind_eq_ok_iff.mp hok
  obtain rfl := Except.ok.inj hok
  obtain ⟨pair, -, hfinish⟩ := bind_eq_ok_iff.mp hfinish
  obtain rfl := Except.ok.inj hfinish
  obtain ⟨n, -, hcopy⟩ := bind_eq_ok_iff.mp hcopy
  obtain ⟨-, -, hcopy⟩ := bind_eq_ok_iff.mp hcopy
  obtain ⟨-, -, hcopy⟩ := bind_eq_ok_iff.mp hcopy
  obtain rfl := Except.ok.inj hcopy
  exact HasIp.offset rfl rfl hip

theorem IsScriptPacket.hasIp (hp : IsScriptPacket packet) : packet.HasIp := by
  obtain ⟨heap, call, inner, hrun, henclosing⟩ := hp
  have hip := BuilderCall.hasIp hrun
  cases henclosing with
  | alone => exact hip
  | encapsulated _ hok => exact packetEncapsulate_hasIp hok hip

end Packets

/-! ## What the lookup returns -/

/-- One of the two handlers takes the packet. -/
def Handled (state : LookupState) (packet : FullPacket) (direction : Direction) : Prop :=
  ∃ tcp, packet.tcp = some tcp ∧
    (listenMatches state direction = true ∨
      connectMatches state packet.buffer tcp direction = true)

/-- A socket of a protocol that the lookup knows. -/
def TrackedSocket.Supported (socket : TrackedSocket) : Prop :=
  socket.protocol ∈ ([IPPROTO_TCP, IPPROTO_UDP, IPPROTO_ICMP, IPPROTO_ICMPV6] : List Int)

/-- A handler takes the packet, or the socket under test has a protocol that the lookup knows, or
there is none and the packet has no port. -/
def SocketExpected (state : LookupState) (packet : FullPacket) (direction : Direction) : Prop :=
  Handled state packet direction ∨
    match state.socketUnderTest with
    | some socket => socket.Supported
    | none => hasPort packet.buffer packet.tcp = false ∧ hasPort packet.buffer packet.udp = false

/-- `STATUS_OK` comes with a socket and `STATUS_ERR` with a message, and no assertion fails. -/
def Answers (result : Status (LookupState × Option TrackedSocket)) : Prop :=
  (∃ state socket, result = .ok (state, some socket)) ∨ ∃ message, result = .error (.error message)

/-- The lookup answers, and `run_packet_event` may rely on the socket. -/
structure LookupAnswers (ephemeralPort : UInt16) (state : LookupState) (packet : FullPacket)
    (direction : Direction) : Prop where
  answers : Answers (findOrCreateSocketForScriptPacket ephemeralPort state packet direction)
  asserted : packet.direction = direction → ∀ lineNumber,
    runPacketEventSocket ephemeralPort lineNumber state packet ≠
      .error (.halt (.fault (.assertionFailed "run_packet_event" "socket != NULL")))

section Law

variable {ephemeralPort : UInt16} {state : LookupState} {packet : FullPacket}
  {direction : Direction} {socket : TrackedSocket} {tcp : Nat}

theorem packetIpProtocol_of_hasIp {packet : Packet} (hip : packet.HasIp) :
    ∃ protocol, packetIpProtocol packet = .ok protocol := by
  cases h4 : packet.ipv4 with
  | some ipv4 => simp [packetIpProtocol, h4]
  | none =>
    cases h6 : packet.ipv6 with
    | some ipv6 => simp [packetIpProtocol, h4, h6]
    | none => simp [Packet.HasIp, h4, h6] at hip

theorem getPacketTuple_of_hasIp {packet : Packet} (hip : packet.HasIp) :
    ∃ tuple, getPacketTuple packet = .ok tuple := by
  have hfields : ∃ f, packet.tupleFields = some f := by
    cases h4 : packet.ipv4 with
    | some ipv4 => simp [Packet.tupleFields, headersFields, h4]
    | none =>
      cases h6 : packet.ipv6 with
      | some ipv6 => simp [Packet.tupleFields, headersFields, h4, h6]
      | none => simp [Packet.HasIp, h4, h6] at hip
  obtain ⟨f, hf⟩ := hfields
  exact ⟨_, getPacketTuple_eq hf⟩

theorem newScriptSocket_of_hasIp (function : String) (hip : packet.HasIp) :
    ∃ socket, newScriptSocket function packet = .ok socket := by
  obtain ⟨protocol, hprotocol⟩ := packetIpProtocol_of_hasIp hip
  simp only [newScriptSocket, hprotocol]
  exact ⟨_, rfl⟩

/-- A listening socket that takes the packet makes one for it. -/
theorem handleListenForScriptPacket_of_matches (ephemeralPort : UInt16) (tcp : Nat)
    (hip : packet.HasIp) (hmatch : listenMatches state direction = true) :
    ∃ state' socket, handleListenForScriptPacket ephemeralPort state packet tcp direction =
      .ok (state', some socket) := by
  obtain ⟨socket, hsocket⟩ :=
    newScriptSocket_of_hasIp "handle_listen_for_script_packet" hip
  obtain ⟨tuple, htuple⟩ := getPacketTuple_of_hasIp hip
  simp only [handleListenForScriptPacket, hmatch, hsocket, htuple, if_true]
  exact ⟨_, _, rfl⟩

theorem handleListenForScriptPacket_of_not (hmatch : listenMatches state direction = false) :
    handleListenForScriptPacket ephemeralPort state packet tcp direction = .ok (state, none) := by
  simp [handleListenForScriptPacket, hmatch, pure, Except.pure]

theorem handleConnectForScriptPacket_of_not
    (hmatch : connectMatches state packet.buffer tcp direction = false) :
    handleConnectForScriptPacket state packet tcp direction = .ok (state, none) := by
  simp [handleConnectForScriptPacket, hmatch, pure, Except.pure]

/-- A connecting socket that takes the packet is the one for it, or a new one on a wire server. -/
theorem handleConnectForScriptPacket_of_matches (hip : packet.HasIp)
    (hmatch : connectMatches state packet.buffer tcp direction = true) : ∃ state' socket,
    handleConnectForScriptPacket state packet tcp direction = .ok (state', some socket) := by
  obtain ⟨socket, hsocket⟩ :=
    newScriptSocket_of_hasIp "handle_connect_for_script_packet" hip
  obtain ⟨tuple, htuple⟩ := getPacketTuple_of_hasIp hip
  simp only [handleConnectForScriptPacket, hmatch, hsocket, htuple, if_true]
  cases state.socketUnderTest with
  | none => exact ⟨_, _, rfl⟩
  | some underTest => exact ⟨_, _, rfl⟩

theorem askHandlers_of_handled (ephemeralPort : UInt16) (hip : packet.HasIp)
    (hh : Handled state packet direction) :
    ∃ state' socket,
      askHandlers ephemeralPort state packet direction = .ok (state', some socket) := by
  obtain ⟨tcp, htcp, hmatch⟩ := hh
  simp only [askHandlers, htcp]
  cases hlisten : listenMatches state direction with
  | true =>
    obtain ⟨state', socket, hok⟩ :=
      handleListenForScriptPacket_of_matches ephemeralPort tcp hip hlisten
    exact ⟨state', socket, by rw [hok]; rfl⟩
  | false =>
    obtain ⟨state', socket, hok⟩ := handleConnectForScriptPacket_of_matches hip
      (hmatch.resolve_left (by simp [hlisten]))
    refine ⟨state', socket, ?_⟩
    rw [handleListenForScriptPacket_of_not hlisten]
    exact hok

/-- Where neither takes the packet, nothing happens. -/
theorem askHandlers_of_not_handled (ephemeralPort : UInt16)
    (hh : ¬ Handled state packet direction) :
    askHandlers ephemeralPort state packet direction = .ok (state, none) := by
  cases htcp : packet.tcp with
  | none => simp only [askHandlers, htcp]; rfl
  | some tcp =>
    have hlisten : listenMatches state direction = false := by
      by_contra h
      exact hh ⟨tcp, htcp, .inl (by simpa using h)⟩
    have hconnect : connectMatches state packet.buffer tcp direction = false := by
      by_contra h
      exact hh ⟨tcp, htcp, .inr (by simpa using h)⟩
    simp only [askHandlers, htcp, handleListenForScriptPacket_of_not hlisten]
    exact handleConnectForScriptPacket_of_not hconnect

/-- The protocols decide whether the comparison with a socket asserts. -/
theorem isScriptPacketMatchForSocket_ok_iff (packet : Packet) :
    (∃ b, isScriptPacketMatchForSocket packet socket = .ok b) ↔ socket.Supported := by
  unfold isScriptPacketMatchForSocket TrackedSocket.Supported
  dsimp only
  split_ifs <;> simp_all

/-- With a socket, a foreign port finds it. -/
theorem answers_socketForForeignPort_some (packet : FullPacket)
    (hsocket : state.socketUnderTest = some socket) :
    (∃ found, socketForForeignPort state packet = .ok (some found)) ∨
      ∃ message, socketForForeignPort state packet = .error (.error message) := by
  unfold socketForForeignPort
  split_ifs
  · exact .inl ⟨socket, congrArg Except.ok hsocket⟩
  · exact .inl ⟨socket, congrArg Except.ok hsocket⟩
  · exact .inr ⟨_, rfl⟩

theorem findOrCreateSocketForScriptPacket_of_handled (hip : packet.HasIp)
    (hh : Handled state packet direction) : ∃ state' socket,
    findOrCreateSocketForScriptPacket ephemeralPort state packet direction =
      .ok (state', some socket) := by
  obtain ⟨state', socket, hok⟩ := askHandlers_of_handled ephemeralPort hip hh
  refine ⟨state', socket, ?_⟩
  simp only [findOrCreateSocketForScriptPacket, hok]
  rfl

/-- With a socket under test, only its protocol can stop the lookup. -/
theorem answers_of_socket (hh : ¬ Handled state packet direction)
    (hsocket : state.socketUnderTest = some socket) :
    Answers (findOrCreateSocketForScriptPacket ephemeralPort state packet direction) ↔
      socket.Supported := by
  have hask := askHandlers_of_not_handled ephemeralPort hh
  simp only [findOrCreateSocketForScriptPacket, hask, bind, Except.bind, hsocket]
  cases hmatch : isScriptPacketMatchForSocket packet.toPacket socket with
  | error fault =>
    have hnot : ¬ socket.Supported := by
      intro hsupported
      obtain ⟨b, hb⟩ := (isScriptPacketMatchForSocket_ok_iff packet.toPacket).mpr hsupported
      cases hmatch.symm.trans hb
    simp [Answers, ofFault, halting, hnot]
  | ok b =>
    have hsupported : socket.Supported := (isScriptPacketMatchForSocket_ok_iff _).mp ⟨b, hmatch⟩
    refine iff_of_true ?_ hsupported
    cases b with
    | true => exact .inl ⟨state, socket, rfl⟩
    | false =>
      rcases answers_socketForForeignPort_some packet hsocket with
        ⟨found, hport⟩ | ⟨message, hport⟩
      · exact .inl ⟨state, found, by simp [hport, ofFault, halting, pure, Except.pure]⟩
      · exact .inr ⟨message, by simp [hport, ofFault, halting]⟩

/-- Without one, a port makes it return `NULL`. -/
theorem answers_of_no_socket (hh : ¬ Handled state packet direction)
    (hsocket : state.socketUnderTest = none) :
    Answers (findOrCreateSocketForScriptPacket ephemeralPort state packet direction) ↔
      hasPort packet.buffer packet.tcp = false ∧ hasPort packet.buffer packet.udp = false := by
  have hask := askHandlers_of_not_handled ephemeralPort hh
  simp only [findOrCreateSocketForScriptPacket, hask, bind, Except.bind, hsocket]
  cases htcp : hasPort packet.buffer packet.tcp <;>
    cases hudp : hasPort packet.buffer packet.udp <;>
    simp [Answers, socketForForeignPort, htcp, hudp, hsocket, pure, Except.pure]

theorem answers_iff (hip : packet.HasIp) :
    Answers (findOrCreateSocketForScriptPacket ephemeralPort state packet direction) ↔
      SocketExpected state packet direction := by
  by_cases hh : Handled state packet direction
  · exact iff_of_true (.inl (findOrCreateSocketForScriptPacket_of_handled hip hh)) (.inl hh)
  · simp only [SocketExpected, hh, false_or]
    cases hsocket : state.socketUnderTest with
    | some socket => exact answers_of_socket hh hsocket
    | none => exact answers_of_no_socket hh hsocket

/-- A lookup that answers leaves the assertion of `run_packet_event` nothing to fail on. -/
theorem Answers.asserted (ha : Answers
    (findOrCreateSocketForScriptPacket ephemeralPort state packet packet.direction))
    (lineNumber : Nat) : runPacketEventSocket ephemeralPort lineNumber state packet ≠
      .error (.halt (.fault (.assertionFailed "run_packet_event" "socket != NULL"))) := by
  intro hfail
  by_cases hdirection : packet.direction = .invalid
  · simp [runPacketEventSocket, hdirection, require, halting, bind, Except.bind] at hfail
  · simp only [runPacketEventSocket, require, halting, bind, Except.bind, ne_eq, hdirection,
      not_false_iff, if_true] at hfail
    rcases ha with ⟨state', socket, hok⟩ | ⟨message, herror⟩
    · simp [hok, pure, Except.pure] at hfail
    · simp [herror] at hfail

/-- For every state, direction and script packet, the lookup answers exactly if one of its
handlers takes the packet, or it knows the protocol of the socket under test, or there is none
and the packet has no port. -/
theorem lookupAnswers_iff (hp : IsScriptPacket packet) :
    LookupAnswers ephemeralPort state packet direction ↔
      SocketExpected state packet direction := by
  constructor
  · intro h
    exact (answers_iff hp.hasIp).mp h.answers
  · intro h
    refine ⟨(answers_iff hp.hasIp).mpr h, ?_⟩
    rintro rfl
    exact ((answers_iff hp.hasIp).mpr h).asserted

/-- A run before its first event. -/
def firstState (isWireServer : Bool) : LookupState where
  config := ⟨"first.pkt", isWireServer, ⟨.inet, [192, 0, 2, 1] ++ List.replicate 12 0⟩,
    ⟨.inet, [192, 168, 0, 1] ++ List.replicate 12 0⟩, 8080, 8080⟩
  socketUnderTest := none
  nextEphemeralPort := some 40000

theorem isScriptPacket_syn {heap : Memory} (hnew : newTcpPacket heap synArgs = .ok (.ok packet)) :
    IsScriptPacket packet :=
  ⟨heap, .tcp synArgs, packet, hnew, .alone⟩

/-- A wire server makes a socket for an outbound SYN. -/
theorem lookupAnswers_wireServer : ∃ packet,
    newTcpPacket (fun _ => 0) synArgs = .ok (.ok packet) ∧
      LookupAnswers 40000 (firstState true) packet .outbound := by
  obtain ⟨packet, hnew, htcp, hmatch⟩ : ∃ packet,
      newTcpPacket (fun _ => 0) synArgs = .ok (.ok packet) ∧ packet.tcp = some 40 ∧
        connectMatches (firstState true) packet.buffer 40 .outbound = true := ⟨_, rfl, rfl, rfl⟩
  refine ⟨packet, hnew, (lookupAnswers_iff (isScriptPacket_syn hnew)).mpr ?_⟩
  exact .inl ⟨40, htcp, .inr hmatch⟩

/-- Elsewhere the lookup succeeds without a socket for it. -/
theorem not_forall_lookupAnswers : ¬ ∀ ephemeralPort state packet direction,
    IsScriptPacket packet → LookupAnswers ephemeralPort state packet direction := by
  intro h
  obtain ⟨packet, hnew, hfound⟩ : ∃ packet,
      newTcpPacket (fun _ => 0) synArgs = .ok (.ok packet) ∧
        findOrCreateSocketForScriptPacket 40000 (firstState false) packet .outbound =
          .ok (firstState false, none) := ⟨_, rfl, rfl⟩
  rcases (h 40000 (firstState false) packet .outbound (isScriptPacket_syn hnew)).answers with
    ⟨state, socket, hok⟩ | ⟨message, herror⟩
  · cases hfound.symm.trans hok
  · cases hfound.symm.trans herror

end Law

end QoSMos
