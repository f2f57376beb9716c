import QoSMos.Packet.Write

/-!
# The wire client and the wire server

Remote testing runs a script twice: `run_script` on the client executes its system calls, commands
and code, `wire_server_run_script` on the server its packets. They agree on the time by messages:
`WIRE_PACKETS_START` before a block of packet events and `WIRE_PACKETS_DONE` after it.

`clientStep` and `serverStep` are these two loops with the hooks they call, `wire_client_next_event`
and `wire_server_next_event`; between them are two queues of messages. What a step cannot know,
such as what becomes of an event, is part of its label.
-/

namespace QoSMos.Wire

/-! ## Scripts -/

/-- `enum event_t`, whose first value `INVALID_EVENT` no event has. -/
inductive EventT where
  | packet | syscall | command | code
  deriving DecidableEq, Repr

/-- `enum event_time_t` -/
inductive EventTimeT where
  | absolute | relative | any | absoluteRange | relativeRange
  deriving DecidableEq, Repr

structure Event where
  lineNumber : Nat
  timeUsecs : Int
  timeType : EventTimeT
  type : EventT
  deriving DecidableEq, Repr

structure Script where
  scriptPath : String
  eventList : List Event

def isEventTimeAbsolute (event : Event) : Bool :=
  event.timeType = .absolute ∨ event.timeType = .absoluteRange

/-- `state->event`, a pointer into the list, and `state->last_event`. -/
structure Cursor where
  event : List Event
  lastEvent : Option Event

/-- Why a script does not go on: an error message, or a null pointer. -/
inductive Stop where
  | error (text : String)
  | crash
  deriving DecidableEq, Repr

/-- `adjust_relative_event_times` changes no time that is read here. -/
def getNextEvent (script : Script) (state : Cursor) : Except Stop Cursor :=
  match state.event with
  | [] =>
    match script.eventList with
    | [] => .error .crash
    | first :: next =>
      if first.timeUsecs ≠ 0 then
        .error (.error (script.scriptPath ++ ":" ++ toString first.lineNumber ++
          ": first event should be at time 0\n"))
      else .ok { state with event := first :: next }
  | last :: [] => .ok { event := [], lastEvent := some last }
  | last :: event :: next =>
    if isEventTimeAbsolute last ∧ isEventTimeAbsolute event ∧ event.timeUsecs < last.timeUsecs then
      .error (.error (script.scriptPath ++ ":" ++ toString event.lineNumber ++
        ": time goes backward in script from " ++ toString last.timeUsecs ++ " usec to " ++
        toString event.timeUsecs ++ " usec\n"))
    else .ok { event := event :: next, lastEvent := some last }

/-! ## Messages -/

/-- `enum wire_op_t` -/
inductive WireOpT where
  | invalid | commandLineArgs | scriptPath | script | hardwareAddr | serverReady | clientStarting
  | packetsStart | packetsWarn | packetsDone
  deriving DecidableEq, Repr

/-- What `wire_conn_write` sends and `wire_conn_read` returns. -/
structure Message where
  op : WireOpT
  buf : List UInt8
  deriving DecidableEq, Repr

/-- A string of C, without its terminator. -/
abbrev CString := { bytes : List UInt8 // 0 ∉ bytes }

def CString.empty : CString := ⟨[], List.not_mem_nil⟩

def STATUS_OK : Nat := 0
/-- `STATUS_ERR` is -1, as an unsigned number. -/
def STATUS_ERR : Nat := 4294967295

/-- An `int` as an unsigned number. -/
def u32 (n : Nat) : Nat := n % 4294967296

/-- `wire_client_send_packets_start` -/
def packetsStart (numEvents : Nat) : Message :=
  { op := .packetsStart, buf := be32 numEvents }

/-- `wire_server_send_packet_warning` -/
def packetsWarn (warning : CString) : Message :=
  { op := .packetsWarn, buf := warning }

/-- `wire_server_send_packets_done` -/
def packetsDone (result numEvents : Nat) (error : CString) : Message :=
  { op := .packetsDone, buf := be32 result ++ be32 numEvents ++ error.val ++ [0] }

/-- Why the client dies: an error in the script, an event of its own, the connection, or the
message of the server. -/
inductive Death where
  | script (stop : Stop)
  | event
  | wire (text : String)
  | server (message : List UInt8)
  deriving DecidableEq, Repr

def wireClientDie (message : String) : Death :=
  .wire ("error in TCP connection to wire server: " ++ message ++ "\n")

/-- What a message is to `wire_client_receive_packets_done`. -/
inductive Received where
  | done
  | warning (text : List UInt8)
  | die (death : Death)
  deriving DecidableEq, Repr

/-- A turn of the loop of `wire_client_receive_packets_done`, and what follows it. -/
def receivePacketsDone (numEvents : Nat) (message : Message) : Received :=
  if message.op = .packetsDone then
    let buf := Memory.ofList message.buf
    if message.buf.length < 8 + 1 then
      .die (wireClientDie "bad wire server: bad WIRE_PACKETS_DONE len")
    else if buf (message.buf.length - 1) ≠ 0 then
      .die (wireClientDie "bad wire server: missing string terminator")
    else if be32At buf 0 = STATUS_ERR then
      .die (.server ((message.buf.drop 8).takeWhile (· ≠ 0)))
    else if be32At buf 4 ≠ u32 numEvents then
      .die (wireClientDie ("bad wire server: bad message count: got: " ++
        toString (be32At buf 4) ++ " vs expected: " ++ toString numEvents))
    else .done
  else if message.op = .packetsWarn then .warning message.buf
  else
    .die (wireClientDie "bad wire server: expected WIRE_PACKETS_DONE or WIRE_PACKETS_WARN")

/-- `wire_server_receive_packets_start` of a message; an error is printed. -/
def receivePacketsStart (numEvents : Nat) (message : Message) : Except String Unit :=
  let buf := Memory.ofList message.buf
  if message.op ≠ .packetsStart then
    .error "bad wire client: expected WIRE_PACKETS_START\n"
  else if message.buf.length ≠ 4 then
    .error "bad wire client: bad WIRE_PACKETS_START length\n"
  else if be32At buf 0 ≠ u32 numEvents then
    .error ("bad client event count; expected " ++ toString numEvents ++ " but got " ++
      toString (be32At buf 0))
  else .ok ()

/-! ## The two parties -/

inductive ClientPc where
  | getNext | hook | receiving | run | returned
  | died (death : Death)
  deriving DecidableEq, Repr

structure Client where
  pc : ClientPc
  state : Cursor
  /-- `none` is `INVALID_EVENT`. -/
  lastEventType : Option EventT
  numEvents : Nat
  /-- The warnings that it has printed. -/
  printed : List (List UInt8)

/-- Why the server's thread ends before it is done: an error in the script, a packet event that
fails with a message, an event that ends the process, a bad message, or the connection. -/
inductive Failure where
  | script (stop : Stop)
  | event (error : CString)
  | process
  | start (error : String)
  | connection
  deriving DecidableEq

inductive ServerPc where
  | getNext | hook | receiving | run | returned
  | failed (failure : Failure)
  deriving DecidableEq

structure Server where
  pc : ServerPc
  state : Cursor
  lastEventType : Option EventT
  numEvents : Nat

/-- What the parties do in view of the script. An entry has the event count of the party that
makes it; an event is counted when it is run. -/
inductive Entry where
  | startSent (numEvents : Nat)
  | startReceived (numEvents : Nat)
  | packet (numEvents : Nat)
  | doneSent (numEvents : Nat)
  | doneReceived (numEvents : Nat)
  | ran (numEvents : Nat)
  deriving DecidableEq, Repr

structure State where
  client : Client
  server : Server
  toServer : List Message
  toClient : List Message
  log : List Entry

/-- The connection is closed at the client's end. -/
def Client.ended (c : Client) : Bool :=
  match c.pc with
  | .returned | .died _ => true
  | _ => false

def Server.ended (s : Server) : Bool :=
  match s.pc with
  | .returned | .failed _ => true
  | _ => false

/-- What `run_packet_event` returns; or it ends the process. -/
inductive PacketResult where
  | ok
  | warn (error : CString)
  | err (error : CString)
  | die

/-- A step of the client, whose own event may fail, or of the server. A message to a party that
has ended may be refused. -/
inductive Act where
  | client (fails refused : Bool)
  | server (result : PacketResult) (refused : Bool)

/-- `event->type == PACKET_EVENT`, of an event that is not `NULL`. -/
def Cursor.isPacket (state : Cursor) : Bool :=
  match state.event with
  | [] => false
  | event :: _ => event.type = .packet

/-! ## Steps of the client -/

def Client.die (c : Client) (death : Death) : Client := { c with pc := .died death }

/-- The end of `wire_client_next_event`; `run_script` then runs the event, or is done. -/
def Client.moveOn (c : Client) : Client :=
  match c.state.event with
  | [] => { c with pc := .returned }
  | event :: _ =>
    { c with pc := .run, lastEventType := some event.type, numEvents := c.numEvents + 1 }

def clientStep (script : Script) (s : State) (fails refused : Bool) : Option State :=
  let c := s.client
  match c.pc with
  | .getNext =>
    match getNextEvent script c.state with
    | .error stop => some { s with client := c.die (.script stop) }
    | .ok state => some { s with client := { c with state := state, pc := .hook } }
  | .hook =>
    if c.state.isPacket ∧ c.lastEventType ≠ some .packet then
      if refused ∧ s.server.ended then
        some { s with client := c.die (wireClientDie "error sending WIRE_PACKETS_START") }
      else
        some { s with
          client := c.moveOn
          toServer := s.toServer ++ [packetsStart c.numEvents]
          log := s.log ++ [.startSent c.numEvents] }
    else if ¬ c.state.isPacket ∧ c.lastEventType = some .packet then
      some { s with client := { c with pc := .receiving } }
    else some { s with client := c.moveOn }
  | .receiving =>
    match s.toClient with
    | [] =>
      if s.server.ended then some { s with client := c.die (wireClientDie "error reading") }
      else none
    | message :: rest =>
      match receivePacketsDone c.numEvents message with
      | .done =>
        some { s with
          client := c.moveOn
          toClient := rest
          log := s.log ++ [.doneReceived c.numEvents] }
      | .warning text =>
        some { s with client := { c with printed := c.printed ++ [text] }, toClient := rest }
      | .die death => some { s with client := c.die death, toClient := rest }
  | .run =>
    -- For wire clients, the server handles packets.
    if c.state.isPacket then some { s with client := { c with pc := .getNext } }
    else
      some { s with
        client := if fails then c.die .event else { c with pc := .getNext }
        log := s.log ++ [.ran c.numEvents] }
  | .returned | .died _ => none

/-! ## Steps of the server -/

def Server.fail (v : Server) (failure : Failure) : Server := { v with pc := .failed failure }

/-- The end of `wire_server_next_event`; `wire_server_run_script` then runs the event, or is
done. -/
def Server.moveOn (v : Server) : Server :=
  match v.state.event with
  | [] => { v with pc := .returned }
  | event :: _ =>
    { v with pc := .run, lastEventType := some event.type, numEvents := v.numEvents + 1 }

/-- `wire_server_run_packet_event` of an event that has been executed. -/
def runPacketEvent (s : State) (result : PacketResult) (refused : Bool) : State :=
  let v := s.server
  match result with
  | .ok => { s with server := { v with pc := .getNext } }
  | .warn error =>
    if refused ∧ s.client.ended then { s with server := v.fail .connection }
    else
      { s with
        server := { v with pc := .getNext }
        toClient := s.toClient ++ [packetsWarn error] }
  | .err error =>
    if refused ∧ s.client.ended then { s with server := v.fail (.event error) }
    else
      { s with
        server := v.fail (.event error)
        toClient := s.toClient ++ [packetsDone STATUS_ERR v.numEvents error] }
  | .die => { s with server := v.fail .process }

def serverStep (script : Script) (s : State) (result : PacketResult) (refused : Bool) :
    Option State :=
  let v := s.server
  match v.pc with
  | .getNext =>
    match getNextEvent script v.state with
    | .error stop => some { s with server := v.fail (.script stop) }
    | .ok state => some { s with server := { v with state := state, pc := .hook } }
  | .hook =>
    if v.state.isPacket ∧ v.lastEventType ≠ some .packet then
      some { s with server := { v with pc := .receiving } }
    else if ¬ v.state.isPacket ∧ v.lastEventType = some .packet then
      if refused ∧ s.client.ended then
        -- Behind the last event the error is ignored.
        some { s with server := if v.state.event = [] then v.moveOn else v.fail .connection }
      else
        some { s with
          server := v.moveOn
          toClient := s.toClient ++ [packetsDone STATUS_OK v.numEvents CString.empty]
          log := s.log ++ [.doneSent v.numEvents] }
    else some { s with server := v.moveOn }
  | .receiving =>
    match s.toServer with
    | [] => if s.client.ended then some { s with server := v.fail .connection } else none
    | message :: rest =>
      match receivePacketsStart v.numEvents message with
      | .error text => some { s with server := v.fail (.start text), toServer := rest }
      | .ok () =>
        some { s with
          server := v.moveOn
          toServer := rest
          log := s.log ++ [.startReceived v.numEvents] }
  | .run =>
    if v.state.isPacket then
      some (runPacketEvent { s with log := s.log ++ [.packet v.numEvents] } result refused)
    else some { s with server := { v with pc := .getNext } }
  | .returned | .failed _ => none

/-! ## Runs -/

def step (script : Script) (s : State) : Act → Option State
  | .client fails refused => clientStep script s fails refused
  | .server result refused => serverStep script s result refused

def Step (script : Script) (s : State) (act : Act) (t : State) : Prop :=
  step script s act = some t

/-- Both parties have a new state when `WIRE_CLIENT_STARTING` is sent. -/
def stateNew : State where
  client :=
    { pc := .getNext
      state := ⟨[], none⟩
      lastEventType := none
      numEvents := 0
      printed := [] }
  server := { pc := .getNext, state := ⟨[], none⟩, lastEventType := none, numEvents := 0 }
  toServer := []
  toClient := []
  log := []

end QoSMos.Wire
