import QoSMos.Wire.Arguments

/-!
# Before the script is run

`wire_client_init` sends the arguments of the client, the path and the text of the script and the
address of the client's interface; `wire_server_thread` receives them, parses the script and says
that it is ready. Then the client says when it starts.

A step is a call of one of these functions. What a step cannot know is part of its label, such as
the bytes behind a message in the server's buffer, whether the script is parsed, or whether the
socket fails. A write that fails may have sent a part of its message; who waits for the rest finds
that the writer has ended.
-/

namespace QoSMos.Wire.Setup

def INT_MAX : Nat := 2147483647

/-- What the client sends. The lengths are of type `int`. -/
structure Input where
  argv : List CString
  scriptPath : CString
  script : List UInt8
  clientEtherAddr : Vector UInt8 6
  scriptPath_le : scriptPath.val.length ≤ INT_MAX
  script_le : script.length ≤ INT_MAX

/-! ## The two parties -/

/-- Why the client dies: an assertion, something of its own, or the connection. -/
inductive Death where
  | halt (halt : Halt)
  | preparation
  | wire (text : String)

inductive Client where
  | sendArgs | sendScriptPath | sendScript | sendHwAddress | receiveServerReady | prepare
  | sendClientStarting | started
  | died (death : Death)

/-- Why the server's thread ends: a bad message, one that is too long, the connection, a string
without its terminator, or the script, the parser of which may end the process. -/
inductive Failure where
  | message (text : String)
  | length
  | connection
  | undefined (halt : Halt)
  | script
  | process

inductive ServerPc where
  | receiveArgs | receiveScriptPath | receiveScript | receiveHwAddress | parse | sendServerReady
  | receiveClientStarting | started
  | failed (failure : Failure)

/-- `struct wire_server`; what is not received yet is `none`. -/
structure Server where
  pc : ServerPc
  argv : Option (List (Option (List UInt8)))
  scriptPath : Option (List UInt8)
  scriptBuffer : Option (List UInt8)
  clientEtherAddr : Option (List UInt8)

structure State where
  client : Client
  server : Server
  toServer : List Message
  toClient : List Message

/-- The connection is closed at this end. -/
def Client.ended : Client → Bool
  | .died _ => true
  | _ => false

def Server.ended (v : Server) : Bool :=
  match v.pc with
  | .failed _ => true
  | _ => false

/-- What `parse_script_and_set_config` returns; or it ends the process. -/
inductive ParseResult where
  | ok | err | die

/-- How the socket takes a step: it works, or an operation on it fails because the other party has
ended, or for a reason of its own. -/
inductive Socket where
  | works | refuses | breaks

/-- `write_bytes` or `read_bytes` returns `STATUS_ERR`, other than for the end of the data. -/
def Socket.fails (socket : Socket) (ended : Bool) : Bool :=
  match socket with
  | .works => false
  | .refuses => ended
  | .breaks => true

inductive Act where
  | client (fails : Bool) (socket : Socket)
  | server (behind : List UInt8) (result : ParseResult) (socket : Socket)

def Act.socket : Act → Socket
  | .client _ socket => socket
  | .server _ _ socket => socket

/-! ## Steps of the client -/

/-- `wire_conn_write` by the client. -/
def clientWrite (s : State) (op : WireOpT) (buf : List UInt8) (next : Client) (error : String)
    (socket : Socket) : State :=
  if socket.fails s.server.ended then { s with client := .died (.wire error) }
  else { s with client := next, toServer := s.toServer ++ [⟨op, buf⟩] }

/-- `wire_client_send_args` -/
def clientSendArgs (s : State) (args : Except Halt (List UInt8)) (socket : Socket) : State :=
  match args with
  | .error halt => { s with client := .died (.halt halt) }
  | .ok args =>
    clientWrite s .commandLineArgs args .sendScriptPath "error sending WIRE_COMMAND_LINE_ARGS"
      socket

/-- `wire_client_receive_server_ready` -/
def clientReceiveServerReady (s : State) (socket : Socket) : Option State :=
  let unread := { s with client := .died (.wire "error reading WIRE_SERVER_READY") }
  if socket.fails s.server.ended then some unread
  else
    match s.toClient with
    | [] => if s.server.ended then some unread else none
    | message :: rest =>
      let client :=
        if message.buf.length > MAX_MESSAGE_BYTES then
          .died (.wire "error reading WIRE_SERVER_READY")
        else if message.op ≠ .serverReady then
          .died (.wire "bad wire server: expected WIRE_SERVER_READY")
        else if message.buf.length ≠ 0 then
          .died (.wire "bad wire server: bad WIRE_SERVER_READY len")
        else .prepare
      some { s with client := client, toClient := rest }

def clientStep (input : Input) (s : State) (fails : Bool) (socket : Socket) : Option State :=
  match s.client with
  | .sendArgs => some (clientSendArgs s (wireClientSerializeArgv input.argv) socket)
  | .sendScriptPath =>
    some (clientWrite s .scriptPath input.scriptPath.val .sendScript
      "error sending WIRE_SCRIPT_PATH" socket)
  | .sendScript =>
    some (clientWrite s .script input.script .sendHwAddress "error sending WIRE_SCRIPT" socket)
  | .sendHwAddress =>
    some (clientWrite s .hardwareAddr input.clientEtherAddr.toList .receiveServerReady
      "error sending WIRE_HARDWARE_ADDR" socket)
  | .receiveServerReady => clientReceiveServerReady s socket
  -- The rest of what `run_script` does in front of its loop.
  | .prepare =>
    some { s with client := if fails then .died .preparation else .sendClientStarting }
  | .sendClientStarting =>
    some (clientWrite s .clientStarting [] .started "error sending WIRE_CLIENT_STARTING" socket)
  | .started | .died _ => none

/-! ## Steps of the server -/

def Server.fail (v : Server) (failure : Failure) : Server := { v with pc := .failed failure }

/-- A function of the server that receives one message. -/
def serverReceive (s : State) (socket : Socket) (op : WireOpT) (error : String)
    (next : List UInt8 → Server) : Option State :=
  let unread := { s with server := s.server.fail .connection }
  if socket.fails s.client.ended then some unread
  else
    match s.toServer with
    | [] => if s.client.ended then some unread else none
    | message :: rest =>
      let server :=
        if message.buf.length > MAX_MESSAGE_BYTES then s.server.fail .length
        else if message.op ≠ op then s.server.fail (.message error)
        else next message.buf
      some { s with server := server, toServer := rest }

/-- `strndup(buf, buf_len)` -/
def strndup (buf : List UInt8) : List UInt8 := buf.takeWhile (· ≠ 0)

def serverStep (s : State) (behind : List UInt8) (result : ParseResult) (socket : Socket) :
    Option State :=
  let v := s.server
  match v.pc with
  | .receiveArgs =>
    serverReceive s socket .commandLineArgs "bad wire client: expected WIRE_COMMAND_LINE_ARGS\n"
      fun buf =>
        match (wireServerUnserializeArgv buf behind).result with
        | .error halt => v.fail (.undefined halt)
        | .ok argv => { v with pc := .receiveScriptPath, argv := some argv }
  | .receiveScriptPath =>
    serverReceive s socket .scriptPath "bad wire client: expected WIRE_SCRIPT_PATH\n"
      fun buf => { v with pc := .receiveScript, scriptPath := some (strndup buf) }
  | .receiveScript =>
    serverReceive s socket .script "bad wire client: expected WIRE_SCRIPT\n"
      fun buf => { v with pc := .receiveHwAddress, scriptBuffer := some (strndup buf) }
  | .receiveHwAddress =>
    serverReceive s socket .hardwareAddr "bad wire client: expected WIRE_HARDWARE_ADDR\n"
      fun buf =>
        if buf.length ≠ 6 then v.fail (.message "bad wire client: bad hw address length\n")
        else { v with pc := .parse, clientEtherAddr := some buf }
  | .parse =>
    some { s with server :=
      match result with
      | .ok => { v with pc := .sendServerReady }
      | .err => v.fail .script
      | .die => v.fail .process }
  | .sendServerReady =>
    if socket.fails s.client.ended then some { s with server := v.fail .connection }
    else
      some { s with
        server := { v with pc := .receiveClientStarting }
        toClient := s.toClient ++ [⟨.serverReady, []⟩] }
  | .receiveClientStarting =>
    serverReceive s socket .clientStarting "bad wire client: expected WIRE_CLIENT_STARTING\n"
      fun buf =>
        if buf.length ≠ 0 then
          v.fail (.message "bad wire client: bad WIRE_CLIENT_STARTING length\n")
        else { v with pc := .started }
  | .started | .failed _ => none

/-! ## Runs -/

def step (input : Input) (s : State) : Act → Option State
  | .client fails socket => clientStep input s fails socket
  | .server behind result socket => serverStep s behind result socket

def Step (input : Input) (s : State) (act : Act) (t : State) : Prop := step input s act = some t

/-- The connection is accepted. -/
def accepted : State where
  client := .sendArgs
  server :=
    { pc := .receiveArgs
      argv := none
      scriptPath := none
      scriptBuffer := none
      clientEtherAddr := none }
  toServer := []
  toClient := []

end QoSMos.Wire.Setup
