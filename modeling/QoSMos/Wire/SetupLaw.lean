import Mathlib.Data.List.TakeWhile
import QoSMos.Lib.Dialogue
import QoSMos.Lib.Path
import QoSMos.Lib.Returns
import QoSMos.Wire.Setup

/-!
# The setup of a remote test

The messages of the client and the server are a dialogue, of which the positions of the two parties
are given by the functions that they are about to call. So no message is ever a bad one, the server
gets what the client has, and the client starts with a server that is ready.
-/

namespace QoSMos.Wire.Setup

open Dialogue LabelledPath

/-- The messages, the client being on the left. -/
def talk (input : Input) : List (Side × Message) :=
  [(.left, ⟨.commandLineArgs, serializeArgs input.argv⟩),
    (.left, ⟨.scriptPath, input.scriptPath.val⟩), (.left, ⟨.script, input.script⟩),
    (.left, ⟨.hardwareAddr, input.clientEtherAddr.toList⟩), (.right, ⟨.serverReady, []⟩),
    (.left, ⟨.clientStarting, []⟩)]

/-- How many messages a party has sent or received, if it goes on. -/
def Client.position : Client → Option Nat
  | .sendArgs => some 0
  | .sendScriptPath => some 1
  | .sendScript => some 2
  | .sendHwAddress => some 3
  | .receiveServerReady => some 4
  | .prepare | .sendClientStarting => some 5
  | .started => some 6
  | .died _ => none

def ServerPc.position : ServerPc → Option Nat
  | .receiveArgs => some 0
  | .receiveScriptPath => some 1
  | .receiveScript => some 2
  | .receiveHwAddress => some 3
  | .parse | .sendServerReady => some 4
  | .receiveClientStarting => some 5
  | .started => some 6
  | .failed _ => none

def State.queue (s : State) : Side → List Message
  | .left => s.toClient
  | .right => s.toServer

/-- What the server has is what the client has sent, ... -/
structure Server.Holds (input : Input) (v : Server) : Prop where
  argv : ∀ argv, v.argv = some argv → argv = serverArgv input.argv
  scriptPath : ∀ path, v.scriptPath = some path → path = input.scriptPath.val
  scriptBuffer : ∀ text, v.scriptBuffer = some text → text = strndup input.script
  clientEtherAddr : ∀ addr, v.clientEtherAddr = some addr → addr = input.clientEtherAddr.toList

/-- ... and it has the first messages. -/
structure Server.Received (v : Server) (n : Nat) : Prop where
  argv : 1 ≤ n → v.argv ≠ none
  scriptPath : 2 ≤ n → v.scriptPath ≠ none
  scriptBuffer : 3 ≤ n → v.scriptBuffer ≠ none
  clientEtherAddr : 4 ≤ n → v.clientEtherAddr ≠ none

/-- The errors of a connection. -/
def connectionErrors : List String :=
  ["error sending WIRE_COMMAND_LINE_ARGS", "error sending WIRE_SCRIPT_PATH",
    "error sending WIRE_SCRIPT", "error sending WIRE_HARDWARE_ADDR",
    "error reading WIRE_SERVER_READY", "error sending WIRE_CLIENT_STARTING"]

/-- Why the client may die: its arguments are too long, something of its own, or the connection, if
the server has ended or a socket is broken. -/
def Death.Excused (input : Input) (broken : Prop) (death : Death) (v : Server) : Prop :=
  (∃ halt, death = .halt halt ∧ wireClientSerializeArgv input.argv = .error halt) ∨
    death = .preparation ∨
    ∃ text ∈ connectionErrors, death = .wire text ∧ (v.ended ∨ broken)

/-- Why the server may fail in front of its ready message. -/
def Failure.Excused (input : Input) (failure : Failure) : Prop :=
  failure = .script ∨ failure = .process ∨ (∃ halt, failure = .undefined halt) ∨
    failure = .length ∧ ∃ e ∈ talk input, MAX_MESSAGE_BYTES < e.2.buf.length

/-- The invariant: the parties are at positions of the dialogue. -/
structure Inv (input : Input) (broken : Prop) (s : State) (pos : Side → Nat) : Prop where
  dialogue : Dialogue.Inv (talk input) pos s.queue
  client : ∀ p, s.client.position = some p → pos .left = p
  server : ∀ p, s.server.pc.position = some p → pos .right = p
  holds : s.server.Holds input
  received : (∀ failure, s.server.pc = .failed failure → failure = .connection) →
    s.server.Received (pos .right)
  died : ∀ death, s.client = .died death → pos .left ≤ 5 ∧ death.Excused input broken s.server
  failed : ∀ failure, s.server.pc = .failed failure →
    failure = .connection ∧ (s.client.ended ∨ broken) ∨ pos .right ≤ 4 ∧ failure.Excused input

/-! ## The arguments -/

section Arguments

variable {rest : List UInt8} {argv : List CString}

theorem strdup_unterminated (h : 0 ∉ rest) (position : Nat) :
    ∃ halt, (strdup rest position).result = .error halt := by
  induction rest generalizing position with
  | nil => exact ⟨_, rfl⟩
  | cons byte rest ih =>
    obtain ⟨hbyte, hrest⟩ := not_or.mp (mt List.mem_cons.mpr h)
    obtain ⟨halt, hhalt⟩ := ih hrest (position + 1)
    exact ⟨halt, by simp [strdup, Ne.symm hbyte, hhalt, bind]⟩

theorem unserializeArgs_unterminated (strings : List CString) (h : 0 ∉ rest) (position : Nat) :
    ∃ halt, (unserializeArgs (strings.length + 1) (strings.flatMap CString.terminated ++ rest)
      position).result = .error halt := by
  induction strings generalizing position with
  | nil =>
    obtain ⟨halt, hhalt⟩ := strdup_unterminated h position
    exact ⟨halt, by simp [unserializeArgs, hhalt, bind]⟩
  | cons arg strings ih =>
    have hsplit : (arg :: strings).flatMap CString.terminated ++ rest =
        arg.val ++ 0 :: (strings.flatMap CString.terminated ++ rest) := by
      simp [CString.terminated]
    have hdrop : (arg.val ++ 0 :: (strings.flatMap CString.terminated ++ rest)).drop
        (arg.val.length + 1) = strings.flatMap CString.terminated ++ rest := by simp
    obtain ⟨halt, hhalt⟩ := ih (position + arg.val.length + 1)
    refine ⟨halt, ?_⟩
    rw [hsplit, List.length_cons, unserializeArgs, Traced.result_bind,
      strdup_result arg.property]
    change (_ >>= _ : Traced Nat Halt _).result = _
    rw [hdrop, Traced.result_bind, hhalt]
    rfl

/-- Where the arguments are unserialized at all, they are the client's. -/
theorem wireServerUnserializeArgv_eq {v : List (Option (List UInt8))}
    (h : (wireServerUnserializeArgv (serializeArgs argv) rest).result = .ok v) :
    v = serverArgv argv := by
  by_cases hrest : 0 ∈ rest
  · exact (Except.ok.inj ((wireServerUnserializeArgv_result hrest).symm.trans h)).symm
  · obtain ⟨halt, hhalt⟩ := unserializeArgs_unterminated
      (argv.filter fun arg => ¬ IsWireClient arg) hrest 0
    rw [wireServerUnserializeArgv, Traced.result_bind, count_serializeArgs, serializeArgs_eq] at h
    change (_ >>= _ : Traced Nat Halt _).result = _ at h
    rw [Traced.result_bind, hhalt] at h
    cases h

theorem wireClientSerializeArgv_ok {args : List UInt8}
    (h : wireClientSerializeArgv argv = .ok args) : serializeArgs argv = args := by
  unfold wireClientSerializeArgv at h
  dsimp only at h
  split_ifs at h with hshort
  · cases h
  · obtain ⟨-, -, h⟩ := Returns.bind_eq_ok_iff.mp h
    exact Returns.pure_eq_ok_iff.mp h

end Arguments

/-! ## A step -/

section Step

open Function

variable {input : Input} {s t : State} {pos : Side → Nat} {p : Nat} {op : WireOpT}
  {buf behind : List UInt8} {next : Client} {error : String} {fails : Bool} {socket : Socket}
  {result : ParseResult} {broken : Prop}

theorem Failure.ended {v : Server} {failure : Failure} (h : v.pc = .failed failure) :
    v.ended = true := by
  simp [Server.ended, h]

theorem connectionError_mem (i : Nat) (h : connectionErrors[i]? = some error) :
    error ∈ connectionErrors := List.mem_of_getElem? h

/-- A socket that fails is broken unless the other party has ended. -/
theorem Socket.fails_cases {ended : Bool} (hbreaks : socket = .breaks → broken)
    (h : socket.fails ended) : ended ∨ broken := by
  cases socket with
  | works => cases h
  | refuses => exact .inl h
  | breaks => exact .inr (hbreaks rfl)

theorem Client.live_of_position {client : Client} (h : client.position = some p) :
    client.ended = false := by
  cases client <;> first | rfl | cases h

/-- A server that has failed while the client goes on has not failed because of it. -/
theorem Inv.failed_of_live (hi : Inv input broken s pos) (hlive : s.client.ended = false)
    (client : Client) : ∀ failure, s.server.pc = .failed failure →
      failure = .connection ∧ (client.ended ∨ broken) ∨
        pos .right ≤ 4 ∧ failure.Excused input := by
  intro failure hfailure
  refine (hi.failed failure hfailure).imp_left fun h => ⟨h.1, .inr (h.2.resolve_left ?_)⟩
  simp [hlive]

/-- The client dies of the connection. -/
theorem Inv.clientUnconnected (hi : Inv input broken s pos) (hclient : s.client.position = some p)
    (hlt : p < 6) (herror : error ∈ connectionErrors) (hended : s.server.ended ∨ broken) :
    Inv input broken { s with client := .died (.wire error) } pos := by
  have hp := hi.client p hclient
  refine ⟨hi.dialogue, by simp [Client.position], hi.server, hi.holds, hi.received, ?_,
    hi.failed_of_live (Client.live_of_position hclient) _⟩
  rintro death ⟨⟩
  exact ⟨by omega, .inr (.inr ⟨error, herror, rfl, hended⟩)⟩

/-- The client writes its next message; if the socket fails it has to die. -/
theorem Inv.clientWrite (hi : Inv input broken s pos) (hclient : s.client.position = some p)
    (he : (talk input)[p]? = some (.left, ⟨op, buf⟩)) (hnext : next.position = some (p + 1))
    (herror : error ∈ connectionErrors) (hbreaks : socket = .breaks → broken) :
    ∃ pos', Inv input broken (clientWrite s op buf next error socket) pos' := by
  have hp := hi.client p hclient
  unfold Setup.clientWrite
  split
  · next hfails =>
    exact ⟨pos, hi.clientUnconnected hclient (List.getElem?_eq_some_iff.mp he).1 herror
      (Socket.fails_cases hbreaks hfails)⟩
  · have hsend := hi.dialogue.send (a := .left) (hp ▸ he)
    refine ⟨update pos .left (pos .left + 1), ?_, ?_, hi.server, hi.holds, hi.received, ?_, ?_⟩
    · convert hsend using 1
      funext a
      cases a <;> rfl
    · intro q hq
      rw [update_self, hp]
      exact Option.some.inj (hnext.symm.trans hq)
    · rintro death rfl
      simp [Client.position] at hnext
    · exact hi.failed_of_live (Client.live_of_position hclient) _

theorem Inv.clientSendArgs {args : Except Halt (List UInt8)} (hi : Inv input broken s pos)
    (hclient : s.client = .sendArgs) (hargs : wireClientSerializeArgv input.argv = args)
    (hbreaks : socket = .breaks → broken) :
    ∃ pos', Inv input broken (clientSendArgs s args socket) pos' := by
  cases args with
  | error halt =>
    refine ⟨pos, hi.dialogue, by simp [Setup.clientSendArgs, Client.position], hi.server, hi.holds,
      hi.received, ?_, ?_⟩
    · rintro death ⟨⟩
      have hp := hi.client 0 (by rw [hclient]; rfl)
      exact ⟨by omega, .inl ⟨halt, rfl, hargs⟩⟩
    · exact hi.failed_of_live (by rw [hclient]; rfl) _
  | ok args =>
    obtain rfl := wireClientSerializeArgv_ok hargs
    exact hi.clientWrite (p := 0) (by rw [hclient]; rfl) rfl rfl (connectionError_mem 0 rfl) hbreaks

/-- What the client receives is the message that the server is ready. -/
theorem Inv.receiveServerReady (hi : Inv input broken s pos)
    (hclient : s.client = .receiveServerReady) (hbreaks : socket = .breaks → broken)
    (h : clientReceiveServerReady s socket = some t) :
    ∃ pos', Inv input broken t pos' := by
  have hposition : s.client.position = some 4 := by rw [hclient]; rfl
  have hp := hi.client 4 hposition
  have hunread (hended : s.server.ended ∨ broken) :=
    hi.clientUnconnected hposition (by decide) (connectionError_mem 4 rfl) hended
  unfold clientReceiveServerReady at h
  dsimp only at h
  split at h
  · next hfails =>
    obtain rfl := Option.some.inj h
    exact ⟨pos, hunread (Socket.fails_cases hbreaks hfails)⟩
  · cases hqueue : s.toClient with
    | nil =>
      simp only [hqueue] at h
      split at h
      · next hended =>
        obtain rfl := Option.some.inj h
        exact ⟨pos, hqueue ▸ hunread (.inl hended)⟩
      · cases h
    | cons message rest =>
      have he : (talk input)[pos .left]? = some (Side.left.other, ⟨.serverReady, []⟩) := by
        rw [hp]
        rfl
      obtain ⟨rfl, -⟩ := hi.dialogue.received he hqueue
      have hreceive := hi.dialogue.receive he hqueue
      simp only [hqueue, ne_eq, not_true_eq_false, if_false, List.length_nil] at h
      obtain rfl := Option.some.inj h
      refine ⟨update pos .left (pos .left + 1), ?_, ?_, hi.server, hi.holds, hi.received, ?_, ?_⟩
      · convert hreceive using 1
        funext a
        cases a <;> rfl
      · intro q hq
        rw [update_self, hp]
        exact Option.some.inj hq
      · rintro death ⟨⟩
      · exact hi.failed_of_live (Client.live_of_position hposition) _

theorem Inv.clientStep (hi : Inv input broken s pos) (hbreaks : socket = .breaks → broken)
    (h : Setup.clientStep input s fails socket = some t) : ∃ pos', Inv input broken t pos' := by
  cases hclient : s.client with
  | sendArgs =>
    simp only [Setup.clientStep, hclient] at h
    obtain rfl := Option.some.inj h
    exact hi.clientSendArgs hclient rfl hbreaks
  | sendScriptPath =>
    simp only [Setup.clientStep, hclient] at h
    obtain rfl := Option.some.inj h
    exact hi.clientWrite (p := 1) (by rw [hclient]; rfl) rfl rfl (connectionError_mem 1 rfl) hbreaks
  | sendScript =>
    simp only [Setup.clientStep, hclient] at h
    obtain rfl := Option.some.inj h
    exact hi.clientWrite (p := 2) (by rw [hclient]; rfl) rfl rfl (connectionError_mem 2 rfl) hbreaks
  | sendHwAddress =>
    simp only [Setup.clientStep, hclient] at h
    obtain rfl := Option.some.inj h
    exact hi.clientWrite (p := 3) (by rw [hclient]; rfl) rfl rfl (connectionError_mem 3 rfl) hbreaks
  | receiveServerReady =>
    simp only [Setup.clientStep, hclient] at h
    exact hi.receiveServerReady hclient hbreaks h
  | prepare =>
    simp only [Setup.clientStep, hclient] at h
    obtain rfl := Option.some.inj h
    have hp := hi.client 5 (by rw [hclient]; rfl)
    refine ⟨pos, hi.dialogue, ?_, hi.server, hi.holds, hi.received, ?_, ?_⟩
    · intro q hq
      cases fails
      · exact hp.trans (Option.some.inj hq)
      · cases hq
    · intro death hdeath
      cases fails
      · cases hdeath
      · obtain rfl := Client.died.inj hdeath
        exact ⟨hp.le, .inr (.inl rfl)⟩
    · exact hi.failed_of_live (by rw [hclient]; rfl) _
  | sendClientStarting =>
    simp only [Setup.clientStep, hclient] at h
    obtain rfl := Option.some.inj h
    exact hi.clientWrite (p := 5) (by rw [hclient]; rfl) rfl rfl (connectionError_mem 5 rfl) hbreaks
  | started => simp [Setup.clientStep, hclient] at h
  | died death => simp [Setup.clientStep, hclient] at h

theorem Server.Holds.fail {v : Server} (h : v.Holds input) (failure : Failure) :
    (v.fail failure).Holds input := ⟨h.argv, h.scriptPath, h.scriptBuffer, h.clientEtherAddr⟩

theorem ServerPc.ne_failed {pc : ServerPc} (h : pc.position = some p) (failure : Failure) :
    pc ≠ .failed failure := by
  rintro rfl
  cases h

theorem strndup_eq_self (string : CString) : strndup string.val = string.val := by
  rw [strndup, List.takeWhile_eq_self_iff]
  intro byte hbyte
  simp only [decide_eq_true_eq]
  rintro rfl
  exact string.property hbyte

theorem Inv.got (hi : Inv input broken s pos) (hserver : s.server.pc.position = some p) :
    s.server.Received p :=
  hi.server p hserver ▸ hi.received fun failure hfailure =>
    absurd hfailure (ServerPc.ne_failed hserver failure)

/-- Where the server goes on, the client has not died of it. -/
theorem Inv.died_of_live (hi : Inv input broken s pos) (hserver : s.server.pc.position = some p)
    (v : Server) :
    ∀ death, s.client = .died death → pos .left ≤ 5 ∧ death.Excused input broken v := by
  intro death hdeath
  obtain ⟨hle, hhalt | hpreparation | ⟨text, htext, hwire, hended⟩⟩ := hi.died death hdeath
  · exact ⟨hle, .inl hhalt⟩
  · exact ⟨hle, .inr (.inl hpreparation)⟩
  · have hlive : s.server.ended = false := by
      cases hpc : s.server.pc <;> simp_all [Server.ended, ServerPc.position]
    refine ⟨hle, .inr (.inr ⟨text, htext, hwire, .inr (hended.resolve_left ?_)⟩)⟩
    simp [hlive]

/-- The server fails because of the connection. -/
theorem Inv.serverUnconnected (hi : Inv input broken s pos)
    (hserver : s.server.pc.position = some p) (hended : s.client.ended ∨ broken) :
    Inv input broken { s with server := s.server.fail .connection } pos := by
  have hgot := hi.server p hserver ▸ hi.got hserver
  refine ⟨hi.dialogue, hi.client, by simp [Server.fail, ServerPc.position], hi.holds.fail _,
    fun _ => ⟨hgot.1, hgot.2, hgot.3, hgot.4⟩, hi.died_of_live hserver _, ?_⟩
  rintro failure ⟨⟩
  exact .inl ⟨rfl, hended⟩

/-- The server receives the message that is meant, and either goes on with it or, in front of its
ready message, fails. -/
theorem Inv.serverReceive {next : List UInt8 → Server} (hi : Inv input broken s pos)
    (hserver : s.server.pc.position = some p)
    (he : (talk input)[p]? = some (.left, ⟨op, buf⟩)) (hshort : p ≤ 3 ∨ buf = [])
    (hnext : (next buf).pc.position = some (p + 1) ∧ (next buf).Holds input ∧
        (next buf).Received (p + 1) ∨
      p ≤ 3 ∧ ∃ halt, next buf = s.server.fail (.undefined halt))
    (hbreaks : socket = .breaks → broken) (h : serverReceive s socket op error next = some t) :
    ∃ pos', Inv input broken t pos' := by
  have hp := hi.server p hserver
  have hdied := hi.died_of_live hserver
  unfold Setup.serverReceive at h
  dsimp only at h
  split at h
  · next hfails =>
    obtain rfl := Option.some.inj h
    exact ⟨pos, hi.serverUnconnected hserver (Socket.fails_cases hbreaks hfails)⟩
  cases hqueue : s.toServer with
  | nil =>
    simp only [hqueue] at h
    split at h
    · next hended =>
      obtain rfl := Option.some.inj h
      exact ⟨pos, hqueue ▸ hi.serverUnconnected hserver (.inl hended)⟩
    · cases h
  | cons message rest =>
    have he' : (talk input)[pos .right]? = some (Side.right.other, ⟨op, buf⟩) := hp ▸ he
    obtain ⟨rfl, -⟩ := hi.dialogue.received he' hqueue
    have hreceive : Dialogue.Inv (talk input) (update pos .right (p + 1))
        (update s.queue .right rest) := hp ▸ hi.dialogue.receive he' hqueue
    have hsame (server : Server) : update s.queue .right rest =
        ({ s with server := server, toServer := rest } : State).queue := by
      funext a
      cases a <;> rfl
    have hclient : ∀ q, s.client.position = some q → update pos .right (p + 1) .left = q :=
      hi.client
    simp only [hqueue, ne_eq, not_true_eq_false, if_false] at h
    obtain rfl := Option.some.inj h
    have hpos : update pos .right (p + 1) .right = p + 1 := update_self _ _ _
    by_cases hlong : buf.length > MAX_MESSAGE_BYTES
    · have hle : p ≤ 3 := by
        refine hshort.resolve_right ?_
        rintro rfl
        exact Nat.not_lt_zero _ hlong
      have hmem := List.mem_of_getElem? he
      refine ⟨update pos .right (p + 1), hsame _ ▸ hreceive, hclient, ?_, ?_, ?_, hdied _, ?_⟩
      · simp [hlong, Server.fail, ServerPc.position]
      · simpa [hlong] using hi.holds.fail .length
      · simp [hlong, Server.fail]
      · simp only [hlong, if_true]
        rintro failure ⟨⟩
        exact .inr ⟨by omega, .inr (.inr (.inr ⟨rfl, _, hmem, hlong⟩))⟩
    · simp only [hlong, if_false]
      refine ⟨update pos .right (p + 1), hsame _ ▸ hreceive, hclient, ?_, ?_, ?_, hdied _, ?_⟩
      all_goals rcases hnext with ⟨hposition, hholds, hgot⟩ | ⟨hle, halt, hfail⟩
      · intro q hq
        rw [hpos]
        exact Option.some.inj (hposition.symm.trans hq)
      · simp [hfail, Server.fail, ServerPc.position]
      · exact hholds
      · exact hfail ▸ hi.holds.fail _
      · exact fun _ => hpos ▸ hgot
      · simp [hfail, Server.fail]
      · exact fun failure hfailure => absurd hfailure (ServerPc.ne_failed hposition failure)
      · rw [hfail]
        rintro failure ⟨⟩
        exact .inr ⟨by omega, .inr (.inr (.inl ⟨halt, rfl⟩))⟩

theorem Inv.serverStep (hi : Inv input broken s pos) (hbreaks : socket = .breaks → broken)
    (h : Setup.serverStep s behind result socket = some t) : ∃ pos', Inv input broken t pos' := by
  obtain ⟨hargv, hpath, hscript, haddr⟩ := hi.holds
  cases hpc : s.server.pc with
  | receiveArgs =>
    have hserver : s.server.pc.position = some 0 := hpc ▸ rfl
    simp only [Setup.serverStep, hpc] at h
    refine hi.serverReceive hserver rfl (.inl (by omega)) ?_ hbreaks h
    cases hresult : (wireServerUnserializeArgv (serializeArgs input.argv) behind).result with
    | error halt => exact .inr ⟨by omega, halt, rfl⟩
    | ok argv =>
      refine .inl ⟨rfl, ⟨?_, hpath, hscript, haddr⟩, ?_⟩
      · rintro _ ⟨⟩
        exact wireServerUnserializeArgv_eq hresult
      · constructor <;> simp
  | receiveScriptPath =>
    have hserver : s.server.pc.position = some 1 := hpc ▸ rfl
    have hgot := hi.got hserver
    simp only [Setup.serverStep, hpc] at h
    refine hi.serverReceive hserver rfl (.inl (by omega))
      (.inl ⟨rfl, ⟨hargv, ?_, hscript, haddr⟩, ?_⟩) hbreaks h
    · rintro _ ⟨⟩
      exact strndup_eq_self input.scriptPath
    · exact ⟨fun _ => hgot.argv (by omega), by simp, by simp, by simp⟩
  | receiveScript =>
    have hserver : s.server.pc.position = some 2 := hpc ▸ rfl
    have hgot := hi.got hserver
    simp only [Setup.serverStep, hpc] at h
    refine hi.serverReceive hserver rfl (.inl (by omega))
      (.inl ⟨rfl, ⟨hargv, hpath, ?_, haddr⟩, ?_⟩) hbreaks h
    · rintro _ ⟨⟩
      rfl
    · exact ⟨fun _ => hgot.argv (by omega), fun _ => hgot.scriptPath (by omega), by simp, by simp⟩
  | receiveHwAddress =>
    have hserver : s.server.pc.position = some 3 := hpc ▸ rfl
    have hgot := hi.got hserver
    simp only [Setup.serverStep, hpc] at h
    refine hi.serverReceive hserver rfl (.inl (by omega)) (.inl ?_) hbreaks h
    rw [if_neg (by simp)]
    refine ⟨rfl, ⟨hargv, hpath, hscript, ?_⟩, ?_⟩
    · rintro _ ⟨⟩
      rfl
    · exact ⟨fun _ => hgot.argv (by omega), fun _ => hgot.scriptPath (by omega),
        fun _ => hgot.scriptBuffer (by omega), by simp⟩
  | parse =>
    have hserver : s.server.pc.position = some 4 := hpc ▸ rfl
    have hp := hi.server 4 hserver
    have hgot := hi.got hserver
    simp only [Setup.serverStep, hpc] at h
    obtain rfl := Option.some.inj h
    cases result with
    | ok =>
      refine ⟨pos, hi.dialogue, hi.client, ?_, ⟨hargv, hpath, hscript, haddr⟩, ?_,
        hi.died_of_live hserver _, by simp⟩
      · rintro q ⟨⟩
        exact hp
      · exact fun _ => hp ▸ ⟨hgot.1, hgot.2, hgot.3, hgot.4⟩
    | err =>
      refine ⟨pos, hi.dialogue, hi.client, by simp [Server.fail, ServerPc.position],
        hi.holds.fail _, by simp [Server.fail], hi.died_of_live hserver _, ?_⟩
      rintro failure ⟨⟩
      exact .inr ⟨hp.le, .inl rfl⟩
    | die =>
      refine ⟨pos, hi.dialogue, hi.client, by simp [Server.fail, ServerPc.position],
        hi.holds.fail _, by simp [Server.fail], hi.died_of_live hserver _, ?_⟩
      rintro failure ⟨⟩
      exact .inr ⟨hp.le, .inr (.inl rfl)⟩
  | sendServerReady =>
    have hserver : s.server.pc.position = some 4 := hpc ▸ rfl
    have hp := hi.server 4 hserver
    have hgot := hi.got hserver
    simp only [Setup.serverStep, hpc] at h
    split at h
    · next hfails =>
      obtain rfl := Option.some.inj h
      exact ⟨pos, hi.serverUnconnected hserver (Socket.fails_cases hbreaks hfails)⟩
    · obtain rfl := Option.some.inj h
      have he : (talk input)[pos .right]? = some (Side.right, ⟨.serverReady, []⟩) := hp ▸ rfl
      have hsend := hi.dialogue.send he
      refine ⟨update pos .right (pos .right + 1), ?_, hi.client, ?_,
        ⟨hargv, hpath, hscript, haddr⟩, ?_, hi.died_of_live hserver _, by simp⟩
      · convert hsend using 1
        funext a
        cases a <;> rfl
      · rintro q ⟨⟩
        rw [update_self, hp]
      · intro _
        rw [update_self]
        exact ⟨fun _ => hgot.1 (by omega), fun _ => hgot.2 (by omega), fun _ => hgot.3 (by omega),
          fun _ => hgot.4 (by omega)⟩
  | receiveClientStarting =>
    have hserver : s.server.pc.position = some 5 := hpc ▸ rfl
    have hgot := hi.got hserver
    simp only [Setup.serverStep, hpc] at h
    refine hi.serverReceive hserver rfl (.inr rfl)
      (.inl ⟨rfl, ⟨hargv, hpath, hscript, haddr⟩, ?_⟩) hbreaks h
    exact ⟨fun _ => hgot.1 (by omega), fun _ => hgot.2 (by omega), fun _ => hgot.3 (by omega),
      fun _ => hgot.4 (by omega)⟩
  | started => simp [Setup.serverStep, hpc] at h
  | failed failure => simp [Setup.serverStep, hpc] at h

theorem Inv.step {act : Act} (hi : Inv input broken s pos) (hbreaks : act.socket = .breaks → broken)
    (h : Step input s act t) : ∃ pos', Inv input broken t pos' := by
  cases act with
  | client fails socket => exact hi.clientStep hbreaks h
  | server behind result socket => exact hi.serverStep hbreaks h

theorem inv_accepted (input : Input) (broken : Prop) :
    Inv input broken accepted (fun _ => 0) where
  dialogue := by
    convert inv_start (talk input) using 1
    funext a
    cases a <;> rfl
  client := by
    rintro p ⟨⟩
    rfl
  server := by
    rintro p ⟨⟩
    rfl
  holds := by constructor <;> simp [accepted]
  received := fun _ => by constructor <;> simp
  died := by rintro death ⟨⟩
  failed := by rintro failure ⟨⟩

theorem Inv.path {as : List Act} (hi : Inv input broken s pos)
    (hbreaks : ∀ act ∈ as, act.socket = .breaks → broken) (h : Path (Step input) s as t) :
    ∃ pos', Inv input broken t pos' := by
  induction h generalizing pos with
  | nil => exact ⟨pos, hi⟩
  | cons hstep _ ih =>
    obtain ⟨pos', hi'⟩ := hi.step (hbreaks _ List.mem_cons_self) hstep
    exact ih hi' fun act hact => hbreaks act (List.mem_cons_of_mem _ hact)

/-! ## Progress -/

/-- How many steps a party has in front of it at most. -/
def Client.rank : Client → Nat
  | .sendArgs => 7
  | .sendScriptPath => 6
  | .sendScript => 5
  | .sendHwAddress => 4
  | .receiveServerReady => 3
  | .prepare => 2
  | .sendClientStarting => 1
  | .started | .died _ => 0

def ServerPc.rank : ServerPc → Nat
  | .receiveArgs => 7
  | .receiveScriptPath => 6
  | .receiveScript => 5
  | .receiveHwAddress => 4
  | .parse => 3
  | .sendServerReady => 2
  | .receiveClientStarting => 1
  | .started | .failed _ => 0

def State.rank (s : State) : Nat := s.client.rank + s.server.pc.rank

theorem clientWrite_rank (h : next.rank < s.client.rank) :
    (Setup.clientWrite s op buf next error socket).rank < s.rank := by
  unfold Setup.clientWrite
  split
  · exact Nat.add_lt_add_right (Nat.zero_lt_of_lt h) _
  · exact Nat.add_lt_add_right h _

theorem clientSendArgs_rank {args : Except Halt (List UInt8)} (h : s.client = .sendArgs) :
    (Setup.clientSendArgs s args socket).rank < s.rank := by
  cases args with
  | error halt =>
    refine Nat.add_lt_add_right ?_ _
    rw [h]
    exact Nat.zero_lt_succ 6
  | ok args => exact clientWrite_rank (by rw [h]; decide)

theorem clientReceiveServerReady_rank (hclient : s.client = .receiveServerReady)
    (h : clientReceiveServerReady s socket = some t) : t.rank < s.rank := by
  unfold clientReceiveServerReady at h
  dsimp only at h
  split at h
  · obtain rfl := Option.some.inj h
    exact Nat.add_lt_add_right (by simp [hclient, Client.rank]) _
  cases hqueue : s.toClient with
  | nil =>
    simp only [hqueue] at h
    split at h
    · obtain rfl := Option.some.inj h
      exact Nat.add_lt_add_right (by simp [hclient, Client.rank]) _
    · cases h
  | cons message rest =>
    simp only [hqueue] at h
    obtain rfl := Option.some.inj h
    refine Nat.add_lt_add_right ?_ _
    rw [hclient]
    dsimp only
    split_ifs <;> simp [Client.rank]

theorem clientStep_rank (h : Setup.clientStep input s fails socket = some t) :
    t.rank < s.rank := by
  cases hclient : s.client <;> simp only [Setup.clientStep, hclient, reduceCtorEq] at h
  case sendArgs =>
    obtain rfl := Option.some.inj h
    exact clientSendArgs_rank hclient
  case receiveServerReady => exact clientReceiveServerReady_rank hclient h
  case prepare =>
    obtain rfl := Option.some.inj h
    refine Nat.add_lt_add_right ?_ _
    rw [hclient]
    cases fails <;> simp [Client.rank]
  all_goals
    obtain rfl := Option.some.inj h
    exact clientWrite_rank (by rw [hclient]; decide)

theorem serverReceive_rank {next : List UInt8 → Server}
    (hnext : ∀ buf, (next buf).pc.rank < s.server.pc.rank)
    (h : serverReceive s socket op error next = some t) : t.rank < s.rank := by
  have hpos : 0 < s.server.pc.rank := Nat.zero_lt_of_lt (hnext [])
  unfold serverReceive at h
  dsimp only at h
  split at h
  · obtain rfl := Option.some.inj h
    exact Nat.add_lt_add_left hpos _
  cases hqueue : s.toServer with
  | nil =>
    simp only [hqueue] at h
    split at h
    · obtain rfl := Option.some.inj h
      exact Nat.add_lt_add_left hpos _
    · cases h
  | cons message rest =>
    simp only [hqueue] at h
    obtain rfl := Option.some.inj h
    refine Nat.add_lt_add_left ?_ _
    dsimp only
    split_ifs
    · exact hpos
    · exact hpos
    · exact hnext _

theorem serverStep_rank (h : Setup.serverStep s behind result socket = some t) :
    t.rank < s.rank := by
  cases hpc : s.server.pc <;> simp only [Setup.serverStep, hpc, reduceCtorEq] at h
  case receiveArgs =>
    refine serverReceive_rank (fun buf => ?_) h
    rw [hpc]
    cases (wireServerUnserializeArgv buf behind).result <;> simp [ServerPc.rank, Server.fail]
  case receiveHwAddress | receiveClientStarting =>
    refine serverReceive_rank (fun buf => ?_) h
    rw [hpc]
    split_ifs <;> simp [ServerPc.rank, Server.fail]
  case parse =>
    obtain rfl := Option.some.inj h
    refine Nat.add_lt_add_left ?_ _
    rw [hpc]
    cases result <;> simp [ServerPc.rank, Server.fail]
  case sendServerReady =>
    split at h
    all_goals
      obtain rfl := Option.some.inj h
      refine Nat.add_lt_add_left ?_ _
      rw [hpc]
      simp [ServerPc.rank, Server.fail]
  all_goals
    refine serverReceive_rank (fun buf => ?_) h
    rw [hpc]
    simp [ServerPc.rank]

/-- The client's part is over, and so is the server's. -/
def Client.over (c : Client) : Prop := c = .started ∨ c.ended

def Server.over (v : Server) : Prop := v.pc = .started ∨ v.ended

/-- A party has a step for which no socket has to fail. -/
def State.Goes (input : Input) (s : State) : Prop :=
  ∃ act t, act.socket = .works ∧ Step input s act t

theorem goes_of_clientStep (h : (Setup.clientStep input s false .works).isSome) : s.Goes input :=
  ⟨.client false .works, (Option.isSome_iff_exists.mp h).imp fun _ ht => ⟨rfl, ht⟩⟩

/-- The client has a step unless it has to wait. -/
theorem exists_clientStep (s : State) :
    s.Goes input ∨
      s.client = .receiveServerReady ∧ s.toClient = [] ∧ s.server.ended = false ∨
      s.client.over := by
  cases hclient : s.client with
  | receiveServerReady =>
    cases hqueue : s.toClient with
    | nil =>
      cases hended : s.server.ended with
      | false => exact .inr (.inl ⟨rfl, rfl, rfl⟩)
      | true =>
        refine .inl (goes_of_clientStep ?_)
        simp [Setup.clientStep, clientReceiveServerReady, Socket.fails, hclient, hqueue, hended]
    | cons message rest =>
      refine .inl (goes_of_clientStep ?_)
      simp [Setup.clientStep, clientReceiveServerReady, Socket.fails, hclient, hqueue]
  | started => exact .inr (.inr (.inl rfl))
  | died death => exact .inr (.inr (.inr rfl))
  | _ =>
    refine .inl (goes_of_clientStep ?_)
    simp [Setup.clientStep, hclient]

theorem exists_serverReceive (op : WireOpT) (error : String) (next : List UInt8 → Server) :
    (∃ t, Setup.serverReceive s .works op error next = some t) ∨
      s.toServer = [] ∧ s.client.ended = false := by
  simp only [Setup.serverReceive, Socket.fails, Bool.false_eq_true, if_false]
  cases hqueue : s.toServer with
  | nil =>
    cases hended : s.client.ended with
    | false => exact .inr ⟨rfl, rfl⟩
    | true => exact .inl ⟨_, rfl⟩
  | cons message rest => exact .inl ⟨_, rfl⟩

/-- In front of a message of the client the server is in a function that receives it. -/
theorem serverStep_receives (behind : List UInt8) (result : ParseResult) (socket : Socket)
    (hserver : s.server.pc.position = some p) (hne : p ≠ 4) (hlt : p < 6) :
    ∃ op error next,
      Setup.serverStep s behind result socket =
        Setup.serverReceive s socket op error next := by
  cases hpc : s.server.pc <;> simp only [hpc, ServerPc.position, Option.some.injEq, reduceCtorEq]
    at hserver
  case parse | sendServerReady => exact absurd hserver.symm hne
  case started => omega
  all_goals
    simp only [Setup.serverStep, hpc]
    exact ⟨_, _, _, rfl⟩

/-- The server has a step unless it has to wait, in front of a message of the client. -/
theorem exists_serverStep (s : State) :
    s.Goes input ∨
      (∃ p, s.server.pc.position = some p ∧ p ≠ 4 ∧ p < 6 ∧ s.toServer = [] ∧
        s.client.ended = false) ∨ s.server.over := by
  cases hposition : s.server.pc.position with
  | none =>
    refine .inr (.inr (.inr ?_))
    cases hpc : s.server.pc <;> simp_all [ServerPc.position, Server.ended]
  | some p =>
    by_cases hlt : p < 6
    · by_cases hne : p = 4
      · refine .inl ⟨.server [] .ok .works, ?_⟩
        cases hpc : s.server.pc <;>
          simp_all [Step, Setup.step, Act.socket, Setup.serverStep, Socket.fails, ServerPc.position]
      · obtain ⟨op, error, next, hstep⟩ := serverStep_receives [] .ok .works hposition hne hlt
        rcases exists_serverReceive (s := s) op error next with ⟨t, ht⟩ | ⟨hqueue, hended⟩
        · exact .inl ⟨.server [] .ok .works, t, rfl, hstep.trans ht⟩
        · exact .inr (.inl ⟨p, rfl, hne, hlt, hqueue, hended⟩)
    · refine .inr (.inr (.inl ?_))
      cases hpc : s.server.pc <;>
        simp only [hpc, ServerPc.position, Option.some.injEq, reduceCtorEq] at hposition
      case started => rfl
      all_goals omega

theorem Inv.progress (hi : Inv input broken s pos) :
    s.Goes input ∨ s.client.over ∧ s.server.over := by
  rcases exists_clientStep s with hstep | ⟨hclient, hqueue, hlive⟩ | hclient
  · exact .inl hstep
  · have hleft := hi.client 4 (by rw [hclient]; rfl)
    have hle : pos .right ≤ 4 := hleft ▸ hi.dialogue.not_behind_of_empty (a := .left) hqueue (by
      rw [hleft]
      exact Nat.lt_of_sub_eq_succ rfl)
    rcases exists_serverStep s with hstep | ⟨p, hserver, hne, hlt, hempty, -⟩ | hover | hended
    · exact .inl hstep
    · have hright := hi.server p hserver
      have hge := hi.dialogue.not_behind_of_empty (a := .right) hempty (hright ▸ hlt)
      dsimp only [Side.other] at hge
      omega
    · have hright := hi.server 6 (by rw [hover]; rfl)
      omega
    · simp [hlive] at hended
  · rcases exists_serverStep s with hstep | ⟨p, hserver, hne, hlt, hempty, hlive⟩ | hover
    · exact .inl hstep
    · rcases hclient with hstarted | hended
      · have hleft := hi.client 6 (by rw [hstarted]; rfl)
        have hright := hi.server p hserver
        have hge := hi.dialogue.not_behind_of_empty (a := .right) hempty (hright ▸ hlt)
        dsimp only [Side.other] at hge
        omega
      · simp [hlive] at hended
    · exact .inr ⟨hclient, hover⟩

end Step

/-! ## The result -/

/-- A state of the setup, in which an operation on a socket may have failed by itself. -/
structure Agreed (input : Input) (broken : Prop) (s : State) : Prop where
  holds : s.server.Holds input
  /-- The client starts with a server that has everything and waits for it, if it can. -/
  ready : s.client = .prepare ∨ s.client = .sendClientStarting ∨ s.client = .started →
    s.server.Received 4 ∧ (s.server.pc = .receiveClientStarting ∨ s.server.pc = .started ∨
      s.server.pc = .failed .connection ∧ broken)
  /-- The server starts with the client, and no message is left. -/
  started : s.server.pc = .started → s.client = .started ∧ s.toServer = [] ∧ s.toClient = []
  clientDied : ∀ death, s.client = .died death → death.Excused input broken s.server
  serverFailed : ∀ failure, s.server.pc = .failed failure →
    failure = .connection ∧ (s.client.ended ∨ broken) ∨ failure.Excused input
  progress : s.Goes input ∨ s.client.over ∧ s.server.over

section Result

variable {input : Input} {broken : Prop} {s t : State} {pos : Side → Nat} {act : Act}
  {as : List Act}

/-- A client that has the ready message has it of a server that goes on as long as its socket
works. -/
theorem Inv.ready (hi : Inv input broken s pos)
    (hclient : s.client = .prepare ∨ s.client = .sendClientStarting ∨ s.client = .started) :
    s.server.Received 4 ∧ (s.server.pc = .receiveClientStarting ∨ s.server.pc = .started ∨
      s.server.pc = .failed .connection ∧ broken) := by
  have hsaid : (talk input)[4]? = some (Side.right, ⟨.serverReady, []⟩) := rfl
  have hposition : ∃ p, s.client.position = some p ∧ 4 < p := by
    rcases hclient with hpc | hpc | hpc <;> rw [hpc] <;> exact ⟨_, rfl, by decide⟩
  obtain ⟨p, hp, hlt⟩ := hposition
  have hleft : 4 < pos .left := hi.client p hp ▸ hlt
  have hright := hi.dialogue.not_overtaken hsaid hleft
  have hfailed (failure : Failure) (hfailure : s.server.pc = .failed failure) :
      failure = .connection ∧ broken := by
    rcases hi.failed failure hfailure with ⟨hconnection, hended⟩ | ⟨hle, -⟩
    · exact ⟨hconnection, hended.resolve_left (by simp [Client.live_of_position hp])⟩
    · omega
  have hgot := hi.received fun failure hfailure => (hfailed failure hfailure).1
  refine ⟨⟨fun _ => hgot.1 (by omega), fun _ => hgot.2 (by omega), fun _ => hgot.3 (by omega),
    fun _ => hgot.4 (by omega)⟩, ?_⟩
  cases hpc : s.server.pc with
  | receiveClientStarting => exact .inl rfl
  | started => exact .inr (.inl rfl)
  | failed failure =>
    obtain ⟨rfl, hbroken⟩ := hfailed failure hpc
    exact .inr (.inr ⟨rfl, hbroken⟩)
  | _ =>
    have := hi.server _ (by rw [hpc]; rfl)
    omega

/-- A server that has started has the last message, and the client has sent it. -/
theorem Inv.started (hi : Inv input broken s pos) (hserver : s.server.pc = .started) :
    s.client = .started ∧ s.toServer = [] ∧ s.toClient = [] := by
  have hstarting : (talk input)[5]? = some (Side.left, ⟨.clientStarting, []⟩) := rfl
  have hright := hi.server 6 (by rw [hserver]; rfl)
  have hleft := hi.dialogue.not_overtaken (i := 5) hstarting (by
    dsimp only [Side.other]
    omega)
  have hclient : s.client = .started := by
    cases hpc : s.client with
    | started => rfl
    | died death =>
      have := (hi.died death hpc).1
      omega
    | _ =>
      have := hi.client _ (by rw [hpc]; rfl)
      omega
  have hsix := hi.client 6 (by rw [hclient]; rfl)
  have htoServer := hi.dialogue.queue .right
  have htoClient := hi.dialogue.queue .left
  dsimp only [Side.other] at htoServer htoClient
  rw [span_of_le (by omega)] at htoServer htoClient
  exact ⟨hclient, htoServer, htoClient⟩

theorem step_rank (h : Step input s act t) : t.rank < s.rank := by
  cases act with
  | client fails socket => exact clientStep_rank h
  | server behind result socket => exact serverStep_rank h

theorem path_rank (h : Path (Step input) s as t) : as.length + t.rank ≤ s.rank := by
  induction h with
  | nil => simp
  | cons hstep _ ih =>
    have := step_rank hstep
    rw [List.length_cons]
    omega

end Result

/-- Whatever the parties and their sockets do, the server gets what the client has, no message is a
bad one, the client starts only with a server that waits for it, and after at most fourteen steps
both have started or one has ended for a reason of its own or because a socket failed. -/
theorem agreed_of_path (input : Input) (as : List Act) (s : State)
    (h : Path (Step input) accepted as s) :
    Agreed input (∃ act ∈ as, act.socket = .breaks) s ∧ as.length ≤ 14 := by
  obtain ⟨pos, hi⟩ := (inv_accepted input (∃ act ∈ as, act.socket = .breaks)).path
    (fun act hact hbreaks => ⟨act, hact, hbreaks⟩) h
  have hrank : as.length + s.rank ≤ 14 := path_rank h
  exact ⟨⟨hi.holds, hi.ready, hi.started, fun death hdeath => (hi.died death hdeath).2,
    fun failure hfailure => (hi.failed failure hfailure).imp_right And.right, hi.progress⟩,
    by omega⟩

/-- A client with two arguments, of which the server gets one. -/
def testInput : Input where
  argv := [⟨[45, 118], by decide⟩, ⟨WIRE_CLIENT, by decide⟩]
  scriptPath := ⟨[97], by decide⟩
  script := [98, 10]
  clientEtherAddr := Vector.replicate 6 1
  scriptPath_le := by decide
  script_le := by decide

def testActs : List Act :=
  List.replicate 4 (.client false .works) ++ List.replicate 6 (.server [0] .ok .works) ++
    List.replicate 3 (.client false .works) ++ [.server [] .ok .works]

theorem agreed_of_path_test : ∃ s, s.server.pc = .started ∧
    Agreed testInput (∃ act ∈ testActs, act.socket = .breaks) s ∧ testActs.length ≤ 14 :=
  ⟨_, rfl, agreed_of_path _ _ _ (exec_eq_some_iff.mp rfl)⟩

end QoSMos.Wire.Setup
