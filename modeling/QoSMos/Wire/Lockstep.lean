import QoSMos.Lib.Path
import QoSMos.Wire.Invariant

/-!
# The client and the server in lockstep

However the steps of the two parties are ordered, their joint log is a prefix of the transcript,
one of them can go on until both have ended, and their runs are bounded by the length of the
script.
-/

namespace QoSMos.Wire

open LabelledPath

/-! ## Runs end -/

/-- How many steps a party can take at most, from a place on. -/
def View.rank (script : Script) (v : View) : Nat :=
  match v.place with
  | .getNext => 4 * (pending script v.state).length + 3
  | .hook => 4 * v.state.event.length + 2
  | .receiving => 4 * v.state.event.length + 1
  | .run => 4 * v.state.event.length
  | .over => 0

def Client.rank (script : Script) (c : Client) : Nat :=
  c.pc.place.elim 0 fun place => (c.view place).rank script

def Server.rank (script : Script) (v : Server) : Nat :=
  v.pc.place.elim 0 fun place => (v.view place).rank script

/-- A step of the server may leave a message, which the client takes one step to read. -/
def State.rank (script : Script) (s : State) : Nat :=
  s.client.rank script + 2 * s.server.rank script + s.toClient.length

section Rank

variable {script : Script} {s t : State} {rest : List Entry} {fails refused : Bool}
  {result : PacketResult} {v : View} {state : Cursor}

theorem event_of_getNextEvent {state' : Cursor} (h : getNextEvent script state = .ok state') :
    state'.event = pending script state := by
  unfold getNextEvent at h
  unfold pending
  cases hevent : state.event with
  | nil =>
    cases hlist : script.eventList with
    | nil => simp [hevent, hlist] at h
    | cons first next =>
      simp only [hevent, hlist] at h
      split at h
      · cases h
      · rw [← Except.ok.inj h]
  | cons last next =>
    cases next with
    | nil =>
      simp only [hevent] at h
      rw [← Except.ok.inj h]
    | cons event next =>
      simp only [hevent] at h
      split at h
      · cases h
      · rw [← Except.ok.inj h]

theorem View.rank_hook (hv : v.place = .getNext) (h : getNextEvent script v.state = .ok state) :
    View.rank script { v with place := .hook, state := state } + 1 ≤ v.rank script := by
  simp only [rank, hv, event_of_getNextEvent h]
  omega

theorem View.rank_getNext (script : Script) (hv : v.place = .run) (hc : v.Consistent) :
    View.rank script { v with place := .getNext } + 1 ≤ v.rank script := by
  have hrun := hc.run hv
  obtain ⟨place, ⟨event, lastEvent⟩, lastEventType, n⟩ := v
  obtain rfl : place = .run := hv
  cases event with
  | nil => exact absurd rfl hrun
  | cons event next =>
    simp only [rank, pending, List.length_cons]
    omega

theorem View.rank_moveOn (script : Script) (hv : v.place = .hook ∨ v.place = .receiving) :
    v.moveOn.rank script + 1 ≤ v.rank script := by
  obtain ⟨place, ⟨event, lastEvent⟩, lastEventType, n⟩ := v
  obtain rfl | rfl := hv <;> cases event <;> simp [View.moveOn, View.rank]

theorem Client.rank_moveOn (c : Client) (place : Place) :
    c.moveOn.rank script = (c.view place).moveOn.rank script := by
  obtain ⟨place', hplace', hview⟩ := c.view_moveOn place
  rw [Client.rank, hplace', ← hview]
  rfl

theorem Server.rank_moveOn (v : Server) (place : Place) :
    v.moveOn.rank script = (v.view place).moveOn.rank script := by
  obtain ⟨place', hplace', hview⟩ := v.view_moveOn place
  rw [Server.rank, hplace', ← hview]
  rfl

theorem Client.rank_die (c : Client) (death : Death) : (c.die death).rank script = 0 := by
  cases death <;> rfl

theorem Server.rank_fail (v : Server) (failure : Failure) : (v.fail failure).rank script = 0 := by
  cases failure <;> rfl

theorem View.rank_pos (script : Script) (hc : v.Consistent) (hv : v.place ≠ .over) :
    1 ≤ v.rank script := by
  unfold rank
  split
  · omega
  · omega
  · omega
  · next hrun =>
    have := List.length_pos_iff.mpr (hc.run hrun)
    omega
  · next hover => exact absurd hover hv

/-- The client gets ahead, or it reads a warning. -/
theorem clientStep_rank (hi : Inv script s rest)
    (h : clientStep script s fails refused = some t) : t.server = s.server ∧
      (t.client.rank script + 1 ≤ s.client.rank script ∧
          t.toClient.length ≤ s.toClient.length ∨
        t.client.rank script = s.client.rank script ∧
          t.toClient.length + 1 ≤ s.toClient.length) := by
  have hrank (place : Place) (hplace : s.client.pc.place = some place) :
      (s.client.view place).Consistent ∧
        s.client.rank script = (s.client.view place).rank script := by
    rw [Client.rank, hplace]
    exact ⟨(hi.client place hplace).1, rfl⟩
  cases hpc : s.client.pc with
  | getNext =>
    obtain ⟨hc, hrank⟩ := hrank .getNext (by rw [hpc]; rfl)
    have hpos := View.rank_pos script hc (by rintro ⟨⟩)
    simp only [clientStep, hpc] at h
    rw [hrank]
    split at h
    · obtain rfl := Option.some.inj h
      exact ⟨rfl, .inl ⟨by rw [Client.rank_die]; omega, le_rfl⟩⟩
    · next state hstate =>
      obtain rfl := Option.some.inj h
      exact ⟨rfl, .inl ⟨View.rank_hook (v := s.client.view .getNext) rfl hstate, le_rfl⟩⟩
  | hook =>
    obtain ⟨hc, hrank⟩ := hrank .hook (by rw [hpc]; rfl)
    have hpos := View.rank_pos script hc (by rintro ⟨⟩)
    have hmove := View.rank_moveOn script (v := s.client.view .hook) (.inl rfl)
    rw [← s.client.rank_moveOn .hook] at hmove
    simp only [clientStep, hpc] at h
    rw [hrank]
    split at h
    · split at h
      · obtain rfl := Option.some.inj h
        exact ⟨rfl, .inl ⟨by rw [Client.rank_die]; omega, le_rfl⟩⟩
      · obtain rfl := Option.some.inj h
        exact ⟨rfl, .inl ⟨hmove, le_rfl⟩⟩
    · split at h
      · obtain rfl := Option.some.inj h
        exact ⟨rfl, .inl ⟨le_rfl, le_rfl⟩⟩
      · obtain rfl := Option.some.inj h
        exact ⟨rfl, .inl ⟨hmove, le_rfl⟩⟩
  | receiving =>
    obtain ⟨hc, hrank⟩ := hrank .receiving (by rw [hpc]; rfl)
    have hpos := View.rank_pos script hc (by rintro ⟨⟩)
    have hmove := View.rank_moveOn script (v := s.client.view .receiving) (.inr rfl)
    rw [← s.client.rank_moveOn .receiving] at hmove
    simp only [clientStep, hpc] at h
    rw [hrank]
    split at h
    · next hempty =>
      split at h
      · obtain rfl := Option.some.inj h
        exact ⟨rfl, .inl ⟨by rw [Client.rank_die]; omega, by simp [hempty]⟩⟩
      · cases h
    · next message later hmessage =>
      have hlength : later.length + 1 ≤ s.toClient.length := by simp [hmessage]
      split at h
      · obtain rfl := Option.some.inj h
        exact ⟨rfl, .inl ⟨hmove, by dsimp only; omega⟩⟩
      · obtain rfl := Option.some.inj h
        exact ⟨rfl, .inr ⟨rfl, hlength⟩⟩
      · obtain rfl := Option.some.inj h
        exact ⟨rfl, .inl ⟨by rw [Client.rank_die]; omega, by dsimp only; omega⟩⟩
  | run =>
    obtain ⟨hc, hrank⟩ := hrank .run (by rw [hpc]; rfl)
    have hpos := View.rank_pos script hc (by rintro ⟨⟩)
    have hnext := View.rank_getNext script rfl hc
    simp only [clientStep, hpc] at h
    rw [hrank]
    split at h
    · obtain rfl := Option.some.inj h
      exact ⟨rfl, .inl ⟨hnext, le_rfl⟩⟩
    · obtain rfl := Option.some.inj h
      cases fails with
      | true => exact ⟨rfl, .inl ⟨by simp [Client.rank_die]; omega, le_rfl⟩⟩
      | false => exact ⟨rfl, .inl ⟨hnext, le_rfl⟩⟩
  | returned => simp [clientStep, hpc] at h
  | died death => simp [clientStep, hpc] at h

/-- The server gets ahead, and leaves one message at most. -/
theorem serverStep_rank (hi : Inv script s rest)
    (h : serverStep script s result refused = some t) : t.client = s.client ∧
      t.server.rank script + 1 ≤ s.server.rank script ∧
        t.toClient.length ≤ s.toClient.length + 1 := by
  have hrank (place : Place) (hplace : s.server.pc.place = some place) :
      (s.server.view place).Consistent ∧
        s.server.rank script = (s.server.view place).rank script := by
    rw [Server.rank, hplace]
    exact ⟨(hi.server place hplace).1, rfl⟩
  cases hpc : s.server.pc with
  | getNext =>
    obtain ⟨hc, hrank⟩ := hrank .getNext (by rw [hpc]; rfl)
    have hpos := View.rank_pos script hc (by rintro ⟨⟩)
    simp only [serverStep, hpc] at h
    rw [hrank]
    split at h
    · obtain rfl := Option.some.inj h
      exact ⟨rfl, by rw [Server.rank_fail]; omega, Nat.le_succ _⟩
    · next state hstate =>
      obtain rfl := Option.some.inj h
      exact ⟨rfl, View.rank_hook (v := s.server.view .getNext) rfl hstate, Nat.le_succ _⟩
  | hook =>
    obtain ⟨hc, hrank⟩ := hrank .hook (by rw [hpc]; rfl)
    have hpos := View.rank_pos script hc (by rintro ⟨⟩)
    have hmove := View.rank_moveOn script (v := s.server.view .hook) (.inl rfl)
    rw [← s.server.rank_moveOn .hook] at hmove
    simp only [serverStep, hpc] at h
    rw [hrank]
    split at h
    · obtain rfl := Option.some.inj h
      exact ⟨rfl, le_rfl, Nat.le_succ _⟩
    · split at h
      · split at h
        · obtain rfl := Option.some.inj h
          refine ⟨rfl, ?_, Nat.le_succ _⟩
          dsimp only
          split
          · exact hmove
          · rw [Server.rank_fail]
            omega
        · obtain rfl := Option.some.inj h
          exact ⟨rfl, hmove, by simp⟩
      · obtain rfl := Option.some.inj h
        exact ⟨rfl, hmove, Nat.le_succ _⟩
  | receiving =>
    obtain ⟨hc, hrank⟩ := hrank .receiving (by rw [hpc]; rfl)
    have hpos := View.rank_pos script hc (by rintro ⟨⟩)
    have hmove := View.rank_moveOn script (v := s.server.view .receiving) (.inr rfl)
    rw [← s.server.rank_moveOn .receiving] at hmove
    simp only [serverStep, hpc] at h
    rw [hrank]
    split at h
    · split at h
      · obtain rfl := Option.some.inj h
        exact ⟨rfl, by rw [Server.rank_fail]; omega, Nat.le_succ _⟩
      · cases h
    · split at h
      · obtain rfl := Option.some.inj h
        exact ⟨rfl, by rw [Server.rank_fail]; omega, Nat.le_succ _⟩
      · obtain rfl := Option.some.inj h
        exact ⟨rfl, hmove, Nat.le_succ _⟩
  | run =>
    obtain ⟨hc, hrank⟩ := hrank .run (by rw [hpc]; rfl)
    have hpos := View.rank_pos script hc (by rintro ⟨⟩)
    have hnext := View.rank_getNext script rfl hc
    simp only [serverStep, hpc] at h
    rw [hrank]
    split at h
    · obtain rfl := Option.some.inj h
      have hfail (failure : Failure) :
          (s.server.fail failure).rank script + 1 ≤ (s.server.view .run).rank script := by
        rw [Server.rank_fail]
        omega
      cases result with
      | ok => exact ⟨rfl, hnext, Nat.le_succ _⟩
      | warn error =>
        simp only [runPacketEvent]
        split
        · exact ⟨rfl, hfail _, Nat.le_succ _⟩
        · exact ⟨rfl, hnext, by simp⟩
      | err error =>
        simp only [runPacketEvent]
        split
        · exact ⟨rfl, hfail _, Nat.le_succ _⟩
        · exact ⟨rfl, hfail _, by simp⟩
      | die => exact ⟨rfl, hfail _, Nat.le_succ _⟩
    · obtain rfl := Option.some.inj h
      exact ⟨rfl, hnext, Nat.le_succ _⟩
  | returned => simp [serverStep, hpc] at h
  | failed failure => simp [serverStep, hpc] at h

theorem Inv.step_rank {act : Act} (hi : Inv script s rest) (h : Step script s act t) :
    t.rank script + 1 ≤ s.rank script := by
  unfold State.rank
  cases act with
  | client fails refused =>
    obtain ⟨hserver, hrank⟩ := clientStep_rank hi h
    rw [hserver]
    omega
  | server result refused =>
    obtain ⟨hclient, hrank, hqueue⟩ := serverStep_rank hi h
    rw [hclient]
    omega

theorem Inv.path {as : List Act} (hi : Inv script s rest) (h : Path (Step script) s as t) :
    (∃ rest', Inv script t rest') ∧ t.rank script + as.length ≤ s.rank script := by
  induction h generalizing rest with
  | nil => exact ⟨⟨rest, hi⟩, by simp⟩
  | cons hr _ ih =>
    obtain ⟨rest', hi'⟩ := hi.step hr
    obtain ⟨hinv, hrank⟩ := ih hi'
    have := hi.step_rank hr
    refine ⟨hinv, ?_⟩
    rw [List.length_cons]
    omega

end Rank

/-! ## Nobody waits in vain -/

section Progress

variable {script : Script} {s t : State} {rest : List Entry}

/-- A client that has not ended can go on, unless it waits for a DONE. -/
theorem exists_clientStep (script : Script) (hlive : s.client.ended = false)
    (h : s.client.pc = .receiving → s.toClient ≠ [] ∨ s.server.ended = true) :
    ∃ act t, Step script s act t := by
  refine ⟨.client false false, ?_⟩
  simp only [Step, step, ← Option.isSome_iff_exists]
  cases hpc : s.client.pc with
  | getNext =>
    simp only [clientStep, hpc]
    split <;> rfl
  | hook =>
    simp only [clientStep, hpc]
    split_ifs <;> rfl
  | receiving =>
    have hwaits := h hpc
    simp only [clientStep, hpc]
    split
    · next hempty => simp [hwaits.resolve_left (absurd hempty)]
    · split <;> rfl
  | run =>
    simp only [clientStep, hpc]
    split <;> rfl
  | returned => simp [Client.ended, hpc] at hlive
  | died death => simp [Client.ended, hpc] at hlive

theorem exists_serverStep (script : Script) (hlive : s.server.ended = false)
    (h : s.server.pc = .receiving → s.toServer ≠ [] ∨ s.client.ended = true) :
    ∃ act t, Step script s act t := by
  refine ⟨.server .ok false, ?_⟩
  simp only [Step, step, ← Option.isSome_iff_exists]
  cases hpc : s.server.pc with
  | getNext =>
    simp only [serverStep, hpc]
    split <;> rfl
  | hook =>
    simp only [serverStep, hpc]
    split_ifs <;> rfl
  | receiving =>
    have hwaits := h hpc
    simp only [serverStep, hpc]
    split
    · next hempty => simp [hwaits.resolve_left (absurd hempty)]
    · split <;> rfl
  | run =>
    simp only [serverStep, hpc]
    split <;> rfl
  | returned => simp [Server.ended, hpc] at hlive
  | failed failure => simp [Server.ended, hpc] at hlive

/-- The parties do not wait for each other: the rest of the transcript begins with what one of
them waits for, and then the message is on its way. -/
theorem Inv.not_both_waiting (hi : Inv script s rest) (hclient : s.client.pc = .receiving)
    (hserver : s.server.pc = .receiving) : s.toClient ≠ [] ∨ s.toServer ≠ [] := by
  have hlive : s.client.ended = false := by simp [Client.ended, hclient]
  obtain ⟨own, hown⟩ := hi.filter_of_waiting hclient
  cases rest with
  | nil => simp at hown
  | cons entry tail =>
    cases hentry : entry.isClient with
    | true =>
      rw [List.filter_cons_of_pos hentry] at hown
      obtain rfl := (List.cons.inj hown).1
      obtain ⟨warnings, hqueue⟩ := hi.toClient hlive
      rw [replies_of_quiet (by simp [hserver])] at hqueue
      exact .inl (by simp [hqueue, dones])
    | false =>
      obtain ⟨own, hown⟩ := hi.filter_of_serverWaiting hserver
      rw [List.filter_cons_of_pos (by simp [hentry])] at hown
      obtain rfl := (List.cons.inj hown).1
      exact .inr (by simp [hi.toServer, requests])

theorem Inv.progress (hi : Inv script s rest) :
    s.client.ended ∧ s.server.ended ∨ ∃ act t, Step script s act t := by
  by_cases hclient : s.client.ended = true
  · by_cases hserver : s.server.ended = true
    · exact .inl ⟨hclient, hserver⟩
    · exact .inr (exists_serverStep script (by simpa using hserver) fun _ => .inr hclient)
  · have hlive : s.client.ended = false := by simpa using hclient
    refine .inr ?_
    by_cases hstuck : s.client.pc = .receiving ∧ s.toClient = [] ∧ s.server.ended = false
    · obtain ⟨hpc, hempty, hserver⟩ := hstuck
      refine exists_serverStep script hserver fun hpc' => .inl ?_
      exact (hi.not_both_waiting hpc hpc').resolve_left (absurd hempty)
    · refine exists_clientStep script hlive fun hpc => ?_
      by_contra hnone
      push Not at hnone
      exact hstuck ⟨hpc, hnone.1, by simpa using hnone.2⟩

end Progress

/-! ## The main result -/

def Entry.isExecution : Entry → Bool
  | .packet _ | .ran _ => true
  | _ => false

/-- The events that `get_next_event` comes to. -/
def playable (last : Option Event) : List Event → List Event
  | [] => []
  | event :: next => if Refused last event then [] else event :: playable (some event) next

/-- Each of them is executed once, by the party whose event it is. -/
theorem executions_transcript (n : Nat) (last : Option Event) (events : List Event) :
    (transcript n last events).filter Entry.isExecution =
      ((playable last events).zipIdx (n + 1)).map fun p => execution p.2 p.1 := by
  have hexchange (n : Nat) (last : Option EventT) (isPacket : Bool) :
      (exchange n last isPacket).filter Entry.isExecution = [] := by
    unfold exchange
    split_ifs <;> rfl
  have hexecution (n : Nat) (event : Event) : (execution n event).isExecution = true := by
    unfold execution
    split_ifs <;> rfl
  induction events generalizing n last with
  | nil => exact hexchange ..
  | cons event next ih =>
    by_cases hrefused : Refused last event
    · simp [transcript, playable, hrefused]
    · simp [transcript, playable, hrefused, hexchange, hexecution, ih]

theorem Inv.failedEvent {script : Script} {s : State} {rest : List Entry} (hi : Inv script s rest)
    (error : CString) (hserver : s.server.pc = .failed (.event error)) (hended : s.client.ended) :
    s.client.pc = .died (.server error) ∨ ∃ stop, s.client.pc = .died (.script stop) := by
  obtain ⟨hreturned, hevent, -⟩ := hi.failedOpen error hserver
  cases hpc : s.client.pc with
  | returned => exact absurd hpc hreturned
  | died death =>
    obtain ⟨stop, rfl⟩ | rfl | ⟨error', rfl, hfailed⟩ | ⟨-, hfailed⟩ := hi.clientDied death hpc
    · exact .inr ⟨stop, rfl⟩
    · exact absurd hpc hevent
    · rw [hserver] at hfailed
      obtain rfl := Failure.event.inj (ServerPc.failed.inj hfailed)
      exact .inl rfl
    · rw [hserver] at hfailed
      cases hfailed
  | _ => simp [Client.ended, hpc] at hended

/-- What a run of the two parties keeps to. -/
structure Lockstep (script : Script) (as : List Act) (s : State) : Prop where
  /-- They do what the transcript says, in its order. -/
  log : s.log <+: script.transcript
  /-- In it, they take turns, ... -/
  inTurn : InTurn script.transcript
  /-- ... and execute the events of the script. -/
  executions : script.transcript.filter Entry.isExecution =
    ((playable none script.eventList).zipIdx 1).map fun p => execution p.2 p.1
  /-- When both have come to the end of the script, all of it is done. -/
  complete : s.client.pc = .returned → s.server.pc = .returned → s.log = script.transcript
  clientDied : s.client.Excused s.server
  serverFailed : s.server.Excused s.client
  /-- A packet event that fails ends the client with the server's message, if it does not find
  an error in the script before. -/
  failedEvent : ∀ error : CString, s.server.pc = .failed (.event error) → s.client.ended →
    s.client.pc = .died (.server error) ∨ ∃ stop, s.client.pc = .died (.script stop)
  /-- As long as a party has not ended, one of them can go on, ... -/
  progress : s.client.ended ∧ s.server.ended ∨ ∃ act t, Step script s act t
  /-- ... and they do not go on forever. -/
  bounded : as.length ≤ 12 * script.eventList.length + 9

/-- Whatever the script, and in whatever order they take their steps, the wire client and the wire
server run it in lockstep. -/
theorem lockstep_of_path (script : Script) (as : List Act) (t : State)
    (h : Path (Step script) stateNew as t) : Lockstep script as t := by
  obtain ⟨⟨rest, hi⟩, hrank⟩ := (inv_stateNew script).path h
  refine ⟨⟨rest, hi.log⟩, script.inTurn_transcript, executions_transcript 0 none _, ?_,
    hi.clientDied, hi.serverFailed, hi.failedEvent, hi.progress, ?_⟩
  · intro hclient hserver
    have howned := hi.client_over (by rw [hclient]; rfl)
    have hserved := hi.server_over (by rw [hserver]; rfl)
    have hrest : rest = [] := by
      cases rest with
      | nil => rfl
      | cons entry tail => cases hentry : entry.isClient <;> simp [hentry] at howned hserved
    simpa [hrest] using hi.log
  · have hstart : stateNew.rank script = 12 * script.eventList.length + 9 := by
      simp only [State.rank, Client.rank, Server.rank, stateNew, ClientPc.place, ServerPc.place,
        Option.elim, Client.view, Server.view, View.rank, pending, List.length_nil]
      omega
    omega

/-- A packet and then a system call: the client runs the call when the server is done. -/
theorem lockstep_of_path_block :
    ∃ as t, t.client.pc = .returned ∧
      Lockstep ⟨"", [⟨1, 0, .absolute, .packet⟩, ⟨2, 0, .absolute, .syscall⟩]⟩ as t :=
  ⟨List.replicate 5 (.client false false) ++ List.replicate 6 (.server .ok false) ++
      List.replicate 4 (.client false false),
    _, rfl, lockstep_of_path _ _ _ (exec_eq_some_iff.mp rfl)⟩

end QoSMos.Wire
