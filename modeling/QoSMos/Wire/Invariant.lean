import QoSMos.Wire.Transcript

/-!
# The rest of the transcript

The invariant of the two parties. What each party still has to do is the part of the rest that is
its own, and since the parties take turns, the first entry of the rest tells which messages are on
their way.
-/

namespace QoSMos.Wire

/-! ## The invariant -/

/-- What an end of the connection is to the script. -/
def ClientPc.place : ClientPc → Option Place
  | .getNext => some .getNext
  | .hook => some .hook
  | .receiving => some .receiving
  | .run => some .run
  | .returned | .died (.script _) => some .over
  | .died _ => none

def ServerPc.place : ServerPc → Option Place
  | .getNext => some .getNext
  | .hook => some .hook
  | .receiving => some .receiving
  | .run => some .run
  | .returned | .failed (.script _) => some .over
  | .failed _ => none

def Client.view (c : Client) (place : Place) : View :=
  { place := place, state := c.state, lastEventType := c.lastEventType, numEvents := c.numEvents }

def Server.view (v : Server) (place : Place) : View :=
  { place := place, state := v.state, lastEventType := v.lastEventType, numEvents := v.numEvents }

/-- The START that is on its way. -/
def requests : List Entry → List Message
  | .startReceived n :: _ => [packetsStart n]
  | _ => []

/-- The DONE that is on its way, ... -/
def dones : List Entry → List Message
  | .doneReceived n :: _ => [packetsDone STATUS_OK n CString.empty]
  | _ => []

/-- ... unless it is the one with an error. -/
def replies (v : Server) (rest : List Entry) : List Message :=
  match v.pc with
  | .failed (.event error) => [packetsDone STATUS_ERR v.numEvents error]
  | _ => dones rest

/-- Why the client may die: an error in the script, an event of its own that fails, the message of
a server that has failed, or that the server's process has ended. -/
def Client.Excused (c : Client) (v : Server) : Prop :=
  ∀ death, c.pc = .died death →
    (∃ stop, death = .script stop) ∨ death = .event ∨
    (∃ error : CString, death = .server error ∧ v.pc = .failed (.event error)) ∨
    death = wireClientDie "error reading" ∧ v.pc = .failed .process

/-- Why the server may fail: an error in the script, a packet event that fails, or that the client
has ended. -/
def Server.Excused (v : Server) (c : Client) : Prop :=
  ∀ failure, v.pc = .failed failure →
    (∃ stop, failure = .script stop) ∨ (∃ error, failure = .event error) ∨ failure = .process ∨
    failure = .connection ∧ c.ended

/-- The next entry is the server's. -/
def ServerTurn (rest : List Entry) : Prop := ∃ entry ∈ rest.head?, entry.isClient = false

/-- A step of the system leaves `rest` to be done. -/
structure Inv (script : Script) (s : State) (rest : List Entry) : Prop where
  log : s.log ++ rest = script.transcript
  client : ∀ place, s.client.pc.place = some place → (s.client.view place).Consistent ∧
    rest.filter Entry.isClient = ((s.client.view place).rest script).filter Entry.isClient
  server : ∀ place, s.server.pc.place = some place → (s.server.view place).Consistent ∧
    rest.filter (! Entry.isClient ·) =
      ((s.server.view place).rest script).filter (! Entry.isClient ·)
  clientWaits : s.client.pc = .receiving →
    s.client.state.isPacket = false ∧ s.client.lastEventType = some .packet
  serverWaits : s.server.pc = .receiving →
    s.server.state.isPacket = true ∧ s.server.lastEventType ≠ some .packet
  toServer : s.toServer = requests rest
  toClient : s.client.ended = false →
    ∃ warnings : List CString, s.toClient = warnings.map packetsWarn ++ replies s.server rest
  clientDied : s.client.Excused s.server
  serverFailed : s.server.Excused s.client
  inBlock : ((∃ error, s.server.pc = .failed (.event error)) ∨ s.server.pc = .failed .process) →
    ∀ entry ∈ rest.head?, entry.isClient = false
  betweenBlocks : s.client.pc = .returned ∨ s.client.pc = .died .event →
    ∀ entry ∈ rest.head?, entry.isClient = true
  blockOpen : ServerTurn rest → s.client.ended = false → s.client.lastEventType = some .packet
  failedOpen : ∀ error, s.server.pc = .failed (.event error) →
    s.client.pc ≠ .returned ∧ s.client.pc ≠ .died .event ∧
      (s.client.ended = false → s.client.lastEventType = some .packet)

section Parties

variable {script : Script} {c c' : Client} {v v' : Server} {rest : List Entry}

theorem replies_congr {rest' : List Entry} (h : dones rest = dones rest') :
    replies v rest = replies v rest' := by
  simp only [replies, h]

theorem Client.Excused.of_live (h : c.Excused v) (hlive : v.ended = false) : c.Excused v' := by
  intro death hdeath
  obtain hscript | hevent | ⟨error, -, hpc⟩ | ⟨-, hpc⟩ := h death hdeath
  · exact .inl hscript
  · exact .inr (.inl hevent)
  · simp [Server.ended, hpc] at hlive
  · simp [Server.ended, hpc] at hlive

theorem Server.Excused.of_live (h : v.Excused c) (hlive : c.ended = false) : v.Excused c' := by
  intro failure hfailure
  obtain hscript | hevent | hprocess | ⟨-, hended⟩ := h failure hfailure
  · exact .inl hscript
  · exact .inr (.inl hevent)
  · exact .inr (.inr (.inl hprocess))
  · simp [hlive] at hended

theorem Client.excused_of_pc (h : ∀ death, c.pc ≠ .died death) : c.Excused v :=
  fun death hdeath => absurd hdeath (h death)

theorem Server.excused_of_pc (h : ∀ failure, v.pc ≠ .failed failure) : v.Excused c :=
  fun failure hfailure => absurd hfailure (h failure)

theorem replies_of_quiet (h : ∀ error, v.pc ≠ .failed (.event error)) :
    replies v rest = dones rest := by
  unfold replies
  split
  · next error hpc => exact absurd hpc (h error)
  · rfl

/-- The hook of the client ends as every hook does. -/
theorem Client.view_moveOn (c : Client) (place : Place) :
    ∃ place', c.moveOn.pc.place = some place' ∧ c.moveOn.view place' = (c.view place).moveOn := by
  unfold Client.moveOn View.moveOn Client.view
  cases hevent : c.state.event with
  | nil => exact ⟨.over, rfl, by simp⟩
  | cons event next => exact ⟨.run, rfl, by simp⟩

theorem Client.view_of_moveOn (c : Client) (place : Place) {place' : Place}
    (h : c.moveOn.pc.place = some place') : c.moveOn.view place' = (c.view place).moveOn := by
  obtain ⟨place'', hplace, hview⟩ := c.view_moveOn place
  obtain rfl := Option.some.inj (h.symm.trans hplace)
  exact hview

theorem Server.view_moveOn (v : Server) (place : Place) :
    ∃ place', v.moveOn.pc.place = some place' ∧ v.moveOn.view place' = (v.view place).moveOn := by
  unfold Server.moveOn View.moveOn Server.view
  cases hevent : v.state.event with
  | nil => exact ⟨.over, rfl, by simp⟩
  | cons event next => exact ⟨.run, rfl, by simp⟩

theorem Server.view_of_moveOn (v : Server) (place : Place) {place' : Place}
    (h : v.moveOn.pc.place = some place') : v.moveOn.view place' = (v.view place).moveOn := by
  obtain ⟨place'', hplace, hview⟩ := v.view_moveOn place
  obtain rfl := Option.some.inj (h.symm.trans hplace)
  exact hview

theorem Client.moveOn_pc (c : Client) : c.moveOn.pc = .run ∨ c.moveOn.pc = .returned := by
  unfold Client.moveOn
  cases c.state.event with
  | nil => exact .inr rfl
  | cons event next => exact .inl rfl

theorem Client.moveOn_goesOn (c : Client) :
    c.moveOn.pc ≠ .receiving ∧ ∀ death, c.moveOn.pc ≠ .died death := by
  obtain hpc | hpc := c.moveOn_pc <;> simp [hpc]

theorem Client.moveOn_packet (h : c.state.isPacket = true) :
    c.moveOn.pc = .run ∧ c.moveOn.lastEventType = some .packet := by
  unfold Client.moveOn
  cases hevent : c.state.event with
  | nil => simp [Cursor.isPacket, hevent] at h
  | cons event next => simpa [Cursor.isPacket, hevent] using h

theorem Server.moveOn_pc (v : Server) : v.moveOn.pc = .run ∨ v.moveOn.pc = .returned := by
  unfold Server.moveOn
  cases v.state.event with
  | nil => exact .inr rfl
  | cons event next => exact .inl rfl

theorem Server.moveOn_goesOn (v : Server) :
    v.moveOn.pc ≠ .receiving ∧ ∀ failure, v.moveOn.pc ≠ .failed failure := by
  obtain hpc | hpc := v.moveOn_pc <;> simp [hpc]

end Parties

namespace Inv

variable {script : Script} {s t : State} {rest tail : List Entry} {entry : Entry} {place : Place}
  {c : Client} {v : Server} {fails refused : Bool} {result : PacketResult}

theorem inTurn (hi : Inv script s rest) : InTurn rest :=
  InTurn.of_append (hi.log ▸ script.inTurn_transcript)

/-- The client goes on by itself. -/
theorem client_silent (hi : Inv script s rest) (hlive : s.client.ended = false)
    (hplace : s.client.pc.place = some place)
    (hview : ∀ place', c.pc.place = some place' → (c.view place').Consistent ∧
      ((c.view place').rest script).filter Entry.isClient =
        ((s.client.view place).rest script).filter Entry.isClient)
    (hwaits : c.pc = .receiving → c.state.isPacket = false ∧ c.lastEventType = some .packet)
    (hdied : c.Excused s.server) (hquiet : c.pc ≠ .died .event)
    (hblock : s.client.lastEventType = some .packet → c.pc ≠ .returned ∧
      (c.ended = false → c.lastEventType = some .packet)) :
    Inv script { s with client := c } rest where
  __ := hi
  client place' hplace' := by
    obtain ⟨hconsistent, hrest⟩ := hview place' hplace'
    exact ⟨hconsistent, by rw [hrest]; exact (hi.client place hplace).2⟩
  clientWaits := hwaits
  toClient _ := hi.toClient hlive
  clientDied := hdied
  serverFailed := hi.serverFailed.of_live hlive
  betweenBlocks hpc entry hentry := by
    by_contra hserver
    have hopen := hi.blockOpen ⟨entry, hentry, by simpa using hserver⟩ hlive
    exact hpc.elim (hblock hopen).1 hquiet
  blockOpen hturn := (hblock (hi.blockOpen hturn hlive)).2
  failedOpen error hpc := by
    have hopen := hblock ((hi.failedOpen error hpc).2.2 hlive)
    exact ⟨hopen.1, hquiet, hopen.2⟩

/-- The client does what comes next. -/
theorem client_emit (hi : Inv script s (entry :: tail)) (hclient : entry.isClient = true)
    (hlive : s.client.ended = false) (hplace : s.client.pc.place = some place)
    (hview : ∀ place', c.pc.place = some place' → (c.view place').Consistent ∧
      ((s.client.view place).rest script).filter Entry.isClient =
        entry :: ((c.view place').rest script).filter Entry.isClient)
    (hwaits : c.pc ≠ .receiving) (hdied : c.Excused s.server) {toServer toClient : List Message}
    (htoServer : toServer = requests tail) (htoClient : ∃ warnings : List CString,
      toClient = warnings.map packetsWarn ++ replies s.server tail)
    (hbetween : c.pc = .returned ∨ c.pc = .died .event →
      ∀ entry ∈ tail.head?, entry.isClient = true)
    (hopen : ServerTurn tail → c.lastEventType = some .packet) :
    Inv script { s with
      client := c
      toServer := toServer
      toClient := toClient
      log := s.log ++ [entry] } tail where
  log := by simpa using hi.log
  client place' hplace' := by
    obtain ⟨hconsistent, hrest⟩ := hview place' hplace'
    have hown := (hi.client place hplace).2
    rw [List.filter_cons_of_pos hclient, hrest] at hown
    exact ⟨hconsistent, (List.cons.inj hown).2⟩
  server place' hplace' := by
    obtain ⟨hconsistent, hrest⟩ := hi.server place' hplace'
    rw [List.filter_cons_of_neg (by simp [hclient])] at hrest
    exact ⟨hconsistent, hrest⟩
  clientWaits hpc := absurd hpc hwaits
  serverWaits := hi.serverWaits
  toServer := htoServer
  toClient _ := htoClient
  clientDied := hdied
  serverFailed := hi.serverFailed.of_live hlive
  inBlock hfailed := by
    have := hi.inBlock hfailed entry rfl
    simp [hclient] at this
  betweenBlocks := hbetween
  blockOpen hturn _ := hopen hturn
  failedOpen error hpc := by
    have := hi.inBlock (.inl ⟨error, hpc⟩) entry rfl
    simp [hclient] at this

theorem client_getNext (hi : Inv script s rest) (hpc : s.client.pc = .getNext)
    (h : clientStep script s fails refused = some t) : Inv script t rest := by
  have hlive : s.client.ended = false := by simp [Client.ended, hpc]
  have hplace : s.client.pc.place = some .getNext := by rw [hpc]; rfl
  simp only [clientStep, hpc] at h
  split at h
  · next stop hstop =>
    obtain rfl := Option.some.inj h
    refine hi.client_silent hlive hplace ?_ (by rintro ⟨⟩) ?_ (by rintro ⟨⟩) fun _ => ⟨by rintro ⟨⟩,
      by rintro ⟨⟩⟩
    · rintro place' hplace'
      obtain rfl : Place.over = place' := Option.some.inj hplace'
      have hover := View.rest_of_error (v := s.client.view .getNext) rfl hstop
      exact ⟨⟨fun hplace => absurd rfl hplace, by rintro ⟨⟩, by rintro _ ⟨⟩⟩, by rw [hover]; rfl⟩
    · rintro death hdeath
      exact .inl ⟨stop, (ClientPc.died.inj hdeath).symm⟩
  · next state hstate =>
    obtain rfl := Option.some.inj h
    refine hi.client_silent hlive hplace ?_ (by rintro ⟨⟩) (Client.excused_of_pc (by rintro _ ⟨⟩))
      (by rintro ⟨⟩)
      fun hlast => ⟨(by rintro ⟨⟩), fun _ => hlast⟩
    rintro place' hplace'
    obtain rfl : Place.hook = place' := Option.some.inj hplace'
    have hc := (hi.client _ hplace).1
    have hhook := View.consistent_hook (v := s.client.view .getNext) rfl hc hstate
    exact ⟨hhook.1, congrArg _ hhook.2⟩

/-- A server that is done with the script has nothing left to do. -/
theorem server_over (hi : Inv script s rest) (hplace : s.server.pc.place = some .over) :
    rest.filter (! Entry.isClient ·) = [] :=
  (hi.server _ hplace).2

theorem client_over (hi : Inv script s rest) (hplace : s.client.pc.place = some .over) :
    rest.filter Entry.isClient = [] :=
  (hi.client _ hplace).2

/-- While it is the client's turn and the server has something left to do, it has not ended. -/
theorem server_live (hi : Inv script s (entry :: tail)) (hlive : s.client.ended = false)
    (hclient : entry.isClient = true)
    (hserver : (entry :: tail).filter (! Entry.isClient ·) ≠ []) : s.server.ended = false := by
  cases hpc : s.server.pc with
  | returned => exact absurd (hi.server_over (by rw [hpc]; rfl)) hserver
  | failed failure =>
    obtain ⟨stop, rfl⟩ | hevent | hprocess | ⟨-, hended⟩ := hi.serverFailed failure hpc
    · exact absurd (hi.server_over (by rw [hpc]; rfl)) hserver
    · obtain ⟨error, rfl⟩ := hevent
      have := hi.inBlock (.inl ⟨error, hpc⟩) entry rfl
      simp [hclient] at this
    · have := hi.inBlock (.inr (hprocess ▸ hpc)) entry rfl
      simp [hclient] at this
    · simp [hlive] at hended
  | _ => simp [Server.ended, hpc]

theorem client_hook (hi : Inv script s rest) (hpc : s.client.pc = .hook)
    (h : clientStep script s fails refused = some t) : ∃ rest', Inv script t rest' := by
  have hlive : s.client.ended = false := by simp [Client.ended, hpc]
  have hplace : s.client.pc.place = some .hook := by rw [hpc]; rfl
  obtain ⟨hconsistent, hown⟩ := hi.client _ hplace
  have hmove : (s.client.view .hook).moveOn.Consistent ∧ (s.client.view .hook).rest script =
      exchange s.client.numEvents s.client.lastEventType s.client.state.isPacket ++
        (s.client.view .hook).moveOn.rest script := View.consistent_moveOn (.inl rfl)
  obtain ⟨hwaits, hlives⟩ := s.client.moveOn_goesOn
  have hdied : s.client.moveOn.Excused s.server := Client.excused_of_pc hlives
  simp only [clientStep, hpc] at h
  split at h
  · next hcond =>
    -- The first packet event of a block.
    have hemit : ((s.client.view .hook).rest script).filter Entry.isClient =
        .startSent s.client.numEvents ::
          ((s.client.view .hook).moveOn.rest script).filter Entry.isClient := by
      rw [hmove.2, exchange, if_pos hcond.1, if_neg hcond.2]
      rfl
    obtain ⟨tail, rfl⟩ := hi.inTurn.head_of_client (hown.trans hemit) (by rintro _ ⟨⟩)
    cases hi.inTurn.1 with
    | startSent n l =>
      have hserver : s.server.ended = false := hi.server_live hlive rfl (by simp [Entry.isClient])
      rw [if_neg (by simp [hserver])] at h
      obtain rfl := Option.some.inj h
      refine ⟨_, hi.client_emit rfl hlive hplace ?_ hwaits hdied ?_ ?_ ?_ ?_⟩
      · intro place' hplace'
        have hview := s.client.view_of_moveOn .hook hplace'
        rw [hview]
        exact ⟨hmove.1, hemit⟩
      · rw [hi.toServer]
        rfl
      · exact hi.toClient hlive
      · intro hpc'
        simp [(Client.moveOn_packet hcond.1).1] at hpc'
      · exact fun _ => (Client.moveOn_packet hcond.1).2
  · next hcond =>
    split at h
    · next hblock =>
      obtain rfl := Option.some.inj h
      refine ⟨rest, hi.client_silent hlive hplace ?_ ?_ (Client.excused_of_pc (by rintro _ ⟨⟩))
        (by rintro ⟨⟩)
        fun hlast => ⟨(by rintro ⟨⟩), fun _ => hlast⟩⟩
      · rintro place' hplace'
        obtain rfl : Place.receiving = place' := Option.some.inj hplace'
        have hreceiving := View.consistent_receiving script rfl hconsistent
        exact ⟨hreceiving.1, congrArg _ hreceiving.2⟩
      · simpa using hblock
    · next hblock =>
      obtain rfl := Option.some.inj h
      refine ⟨rest, hi.client_silent hlive hplace ?_ (absurd · hwaits) hdied (hlives _)
        fun hlast => ?_⟩
      · intro place' hplace'
        have hview := s.client.view_of_moveOn .hook hplace'
        have hexchange : exchange s.client.numEvents s.client.lastEventType
            s.client.state.isPacket = [] := by
          simp only [exchange]
          split_ifs <;> simp_all
        rw [hview, hmove.2, hexchange]
        exact ⟨hmove.1, rfl⟩
      · have hpacket := Client.moveOn_packet (by simpa [hlast] using hblock)
        exact ⟨by simp [hpacket.1], fun _ => hpacket.2⟩

theorem filter_of_waiting (hi : Inv script s rest) (hpc : s.client.pc = .receiving) :
    ∃ own, rest.filter Entry.isClient = .doneReceived s.client.numEvents :: own := by
  obtain ⟨-, hown⟩ := hi.client .receiving (by rw [hpc]; rfl)
  obtain ⟨hpacket, hlast⟩ := hi.clientWaits hpc
  have hmove : (s.client.view .receiving).rest script =
      exchange s.client.numEvents s.client.lastEventType s.client.state.isPacket ++
        (s.client.view .receiving).moveOn.rest script := (View.consistent_moveOn (.inr rfl)).2
  rw [hmove, hpacket, hlast] at hown
  exact ⟨_, hown⟩

/-- A client that waits for a DONE, though none is on its way, waits for the server. -/
theorem server_of_waiting (hi : Inv script s rest) (hpc : s.client.pc = .receiving)
    (hempty : replies s.server rest = []) :
    s.server.ended = false ∨ s.server.pc = .failed .process := by
  have hlive : s.client.ended = false := by simp [Client.ended, hpc]
  -- Otherwise what the server owes is the DONE itself.
  have hnotOver : s.server.pc.place ≠ some .over := by
    intro hplace
    obtain ⟨own, hown⟩ := hi.filter_of_waiting hpc
    have hserver := hi.server_over hplace
    cases rest with
    | nil => simp at hown
    | cons entry tail =>
      cases hentry : entry.isClient with
      | false => simp [hentry] at hserver
      | true =>
        rw [List.filter_cons_of_pos hentry] at hown
        obtain rfl := (List.cons.inj hown).1
        unfold replies at hempty
        split at hempty
        · simp at hempty
        · simp [dones] at hempty
  cases hserver : s.server.pc with
  | returned => exact absurd (by rw [hserver]; rfl) hnotOver
  | failed failure =>
    obtain ⟨stop, rfl⟩ | hevent | hprocess | ⟨-, hended⟩ := hi.serverFailed failure hserver
    · exact absurd (by rw [hserver]; rfl) hnotOver
    · obtain ⟨error, rfl⟩ := hevent
      simp [replies, hserver] at hempty
    · exact .inr (by rw [hprocess])
    · simp [hlive] at hended
  | _ => exact .inl (by simp [Server.ended, hserver])

/-- A warning is printed. -/
theorem client_receiveWarn {warning : CString} {warnings : List CString} (hi : Inv script s rest)
    (hpc : s.client.pc = .receiving)
    (hqueue : s.toClient = (warning :: warnings).map packetsWarn ++ replies s.server rest)
    (h : clientStep script s fails refused = some t) : ∃ rest', Inv script t rest' := by
  have hlive : s.client.ended = false := by simp [Client.ended, hpc]
  have hplace : s.client.pc.place = some .receiving := by rw [hpc]; rfl
  obtain ⟨hconsistent, -⟩ := hi.client _ hplace
  simp only [clientStep, hpc, hqueue, List.map_cons, List.cons_append,
    receivePacketsDone_packetsWarn] at h
  obtain rfl := Option.some.inj h
  have hsilent := hi.client_silent
    (c := { s.client with pc := .receiving, printed := s.client.printed ++ [warning.val] }) hlive
    hplace ?_ (fun _ => hi.clientWaits hpc) (Client.excused_of_pc (by rintro _ ⟨⟩)) (by rintro ⟨⟩)
    fun hlast => ⟨(by rintro ⟨⟩), fun _ => hlast⟩
  · exact ⟨rest, { hsilent with toClient := fun _ => ⟨warnings, rfl⟩ }⟩
  · intro place' hplace'
    obtain rfl : Place.receiving = place' := Option.some.inj hplace'
    exact ⟨hconsistent, rfl⟩

/-- An error of the server ends the client, too. -/
theorem client_receiveErr {error : CString} (hi : Inv script s rest)
    (hpc : s.client.pc = .receiving) (herror : s.server.pc = .failed (.event error))
    (hqueue : s.toClient = replies s.server rest)
    (h : clientStep script s fails refused = some t) : ∃ rest', Inv script t rest' := by
  have hlive : s.client.ended = false := by simp [Client.ended, hpc]
  have hplace : s.client.pc.place = some .receiving := by rw [hpc]; rfl
  simp only [replies, herror] at hqueue
  simp only [clientStep, hpc, hqueue, receivePacketsDone_err] at h
  obtain rfl := Option.some.inj h
  have hdied : (s.client.die (.server error.val)).Excused s.server := fun death hdeath =>
    .inr (.inr (.inl ⟨error, (ClientPc.died.inj hdeath).symm, herror⟩))
  have hsilent := hi.client_silent (c := s.client.die (.server error.val)) hlive hplace
    (by rintro _ ⟨⟩)
    (by rintro ⟨⟩) hdied (by rintro ⟨⟩) fun _ => ⟨by rintro ⟨⟩, by rintro ⟨⟩⟩
  exact ⟨rest, { hsilent with toClient := by rintro ⟨⟩ }⟩

/-- The DONE that the client waits for is the next entry of its own. -/
theorem client_receiveDone {n : Nat} {tail : List Entry}
    (hi : Inv script s (.doneReceived n :: tail)) (hpc : s.client.pc = .receiving)
    (hqueue : s.toClient = dones (.doneReceived n :: tail))
    (hdones : ∀ rest, replies s.server rest = dones rest)
    (h : clientStep script s fails refused = some t) : ∃ rest', Inv script t rest' := by
  have hlive : s.client.ended = false := by simp [Client.ended, hpc]
  have hplace : s.client.pc.place = some .receiving := by rw [hpc]; rfl
  obtain ⟨hconsistent, hown⟩ := hi.client _ hplace
  obtain ⟨hpacket, hlast⟩ := hi.clientWaits hpc
  have hmove : (s.client.view .receiving).moveOn.Consistent ∧
      (s.client.view .receiving).rest script =
        exchange s.client.numEvents s.client.lastEventType s.client.state.isPacket ++
          (s.client.view .receiving).moveOn.rest script := View.consistent_moveOn (.inr rfl)
  have hemit : ((s.client.view .receiving).rest script).filter Entry.isClient =
      .doneReceived s.client.numEvents ::
        ((s.client.view .receiving).moveOn.rest script).filter Entry.isClient := by
    rw [hmove.2, hpacket, hlast]
    rfl
  obtain ⟨hwaits, hlives⟩ := s.client.moveOn_goesOn
  have hdied : s.client.moveOn.Excused s.server := Client.excused_of_pc hlives
  obtain rfl : n = s.client.numEvents := by
    rw [hemit, List.filter_cons_of_pos rfl] at hown
    simpa using (List.cons.inj hown).1
  simp only [clientStep, hpc, hqueue, dones, receivePacketsDone_ok] at h
  obtain rfl := Option.some.inj h
  refine ⟨tail, hi.client_emit rfl hlive hplace ?_ hwaits hdied ?_ ⟨[], ?_⟩ ?_ ?_⟩
  · intro place' hplace'
    have hview := s.client.view_of_moveOn .receiving hplace'
    rw [hview]
    exact ⟨hmove.1, hemit⟩
  · rw [hi.toServer]
    cases hi.inTurn.1 <;> rfl
  · rw [hdones]
    cases hi.inTurn.1 <;> rfl
  · intro _
    cases hi.inTurn.1 <;> simp [Entry.isClient]
  · rintro ⟨entry, hentry, hserver⟩
    have hnext := hi.inTurn.1
    cases hnext with
    | doneReceived n l =>
      obtain rfl := Option.some.inj hentry
      cases hserver
    | endOfPackets n => cases hentry

/-- With nothing on the way the client waits, or its server process has died. -/
theorem client_receiveNothing (hi : Inv script s rest) (hpc : s.client.pc = .receiving)
    (hnone : replies s.server rest = []) (hqueue : s.toClient = [])
    (h : clientStep script s fails refused = some t) : ∃ rest', Inv script t rest' := by
  have hlive : s.client.ended = false := by simp [Client.ended, hpc]
  have hplace : s.client.pc.place = some .receiving := by rw [hpc]; rfl
  simp only [clientStep, hpc, hqueue] at h
  split at h
  · next hended =>
    obtain rfl := Option.some.inj h
    have hprocess := (hi.server_of_waiting hpc hnone).resolve_left (by simp [hended])
    have hsilent := hi.client_silent (c := s.client.die (wireClientDie "error reading")) hlive
      hplace (by rintro _ ⟨⟩) (by rintro ⟨⟩)
      (fun death hdeath => .inr (.inr (.inr ⟨(ClientPc.died.inj hdeath).symm, hprocess⟩)))
      (by simp [Client.die, wireClientDie]) fun _ => ⟨by rintro ⟨⟩, by rintro ⟨⟩⟩
    exact ⟨rest, { hsilent with toClient := by rintro ⟨⟩ }⟩
  · cases h

theorem client_receive (hi : Inv script s rest) (hpc : s.client.pc = .receiving)
    (h : clientStep script s fails refused = some t) : ∃ rest', Inv script t rest' := by
  have hlive : s.client.ended = false := by simp [Client.ended, hpc]
  obtain ⟨warnings, hqueue⟩ := hi.toClient hlive
  cases warnings with
  | cons warning warnings => exact hi.client_receiveWarn hpc hqueue h
  | nil =>
    simp only [List.map_nil, List.nil_append] at hqueue
    by_cases herror : ∃ error, s.server.pc = .failed (.event error)
    · obtain ⟨error, herror⟩ := herror
      exact hi.client_receiveErr hpc herror hqueue h
    · have hdones : ∀ rest, replies s.server rest = dones rest :=
        fun rest => replies_of_quiet fun error hpc => herror ⟨error, hpc⟩
      by_cases hdone : ∃ n tail, rest = .doneReceived n :: tail
      · obtain ⟨n, tail, rfl⟩ := hdone
        exact hi.client_receiveDone hpc (hqueue.trans (hdones _)) hdones h
      · have hnone : replies s.server rest = [] := by
          rw [hdones]
          unfold dones
          split
          · next n tail => exact absurd ⟨n, tail, rfl⟩ hdone
          · rfl
        exact hi.client_receiveNothing hpc hnone (hqueue.trans hnone) h

theorem client_run (hi : Inv script s rest) (hpc : s.client.pc = .run)
    (h : clientStep script s fails refused = some t) : ∃ rest', Inv script t rest' := by
  have hlive : s.client.ended = false := by simp [Client.ended, hpc]
  have hplace : s.client.pc.place = some .run := by rw [hpc]; rfl
  obtain ⟨hconsistent, hown⟩ := hi.client _ hplace
  have hnext : (s.client.view .getNext).Consistent ∧ (s.client.view .run).rest script =
      (if s.client.state.isPacket then .packet s.client.numEvents else .ran s.client.numEvents) ::
        (s.client.view .getNext).rest script := View.consistent_getNext rfl hconsistent
  simp only [clientStep, hpc] at h
  split at h
  · next hpacket =>
    obtain rfl := Option.some.inj h
    refine ⟨rest, hi.client_silent hlive hplace ?_ (by rintro ⟨⟩) (Client.excused_of_pc
      (by rintro _ ⟨⟩)) (by rintro ⟨⟩)
      fun hlast => ⟨(by rintro ⟨⟩), fun _ => hlast⟩⟩
    rintro place' hplace'
    obtain rfl : Place.getNext = place' := Option.some.inj hplace'
    refine ⟨hnext.1, ?_⟩
    rw [hnext.2, if_pos hpacket]
    rfl
  · next hpacket =>
    have hemit : ((s.client.view .run).rest script).filter Entry.isClient =
        .ran s.client.numEvents ::
          ((s.client.view .getNext).rest script).filter Entry.isClient := by
      rw [hnext.2, if_neg hpacket]
      rfl
    obtain ⟨tail, rfl⟩ := hi.inTurn.head_of_client (hown.trans hemit) (by rintro _ ⟨⟩)
    have hsame : requests (.ran s.client.numEvents :: tail) = requests tail ∧
        dones (.ran s.client.numEvents :: tail) = dones tail := by
      cases hi.inTurn.1 <;> exact ⟨rfl, rfl⟩
    have hqueue : ∃ warnings : List CString,
        s.toClient = warnings.map packetsWarn ++ replies s.server tail := by
      rw [← replies_congr hsame.2]
      exact hi.toClient hlive
    have hbetween : ∀ entry ∈ tail.head?, entry.isClient = true := by
      cases hi.inTurn.1 <;> simp [Entry.isClient]
    have hclosed : ServerTurn tail → s.client.lastEventType = some .packet := by
      rintro ⟨entry, hentry, hserver⟩
      simp [hbetween entry hentry] at hserver
    obtain rfl := Option.some.inj h
    cases fails with
    | true =>
      have hdied : (s.client.die .event).Excused s.server :=
        fun death hdeath => .inr (.inl (ClientPc.died.inj hdeath).symm)
      exact ⟨tail, hi.client_emit (c := s.client.die .event) rfl hlive hplace (by rintro _ ⟨⟩)
        (by rintro ⟨⟩) hdied
        (hi.toServer.trans hsame.1) hqueue (fun _ => hbetween) hclosed⟩
    | false =>
      refine ⟨tail, hi.client_emit (c := { s.client with pc := .getNext }) rfl hlive hplace ?_
        (by rintro ⟨⟩)
        (Client.excused_of_pc (by rintro _ ⟨⟩)) (hi.toServer.trans hsame.1) hqueue (by simp)
        hclosed⟩
      rintro place' hplace'
      obtain rfl : Place.getNext = place' := Option.some.inj hplace'
      exact ⟨hnext.1, hemit⟩

theorem clientStep (hi : Inv script s rest) (h : clientStep script s fails refused = some t) :
    ∃ rest', Inv script t rest' := by
  cases hpc : s.client.pc with
  | getNext => exact ⟨rest, hi.client_getNext hpc h⟩
  | hook => exact hi.client_hook hpc h
  | receiving => exact hi.client_receive hpc h
  | run => exact hi.client_run hpc h
  | returned => simp [Wire.clientStep, hpc] at h
  | died death => simp [Wire.clientStep, hpc] at h

/-- The server goes on by itself, or it ends. -/
theorem server_silent (hi : Inv script s rest) (hlive : s.server.ended = false)
    (hplace : s.server.pc.place = some place)
    (hview : ∀ place', v.pc.place = some place' → (v.view place').Consistent ∧
      ((v.view place').rest script).filter (! Entry.isClient ·) =
        ((s.server.view place).rest script).filter (! Entry.isClient ·))
    (hwaits : v.pc = .receiving → v.state.isPacket = true ∧ v.lastEventType ≠ some .packet)
    (hfailed : v.Excused s.client)
    (hquiet : ∀ error, v.pc ≠ .failed (.event error) ∧ v.pc ≠ .failed .process) :
    Inv script { s with server := v } rest where
  __ := hi
  server place' hplace' := by
    obtain ⟨hconsistent, hrest⟩ := hview place' hplace'
    exact ⟨hconsistent, by rw [hrest]; exact (hi.server place hplace).2⟩
  serverWaits := hwaits
  toClient hended := by
    have hreplies : replies v rest = replies s.server rest := by
      rw [replies_of_quiet fun error => (hquiet error).1, replies_of_quiet fun error hpc => ?_]
      simp [Server.ended, hpc] at hlive
    obtain ⟨warnings, hqueue⟩ := hi.toClient hended
    exact ⟨warnings, by rw [hqueue, hreplies]⟩
  clientDied := hi.clientDied.of_live hlive
  serverFailed := hfailed
  inBlock hpc := by
    obtain ⟨error, hpc⟩ | hpc := hpc
    · exact absurd hpc (hquiet error).1
    · exact absurd hpc (hquiet CString.empty).2
  failedOpen error hpc := absurd hpc (hquiet error).1

/-- The server does what comes next. -/
theorem server_emit (hi : Inv script s (entry :: tail)) (hserver : entry.isClient = false)
    (hlive : s.server.ended = false) (hplace : s.server.pc.place = some place)
    (hview : ∀ place', v.pc.place = some place' → (v.view place').Consistent ∧
      ((s.server.view place).rest script).filter (! Entry.isClient ·) =
        entry :: ((v.view place').rest script).filter (! Entry.isClient ·))
    (hwaits : v.pc ≠ .receiving) (hfailed : v.Excused s.client) {toServer toClient : List Message}
    (htoServer : toServer = requests tail) (htoClient : s.client.ended = false →
      ∃ warnings : List CString, toClient = warnings.map packetsWarn ++ replies v tail)
    (hblock : ((∃ error, v.pc = .failed (.event error)) ∨ v.pc = .failed .process) →
      ∀ entry ∈ tail.head?, entry.isClient = false) :
    Inv script { s with
      server := v
      toServer := toServer
      toClient := toClient
      log := s.log ++ [entry] } tail where
  log := by simpa using hi.log
  client place' hplace' := by
    obtain ⟨hconsistent, hrest⟩ := hi.client place' hplace'
    rw [List.filter_cons_of_neg (by simp [hserver])] at hrest
    exact ⟨hconsistent, hrest⟩
  server place' hplace' := by
    obtain ⟨hconsistent, hrest⟩ := hview place' hplace'
    have hown := (hi.server place hplace).2
    rw [List.filter_cons_of_pos (by simp [hserver]), hrest] at hown
    exact ⟨hconsistent, (List.cons.inj hown).2⟩
  clientWaits := hi.clientWaits
  serverWaits hpc := absurd hpc hwaits
  toServer := htoServer
  toClient := htoClient
  clientDied := hi.clientDied.of_live hlive
  serverFailed := hfailed
  inBlock := hblock
  betweenBlocks hpc := by
    have := hi.betweenBlocks hpc entry rfl
    simp [hserver] at this
  blockOpen _ := hi.blockOpen ⟨entry, rfl, hserver⟩
  failedOpen error _ := by
    have hbetween (h : s.client.pc = .returned ∨ s.client.pc = .died .event) : False := by
      simpa [hserver] using hi.betweenBlocks h entry rfl
    exact ⟨fun hpc => hbetween (.inl hpc), fun hpc => hbetween (.inr hpc),
      hi.blockOpen ⟨entry, rfl, hserver⟩⟩

theorem server_getNext (hi : Inv script s rest) (hpc : s.server.pc = .getNext)
    (h : serverStep script s result refused = some t) : Inv script t rest := by
  have hlive : s.server.ended = false := by simp [Server.ended, hpc]
  have hplace : s.server.pc.place = some .getNext := by rw [hpc]; rfl
  simp only [serverStep, hpc] at h
  split at h
  · next stop hstop =>
    obtain rfl := Option.some.inj h
    refine hi.server_silent hlive hplace ?_ (by rintro ⟨⟩) ?_ (by simp [Server.fail])
    · rintro place' hplace'
      obtain rfl : Place.over = place' := Option.some.inj hplace'
      have hover := View.rest_of_error (v := s.server.view .getNext) rfl hstop
      exact ⟨⟨fun hplace => absurd rfl hplace, by rintro ⟨⟩, by rintro _ ⟨⟩⟩, by rw [hover]; rfl⟩
    · rintro failure hfailure
      exact .inl ⟨stop, (ServerPc.failed.inj hfailure).symm⟩
  · next state hstate =>
    obtain rfl := Option.some.inj h
    refine hi.server_silent hlive hplace ?_ (by rintro ⟨⟩) (Server.excused_of_pc (by rintro _ ⟨⟩))
      (by simp)
    rintro place' hplace'
    obtain rfl : Place.hook = place' := Option.some.inj hplace'
    have hc := (hi.server _ hplace).1
    have hhook := View.consistent_hook (v := s.server.view .getNext) rfl hc hstate
    exact ⟨hhook.1, congrArg _ hhook.2⟩

/-- While it is the server's turn and the client has something left to do, it has not ended. -/
theorem client_live (hi : Inv script s (entry :: tail)) (hlive : s.server.ended = false)
    (hserver : entry.isClient = false)
    (hclient : (entry :: tail).filter Entry.isClient ≠ []) : s.client.ended = false := by
  cases hpc : s.client.pc with
  | returned => exact absurd (hi.client_over (by rw [hpc]; rfl)) hclient
  | died death =>
    obtain ⟨stop, rfl⟩ | rfl | ⟨error, -, hfailed⟩ | ⟨-, hfailed⟩ := hi.clientDied death hpc
    · exact absurd (hi.client_over (by rw [hpc]; rfl)) hclient
    · have := hi.betweenBlocks (.inr hpc) entry rfl
      simp [hserver] at this
    · simp [Server.ended, hfailed] at hlive
    · simp [Server.ended, hfailed] at hlive
  | _ => simp [Client.ended, hpc]

theorem server_hook (hi : Inv script s rest) (hpc : s.server.pc = .hook)
    (h : serverStep script s result refused = some t) : ∃ rest', Inv script t rest' := by
  have hlive : s.server.ended = false := by simp [Server.ended, hpc]
  have hplace : s.server.pc.place = some .hook := by rw [hpc]; rfl
  obtain ⟨hconsistent, hown⟩ := hi.server _ hplace
  have hmove : (s.server.view .hook).moveOn.Consistent ∧ (s.server.view .hook).rest script =
      exchange s.server.numEvents s.server.lastEventType s.server.state.isPacket ++
        (s.server.view .hook).moveOn.rest script := View.consistent_moveOn (.inl rfl)
  obtain ⟨hwaits, hlives⟩ := s.server.moveOn_goesOn
  have hfailed : s.server.moveOn.Excused s.client := Server.excused_of_pc hlives
  simp only [serverStep, hpc] at h
  split at h
  · next hblock =>
    obtain rfl := Option.some.inj h
    refine ⟨rest, hi.server_silent hlive hplace ?_ ?_ (Server.excused_of_pc (by rintro _ ⟨⟩))
      (by simp)⟩
    · rintro place' hplace'
      obtain rfl : Place.receiving = place' := Option.some.inj hplace'
      have hreceiving := View.consistent_receiving script rfl hconsistent
      exact ⟨hreceiving.1, congrArg _ hreceiving.2⟩
    · simpa using hblock
  · next hcond =>
    split at h
    · next hblock =>
      -- Behind the last packet event of a block.
      have hemit : ((s.server.view .hook).rest script).filter (! Entry.isClient ·) =
          .doneSent s.server.numEvents ::
            ((s.server.view .hook).moveOn.rest script).filter (! Entry.isClient ·) := by
        rw [hmove.2, exchange, if_neg hblock.1, if_pos hblock.2]
        rfl
      obtain ⟨tail, rfl⟩ := hi.inTurn.head_of_server (hown.trans hemit) (by rintro _ ⟨⟩)
      cases hi.inTurn.1 with
      | doneSent n l =>
        have hclient : s.client.ended = false := hi.client_live hlive rfl (by simp [Entry.isClient])
        rw [if_neg (by simp [hclient])] at h
        obtain rfl := Option.some.inj h
        refine ⟨_, hi.server_emit rfl hlive hplace ?_ hwaits hfailed hi.toServer ?_ ?_⟩
        · intro place' hplace'
          have hview := s.server.view_of_moveOn .hook hplace'
          rw [hview]
          exact ⟨hmove.1, hemit⟩
        · intro hended
          obtain ⟨warnings, hqueue⟩ := hi.toClient hended
          refine ⟨warnings, ?_⟩
          rw [hqueue, replies_of_quiet fun error => hlives (.event error),
            replies_of_quiet fun error hpc' => by simp [hpc] at hpc']
          simp [dones]
        · rintro (⟨error, hpc⟩ | hpc)
          · exact absurd hpc (hlives _)
          · exact absurd hpc (hlives _)
    · next hblock =>
      obtain rfl := Option.some.inj h
      refine ⟨rest, hi.server_silent hlive hplace ?_ (absurd · hwaits) hfailed
        fun error => ⟨hlives _, hlives _⟩⟩
      intro place' hplace'
      have hview := s.server.view_of_moveOn .hook hplace'
      have hexchange : exchange s.server.numEvents s.server.lastEventType
          s.server.state.isPacket = [] := by
        simp only [exchange]
        split_ifs <;> simp_all
      rw [hview, hmove.2, hexchange]
      exact ⟨hmove.1, rfl⟩

theorem filter_of_serverWaiting (hi : Inv script s rest) (hpc : s.server.pc = .receiving) :
    ∃ own, rest.filter (! Entry.isClient ·) = .startReceived s.server.numEvents :: own := by
  obtain ⟨-, hown⟩ := hi.server .receiving (by rw [hpc]; rfl)
  obtain ⟨hpacket, hlast⟩ := hi.serverWaits hpc
  have hmove : (s.server.view .receiving).rest script =
      exchange s.server.numEvents s.server.lastEventType s.server.state.isPacket ++
        (s.server.view .receiving).moveOn.rest script := (View.consistent_moveOn (.inr rfl)).2
  rw [hmove, exchange, if_pos hpacket, if_neg hlast] at hown
  exact ⟨_, hown⟩

theorem requests_of_not (h : ∀ n tail, rest ≠ .startReceived n :: tail) : requests rest = [] := by
  unfold requests
  split
  · next n tail => exact absurd rfl (h n tail)
  · rfl

theorem server_receive (hi : Inv script s rest) (hpc : s.server.pc = .receiving)
    (h : serverStep script s result refused = some t) : ∃ rest', Inv script t rest' := by
  have hlive : s.server.ended = false := by simp [Server.ended, hpc]
  have hplace : s.server.pc.place = some .receiving := by rw [hpc]; rfl
  obtain ⟨hconsistent, hown⟩ := hi.server _ hplace
  obtain ⟨hpacket, hlast⟩ := hi.serverWaits hpc
  have hmove : (s.server.view .receiving).moveOn.Consistent ∧
      (s.server.view .receiving).rest script =
        exchange s.server.numEvents s.server.lastEventType s.server.state.isPacket ++
          (s.server.view .receiving).moveOn.rest script := View.consistent_moveOn (.inr rfl)
  have hemit : ((s.server.view .receiving).rest script).filter (! Entry.isClient ·) =
      .startReceived s.server.numEvents ::
        ((s.server.view .receiving).moveOn.rest script).filter (! Entry.isClient ·) := by
    rw [hmove.2, exchange, if_pos hpacket, if_neg hlast]
    rfl
  obtain ⟨hwaits, hlives⟩ := s.server.moveOn_goesOn
  simp only [serverStep, hpc, hi.toServer] at h
  by_cases hstart : ∃ n tail, rest = .startReceived n :: tail
  · obtain ⟨n, tail, rfl⟩ := hstart
    obtain rfl : n = s.server.numEvents := by
      rw [hemit, List.filter_cons_of_pos rfl] at hown
      simpa using (List.cons.inj hown).1
    simp only [requests, receivePacketsStart_packetsStart] at h
    obtain rfl := Option.some.inj h
    have hsame : requests tail = [] ∧
        dones (.startReceived s.server.numEvents :: tail) = dones tail := by
      cases hi.inTurn.1
      exact ⟨rfl, rfl⟩
    refine ⟨tail, hi.server_emit rfl hlive hplace ?_ hwaits (Server.excused_of_pc hlives)
      hsame.1.symm ?_ ?_⟩
    · intro place' hplace'
      have hview := s.server.view_of_moveOn .receiving hplace'
      rw [hview]
      exact ⟨hmove.1, hemit⟩
    · intro hended
      obtain ⟨warnings, hqueue⟩ := hi.toClient hended
      refine ⟨warnings, ?_⟩
      rw [hqueue, replies_of_quiet fun error => hlives (.event error), ← hsame.2,
        replies_of_quiet fun error hpc' => by simp [hpc] at hpc']
    · rintro (⟨error, hpc⟩ | hpc)
      · exact absurd hpc (hlives _)
      · exact absurd hpc (hlives _)
  · have hnone : requests rest = [] :=
      requests_of_not fun n tail htail => hstart ⟨n, tail, htail⟩
    simp only [hnone] at h
    split at h
    · next hended =>
      obtain rfl := Option.some.inj h
      have hsilent := hi.server_silent (v := s.server.fail .connection) hlive hplace
        (by rintro _ ⟨⟩) (by rintro ⟨⟩)
        (fun failure hfailure =>
          .inr (.inr (.inr ⟨(ServerPc.failed.inj hfailure).symm, hended⟩)))
        (by simp [Server.fail])
      exact ⟨rest, { hsilent with toServer := hnone.symm }⟩
    · cases h

/-- A packet event of the server is the next entry, and nothing else is on its way then. -/
theorem server_packet (hi : Inv script s rest) (hpc : s.server.pc = .run)
    (hpacket : s.server.state.isPacket = true) :
    ((s.server.view .run).rest script).filter (! Entry.isClient ·) =
        .packet s.server.numEvents ::
          ((s.server.view .getNext).rest script).filter (! Entry.isClient ·) ∧
      ∃ tail, rest = .packet s.server.numEvents :: tail ∧ requests tail = [] ∧ dones tail = [] ∧
        ∀ entry ∈ tail.head?, entry.isClient = false := by
  obtain ⟨hconsistent, hown⟩ := hi.server .run (by rw [hpc]; rfl)
  have hnext : (s.server.view .run).rest script =
      (if s.server.state.isPacket then .packet s.server.numEvents else .ran s.server.numEvents) ::
        (s.server.view .getNext).rest script := (View.consistent_getNext rfl hconsistent).2
  have hemit : ((s.server.view .run).rest script).filter (! Entry.isClient ·) =
      .packet s.server.numEvents ::
        ((s.server.view .getNext).rest script).filter (! Entry.isClient ·) := by
    rw [hnext, if_pos hpacket]
    rfl
  obtain ⟨tail, rfl⟩ := hi.inTurn.head_of_server (hown.trans hemit) (by rintro _ ⟨⟩)
  refine ⟨hemit, tail, rfl, ?_⟩
  cases hi.inTurn.1 <;> exact ⟨rfl, rfl, by simp [Entry.isClient]⟩

theorem server_run (hi : Inv script s rest) (hpc : s.server.pc = .run)
    (h : serverStep script s result refused = some t) : ∃ rest', Inv script t rest' := by
  have hlive : s.server.ended = false := by simp [Server.ended, hpc]
  have hplace : s.server.pc.place = some .run := by rw [hpc]; rfl
  obtain ⟨hconsistent, hown⟩ := hi.server _ hplace
  have hnext : (s.server.view .getNext).Consistent ∧ (s.server.view .run).rest script =
      (if s.server.state.isPacket then .packet s.server.numEvents else .ran s.server.numEvents) ::
        (s.server.view .getNext).rest script := View.consistent_getNext rfl hconsistent
  simp only [serverStep, hpc] at h
  split at h
  · next hpacket =>
    obtain ⟨hemit, tail, rfl, hrequests, hdones, hblock⟩ := hi.server_packet hpc hpacket
    have hqueue (hended : s.client.ended = false) :
        ∃ warnings : List CString, s.toClient = warnings.map packetsWarn := by
      obtain ⟨warnings, hqueue⟩ := hi.toClient hended
      rw [replies_of_quiet fun error hpc' => by simp [hpc] at hpc'] at hqueue
      exact ⟨warnings, by simpa [dones] using hqueue⟩
    have hview : ∀ place', ServerPc.place .getNext = some place' →
        (s.server.view place').Consistent ∧
          ((s.server.view .run).rest script).filter (! Entry.isClient ·) =
            .packet s.server.numEvents ::
              ((s.server.view place').rest script).filter (! Entry.isClient ·) := by
      rintro place' hplace'
      obtain rfl : Place.getNext = place' := Option.some.inj hplace'
      exact ⟨hnext.1, hemit⟩
    have hstart : s.toServer = requests tail := hi.toServer.trans hrequests.symm
    obtain rfl := Option.some.inj h
    refine ⟨tail, ?_⟩
    cases result with
    | ok =>
      refine hi.server_emit (v := { s.server with pc := .getNext }) rfl hlive hplace hview
        (by rintro ⟨⟩)
        (Server.excused_of_pc (by rintro _ ⟨⟩)) hstart ?_ (by simp)
      intro hended
      obtain ⟨warnings, hqueue⟩ := hqueue hended
      exact ⟨warnings, by rw [hqueue, replies_of_quiet (by simp), hdones, List.append_nil]⟩
    | warn error =>
      simp only [runPacketEvent]
      split
      · next hrefused =>
        refine hi.server_emit (v := s.server.fail .connection) rfl hlive hplace (by rintro _ ⟨⟩)
          (by rintro ⟨⟩) ?_
          hstart ?_ (by simp [Server.fail])
        · exact fun failure hfailure =>
            .inr (.inr (.inr ⟨(ServerPc.failed.inj hfailure).symm, hrefused.2⟩))
        · simp [hrefused.2]
      · refine hi.server_emit (v := { s.server with pc := .getNext }) rfl hlive hplace hview
          (by rintro ⟨⟩)
          (Server.excused_of_pc (by rintro _ ⟨⟩)) hstart ?_ (by simp)
        intro hended
        obtain ⟨warnings, hqueue⟩ := hqueue hended
        refine ⟨warnings ++ [error], ?_⟩
        rw [hqueue, replies_of_quiet (by simp), hdones]
        simp
    | err error =>
      have hfailed : (s.server.fail (.event error)).Excused s.client :=
        fun failure hfailure => .inr (.inl ⟨error, (ServerPc.failed.inj hfailure).symm⟩)
      simp only [runPacketEvent]
      split
      · next hrefused =>
        refine hi.server_emit (v := s.server.fail (.event error)) rfl hlive hplace (by rintro _ ⟨⟩)
          (by rintro ⟨⟩)
          hfailed hstart ?_ fun _ => hblock
        simp [hrefused.2]
      · refine hi.server_emit (v := s.server.fail (.event error)) rfl hlive hplace (by rintro _ ⟨⟩)
          (by rintro ⟨⟩)
          hfailed hstart ?_ fun _ => hblock
        intro hended
        obtain ⟨warnings, hqueue⟩ := hqueue hended
        exact ⟨warnings, by rw [hqueue]; rfl⟩
    | die =>
      refine hi.server_emit (v := s.server.fail .process) rfl hlive hplace (by rintro _ ⟨⟩)
        (by rintro ⟨⟩) ?_ hstart ?_
        fun _ => hblock
      · exact fun failure hfailure => .inr (.inr (.inl (ServerPc.failed.inj hfailure).symm))
      · intro hended
        obtain ⟨warnings, hqueue⟩ := hqueue hended
        refine ⟨warnings, ?_⟩
        rw [hqueue, replies_of_quiet (by simp [Server.fail]), hdones, List.append_nil]
  · next hpacket =>
    obtain rfl := Option.some.inj h
    refine ⟨rest, hi.server_silent hlive hplace ?_ (by rintro ⟨⟩) (Server.excused_of_pc
      (by rintro _ ⟨⟩)) (by simp)⟩
    rintro place' hplace'
    obtain rfl : Place.getNext = place' := Option.some.inj hplace'
    refine ⟨hnext.1, ?_⟩
    rw [hnext.2, if_neg hpacket]
    rfl

theorem serverStep (hi : Inv script s rest) (h : serverStep script s result refused = some t) :
    ∃ rest', Inv script t rest' := by
  cases hpc : s.server.pc with
  | getNext => exact ⟨rest, hi.server_getNext hpc h⟩
  | hook => exact hi.server_hook hpc h
  | receiving => exact hi.server_receive hpc h
  | run => exact hi.server_run hpc h
  | returned => simp [Wire.serverStep, hpc] at h
  | failed failure => simp [Wire.serverStep, hpc] at h

theorem step {act : Act} (hi : Inv script s rest) (h : Step script s act t) :
    ∃ rest', Inv script t rest' := by
  cases act with
  | client fails refused => exact hi.clientStep h
  | server result refused => exact hi.serverStep h

end Inv

/-- At first it is the client's turn, and no message is on its way. -/
theorem head_transcript (script : Script) :
    requests script.transcript = [] ∧ dones script.transcript = [] ∧
      ¬ ServerTurn script.transcript := by
  unfold Script.transcript
  cases script.eventList with
  | nil => simp [transcript, exchange, requests, dones, ServerTurn]
  | cons event next =>
    by_cases hrefused : Refused none event <;> by_cases hevent : event.type = .packet <;>
      simp [transcript, exchange, execution, requests, dones, ServerTurn, Entry.isClient, hrefused,
        hevent]

theorem inv_stateNew (script : Script) : Inv script stateNew script.transcript where
  log := rfl
  client place' hplace' := by
    obtain rfl : Place.getNext = place' := Option.some.inj hplace'
    exact ⟨⟨fun _ => rfl, (by rintro ⟨⟩), fun _ _ => rfl⟩, rfl⟩
  server place' hplace' := by
    obtain rfl : Place.getNext = place' := Option.some.inj hplace'
    exact ⟨⟨fun _ => rfl, (by rintro ⟨⟩), fun _ _ => rfl⟩, rfl⟩
  clientWaits := by rintro ⟨⟩
  serverWaits := by rintro ⟨⟩
  toServer := (head_transcript script).1.symm
  toClient _ := ⟨[], (head_transcript script).2.1.symm⟩
  clientDied := Client.excused_of_pc (by rintro _ ⟨⟩)
  serverFailed := Server.excused_of_pc (by rintro _ ⟨⟩)
  inBlock := by simp [stateNew]
  betweenBlocks := by simp [stateNew]
  blockOpen hturn := absurd hturn (head_transcript script).2.2
  failedOpen := by rintro _ ⟨⟩

end QoSMos.Wire
