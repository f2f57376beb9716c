import QoSMos.Tunnel.Program

/-!
# What the tunnel relays

`threadIncoming` writes what it receives, less the control packets, and `threadOutgoing`
sends what it reads: `Relayed` keeps the two logs of each thread together, with the
datagram of the current iteration between them. How the loops end is a different matter,
and `throughout_relayFidelity_iff` says which results of calls end them wrongly.
-/

namespace QoSMos.Tunnel

open LabelledPath

/-! ## Reading a trace -/

@[grind =] def Event.received : Event → Option (List UInt8)
  | .recvfrom io => io.datagram
  | _ => none

@[grind =] def Event.written : Event → Option (List UInt8)
  | .write data (.sent _) => some data
  | _ => none

@[grind =] def Event.readPacket : Event → Option (List UInt8)
  | .read io => io.datagram
  | _ => none

@[grind =] def Event.sent : Event → Option (List UInt8)
  | .sendto _ data (.sent _) => some data
  | _ => none

/-- What the entries of a trace hold, in order. -/
def logged (f : Event → Option (List UInt8)) (trace : List Entry) : List (List UInt8) :=
  trace.filterMap fun e => f e.event

@[grind =] theorem logged_snoc (f : Event → Option (List UInt8)) (trace : List Entry) (e : Entry) :
    logged f (trace ++ [e]) = logged f trace ++ (f e.event).toList := by
  cases h : f e.event <;> simp [logged, List.filterMap_append, h]

/-- A datagram whose first byte is not zero. -/
@[grind =] def forData (bytes : List UInt8) : Bool := bytes.head?.any (· ≠ 0)

/-- The received datagrams that are not control packets. -/
def relayable (trace : List Entry) : List (List UInt8) :=
  (logged Event.received trace).filter forData

@[grind =] theorem relayable_snoc (trace : List Entry) (e : Entry) :
    relayable (trace ++ [e]) = relayable trace ++ e.event.received.toList.filter forData := by
  simp [relayable, logged_snoc]

/-- `EAGAIN` only says that there is nothing to do yet. -/
@[grind =] def Io.isError : Io → Bool
  | .failed errno => errno ≠ EAGAIN
  | _ => false

/-- What a loop may end for: `running`, or a call that failed. -/
@[grind =] def Event.endsLoop : Event → Bool
  | .testRunning value | .setRunning value => !value
  | .recvfrom io | .read io | .sendto _ _ io | .write _ io => io.isError
  | _ => false

def Local.lastEvent {Pc : Type} (th : Local Pc) : Option Event := th.trace.getLast?.map Entry.event

/-- The last thing the thread did may end its loop. -/
@[grind =] def Local.mayEnd {Pc : Type} (th : Local Pc) : Bool := th.lastEvent.any Event.endsLoop

theorem lastEvent_of_trace {Pc : Type} {th : Local Pc} {trace : List Entry} {e : Entry}
    (h : th.trace = trace ++ [e]) : th.lastEvent = some e.event := by
  simp [Local.lastEvent, h]

@[grind =] theorem lastEvent_observe {Pc : Type} (th : Local Pc) (clock : Nat) (event : Event) :
    (th.observe clock event).lastEvent = some event := by
  simp [Local.lastEvent, Local.observe]

@[grind =] theorem lastEvent_goto {Pc : Type} (th : Local Pc) (pc : Pc) :
    (th.goto pc).lastEvent = th.lastEvent := rfl

/-! ## Fidelity -/

/-- Each thread passes on what it took in, in order, unchanged and once, except perhaps the
datagram of the iteration it is in or in which it left the loop. A thread that just left
its loop did so for `running` or a failed call. -/
structure RelayFidelity (s : State) : Prop where
  incoming : ∃ inFlight, relayable s.incoming.trace =
      logged Event.written s.incoming.trace ++ inFlight ∧ inFlight.length ≤ 1 ∧
    (s.incoming.pc = .recvfrom → inFlight = [])
  outgoing : ∃ inFlight, logged Event.readPacket s.outgoing.trace =
      logged Event.sent s.outgoing.trace ++ inFlight ∧ inFlight.length ≤ 1 ∧
    (s.outgoing.pc = .lock → inFlight = [])
  incomingEnd : s.incoming.pc = .notify → s.incoming.mayEnd
  outgoingEnd : s.outgoing.pc = .notify → s.outgoing.mayEnd

/-- No zero-length datagram meets an `errno` other than `EAGAIN`, and no datagram is refused
with `EAGAIN` or a count of zero. -/
def NoTransient (s : State) : Act → Prop
  | .thread .incoming io =>
    (s.incoming.pc = .recvfrom → io = .received [] → s.incoming.errno = EAGAIN) ∧
    (s.incoming.pc = .forward → io ≠ .failed EAGAIN ∧ io ≠ .sent 0)
  | .thread .outgoing io =>
    (s.outgoing.pc = .read → io = .received [] → s.outgoing.errno = EAGAIN) ∧
    (s.outgoing.pc = .sendto → io ≠ .failed EAGAIN ∧ io ≠ .sent 0)
  | _ => True

/-- Places in `threadIncoming` at which `buf` holds the datagram of the iteration. -/
@[grind =] def IncomingPc.carries : IncomingPc → Bool
  | .recvfrom | .notify | .returned => false
  | _ => true

/-- What `threadIncoming` relays in each state. -/
structure IncomingRelayed (th : Local IncomingPc) : Prop where
  between : th.pc = .recvfrom → relayable th.trace = logged Event.written th.trace
  carried : th.pc.carries → th.buf ≠ [] ∧
    relayable th.trace = logged Event.written th.trace ++ [th.buf].filter forData
  forward : th.pc = .forward → forData th.buf
  left : th.pc = .notify ∨ th.pc = .returned → ∃ inFlight,
    relayable th.trace = logged Event.written th.trace ++ inFlight ∧ inFlight.length ≤ 1

/-- What `threadOutgoing` relays in each state. -/
structure OutgoingRelayed (th : Local OutgoingPc) : Prop where
  between : th.pc ≠ .sendto → th.pc ≠ .notify → th.pc ≠ .returned →
    logged Event.readPacket th.trace = logged Event.sent th.trace
  carried : th.pc = .sendto →
    logged Event.readPacket th.trace = logged Event.sent th.trace ++ [th.buf]
  left : th.pc = .notify ∨ th.pc = .returned → ∃ inFlight,
    logged Event.readPacket th.trace = logged Event.sent th.trace ++ inFlight ∧
    inFlight.length ≤ 1

/-- The last thing `threadIncoming` did on its way out of the loop. -/
def IncomingEnded (th : Local IncomingPc) : Prop :=
  th.pc = .unlockStopped ∨ th.pc = .unlockIdle ∨ th.pc = .notify → th.mayEnd

/-- The last thing `threadOutgoing` did on its way out of the loop. -/
def OutgoingEnded (th : Local OutgoingPc) : Prop :=
  th.pc = .unlockStopped ∨ th.pc = .notify → th.mayEnd

theorem forData_of_dispatch {buf : List UInt8} (hbuf : buf ≠ [])
    (h : dispatch buf = .forward) : forData buf := by
  cases buf with
  | nil => contradiction
  | cons byte bytes => simpa [dispatch, forData] using h

theorem not_forData_of_dispatch {buf : List UInt8} (h : dispatch buf = .recvfrom) :
    forData buf = false := by
  cases buf with
  | nil => rfl
  | cons byte bytes => simpa [dispatch, forData] using h

theorem dispatch_cases (buf : List UInt8) : dispatch buf = .recvfrom ∨ dispatch buf = .forward := by
  unfold dispatch
  split_ifs <;> simp

section Relay

variable {getDscp : List UInt8 → Int} {s t : State} {a : Act} {io : Io}

theorem IncomingRelayed.recvfrom (hs : IncomingRelayed s.incoming)
    (h : incomingStep s io = some t) (hpc : s.incoming.pc = .recvfrom) :
    IncomingRelayed t.incoming := by
  have hbetween := hs.between hpc
  cases hio : io.datagram with
  | some bytes =>
    obtain ⟨hpc', hbuf, hne, htrace⟩ := incomingStep_datagram h hpc hio
    constructor <;> grind
  | none =>
    obtain ⟨hpc', -, htrace⟩ := incomingStep_noDatagram h hpc hio
    have hrelayable : relayable t.incoming.trace = logged Event.written t.incoming.trace := by
      grind
    constructor <;> grind

theorem IncomingRelayed.forwarded (hs : IncomingRelayed s.incoming)
    (h : incomingStep s io = some t) (hpc : s.incoming.pc = .forward) :
    IncomingRelayed t.incoming := by
  have hcarried := (hs.carried (by rw [hpc]; rfl)).2
  have hdata := hs.forward hpc
  obtain ⟨htrace, hio⟩ := incomingStep_forward h hpc
  by_cases hsent : ∃ n, io = .sent n
  · have hrelayable : relayable t.incoming.trace = logged Event.written t.incoming.trace := by
      obtain ⟨n, rfl⟩ := hsent
      grind
    refine ⟨fun _ => hrelayable, ?_, ?_, fun _ => ⟨[], by simpa using hrelayable, by simp⟩⟩ <;>
      grind
  · have hrelayable : relayable t.incoming.trace =
        logged Event.written t.incoming.trace ++ [s.incoming.buf] := by
      cases io <;> grind
    refine ⟨?_, ?_, ?_, fun _ => ⟨_, hrelayable, by simp⟩⟩ <;> grind

/-- Only the two calls on datagrams change what is in flight. -/
theorem incomingStep_quiet (h : incomingStep s io = some t) (hrecv : s.incoming.pc ≠ .recvfrom)
    (hforward : s.incoming.pc ≠ .forward) :
    t.incoming.buf = s.incoming.buf ∧
      relayable t.incoming.trace = relayable s.incoming.trace ∧
      logged Event.written t.incoming.trace = logged Event.written s.incoming.trace := by
  unfold incomingStep at h
  cases hpc : s.incoming.pc <;> first | contradiction | grind

theorem incomingStep_moves (h : incomingStep s io = some t) (hrecv : s.incoming.pc ≠ .recvfrom)
    (hforward : s.incoming.pc ≠ .forward) :
    s.incoming.pc.carries ∧
        (t.incoming.pc.carries ∧ (t.incoming.pc = .forward → dispatch s.incoming.buf = .forward) ∨
          t.incoming.pc = .recvfrom ∧ dispatch s.incoming.buf = .recvfrom ∨
          t.incoming.pc = .notify) ∨
      s.incoming.pc = .notify ∧ t.incoming.pc = .returned := by
  have hdispatch := dispatch_cases s.incoming.buf
  unfold incomingStep at h
  cases hpc : s.incoming.pc <;> first | contradiction | grind

theorem IncomingRelayed.quiet (hs : IncomingRelayed s.incoming) (h : incomingStep s io = some t)
    (hrecv : s.incoming.pc ≠ .recvfrom) (hforward : s.incoming.pc ≠ .forward) :
    IncomingRelayed t.incoming := by
  obtain ⟨hbuf, hrelayable, hwritten⟩ := incomingStep_quiet h hrecv hforward
  obtain ⟨hcarries, hmoves⟩ | ⟨hnotify, hreturned⟩ := incomingStep_moves h hrecv hforward
  · obtain ⟨hne, hcarried⟩ := hs.carried hcarries
    have hdata := forData_of_dispatch hne
    have hcontrol := @not_forData_of_dispatch s.incoming.buf
    constructor
    · grind
    · grind
    · grind
    · intro _
      exact ⟨_, by rw [hrelayable, hwritten, hcarried], List.length_filter_le _ _⟩
  · have hleft := hs.left (.inl hnotify)
    constructor <;> grind

theorem IncomingRelayed.step (hs : IncomingRelayed s.incoming) (h : incomingStep s io = some t) :
    IncomingRelayed t.incoming := by
  by_cases hrecv : s.incoming.pc = .recvfrom
  · exact hs.recvfrom h hrecv
  · by_cases hforward : s.incoming.pc = .forward
    · exact hs.forwarded h hforward
    · exact hs.quiet h hrecv hforward

theorem OutgoingRelayed.read (hs : OutgoingRelayed s.outgoing)
    (h : outgoingStep getDscp s io = some t) (hpc : s.outgoing.pc = .read) :
    OutgoingRelayed t.outgoing := by
  have hbetween := hs.between (by simp [hpc]) (by simp [hpc]) (by simp [hpc])
  cases hio : io.datagram with
  | some bytes =>
    obtain ⟨hpc', hbuf, htrace⟩ := outgoingStep_packet h hpc hio
    constructor <;> grind
  | none =>
    obtain ⟨hpc', -, htrace⟩ := outgoingStep_noPacket h hpc hio
    have hrelayed : logged Event.readPacket t.outgoing.trace =
        logged Event.sent t.outgoing.trace := by
      grind
    constructor <;> grind

theorem OutgoingRelayed.sendto (hs : OutgoingRelayed s.outgoing)
    (h : outgoingStep getDscp s io = some t) (hpc : s.outgoing.pc = .sendto) :
    OutgoingRelayed t.outgoing := by
  have hcarried := hs.carried hpc
  obtain ⟨htrace, hio⟩ := outgoingStep_sendto h hpc
  by_cases hsent : ∃ n, io = .sent n
  · have hrelayed : logged Event.readPacket t.outgoing.trace =
        logged Event.sent t.outgoing.trace := by
      obtain ⟨n, rfl⟩ := hsent
      grind
    refine ⟨fun _ _ _ => hrelayed, ?_, fun _ => ⟨[], by simpa using hrelayed, by simp⟩⟩
    grind
  · have hrelayed : logged Event.readPacket t.outgoing.trace =
        logged Event.sent t.outgoing.trace ++ [s.outgoing.buf] := by
      cases io <;> grind
    refine ⟨?_, ?_, fun _ => ⟨_, hrelayed, by simp⟩⟩ <;> grind

theorem OutgoingRelayed.step (hs : OutgoingRelayed s.outgoing)
    (h : outgoingStep getDscp s io = some t) : OutgoingRelayed t.outgoing := by
  cases hpc : s.outgoing.pc
  case read => exact hs.read h hpc
  case sendto => exact hs.sendto h hpc
  all_goals
    obtain ⟨hbetween, hcarried, hleft⟩ := hs
    unfold outgoingStep at h
    constructor <;> grind

theorem IncomingEnded.step (hs : IncomingEnded s.incoming) (h : incomingStep s io = some t)
    (hc : NoTransient s (.thread .incoming io)) : IncomingEnded t.incoming := by
  obtain ⟨hrecv, hforward⟩ := hc
  unfold IncomingEnded at *
  cases hpc : s.incoming.pc
  case recvfrom =>
    cases hio : io.datagram with
    | some bytes =>
      have := incomingStep_datagram h hpc hio
      grind
    | none =>
      obtain ⟨hpc', hcall, htrace⟩ := incomingStep_noDatagram h hpc hio
      have hlast : t.incoming.lastEvent = some (.recvfrom io) := lastEvent_of_trace htrace
      grind [Io.errno]
  case forward =>
    obtain ⟨htrace, hio⟩ := incomingStep_forward h hpc
    have hlast : t.incoming.lastEvent = some (.write s.incoming.buf io) := lastEvent_of_trace htrace
    grind
  case unlock | keepAlive =>
    have := dispatch_cases s.incoming.buf
    unfold incomingStep at h
    grind
  all_goals
    unfold incomingStep at h
    grind

theorem OutgoingEnded.step (hs : OutgoingEnded s.outgoing) (h : outgoingStep getDscp s io = some t)
    (hc : NoTransient s (.thread .outgoing io)) : OutgoingEnded t.outgoing := by
  obtain ⟨hread, hsendto⟩ := hc
  unfold OutgoingEnded at *
  cases hpc : s.outgoing.pc
  case read =>
    cases hio : io.datagram with
    | some bytes =>
      have := outgoingStep_packet h hpc hio
      grind
    | none =>
      obtain ⟨hpc', hcall, htrace⟩ := outgoingStep_noPacket h hpc hio
      have hlast : t.outgoing.lastEvent = some (.read io) := lastEvent_of_trace htrace
      grind [Io.errno]
  case sendto =>
    obtain ⟨htrace, hio⟩ := outgoingStep_sendto h hpc
    have hlast := lastEvent_of_trace htrace
    grind
  all_goals
    unfold outgoingStep at h
    grind

/-- The invariant of the runs without transient faults. -/
structure Relayed (s : State) : Prop where
  incoming : IncomingRelayed s.incoming
  outgoing : OutgoingRelayed s.outgoing
  incomingEnd : IncomingEnded s.incoming
  outgoingEnd : OutgoingEnded s.outgoing

theorem Relayed.step (hs : Relayed s) (h : Step getDscp s a t) (hc : NoTransient s a) :
    Relayed t := by
  obtain ⟨hin, hout, hinEnd, houtEnd⟩ := hs
  constructor
  · obtain ⟨io, rfl, h⟩ | ⟨-, hframe, -⟩ := h.incoming_cases
    · exact hin.step h
    · rwa [hframe]
  · obtain ⟨io, rfl, h⟩ | ⟨-, hframe⟩ := h.outgoing_cases
    · exact hout.step h
    · rwa [hframe]
  · obtain ⟨io, rfl, h⟩ | ⟨-, hframe, -⟩ := h.incoming_cases
    · exact hinEnd.step h hc
    · rwa [hframe]
  · obtain ⟨io, rfl, h⟩ | ⟨-, hframe⟩ := h.outgoing_cases
    · exact houtEnd.step h hc
    · rwa [hframe]

theorem relayed_tunnelLoop (clock : Nat) : Relayed (tunnelLoop clock) := by
  refine ⟨⟨?_, ?_, ?_, ?_⟩, ⟨?_, ?_, ?_⟩, ?_, ?_⟩ <;>
    simp [tunnelLoop, Local.start, relayable, logged, IncomingPc.carries, IncomingEnded,
      OutgoingEnded]

theorem IncomingRelayed.inFlight {th : Local IncomingPc} (h : IncomingRelayed th) :
    ∃ inFlight, relayable th.trace = logged Event.written th.trace ++ inFlight ∧
      inFlight.length ≤ 1 ∧ (th.pc = .recvfrom → inFlight = []) := by
  by_cases hcarries : th.pc.carries
  · refine ⟨_, (h.carried hcarries).2, List.length_filter_le _ _, fun hpc => ?_⟩
    simp [hpc, IncomingPc.carries] at hcarries
  · by_cases hpc : th.pc = .recvfrom
    · exact ⟨[], by simpa using h.between hpc, by simp, fun _ => rfl⟩
    · obtain ⟨inFlight, heq, hlen⟩ := h.left (by cases hth : th.pc <;> grind)
      exact ⟨inFlight, heq, hlen, fun hrecv => absurd hrecv hpc⟩

theorem OutgoingRelayed.inFlight {th : Local OutgoingPc} (h : OutgoingRelayed th) :
    ∃ inFlight, logged Event.readPacket th.trace = logged Event.sent th.trace ++ inFlight ∧
      inFlight.length ≤ 1 ∧ (th.pc = .lock → inFlight = []) := by
  by_cases hpc : th.pc = .notify ∨ th.pc = .returned
  · obtain ⟨inFlight, heq, hlen⟩ := h.left hpc
    exact ⟨inFlight, heq, hlen, fun hlock => by simp [hlock] at hpc⟩
  · by_cases hsendto : th.pc = .sendto
    · exact ⟨_, h.carried hsendto, by simp, fun hlock => by simp [hlock] at hsendto⟩
    · push Not at hpc
      exact ⟨[], by simpa using h.between hsendto hpc.1 hpc.2, by simp, fun _ => rfl⟩

theorem Relayed.relayFidelity (hs : Relayed s) : RelayFidelity s where
  incoming := hs.incoming.inFlight
  outgoing := hs.outgoing.inFlight
  incomingEnd hpc := hs.incomingEnd (.inr (.inr hpc))
  outgoingEnd hpc := hs.outgoingEnd (.inr hpc)

/-- A transient fault ends the loop, and the last event shows it. -/
theorem noTransient_of_fidelity (h : Step getDscp s a t) (ht : RelayFidelity t) :
    NoTransient s a := by
  have hinEnd := ht.incomingEnd
  have houtEnd := ht.outgoingEnd
  cases a with
  | thread T io =>
    cases T with
    | incoming =>
      refine ⟨fun hpc hio => ?_, fun hpc => ?_⟩
      · subst hio
        obtain ⟨hpc', -, htrace⟩ := incomingStep_noDatagram h hpc rfl
        have hlast := lastEvent_of_trace htrace
        grind [Io.errno]
      · obtain ⟨htrace, hio⟩ := incomingStep_forward h hpc
        have hlast := lastEvent_of_trace htrace
        grind
    | outgoing =>
      refine ⟨fun hpc hio => ?_, fun hpc => ?_⟩
      · subst hio
        obtain ⟨hpc', -, htrace⟩ := outgoingStep_noPacket h hpc rfl
        have hlast := lastEvent_of_trace htrace
        grind [Io.errno]
      · obtain ⟨htrace, hio⟩ := outgoingStep_sendto h hpc
        have hlast := lastEvent_of_trace htrace
        grind
  | tunnelStop | tick => trivial

/-- The threads relay faithfully, and end only for `running` or an error, in exactly the
runs in which no call fails transiently. -/
theorem throughout_relayFidelity_iff (getDscp : List UInt8 → Int) (clock : Nat)
    (as : List Act) (t : State) :
    Throughout (Step getDscp) RelayFidelity (tunnelLoop clock) as t ↔
      Path (Restrict (Step getDscp) NoTransient) (tunnelLoop clock) as t := by
  refine Throughout.iff_restrict Relayed ?_ ?_ ?_ (relayed_tunnelLoop clock)
  · intro s a u hs h hc
    exact hs.step h hc
  · intro s hs
    exact hs.relayFidelity
  · intro s a u _ h hu
    exact noTransient_of_fidelity h hu

/-- The write of a received datagram to the VPN descriptor would block, and
`threadIncoming` gives up. -/
theorem not_forall_relayFidelity :
    ¬ ∀ (getDscp : List UInt8 → Int) (clock : Nat) (as : List Act) (t : State),
      Path (Step getDscp) (tunnelLoop clock) as t → RelayFidelity t := by
  intro h
  have hfidelity := h (fun _ => 0) 0 (.thread .incoming (.received [69]) ::
    List.replicate 6 (.thread .incoming .noCall) ++ [.thread .incoming (.failed EAGAIN)]) _
    (exec_eq_some_iff.mp rfl)
  have hend := hfidelity.incomingEnd rfl
  revert hend
  decide

end Relay

end QoSMos.Tunnel
