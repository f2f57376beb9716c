import QoSMos.Tunnel.Program

/-!
# Stopping the tunnel

Whoever clears `running` asks both threads to leave their loops. `StopHonoured` compares a
later state with the one in which `running` was false: what the threads did since then
outside the iteration they were in. `threadOutgoing` tests `running` first thing in an
iteration, `threadIncoming` only behind its `recvfrom`.
-/

namespace QoSMos.Tunnel

open LabelledPath

/-! ## What came later -/

def Event.isIo : Event → Bool
  | .recvfrom _ | .read _ | .sendto _ _ _ | .write _ _ => true
  | _ => false

/-- The entries of a longer trace that the thread made in later iterations. -/
def Local.later {Pc : Type} (th : Local Pc) (trace : List Entry) : List Entry :=
  (trace.drop th.trace.length).filter (th.iteration < ·.iteration)

theorem later_self {Pc : Type} (th : Local Pc) : th.later th.trace = [] := by
  simp [Local.later]

theorem later_snoc {Pc : Type} {th : Local Pc} {trace : List Entry}
    (h : th.trace.length ≤ trace.length) (e : Entry) :
    th.later (trace ++ [e]) = th.later trace ++ [e].filter (th.iteration < ·.iteration) := by
  simp [Local.later, List.drop_append_of_le_length h]

/-- In its later iterations the thread does no I/O and finds `running` false, and there is
only one. -/
structure Leaves {Pc : Type} (before after : Local Pc) : Prop where
  noIo : ∀ e ∈ before.later after.trace, ¬ e.event.isIo
  tests : ∀ e ∈ before.later after.trace, e.event ≠ .testRunning true
  last : after.iteration ≤ before.iteration + 1

/-- From these places `threadIncoming` does no more I/O while `running` is false: it has its
datagram and comes to the test, or it is on its way out. -/
def IncomingPc.leaves : IncomingPc → Bool
  | .lock | .testRunning | .unlockStopped => true
  | .clearRunning | .unlockIdle | .notify | .returned => true
  | _ => false

/-! ## Runs that stop -/

/-- `threadIncoming` stays in its iteration. -/
structure IncomingStays (before after : Local IncomingPc) : Prop where
  grows : before.trace.length ≤ after.trace.length
  same : after.iteration = before.iteration
  nothing : before.later after.trace = []

/-- `threadOutgoing` is in the iteration it was in, or on its way out. -/
structure OutgoingLeaves (before after : Local OutgoingPc) : Prop where
  grows : before.trace.length ≤ after.trace.length
  leaves : Leaves before after
  begun : before.iteration ≤ after.iteration
  out : after.iteration = before.iteration ∨ after.pc = .testRunning ∨
    after.pc = .unlockStopped ∨ after.pc = .notify ∨ after.pc = .returned

section Runs

variable {getDscp : List UInt8 → Int} {s t u : State} {a : Act} {io : Io}

theorem IncomingStays.step (hs : IncomingStays s.incoming u.incoming)
    (h : incomingStep u io = some t) (hc : u.incoming.pc ≠ .recvfrom) :
    IncomingStays s.incoming t.incoming := by
  obtain ⟨hgrows, hsame, hnothing⟩ := hs
  have hsnoc := @later_snoc _ s.incoming u.incoming.trace hgrows
  unfold incomingStep at h
  cases hpc : u.incoming.pc <;> first | contradiction | (constructor <;> grind)

theorem incomingStays_self (th : Local IncomingPc) : IncomingStays th th :=
  ⟨Nat.le_refl _, rfl, later_self th⟩

theorem OutgoingLeaves.step (hs : OutgoingLeaves s.outgoing u.outgoing)
    (h : outgoingStep getDscp u io = some t) (hrunning : u.running = false) :
    OutgoingLeaves s.outgoing t.outgoing := by
  obtain ⟨hgrows, ⟨hnoIo, htests, hlast⟩, hbegun, hout⟩ := hs
  have hsnoc := @later_snoc _ s.outgoing u.outgoing.trace hgrows
  unfold outgoingStep at h
  cases hpc : u.outgoing.pc <;> refine ⟨?_, ⟨?_, ?_, ?_⟩, ?_, ?_⟩ <;> grind [Event.isIo]

/-- `running` is false and `threadIncoming` does not set it again. -/
structure Stopped (u : State) : Prop where
  running : u.running = false
  leaves : u.incoming.pc.leaves = true

theorem Stopped.step (hu : Stopped u) (h : Step getDscp u a t) : Stopped t := by
  obtain ⟨hrunning, hleaves⟩ := hu
  cases a with
  | thread T io =>
    cases T with
    | incoming =>
      simp only [Step, step] at h
      unfold incomingStep at h
      cases hpc : u.incoming.pc <;> constructor <;> grind [IncomingPc.leaves]
    | outgoing =>
      simp only [Step, step] at h
      obtain ⟨hincoming, -⟩ := outgoingStep_frame h
      refine ⟨?_, hincoming ▸ hleaves⟩
      unfold outgoingStep at h
      cases hpc : u.outgoing.pc <;> grind
  | tunnelStop | tick =>
    obtain rfl := Option.some.inj h
    exact ⟨by simp [hrunning], hleaves⟩

/-- The invariant of the runs that honour the request. -/
structure Stopping (s u : State) : Prop where
  stopped : Stopped u
  incoming : IncomingStays s.incoming u.incoming
  outgoing : OutgoingLeaves s.outgoing u.outgoing

theorem Stopping.step (hu : Stopping s u) (h : Step getDscp u a t) : Stopping s t := by
  refine ⟨hu.stopped.step h, ?_, ?_⟩
  · obtain ⟨io, rfl, h⟩ | ⟨-, hframe, -⟩ := h.incoming_cases
    · refine hu.incoming.step h fun hpc => ?_
      have hleaves := hu.stopped.leaves
      rw [hpc] at hleaves
      cases hleaves
    · rw [hframe]
      exact hu.incoming
  · obtain ⟨io, rfl, h⟩ | ⟨-, hframe⟩ := h.outgoing_cases
    · exact hu.outgoing.step h hu.stopped.running
    · rw [hframe]
      exact hu.outgoing

end Runs

/-! ## Runs that begin again -/

section Begins

variable {getDscp : List UInt8 → Int} {s u : State} {io : Io}

/-- In some run `threadIncoming` comes back to its `recvfrom`, without having begun an
iteration on the way. -/
def Begins (getDscp : List UInt8 → Int) (s : State) : Prop :=
  ∃ as t, Path (Step getDscp) s as t ∧ t.incoming.pc = .recvfrom ∧
    t.incoming.iteration = s.incoming.iteration ∧
    s.incoming.trace.length ≤ t.incoming.trace.length

theorem Begins.step (hu : Begins getDscp u) (h : incomingStep s io = some u)
    (hpc : s.incoming.pc ≠ .recvfrom) : Begins getDscp s := by
  obtain ⟨as, t, hpath, hend, hsame, hlen⟩ := hu
  obtain ⟨hgrows, hiteration, -⟩ := (incomingStays_self s.incoming).step h hpc
  exact ⟨.thread .incoming io :: as, t, .cons h hpath, hend, hsame.trans hiteration,
    Nat.le_trans hgrows hlen⟩

end Begins

/-- The tunnel right after a `tunnelStop`. -/
def stopped : State := { tunnelLoop 0 with running := false }

end QoSMos.Tunnel
