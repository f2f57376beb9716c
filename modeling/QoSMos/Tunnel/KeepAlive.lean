import QoSMos.Tunnel.Program

/-!
# The keep-alive of the tunnel

`threadIncoming` is to send a control packet when no datagram came for 15 seconds, and to
stop when none came for more than 30. A `Watch` reads off the trace of the thread what an
iteration saw of this and what it did about it. `KeepAlive` compares the two whenever an
iteration is over, and `throughout_keepAlive` says in which runs they agree.
-/

namespace QoSMos.Tunnel

open LabelledPath

/-! ## Watching a trace -/

/-- What a trace says about its last iteration. -/
structure Watch where
  /-- When the last datagram came. -/
  last : Option Nat
  /-- For how long none had come when the iteration looked: at its `recvfrom`, or where it
  computes `idleTime`, whichever is longer. -/
  silence : Nat
  /-- It sent a control packet through `sock_cssix`. -/
  kept : Bool
  /-- It cleared `running`. -/
  cleared : Bool
  deriving DecidableEq, Repr

/-- Control packets begin with a zero byte. -/
def isControl (data : List UInt8) : Bool := data.head? = some 0

@[grind =] def Watch.since (w : Watch) (clock : Nat) : Nat :=
  match w.last with
  | none => 0
  | some last => clock - last

@[grind =] def Watch.see (w : Watch) (e : Entry) : Watch :=
  match e.event with
  | .recvfrom io =>
    { last := if io.datagram.isSome then some e.clock else w.last
      silence := w.since e.clock
      kept := false
      cleared := false }
  | .idle _ => { w with silence := max w.silence (w.since e.clock) }
  | .sendto .cssix data (.sent _) => { w with kept := w.kept || isControl data }
  | .setRunning false => { w with cleared := true }
  | _ => w

def watch (trace : List Entry) : Watch := trace.foldl Watch.see ⟨none, 0, false, false⟩

@[grind =] theorem watch_snoc (trace : List Entry) (e : Entry) :
    watch (trace ++ [e]) = (watch trace).see e := by
  simp [watch]

/-! ## The rule -/

def State.watch (s : State) : Watch := Tunnel.watch s.incoming.trace

/-- The place of `threadIncoming` before, between and behind its iterations. -/
def State.IterationOver (s : State) : Prop :=
  s.incoming.pc = .recvfrom ∨ s.incoming.pc = .returned

/-- An iteration that is over kept the tunnel alive if it had to, and if it had to stop it
cleared `running` and was the last one. -/
structure KeepAlive (s : State) : Prop where
  keep : s.IterationOver → 15 ≤ s.watch.silence → s.watch.kept
  stop : s.IterationOver → 30 < s.watch.silence → s.watch.cleared ∧ s.incoming.pc = .returned

/-- The time at which a step meets the rule. Without a datagram it has to come within 15
seconds from the last one. An iteration that saw 15 seconds pass meets it only if they
passed between its two calls of `time`, behind a control packet. -/
def InTime (s : State) : Act → Prop
  | .thread .incoming io =>
    match s.incoming.pc with
    | .recvfrom => io.datagram = none → s.watch.since s.clock < 15
    | .testRunning => s.running = false → s.watch.silence < 15
    | .idle =>
      let silence := max s.watch.silence (s.watch.since s.clock)
      let idleTime := toInt32 (s.clock - s.lastRecvTime)
      silence < 15 ∨ silence ≤ 30 ∧ 15 ≤ idleTime ∧ idleTime ≤ 30 ∧ isControl s.incoming.buf
    | .keepAlive => s.watch.silence < 15 ∨ ∃ n, io = .sent n
    | _ => True
  | _ => True

/-! ## Runs in time -/

/-- What an iteration has to be like so far for its end to meet the rule. -/
def Timely (s : State) : Prop :=
  match s.incoming.pc with
  | .recvfrom => s.watch.silence < 15 ∨ s.watch.silence ≤ 30 ∧ s.watch.kept
  | .lock | .testRunning | .stamp | .setRunning | .idle => True
  | .unlock => s.watch.silence < 15 ∨
      s.watch.silence ≤ 30 ∧ 15 ≤ s.idleTime ∧ isControl s.incoming.buf
  | .keepAlive => s.watch.silence < 15 ∨ s.watch.silence ≤ 30 ∧ isControl s.incoming.buf
  | _ => s.watch.silence < 15

/-- A control packet ends the iteration that sends it. -/
def Unkept (s : State) : Prop := s.incoming.pc ≠ .recvfrom → s.watch.kept = false

section Runs

variable {getDscp : List UInt8 → Int} {s t : State} {a : Act} {io : Io} {as : List Act}

theorem dispatch_eq (buf : List UInt8) :
    dispatch buf = if isControl buf then .recvfrom else .forward := by
  simp [dispatch, isControl]

theorem Unkept.step (hs : Unkept s) (h : incomingStep s io = some t) : Unkept t := by
  unfold Unkept State.watch at *
  unfold incomingStep at h
  cases hpc : s.incoming.pc <;> grind [dispatch_eq]

theorem timely_recvfrom_iff (h : incomingStep s io = some t) (hpc : s.incoming.pc = .recvfrom) :
    Timely t ↔ InTime s (.thread .incoming io) := by
  simp only [Timely, InTime, hpc, State.watch]
  cases hio : io.datagram with
  | some bytes =>
    obtain ⟨hpc', -, -, -⟩ := incomingStep_datagram h hpc hio
    simp [hpc']
  | none =>
    obtain ⟨hpc', -, htrace⟩ := incomingStep_noDatagram h hpc hio
    split_ifs at hpc' <;> simp [hpc', htrace, watch_snoc, Watch.see]

/-- Each step keeps what the iteration has to be like if it is in time, and no other step
does. -/
theorem timely_incomingStep_iff (hs : Unkept s) (h : incomingStep s io = some t) :
    Timely t ↔ (s.incoming.pc = .recvfrom ∨ Timely s) ∧ InTime s (.thread .incoming io) := by
  unfold Unkept at hs
  cases hpc : s.incoming.pc
  case recvfrom => simpa using timely_recvfrom_iff h hpc
  all_goals
    simp only [incomingStep, hpc] at h
    simp only [Timely, InTime, hpc, State.watch] at hs ⊢
    grind [dispatch_eq]

theorem Unkept.of_step (hs : Unkept s) (h : Step getDscp s a t) : Unkept t := by
  obtain ⟨io, rfl, h⟩ | ⟨-, hframe, -⟩ := h.incoming_cases
  · exact hs.step h
  · unfold Unkept State.watch
    rwa [hframe]

theorem Timely.keepAlive (h : Timely s) : KeepAlive s := by
  constructor <;> rintro (hpc | hpc) <;> simp only [Timely, hpc] at h <;> grind

theorem KeepAlive.timely (hs : Unkept s) (h : KeepAlive s) (hover : s.IterationOver) :
    Timely s := by
  have hkeep := h.keep hover
  have hstop := h.stop hover
  unfold Unkept at hs
  obtain hpc | hpc := hover <;> simp only [Timely, hpc] at hs hstop ⊢ <;> grind

theorem timely_step_iff (hs : Unkept s) (hk : KeepAlive s) (h : Step getDscp s a t) :
    Timely t ↔ Timely s ∧ InTime s a := by
  obtain ⟨io, rfl, h⟩ | ⟨hother, hframe, -, hidle⟩ := h.incoming_cases
  · have hover : s.incoming.pc = .recvfrom → Timely s := fun hpc => hk.timely hs (.inl hpc)
    rw [timely_incomingStep_iff hs h]
    tauto
  · have hfree : InTime s a := by
      cases a with
      | thread T io => cases T <;> simp_all [InTime, Act.isBy]
      | tunnelStop | tick => trivial
    simp only [Timely, State.watch, hframe, hidle, hfree, and_true]

theorem timely_tunnelLoop (clock : Nat) : Timely (tunnelLoop clock) := by
  simp [Timely, tunnelLoop, Local.start, State.watch, watch]

theorem unkept_tunnelLoop (clock : Nat) : Unkept (tunnelLoop clock) := fun h => absurd rfl h

/-- Every run whose steps are in time keeps the tunnel alive as it should, and a run that
does so and ends with an iteration has all its steps in time. -/
theorem throughout_keepAlive (getDscp : List UInt8 → Int) (clock : Nat) (as : List Act)
    (t : State) :
    (Path (Restrict (Step getDscp) InTime) (tunnelLoop clock) as t →
      Throughout (Step getDscp) KeepAlive (tunnelLoop clock) as t) ∧
    (t.IterationOver → Throughout (Step getDscp) KeepAlive (tunnelLoop clock) as t →
      Path (Restrict (Step getDscp) InTime) (tunnelLoop clock) as t) := by
  constructor
  · refine Throughout.of_restrict (fun s => Unkept s ∧ Timely s) ?_ ?_
      ⟨unkept_tunnelLoop clock, timely_tunnelLoop clock⟩
    · intro s a u ⟨hs, ht⟩ h hc
      exact ⟨hs.of_step h, (timely_step_iff hs ht.keepAlive h).mpr ⟨ht, hc⟩⟩
    · intro s ⟨_, ht⟩
      exact ht.keepAlive
  · intro hover
    refine Throughout.restrict_of_end Unkept Timely ?_ ?_ (unkept_tunnelLoop clock)
      (fun hs hk => hk.timely hs hover)
    · intro s a u hs h
      exact hs.of_step h
    · intro s a u hs hk h hu
      exact (timely_step_iff hs hk h).mp hu

/-- A datagram is forwarded, and for the next 15 seconds there is none: `threadIncoming`
begins again before it looks at the time. -/
theorem not_forall_keepAlive :
    ¬ ∀ (getDscp : List UInt8 → Int) (clock : Nat) (as : List Act) (t : State),
      Path (Step getDscp) (tunnelLoop clock) as t → KeepAlive t := by
  intro h
  have hkeep := h (fun _ => 0) 0 (.thread .incoming (.received [69]) ::
    List.replicate 6 (.thread .incoming .noCall) ++ .thread .incoming (.sent 1) ::
    List.replicate 15 .tick ++ [.thread .incoming (.failed EAGAIN)]) _
    (exec_eq_some_iff.mp rfl)
  have hkept := hkeep.keep (.inl rfl) (by decide)
  revert hkept
  decide

end Runs

end QoSMos.Tunnel
