import QoSMos.Tunnel.Program

/-!
# The mutex of the tunnel

Both threads take `lock` around their test of `running`. `threadIncoming` gives it back on
each of its paths; `threadOutgoing` only when it finds `running` cleared. `MutexDiscipline`
is what a state owes, whatever happens next, and `throughout_mutexDiscipline_iff` says in
which runs every state has it.
-/

namespace QoSMos.Tunnel

open LabelledPath

/-! ## Places -/

/-- Between the lock call of `threadIncoming` and the unlock call on the way taken. -/
@[grind =] def IncomingPc.inside : IncomingPc → Bool
  | .testRunning | .unlockStopped | .stamp | .setRunning | .idle | .clearRunning | .unlockIdle
  | .unlock => true
  | _ => false

/-- How many steps `threadIncoming` takes at most before an unlock call. -/
@[grind =] def IncomingPc.rank : IncomingPc → Nat
  | .testRunning => 5
  | .stamp => 4
  | .setRunning => 3
  | .idle => 2
  | .clearRunning => 1
  | _ => 0

/-- How many steps a thread takes at most before its unlock call. -/
def State.rank (s : State) : Thread → Nat
  | .incoming => s.incoming.pc.rank
  | .outgoing => if s.outgoing.pc = .testRunning then 1 else 0

/-- The thread is about to call `pthread_mutex_lock`. -/
def State.AtLock (s : State) : Thread → Prop
  | .incoming => s.incoming.pc = .lock
  | .outgoing => s.outgoing.pc = .lock

/-- The thread is about to begin its loop body, or has left its loop. -/
def State.BetweenIterations (s : State) : Thread → Prop
  | .incoming => s.incoming.pc = .recvfrom ∨ s.incoming.pc = .notify ∨ s.incoming.pc = .returned
  | .outgoing => s.outgoing.pc = .lock ∨ s.outgoing.pc = .notify ∨ s.outgoing.pc = .returned

/-! ## Steps of the threads -/

section Steps

variable {getDscp : List UInt8 → Int} {s t : State} {io : Io}

/-- `threadIncoming` holds the lock exactly inside. -/
theorem incomingStep_inside (h : incomingStep s io = some t)
    (hs : s.lock = some .incoming ↔ s.incoming.pc.inside) :
    t.lock = some .incoming ↔ t.incoming.pc.inside := by
  unfold incomingStep at h
  cases hpc : s.incoming.pc <;> grind

theorem outgoingStep_inside (h : outgoingStep getDscp s io = some t)
    (hs : s.lock = some .incoming ↔ s.incoming.pc.inside)
    (ho : s.lock = some .outgoing ↔
      s.outgoing.pc = .testRunning ∨ s.outgoing.pc = .unlockStopped) :
    t.lock = some .incoming ↔ t.incoming.pc.inside := by
  unfold outgoingStep at h
  cases hpc : s.outgoing.pc <;> grind

/-- While `threadOutgoing` holds the lock, the other thread neither takes it nor sets
`running`. -/
theorem incomingStep_keeps (h : incomingStep s io = some t)
    (hs : s.lock = some .incoming ↔ s.incoming.pc.inside) :
    (t.lock = some .outgoing ↔ s.lock = some .outgoing) ∧
      (s.lock = some .outgoing → s.running = false → t.running = false) := by
  unfold incomingStep at h
  cases hpc : s.incoming.pc <;> grind

theorem incomingStep_rank (h : incomingStep s io = some t) (hin : s.incoming.pc.inside)
    (ht : t.lock = some .incoming) : t.rank .incoming < s.rank .incoming := by
  unfold incomingStep at h
  cases hpc : s.incoming.pc <;> grind [State.rank]

theorem exists_incomingStep (hin : s.incoming.pc.inside) :
    ∃ t, incomingStep s .noCall = some t := by
  rw [← Option.isSome_iff_exists]
  unfold incomingStep
  cases hpc : s.incoming.pc <;> grind

/-- What `threadOutgoing` does while it is inside its critical section and `running` is
false, and when it enters it so. -/
theorem outgoingStep_stopped (h : outgoingStep getDscp s io = some t)
    (ho : s.lock = some .outgoing ↔
      s.outgoing.pc = .testRunning ∨ s.outgoing.pc = .unlockStopped)
    (hlock : s.outgoing.pc = .lock → s.running = false)
    (htest : s.outgoing.pc = .testRunning → s.running = false)
    (hread : s.outgoing.pc ≠ .read ∧ s.outgoing.pc ≠ .sendto) :
    (t.lock = some .outgoing ↔
      t.outgoing.pc = .testRunning ∨ t.outgoing.pc = .unlockStopped) ∧
    (t.outgoing.pc = .testRunning → t.running = false) ∧
    t.outgoing.pc ≠ .read ∧ t.outgoing.pc ≠ .sendto := by
  unfold outgoingStep at h
  cases hpc : s.outgoing.pc <;> grind

theorem outgoingStep_rank (h : outgoingStep getDscp s io = some t)
    (hin : s.outgoing.pc = .testRunning ∨ s.outgoing.pc = .unlockStopped)
    (ht : t.lock = some .outgoing) : t.rank .outgoing < s.rank .outgoing := by
  unfold outgoingStep at h
  cases hpc : s.outgoing.pc <;> grind [State.rank]

theorem exists_outgoingStep (getDscp : List UInt8 → Int)
    (hpc : s.outgoing.pc = .testRunning ∨ s.outgoing.pc = .unlockStopped) :
    ∃ t, outgoingStep getDscp s .noCall = some t := by
  rw [← Option.isSome_iff_exists]
  unfold outgoingStep
  rcases hpc with hpc | hpc <;> simp [hpc]

/-- `threadOutgoing` passes its test of `running`. -/
theorem exists_outgoing_read (getDscp : List UInt8 → Int) (hpc : s.outgoing.pc = .testRunning)
    (hrunning : s.running = true) : ∃ t, Step getDscp s (.thread .outgoing .noCall) t ∧
      t.outgoing.pc = .read ∧ t.lock = s.lock := by
  simp [Step, step, outgoingStep, hpc, hrunning, Local.goto]

/-- Its `read` has no packet, and it begins again. -/
theorem exists_outgoing_continue (getDscp : List UInt8 → Int) (hpc : s.outgoing.pc = .read) :
    ∃ t, Step getDscp s (.thread .outgoing (.failed EAGAIN)) t ∧
      t.outgoing.pc = .lock ∧ t.lock = s.lock := by
  simp [Step, step, outgoingStep, hpc, Io.isReceive, Local.goto, Local.observe, Local.receive,
    Io.value, Io.errno]

end Steps

/-! ## The discipline -/

/-- Steps during which the thread keeps the lock. -/
def Keeping (getDscp : List UInt8 → Int) (T : Thread) (s : State) (a : Act) (t : State) : Prop :=
  Step getDscp s a t ∧ s.lock = some T ∧ t.lock = some T

/-- No thread that holds the lock is about to take it. Whatever happens while a thread keeps
the lock, it does not come to the end of its iteration, it can always go on, and it gives
the lock back with its sixth step at the latest, so that the other one does not wait
forever. -/
structure MutexDiscipline (getDscp : List UInt8 → Int) (u : State) : Prop where
  noRelock : ∀ T, u.AtLock T → u.lock ≠ some T
  released : ∀ T as v, u.lock = some T → Path (Keeping getDscp T) u as v →
    ¬ v.BetweenIterations T ∧ as.countP (Act.isBy T) ≤ 5
  progress : ∀ T as v, u.lock = some T → Path (Keeping getDscp T) u as v →
    ∃ io w, Step getDscp v (.thread T io) w

/-- `threadOutgoing` takes the lock only after `running` was cleared. -/
def LocksOnlyStopped (s : State) (a : Act) : Prop :=
  ∀ io, a = .thread .outgoing io → s.outgoing.pc = .lock → s.running = false

/-- The invariant of the runs in which it does. -/
structure Locked (s : State) : Prop where
  incoming : s.lock = some .incoming ↔ s.incoming.pc.inside
  outgoing : s.lock = some .outgoing ↔
    s.outgoing.pc = .testRunning ∨ s.outgoing.pc = .unlockStopped
  stopped : s.outgoing.pc = .testRunning → s.running = false
  outside : s.outgoing.pc ≠ .read ∧ s.outgoing.pc ≠ .sendto

section Discipline

variable {getDscp : List UInt8 → Int} {s t u v : State} {a : Act} {as : List Act} {T : Thread}

theorem Locked.step (hs : Locked s) (h : Step getDscp s a t) (hc : LocksOnlyStopped s a) :
    Locked t := by
  cases a with
  | thread T io =>
    cases T with
    | incoming =>
      have hframe := (incomingStep_frame h).1
      have hkeep := incomingStep_keeps h hs.incoming
      refine ⟨incomingStep_inside h hs.incoming, ?_, ?_, ?_⟩
      · rw [hkeep.1, hframe, hs.outgoing]
      · rw [hframe]
        exact fun htest => hkeep.2 (hs.outgoing.mpr (.inl htest)) (hs.stopped htest)
      · rw [hframe]
        exact hs.outside
    | outgoing =>
      have hout := outgoingStep_stopped h hs.outgoing (hc io rfl) hs.stopped hs.outside
      exact ⟨outgoingStep_inside h hs.incoming hs.outgoing, hout.1, hout.2.1, hout.2.2⟩
  | tunnelStop =>
    obtain rfl : { s with running := false } = t := by simpa [Step, Tunnel.step] using h
    exact ⟨hs.incoming, hs.outgoing, fun _ => rfl, hs.outside⟩
  | tick =>
    obtain rfl : { s with clock := s.clock + 1 } = t := by simpa [Step, Tunnel.step] using h
    exact ⟨hs.incoming, hs.outgoing, hs.stopped, hs.outside⟩

/-- A lock that is held cannot be taken, so these steps meet the condition. -/
theorem Locked.keeping (hs : Locked s) (h : Keeping getDscp T s a t) : Locked t := by
  obtain ⟨hstep, hheld, -⟩ := h
  refine hs.step hstep fun io ha hpc => ?_
  subst ha
  simp [Step, Tunnel.step, outgoingStep, hpc, hheld] at hstep

theorem Locked.rank_step (hs : Locked s) (h : Keeping getDscp T s a t) :
    t.rank T + (if Act.isBy T a then 1 else 0) ≤ s.rank T := by
  obtain ⟨hstep, hheld, hheld'⟩ := h
  cases a with
  | thread U io =>
    cases U with
    | incoming =>
      cases T with
      | incoming =>
        have := incomingStep_rank hstep (hs.incoming.mp hheld) hheld'
        simp only [Act.isBy, decide_true, if_true]
        omega
      | outgoing => simp [State.rank, Act.isBy, (incomingStep_frame hstep).1]
    | outgoing =>
      cases T with
      | incoming => simp [State.rank, Act.isBy, (outgoingStep_frame hstep).1]
      | outgoing =>
        have := outgoingStep_rank hstep (hs.outgoing.mp hheld) hheld'
        simp only [Act.isBy, decide_true, if_true]
        omega
  | tunnelStop =>
    obtain rfl : { s with running := false } = t := by simpa [Step, Tunnel.step] using hstep
    cases T <;> simp [State.rank, Act.isBy]
  | tick =>
    obtain rfl : { s with clock := s.clock + 1 } = t := by simpa [Step, Tunnel.step] using hstep
    cases T <;> simp [State.rank, Act.isBy]

theorem Locked.rank_le (hs : Locked s) (h : Path (Keeping getDscp T) s as t) :
    Locked t ∧ t.rank T + as.countP (Act.isBy T) ≤ s.rank T := by
  induction h with
  | nil => exact ⟨hs, by simp⟩
  | cons hr _ ih =>
    obtain ⟨ht, hrank⟩ := ih (hs.keeping hr)
    have := hs.rank_step hr
    refine ⟨ht, ?_⟩
    rw [List.countP_cons]
    omega

theorem locked_tunnelLoop (clock : Nat) : Locked (tunnelLoop clock) := by
  refine ⟨?_, ?_, ?_, ?_⟩ <;> simp [tunnelLoop, Local.start, IncomingPc.inside]

theorem State.rank_le (s : State) (T : Thread) : s.rank T ≤ 5 := by
  cases T with
  | incoming => cases hpc : s.incoming.pc <;> simp [State.rank, IncomingPc.rank, hpc]
  | outgoing =>
    simp only [State.rank]
    split_ifs <;> omega

theorem keeping_lock (hu : u.lock = some T) (h : Path (Keeping getDscp T) u as v) :
    v.lock = some T :=
  h.invariant (fun s => s.lock = some T) (fun _ _ _ _ hr => hr.2.2) hu

theorem Locked.inside (getDscp : List UInt8 → Int) (hs : Locked s) (hlock : s.lock = some T) :
    ¬ s.AtLock T ∧ ¬ s.BetweenIterations T ∧ ∃ io t, Step getDscp s (.thread T io) t := by
  cases T with
  | incoming =>
    have hin := hs.incoming.mp hlock
    obtain ⟨t, ht⟩ := exists_incomingStep hin
    refine ⟨?_, ?_, .noCall, t, ht⟩ <;> simp only [State.AtLock, State.BetweenIterations] <;> grind
  | outgoing =>
    have hin := hs.outgoing.mp hlock
    obtain ⟨t, ht⟩ := exists_outgoingStep getDscp hin
    refine ⟨?_, ?_, .noCall, t, ht⟩ <;> simp only [State.AtLock, State.BetweenIterations] <;> grind

theorem Locked.mutexDiscipline (hs : Locked s) : MutexDiscipline getDscp s where
  noRelock T hat hlock := (hs.inside getDscp hlock).1 hat
  released T as v hlock hp := by
    obtain ⟨hv, hrank⟩ := hs.rank_le hp
    have := s.rank_le T
    exact ⟨(hv.inside getDscp (keeping_lock hlock hp)).2.1, by omega⟩
  progress T as v hlock hp := ((hs.rank_le hp).1.inside getDscp (keeping_lock hlock hp)).2.2

/-- Once `threadOutgoing` has found `running` set, its `continue` leads it back to the lock
it holds. -/
theorem locksOnlyStopped_of_discipline (h : Step getDscp s a t)
    (ht : MutexDiscipline getDscp t) : LocksOnlyStopped s a := by
  rintro io rfl hpc
  by_contra hrunning
  obtain ⟨hlock, hpc, hrunning⟩ : t.lock = some .outgoing ∧ t.outgoing.pc = .testRunning ∧
      t.running = true := by
    simp only [Step, Tunnel.step, outgoingStep, hpc] at h
    grind
  obtain ⟨u, hu, hupc, hulock⟩ := exists_outgoing_read getDscp hpc hrunning
  obtain ⟨v, hv, hvpc, hvlock⟩ := exists_outgoing_continue getDscp hupc
  have hp : Path (Keeping getDscp .outgoing) t
      [.thread .outgoing .noCall, .thread .outgoing (.failed EAGAIN)] v :=
    .cons ⟨hu, hlock, hulock.trans hlock⟩
      (.cons ⟨hv, hulock.trans hlock, hvlock.trans (hulock.trans hlock)⟩ (.nil v))
  exact (ht.released .outgoing _ v hlock hp).1 (.inl hvpc)

/-- The mutex is used with discipline in exactly the runs in which `threadOutgoing` takes
it only after `running` was cleared. -/
theorem throughout_mutexDiscipline_iff (getDscp : List UInt8 → Int) (clock : Nat)
    (as : List Act) (t : State) :
    Throughout (Step getDscp) (MutexDiscipline getDscp) (tunnelLoop clock) as t ↔
      Path (Restrict (Step getDscp) LocksOnlyStopped) (tunnelLoop clock) as t := by
  refine Throughout.iff_restrict Locked ?_ ?_ ?_ (locked_tunnelLoop clock)
  · intro s a u hs h hc
    exact hs.step h hc
  · intro s hs
    exact hs.mutexDiscipline
  · intro s a u _ h hu
    exact locksOnlyStopped_of_discipline h hu

/-- The first packet that `threadOutgoing` waits for in vain: it calls
`pthread_mutex_lock` while it holds the lock. -/
theorem not_forall_mutexDiscipline :
    ¬ ∀ (getDscp : List UInt8 → Int) (clock : Nat) (as : List Act) (t : State),
      Path (Step getDscp) (tunnelLoop clock) as t → MutexDiscipline getDscp t := by
  intro h
  have hdisc := h (fun _ => 0) 0 [.thread .outgoing .noCall, .thread .outgoing .noCall,
    .thread .outgoing (.failed EAGAIN)] _ (exec_eq_some_iff.mp rfl)
  exact hdisc.noRelock .outgoing rfl rfl

end Discipline

end QoSMos.Tunnel
