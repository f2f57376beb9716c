import Mathlib.Data.List.Nodup
import Mathlib.Data.List.ReduceOption
import QoSMos.Session.Program

/-!
# Ownership of descriptors

A descriptor is closed once and not used any more. The sockets keep to this in every
history. The VPN interface does not: `tunnelLoop` closes the number it was lent, and at
the end of the session `run` closes the `ParcelFileDescriptor` around it once more.
-/

namespace QoSMos.Session

open LabelledPath

/-- After a descriptor with `P` was closed, it is neither closed nor used. -/
def Disciplined (P : Descriptor → Prop) (trace : List Event) : Prop :=
  trace.Pairwise fun e f => ∀ d, P d → e = .closed d → f ≠ .closed d ∧ f ≠ .used d

/-- The law for all descriptors. -/
abbrev Owned (s : State) : Prop := Disciplined (fun _ => True) s.trace

def Descriptor.IsSocket (d : Descriptor) : Prop := ∃ which n, d = .socket which n

def Descriptor.opening : Descriptor → Nat
  | .socket _ n | .interface n => n

/-- `tunnelLoop` does not come to its end. -/
def LoopGoesOn (_ : State) : Act → Prop
  | .joined => False
  | _ => True

section Traces

variable {P : Descriptor → Prop} {trace : List Event} {d : Descriptor} {l : List Descriptor}

theorem Disciplined.opened (h : Disciplined P trace) (l : List Descriptor) :
    Disciplined P (trace ++ l.map .opened) := by
  refine List.pairwise_append.mpr ⟨h, ?_, ?_⟩
  · refine List.pairwise_map.mpr (List.pairwise_of_forall fun c c' d _ hd => ?_)
    cases hd
  · intro e _ f hf d _ _
    obtain ⟨c, -, rfl⟩ := List.mem_map.mp hf
    simp

/-- Descriptors that are open may be used. -/
theorem Disciplined.used (h : Disciplined P trace)
    (hl : ∀ d ∈ l, P d → .closed d ∉ trace) : Disciplined P (trace ++ l.map .used) := by
  refine List.pairwise_append.mpr ⟨h, ?_, ?_⟩
  · refine List.pairwise_map.mpr (List.pairwise_of_forall fun c c' d _ hd => ?_)
    cases hd
  · rintro e he f hf d hP rfl
    obtain ⟨c, hc, rfl⟩ := List.mem_map.mp hf
    refine ⟨by simp, ?_⟩
    rintro hcd
    obtain rfl : c = d := by simpa using hcd
    exact hl c hc hP he

/-- Different descriptors that are open may be closed. -/
theorem Disciplined.closed (h : Disciplined P trace) (hnodup : l.Nodup)
    (hl : ∀ d ∈ l, P d → .closed d ∉ trace) : Disciplined P (trace ++ l.map .closed) := by
  refine List.pairwise_append.mpr ⟨h, ?_, ?_⟩
  · refine List.pairwise_map.mpr (hnodup.imp fun {a c} hne d _ hd => ?_)
    obtain rfl : a = d := by simpa using hd
    exact ⟨by simpa using hne.symm, by simp⟩
  · rintro e he f hf d hP rfl
    obtain ⟨c, hc, rfl⟩ := List.mem_map.mp hf
    refine ⟨?_, by simp⟩
    rintro hcd
    obtain rfl : c = d := by simpa using hcd
    exact hl c hc hP he

theorem not_disciplined_of_closed_twice (hP : P d) (h : .closed d ∈ trace) :
    ¬ Disciplined P (trace ++ [.closed d]) := by
  intro hdisciplined
  have hpair := (List.pairwise_append.mp hdisciplined).2.2 _ h (.closed d) (by simp)
  exact (hpair d hP rfl).1 rfl

end Traces

/-! ## What holds in every history -/

/-- The variables of the service, wherever it stands. -/
structure Tidy (s : State) : Prop where
  sockets : ∀ which d, s.sockets which = some d → d.opening < s.openings ∧
    (∃ n, d = .socket which n) ∧ .closed d ∉ s.trace
  interface : ∀ pfd, s.mInterface = some pfd → ∃ n < s.openings, pfd.fd = .interface n
  vpnfd : ∀ d, s.vpnfd = some d → ∃ n < s.openings, d = .interface n
  fresh : ∀ d, .closed d ∈ s.trace → d.opening < s.openings
  disciplined : Disciplined Descriptor.IsSocket s.trace

/-- What the places of a session add. -/
structure Placed (s : State) : Prop where
  protect : ∀ socks, s.pc = .protect socks → ∀ d, some d ∈ socks → ∃ which, s.sockets which = some d
  threads : s.pc = .mutexInit ∨ s.pc = .threads →
    ∃ fd, s.mInterface = some ⟨fd, false⟩ ∧ s.vpnfd = some fd

section Steps

variable {s t : State} {a : Act}

/-- What a step can do. Where nothing but `pc` and `attempt` changes, the session tries again or
comes to its end. -/
inductive Moves (s : State) : Act → State → Prop where
  | moved {a : Act} (pc : Pc) (attempt : Nat) (hpc : pc = .getTunnelSock ∨ pc = .finallyBlock) :
      Moves s a { s with pc := pc, attempt := attempt }
  | opened (succeeds : Tunnel.Socket → Bool) :
      Moves s (.getTunnelSock true succeeds) ((getTunnelSock s succeeds).goto
        (.protect (socketOrder.map (getTunnelSock s succeeds).sockets)))
  | protects (fd : Option Descriptor) (socks : List (Option Descriptor)) (result : Bool) (pc : Pc)
      (hs : s.pc = .protect (fd :: socks))
      (hpc : pc = .finallyBlock ∨ pc = .startTunnel ∨ pc = .protect socks) :
      Moves s (.protect result) ((s.log .used fd).goto pc)
  | started (received : Nat) (parameters : String) :
      Moves s (.startTunnel (some (received, parameters))) { s with
        pc := .configure parameters
        trace := s.trace ++
          (List.replicate (2 + received) (s.sockets .cssix)).reduceOption.map .used }
  | configured (parameters : String) (built : Built) :
      Moves s (.configure built) (configure s parameters built)
  | lent (pfd : ParcelFileDescriptor) (hinterface : s.mInterface = some pfd)
      (hopen : pfd.isClosed = false) :
      Moves s .getFd { s.goto .mutexInit with vpnfd := some pfd.fd }
  | mutexInit (hs : s.pc = .mutexInit) : Moves s (.mutexInit true) (s.goto .threads)
  | socketUsed (which : Tunnel.Socket) (hs : s.pc = .threads) :
      Moves s (.threadIo (some which)) (s.log .used (s.sockets which))
  | interfaceUsed (hs : s.pc = .threads) : Moves s (.threadIo none) (s.log .used s.vpnfd)
  | joined (hs : s.pc = .threads) : Moves s .joined ((closeAll s).goto .finallyBlock)
  | ended (hs : s.pc = .finallyBlock) :
      Moves s .finallyBlock
        { (closeInterface s).goto .idle with mInterface := none, mParameters := none }

theorem moves_of_step (h : step s a = some t) : Moves s a t := by
  cases a with
  | run portParses =>
    simp only [step] at h
    split_ifs at h
    all_goals obtain rfl := Option.some.inj h
    · exact .moved _ 0 (.inl rfl)
    · exact .moved _ 0 (.inr rfl)
  | getTunnelSock array succeeds =>
    simp only [step] at h
    split_ifs at h with hpc harray
    all_goals obtain rfl := Option.some.inj h
    · subst harray
      exact .opened succeeds
    · exact .moved _ _ (.inr rfl)
  | protect result =>
    simp only [step] at h
    split at h
    · obtain rfl := Option.some.inj h
      rename_i fd socks hpc
      refine .protects fd socks result _ hpc ?_
      split_ifs <;> simp
    · cases h
  | startTunnel returned =>
    simp only [step] at h
    split_ifs at h
    cases returned with
    | none =>
      obtain rfl := Option.some.inj h
      exact .moved _ _ (.inr rfl)
    | some returned =>
      obtain ⟨received, parameters⟩ := returned
      simp only at h
      split_ifs at h
      obtain rfl := Option.some.inj h
      exact .started received parameters
  | configure built =>
    simp only [step] at h
    split at h
    · obtain rfl := Option.some.inj h
      exact .configured _ built
    · cases h
  | sleep interrupted =>
    simp only [step] at h
    split_ifs at h
    all_goals obtain rfl := Option.some.inj h
    · exact .moved _ _ (.inr rfl)
    · exact .moved _ _ (.inl rfl)
    · exact .moved _ _ (.inr rfl)
  | getFd =>
    simp only [step] at h
    split_ifs at h
    split at h
    · obtain rfl := Option.some.inj h
      exact .moved _ _ (.inr rfl)
    · rename_i pfd hpfd
      split_ifs at h with hclosed
      all_goals obtain rfl := Option.some.inj h
      · exact .moved _ _ (.inr rfl)
      · exact .lent pfd hpfd (Bool.eq_false_iff.mpr hclosed)
  | mutexInit result =>
    simp only [step] at h
    split_ifs at h with hpc hresult
    all_goals obtain rfl := Option.some.inj h
    · subst hresult
      exact .mutexInit hpc
    · exact .moved _ _ (.inr rfl)
  | threadIo which =>
    simp only [step] at h
    split_ifs at h with hpc
    cases which with
    | some which =>
      obtain rfl := Option.some.inj h
      exact .socketUsed which hpc
    | none =>
      obtain rfl := Option.some.inj h
      exact .interfaceUsed hpc
  | joined =>
    simp only [step] at h
    split_ifs at h with hpc
    obtain rfl := Option.some.inj h
    exact .joined hpc
  | finallyBlock =>
    simp only [step] at h
    split_ifs at h with hpc
    obtain rfl := Option.some.inj h
    exact .ended hpc

theorem Tidy.goto (h : Tidy s) (pc : Pc) : Tidy (s.goto pc) :=
  ⟨h.sockets, h.interface, h.vpnfd, h.fresh, h.disciplined⟩

theorem Tidy.used (h : Tidy s) {l : List Descriptor}
    (hl : ∀ d ∈ l, d.IsSocket → ∃ which, s.sockets which = some d) :
    Tidy { s with trace := s.trace ++ l.map .used } where
  sockets which d hd := by
    obtain ⟨hlt, hkind, hopen⟩ := h.sockets which d hd
    exact ⟨hlt, hkind, by simpa using hopen⟩
  interface := h.interface
  vpnfd := h.vpnfd
  fresh d hd := h.fresh d (by simpa using hd)
  disciplined := by
    refine h.disciplined.used fun d hd hsocket => ?_
    obtain ⟨which, hwhich⟩ := hl d hd hsocket
    exact (h.sockets which d hwhich).2.2

theorem Tidy.closeInterface (h : Tidy s) : Tidy (closeInterface s) := by
  unfold Session.closeInterface
  cases hpfd : s.mInterface with
  | none => exact h
  | some pfd =>
    obtain ⟨n, hn, hfd⟩ := h.interface pfd hpfd
    by_cases hclosed : pfd.isClosed = true
    · simpa [hclosed] using h
    · simp only [hclosed, Bool.false_eq_true, if_false]
      constructor
      · intro which d hd
        obtain ⟨hlt, hkind, hopen⟩ := h.sockets which d hd
        refine ⟨hlt, hkind, ?_⟩
        obtain ⟨m, rfl⟩ := hkind
        simpa [State.log, hfd] using hopen
      · intro pfd' hpfd'
        obtain rfl := Option.some.inj hpfd'
        exact ⟨n, hn, hfd⟩
      · exact h.vpnfd
      · intro d hd
        simp only [State.log, Option.map_some, Option.toList_some, List.mem_append,
          List.mem_singleton, Event.closed.injEq] at hd
        rcases hd with hd | rfl
        · exact h.fresh d hd
        · rw [hfd]
          exact hn
      · refine h.disciplined.closed (l := [pfd.fd]) (by simp) ?_
        rintro d hd ⟨which, m, rfl⟩
        simp [hfd] at hd

/-- Something new is opened. -/
theorem Tidy.opened (h : Tidy s) (l : List Descriptor) :
    Tidy { s with openings := s.openings + 1, trace := s.trace ++ l.map .opened } where
  sockets which d hd := by
    obtain ⟨hlt, hkind, hopen⟩ := h.sockets which d hd
    exact ⟨Nat.lt_succ_of_lt hlt, hkind, by simpa using hopen⟩
  interface pfd hpfd := by
    obtain ⟨n, hn, hfd⟩ := h.interface pfd hpfd
    exact ⟨n, Nat.lt_succ_of_lt hn, hfd⟩
  vpnfd d hd := by
    obtain ⟨n, hn, hfd⟩ := h.vpnfd d hd
    exact ⟨n, Nat.lt_succ_of_lt hn, hfd⟩
  fresh d hd := Nat.lt_succ_of_lt (h.fresh d (by simpa using hd))
  disciplined := h.disciplined.opened l

theorem Tidy.getTunnelSock (h : Tidy s) (succeeds : Tunnel.Socket → Bool) :
    Tidy (getTunnelSock s succeeds) := by
  unfold Session.getTunnelSock
  split_ifs
  · have hopened := h.opened (socketOrder.filterMap fun which =>
      if succeeds which then some (.socket which s.openings) else none)
    refine ⟨fun which d hd => ?_, hopened.interface, hopened.vpnfd, hopened.fresh,
      hopened.disciplined⟩
    obtain ⟨-, rfl⟩ : succeeds which = true ∧ Descriptor.socket which s.openings = d := by
      simpa using hd
    refine ⟨Nat.lt_succ_self _, ⟨_, rfl⟩, fun hclosed => ?_⟩
    have hold := h.fresh (.socket which s.openings) (by simpa using hclosed)
    exact Nat.lt_irrefl _ hold
  · exact h

theorem Tidy.configure (h : Tidy s) (parameters : String) (built : Built) :
    Tidy (configure s parameters built) := by
  have hclose := h.closeInterface
  unfold Session.configure
  split_ifs
  · exact h.goto _
  · exact h.goto _
  · cases built with
    | badParameter | establishThrows => exact hclose.goto _
    | establishNull =>
      exact ⟨hclose.sockets, by simp, hclose.vpnfd, hclose.fresh, hclose.disciplined⟩
    | established =>
      have hopened := hclose.opened [.interface (Session.closeInterface s).openings]
      refine ⟨hopened.sockets, fun pfd hpfd => ?_, hopened.vpnfd, hopened.fresh,
        hopened.disciplined⟩
      obtain rfl := Option.some.inj hpfd
      exact ⟨_, Nat.lt_succ_self _, rfl⟩

/-- `tunnelLoop` closes open sockets, and each of them once. -/
theorem Tidy.closeAll (h : Tidy s) : Tidy (closeAll s) := by
  have hsockets : ∀ d ∈ socketOrder.filterMap s.sockets, ∃ which, s.sockets which = some d := by
    intro d hd
    obtain ⟨which, -, hwhich⟩ := List.mem_filterMap.mp hd
    exact ⟨which, hwhich⟩
  refine ⟨by simp [Session.closeAll], h.interface, h.vpnfd, fun d hd => ?_, ?_⟩
  · simp only [Session.closeAll, List.mem_append, List.mem_map, Event.closed.injEq,
      exists_eq_right] at hd
    rcases hd with hd | hd | hd
    · exact h.fresh d hd
    · obtain ⟨which, hwhich⟩ := hsockets d hd
      exact (h.sockets which d hwhich).1
    · obtain ⟨n, hn, rfl⟩ := h.vpnfd d (by simpa using hd)
      exact hn
  · refine h.disciplined.closed ?_ fun d hd hsocket => ?_
    · refine List.nodup_append.mpr ⟨?_, ?_, ?_⟩
      · refine List.Nodup.filterMap (fun w w' d hw hw' => ?_) (by decide)
        obtain ⟨n, rfl⟩ := (h.sockets w d hw).2.1
        obtain ⟨m, hm⟩ := (h.sockets w' _ hw').2.1
        exact (Descriptor.socket.inj hm).1
      · cases s.vpnfd <;> simp
      · rintro d hd _ hd' rfl
        obtain ⟨which, hwhich⟩ := hsockets d hd
        obtain ⟨n, rfl⟩ := (h.sockets which d hwhich).2.1
        obtain ⟨m, -, hm⟩ := h.vpnfd _ (by simpa using hd')
        cases hm
    · rcases List.mem_append.mp hd with hd | hd
      · obtain ⟨which, hwhich⟩ := hsockets d hd
        exact (h.sockets which d hwhich).2.2
      · obtain ⟨n, -, rfl⟩ := h.vpnfd d (by simpa using hd)
        obtain ⟨which, m, hm⟩ := hsocket
        cases hm

theorem Tidy.log_used (h : Tidy s) {d : Option Descriptor}
    (hd : ∀ c, d = some c → c.IsSocket → ∃ which, s.sockets which = some c) :
    Tidy (s.log .used d) := by
  have hused := h.used (l := d.toList) fun c hc => hd c (by simpa using hc)
  cases d <;> exact hused

theorem Tidy.step (h : Tidy s) (hp : Placed s) (hstep : step s a = some t) : Tidy t := by
  cases moves_of_step hstep with
  | moved pc attempt => exact ⟨h.sockets, h.interface, h.vpnfd, h.fresh, h.disciplined⟩
  | opened succeeds => exact (h.getTunnelSock succeeds).goto _
  | protects fd socks result pc hs =>
    refine (h.log_used fun c hc _ => ?_).goto _
    exact hp.protect _ hs c (by simp [hc])
  | started received parameters =>
    refine (h.used fun d hd _ => ⟨.cssix, ?_⟩).goto _
    rw [List.reduceOption_mem_iff, List.mem_replicate] at hd
    exact hd.2.symm
  | configured parameters built => exact h.configure parameters built
  | lent pfd hinterface =>
    refine ⟨h.sockets, h.interface, fun d hd => ?_, h.fresh, h.disciplined⟩
    obtain rfl := Option.some.inj hd
    exact h.interface pfd hinterface
  | mutexInit => exact h.goto _
  | socketUsed which => exact h.log_used fun c hc _ => ⟨which, hc⟩
  | interfaceUsed =>
    refine h.log_used fun c hc hsocket => ?_
    obtain ⟨n, -, rfl⟩ := h.vpnfd c hc
    obtain ⟨which, m, hm⟩ := hsocket
    cases hm
  | joined => exact h.closeAll.goto _
  | ended =>
    have hclose := h.closeInterface
    exact ⟨hclose.sockets, by simp, hclose.vpnfd, hclose.fresh, hclose.disciplined⟩

theorem placed_of_pc (hprotect : ∀ socks, s.pc ≠ .protect socks) (hinit : s.pc ≠ .mutexInit)
    (hthreads : s.pc ≠ .threads) : Placed s :=
  ⟨fun socks hpc => absurd hpc (hprotect socks), fun hpc => (hpc.elim hinit hthreads).elim⟩

theorem pc_configure (s : State) (parameters : String) (built : Built) :
    (configure s parameters built).pc = .getFd ∨ (configure s parameters built).pc = .sleep := by
  unfold configure
  split_ifs
  · exact .inl rfl
  · exact .inr rfl
  · cases built <;> simp [State.goto]

theorem Placed.step (hp : Placed s) (hstep : step s a = some t) : Placed t := by
  cases moves_of_step hstep with
  | moved pc attempt hpc =>
    rcases hpc with rfl | rfl <;> exact placed_of_pc (by simp) (by simp) (by simp)
  | opened succeeds =>
    refine ⟨fun socks hpc d hd => ?_, by simp [State.goto]⟩
    obtain rfl := Pc.protect.inj hpc
    obtain ⟨which, -, hwhich⟩ := List.mem_map.mp hd
    exact ⟨which, hwhich⟩
  | protects fd socks result pc hs hpc =>
    rcases hpc with rfl | rfl | rfl
    · exact placed_of_pc (by simp [State.goto]) (by simp [State.goto]) (by simp [State.goto])
    · exact placed_of_pc (by simp [State.goto]) (by simp [State.goto]) (by simp [State.goto])
    · refine ⟨fun socks' hpc d hd => ?_, by simp [State.goto]⟩
      obtain rfl := Pc.protect.inj hpc
      exact hp.protect _ hs d (List.mem_cons_of_mem _ hd)
  | started received parameters => exact placed_of_pc (by simp) (by simp) (by simp)
  | configured parameters built =>
    rcases pc_configure s parameters built with hpc | hpc <;>
      exact placed_of_pc (by simp [hpc]) (by simp [hpc]) (by simp [hpc])
  | lent pfd hinterface hopen =>
    obtain ⟨fd, isClosed⟩ := pfd
    obtain rfl : isClosed = false := hopen
    exact ⟨by simp [State.goto], fun _ => ⟨fd, hinterface, rfl⟩⟩
  | mutexInit hs => exact ⟨by simp [State.goto], fun _ => hp.threads (.inl hs)⟩
  | socketUsed which hs | interfaceUsed hs =>
    refine ⟨?_, fun _ => hp.threads (.inr hs)⟩
    intro socks hpc
    cases hs.symm.trans hpc
  | joined | ended =>
    exact placed_of_pc (by simp [State.goto]) (by simp [State.goto]) (by simp [State.goto])

/-! ## Histories in which `tunnelLoop` closes nothing -/

/-- The law, and an interface that `mInterface` has not closed is open. -/
structure Unclosed (s : State) : Prop where
  owned : Owned s
  interface : ∀ pfd, s.mInterface = some pfd → pfd.isClosed = false → .closed pfd.fd ∉ s.trace

theorem Unclosed.closeInterface (h : Unclosed s) : Unclosed (closeInterface s) := by
  unfold Session.closeInterface
  cases hpfd : s.mInterface with
  | none => exact h
  | some pfd =>
    by_cases hclosed : pfd.isClosed = true
    · simpa [hclosed] using h
    · simp only [hclosed, Bool.false_eq_true, if_false]
      refine ⟨?_, by simp⟩
      refine h.owned.closed (l := [pfd.fd]) (by simp) fun d hd _ => ?_
      obtain rfl : d = pfd.fd := by simpa using hd
      exact h.interface pfd hpfd (by simpa using hclosed)

theorem Unclosed.used (h : Unclosed s) {l : List Descriptor}
    (hl : ∀ d ∈ l, .closed d ∉ s.trace) :
    Unclosed { s with trace := s.trace ++ l.map .used } := by
  refine ⟨h.owned.used fun d hd _ => hl d hd, fun pfd hpfd hopen => ?_⟩
  simpa using h.interface pfd hpfd hopen

/-- A step other than the end of `tunnelLoop` keeps the interface open until `mInterface`
closes it. -/
theorem Unclosed.step (h : Unclosed s) (htidy : Tidy s) (hp : Placed s)
    (hstep : step s a = some t) (hc : LoopGoesOn s a) : Unclosed t := by
  cases moves_of_step hstep with
  | moved pc attempt => exact ⟨h.owned, h.interface⟩
  | opened succeeds =>
    unfold Session.getTunnelSock
    split_ifs
    · refine ⟨h.owned.opened _, fun pfd hpfd hopen => ?_⟩
      simpa [State.goto] using h.interface pfd hpfd hopen
    · exact ⟨h.owned, h.interface⟩
  | protects fd socks result pc hs =>
    have hused := h.used (l := fd.toList) fun d hd => by
      obtain ⟨which, hwhich⟩ := hp.protect _ hs d (by simp_all)
      exact (htidy.sockets which d hwhich).2.2
    cases fd <;> exact ⟨hused.owned, hused.interface⟩
  | started received parameters =>
    have hused := h.used (l := (List.replicate (2 + received) (s.sockets .cssix)).reduceOption)
      fun d hd => by
        rw [List.reduceOption_mem_iff, List.mem_replicate] at hd
        exact (htidy.sockets .cssix d hd.2.symm).2.2
    exact ⟨hused.owned, hused.interface⟩
  | configured parameters built =>
    have hclose := h.closeInterface
    unfold Session.configure
    split_ifs
    · exact ⟨h.owned, h.interface⟩
    · exact ⟨h.owned, h.interface⟩
    · cases built with
      | badParameter | establishThrows => exact ⟨hclose.owned, hclose.interface⟩
      | establishNull => exact ⟨hclose.owned, by simp⟩
      | established =>
        refine ⟨hclose.owned.opened [_], fun pfd hpfd hopen => ?_⟩
        obtain rfl := Option.some.inj hpfd
        intro hclosed
        have hfresh := htidy.closeInterface.fresh (.interface (Session.closeInterface s).openings)
          (by simpa [State.log, State.goto] using hclosed)
        exact Nat.lt_irrefl _ hfresh
  | lent | mutexInit => exact ⟨h.owned, h.interface⟩
  | socketUsed which =>
    have hused := h.used (l := (s.sockets which).toList) fun d hd =>
      (htidy.sockets which d (by simpa using hd)).2.2
    cases hd : s.sockets which <;> rw [hd] at hused <;> exact hused
  | interfaceUsed hs =>
    obtain ⟨fd, hinterface, hvpnfd⟩ := hp.threads (.inr hs)
    have hused := h.used (l := [fd]) fun d hd => by
      obtain rfl : d = fd := by simpa using hd
      exact h.interface _ hinterface rfl
    rw [hvpnfd]
    exact hused
  | joined => exact hc.elim
  | ended => exact ⟨h.closeInterface.owned, by simp⟩

/-! ## Histories -/

theorem tidy_initial : Tidy initial := by
  constructor <;> simp [initial, Disciplined]

theorem placed_initial : Placed initial :=
  placed_of_pc (by simp [initial]) (by simp [initial]) (by simp [initial])

/-- The end of a session does not close an interface that was closed before. -/
def EndsWell (s : State) : Prop :=
  s.pc = .finallyBlock →
    ∀ pfd, s.mInterface = some pfd → pfd.isClosed = false → .closed pfd.fd ∉ s.trace

/-- After the end of `tunnelLoop`, the session ends by closing the interface again. -/
theorem loopGoesOn_of_endsWell (hp : Placed s) (hstep : step s a = some t) (ht : EndsWell t) :
    LoopGoesOn s a := by
  cases a with
  | joined =>
    simp only [Session.step] at hstep
    split_ifs at hstep with hpc
    obtain rfl := Option.some.inj hstep
    obtain ⟨fd, hinterface, hvpnfd⟩ := hp.threads (.inr hpc)
    refine ht rfl _ hinterface rfl ?_
    simp [State.goto, closeAll, hvpnfd]
  | _ => trivial

theorem endsWell_of_owned (hstep : step s a = some t) (ht : Owned t) : EndsWell s := by
  intro hpc pfd hpfd hopen hclosed
  obtain rfl : a = .finallyBlock := by
    cases a <;> simp [Session.step, hpc] at hstep ⊢
  simp only [Session.step, hpc, if_true, closeInterface, hpfd, hopen, Bool.false_eq_true, if_false,
    Option.some.injEq] at hstep
  subst hstep
  exact not_disciplined_of_closed_twice trivial hclosed ht

end Steps

/-- The sockets are closed once and not used afterwards, in every history. In the histories
in which no `tunnelLoop` comes to its end, this is so for all descriptors, and for a
history of whole sessions the two are the same. -/
theorem owned_iff (as : List Act) (t : State) :
    (Path Step initial as t → Disciplined Descriptor.IsSocket t.trace) ∧
    (Path (Restrict Step LoopGoesOn) initial as t → Throughout Step Owned initial as t) ∧
    (t.pc = .idle →
      (Throughout Step Owned initial as t ↔ Path (Restrict Step LoopGoesOn) initial as t)) := by
  have hgoesOn : Path (Restrict Step LoopGoesOn) initial as t →
      Throughout Step Owned initial as t := by
    refine Throughout.of_restrict (fun s => Unclosed s ∧ Tidy s ∧ Placed s) ?_ ?_
      ⟨⟨.nil, by simp [initial]⟩, tidy_initial, placed_initial⟩
    · rintro s a t ⟨hs, htidy, hp⟩ hstep hc
      exact ⟨hs.step htidy hp hstep hc, htidy.step hp hstep, hp.step hstep⟩
    · intro s hs
      exact hs.1.owned
  refine ⟨fun h => ?_, hgoesOn, fun hidle => ⟨fun h => ?_, hgoesOn⟩⟩
  · refine (Path.invariant (fun s => Tidy s ∧ Placed s) ?_ h
      ⟨tidy_initial, placed_initial⟩).1.disciplined
    rintro s a t ⟨htidy, hp⟩ hstep
    exact ⟨htidy.step hp hstep, hp.step hstep⟩
  · refine Throughout.restrict_of_end Placed (fun s => Owned s ∧ EndsWell s) ?_ ?_
      placed_initial ?_ h
    · intro s a t hp hstep
      exact hp.step hstep
    · rintro s a t hp hs hstep ⟨ht, hends⟩
      exact ⟨⟨hs, endsWell_of_owned hstep ht⟩, loopGoesOn_of_endsWell hp hstep hends⟩
    · intro _ ht
      exact ⟨ht, fun hpc => by simp [hidle] at hpc⟩

/-- A session that connects at once, and whose tunnel then ends. -/
def session : List Act :=
  [.run true, .getTunnelSock true fun _ => true, .protect true, .protect true, .protect true,
   .protect true, .protect true, .protect true, .protect true,
   .startTunnel (some (1, "m,1400 a,10.0.0.2,32 r,0.0.0.0,0")), .configure .established, .getFd,
   .mutexInit true, .threadIo none, .joined, .finallyBlock]

/-- The interface is closed twice. -/
theorem not_forall_owned :
    ¬ ∀ (as : List Act) (t : State), Path Step initial as t → Owned t := by
  intro h
  have ht := h session _ (exec_eq_some_iff.mp rfl)
  refine not_disciplined_of_closed_twice (d := .interface 1) trivial ?_ ht
  decide

end QoSMos.Session
