import QoSMos.Syscall.DescriptorTable
import QoSMos.Syscall.Discipline

/-!
# The descriptors of a script over a run

A run is a sequence of handlers that return `STATUS_OK`, and between them of what packets and other
calls do to the sockets. With it goes the list of the pairs of descriptors that the script holds: it
gets one from a call that returns a descriptor, two from `pipe`, and gives one up with `close`.

`accept` looks for no duplicates and takes the first connection it finds, and `pipe` does not
compare its two descriptors with each other. `Meets` is the condition on their requests under which
the table stays faithful.
-/

namespace QoSMos.Syscall

open Returns Handler

/-- A blocking call finds the descriptors that other threads have left when it has the mutex
again. -/
def relocked (env : Env) (fds : List FdState) : List FdState :=
  if env.blocking then env.meanwhile fds else fds

/-- A handler makes one call, and this is the answer. -/
def Answers (env : Env) (reply : Reply) : Prop :=
  ∀ call, env.ifc call = reply ∧ env.kernel call = reply

/-- The kernel gives out a descriptor that is not open. -/
def Fresh (fds : List FdState) (liveFd : Int) : Prop := ∀ fd ∈ fds, IsOpen fd → fd.liveFd ≠ liveFd

/-- What a script asks for. -/
inductive Request where
  | accept (scriptFd : Int)
  | pipe (scriptFds : Int × Int)
  | other

/-- The sockets that `accept` looks for. -/
def isConnected (fd : FdState) : Bool :=
  match fd.type with
  | .socket socket => socket.state = .passiveSynackSent ∨ socket.state = .passiveSynackAcked
  | _ => false

/-- `accept` asks for a number that is not in use, and finds a connection that was neither accepted
nor closed; the numbers of `pipe` are different and not negative. -/
def Meets (fds : List FdState) : Request → Prop
  | .accept scriptFd => (∀ fd ∈ fds, IsOpen fd → fd.scriptFd ≠ scriptFd) ∧
      ∀ fd, fds.find? isConnected = some fd → fd.liveFd < 0 ∧ fd.isClosed = false
  | .pipe scriptFds => scriptFds.1 ≠ scriptFds.2 ∧ scriptFds.1 ≥ 0 ∧ scriptFds.2 ≥ 0
  | .other => True

/-- A handler that returns `STATUS_OK` with the table `fds` when it has the mutex again, or a change
of a socket. The lists of pairs are those that the script holds before and after. -/
inductive Step : List FdState → List (Int × Int) → Request → List FdState → List (Int × Int) → Prop
  | grant {handler : List Expression → Handler Unit} {args : List Expression} {env : Env}
      {reply : Reply} {scriptFd : Int} {s t : State} {held : List (Int × Int)}
      (hhandler : handler = syscallSocket ∨ handler = syscallOpen ∨ handler = syscallEpollCreate)
      (hanswers : Answers env reply) (hfresh : Fresh (relocked env s.fds) reply.result)
      (hscript : getS32 env.result = .ok scriptFd) (hrun : handler args env s = (.ok (), t)) :
      Step (relocked env s.fds) held .other t.fds
        (if reply.result ≥ 0 then (scriptFd, reply.result) :: held else held)
  | accept {args : List Expression} {env : Env} {reply : Reply} {scriptFd : Int} {s t : State}
      {held : List (Int × Int)}
      (hanswers : Answers env reply) (hfresh : Fresh (relocked env s.fds) reply.result)
      (hscript : getS32 env.result = .ok scriptFd) (hrun : syscallAccept args env s = (.ok (), t)) :
      Step (relocked env s.fds) held (if reply.result ≥ 0 then .accept scriptFd else .other) t.fds
        (if reply.result ≥ 0 then (scriptFd, reply.result) :: held else held)
  | pipe {pipeExpr : Expression} {env : Env} {reply : Reply} {scriptFds : Int × Int} {s t : State}
      {held : List (Int × Int)}
      (hanswers : Answers env reply)
      (hfresh : Fresh (relocked env s.fds) reply.pipeFds.1 ∧
        Fresh (relocked env s.fds) reply.pipeFds.2)
      (hkernel : reply.pipeFds.1 ≠ reply.pipeFds.2 ∧ reply.pipeFds.1 ≥ 0 ∧ reply.pipeFds.2 ≥ 0)
      (hscript : getPipeExpression pipeExpr = .ok scriptFds)
      (hrun : syscallPipe [pipeExpr] env s = (.ok (), t)) :
      Step (relocked env s.fds) held (if reply.result ≥ 0 then .pipe scriptFds else .other) t.fds
        (if reply.result ≥ 0 then
          (scriptFds.2, reply.pipeFds.2) :: (scriptFds.1, reply.pipeFds.1) :: held
        else held)
  | close {args : List Expression} {env : Env} {scriptFd liveFd : Int} {s t : State}
      {held : List (Int × Int)}
      (hscript : s32Arg args 0 = .ok scriptFd) (hlive : toLiveFd s.fds scriptFd = .ok liveFd)
      (hrun : syscallClose args env s = (.ok (), t)) :
      Step (relocked env s.fds) held .other t.fds (held.filter (· ≠ (scriptFd, liveFd)))
  /-- A packet makes a new socket. -/
  | passive {fds : List FdState} {held : List (Int × Int)} (socket : SocketInfo) :
      Step fds held .other (stateAddFd fds (.socket socket) (-1) (-1)) held
  /-- A packet, or a call such as `listen`, changes a socket. -/
  | change {fds : List FdState} {held : List (Int × Int)} (ptr : Nat) (socket : SocketInfo) :
      Step fds held .other (setSocket fds ptr socket) held

/-- The tables that runs reach whose requests all meet a condition. -/
inductive Reachable (meets : List FdState → Request → Prop) :
    List FdState → List (Int × Int) → Prop
  | start : Reachable meets [] []
  | step {fds fds' : List FdState} {held held' : List (Int × Int)} {request : Request} :
      Reachable meets fds held → meets fds request → Step fds held request fds' held' →
      Reachable meets fds' held'

/-! ## Handlers that return -/

section Handlers

variable {α β : Type} {m : Handler α} {f : α → Handler β} {env : Env} {reply : Reply}
  {s t : State} {a : α} {b : β}

theorem bind_ok (h : (m >>= f) env s = (.ok b, t)) :
    ∃ a u, m env s = (.ok a, u) ∧ f a env u = (.ok b, t) := by
  rcases hm : m env s with ⟨_ | a, u⟩
  · simp only [Bind.bind, hm] at h
    cases h
  · simp only [Bind.bind, hm] at h
    exact ⟨a, u, rfl, h⟩

theorem take_bind_ok {x : Checked α} (h : (take x >>= f) env s = (.ok b, t)) :
    ∃ a, x = .ok a ∧ f a env s = (.ok b, t) := by
  cases x with
  | error message => cases h
  | ok a => exact ⟨a, rfl, h⟩

theorem withFds_bind_ok {g : List FdState → Except Stop α}
    (h : (withFds g >>= f) env s = (.ok b, t)) : ∃ a, g s.fds = .ok a ∧ f a env s = (.ok b, t) := by
  obtain ⟨a, u, hg, hrest⟩ := bind_ok h
  have hresult : g s.fds = .ok a := congrArg Prod.fst hg
  have hstate : s = u := congrArg Prod.snd hg
  exact ⟨a, hresult, hstate ▸ hrest⟩

theorem lift_bind_ok {x : Except Stop α} (h : (lift x >>= f) env s = (.ok b, t)) :
    ∃ a, x = .ok a ∧ f a env s = (.ok b, t) := by
  cases x with
  | error stop => cases h
  | ok a => exact ⟨a, rfl, h⟩

theorem readEnv_bind {f : Env → Handler β} : (readEnv >>= f) env s = f env env s := rfl

theorem expect_ok {c : Prop} [Decidable c] {message : String}
    (h : expect c message env s = (.ok (), t)) : c ∧ t = s := by
  unfold expect at h
  split at h
  · exact ⟨‹c›, (congrArg Prod.snd h).symm⟩
  · cases h

theorem setFds_ok {g : List FdState → Except Stop (List FdState)}
    (h : setFds g env s = (.ok (), t)) : g s.fds = .ok t.fds := by
  cases hg : g s.fds with
  | error stop =>
    simp only [setFds, updateFds, hg, Except.map] at h
    cases h
  | ok fds =>
    simp only [setFds, updateFds, hg, Except.map] at h
    obtain rfl := congrArg Prod.snd h
    rfl

/-- Statements that leave the descriptors alone. -/
class KeepsFds {α : Type} (m : Handler α) : Prop where
  fds : ∀ env s, (m env s).2.fds = s.fds

instance keepsFds_bind [hm : KeepsFds m] [hf : ∀ a, KeepsFds (f a)] : KeepsFds (m >>= f) where
  fds env s := by
    rcases bind_cases m f env s with h | ⟨a, h⟩
    · rw [h, hm.fds]
    · rw [h, (hf a).fds, hm.fds]

instance keepsFds_ite {c : Prop} [Decidable c] {m m' : Handler α} [KeepsFds m] [KeepsFds m'] :
    KeepsFds (if c then m else m') := by
  split <;> infer_instance

instance keepsFds_pure : KeepsFds (pure a : Handler α) := ⟨fun _ _ => rfl⟩

instance keepsFds_fail {message : String} : KeepsFds (fail message : Handler α) :=
  ⟨fun _ _ => rfl⟩

instance keepsFds_readEnv : KeepsFds readEnv := ⟨fun _ _ => rfl⟩

instance keepsFds_take {x : Checked α} : KeepsFds (take x) := ⟨fun _ _ => rfl⟩

instance keepsFds_require {c : Prop} [Decidable c] {function expression : String} :
    KeepsFds (Handler.require c function expression) := ⟨fun _ _ => rfl⟩

instance keepsFds_expect {c : Prop} [Decidable c] {message : String} :
    KeepsFds (expect c message) := keepsFds_ite

instance keepsFds_mark {m : Mark} : KeepsFds (mark m) := ⟨fun _ _ => rfl⟩

instance keepsFds_syscallState : KeepsFds syscallState := ⟨fun _ _ => rfl⟩

instance keepsFds_setSyscallState {state : SyscallStateT} : KeepsFds (setSyscallState state) :=
  ⟨fun _ _ => rfl⟩

instance keepsFds_setLiveEndUsecs {usecs : Int} : KeepsFds (setLiveEndUsecs usecs) :=
  ⟨fun _ _ => rfl⟩

instance keepsFds_runUnlock : KeepsFds runUnlock where
  fds env s := by
    unfold runUnlock
    split <;> rfl

instance keepsFds_assertState {expected : SyscallStateT} {function expression : String} :
    KeepsFds (assertState expected function expression) := by
  unfold assertState
  infer_instance

instance keepsFds_beginSyscall : KeepsFds beginSyscall := by
  unfold beginSyscall
  infer_instance

theorem KeepsFds.of_ok [hm : KeepsFds m] (h : m env s = (.ok a, t)) : t.fds = s.fds := by
  have := hm.fds env s
  rwa [h] at this

theorem runLock_ok (h : runLock env s = (.ok (), t)) : t.fds = env.meanwhile s.fds := by
  unfold runLock at h
  split at h
  · cases h
  · obtain rfl := congrArg Prod.snd h
    rfl

theorem reacquire_ok (h : reacquire env s = (.ok (), t)) : t.fds = relocked env s.fds := by
  have hrest : (if env.blocking = true then _ else _ : Handler Unit) env s = (.ok (), t) := h
  cases hb : env.blocking with
  | false =>
    rw [if_neg (by simp [hb])] at hrest
    rw [KeepsFds.of_ok hrest, relocked, if_neg (by simp [hb])]
  | true =>
    rw [if_pos hb] at hrest
    obtain ⟨_, v, hlock, hend⟩ := bind_ok hrest
    rw [KeepsFds.of_ok hend, runLock_ok hlock, relocked, if_pos hb]

/-- The result that the script expects of a call that is to return a descriptor. -/
theorem checkResult_ok {mode : ResultCheckT} {actual actualErrno : Int}
    (h : checkResult mode actual actualErrno env s = (.ok (), t)) :
    t.fds = s.fds ∧ ∃ expected, getS32 env.result = .ok expected ∧
      (expected ≥ 0 ∨ actual = expected) := by
  obtain ⟨expected, hexpected, hend⟩ := take_bind_ok (readEnv_bind.symm.trans h)
  split at hend
  · rename_i hmode
    exact ⟨congrArg State.fds (expect_ok hend).2, expected, hexpected, .inl hmode.2⟩
  · exact ⟨congrArg State.fds (expect_ok hend).2, expected, hexpected, .inr (expect_ok hend).1⟩

theorem keepsFds_checkErrno {actualErrno : Int} : KeepsFds (checkErrno actualErrno) where
  fds env s := by
    cases hmacro : env.errnoMacro with
    | none => simp [checkErrno, bind, readEnv, hmacro, pure]
    | some errnoMacro =>
      have hrun : checkErrno actualErrno env s = (take (env.symbolToInt errnoMacro) >>=
          fun expectedErrno => expect (actualErrno = expectedErrno)
            (s!"Expected errno {toInt expectedErrno} " ++
              s!"({env.strerror (toInt expectedErrno)}) but got " ++
              s!"{actualErrno} ({env.strerror actualErrno})")) env s := by
        simp only [checkErrno, bind, readEnv, hmacro]
      rw [hrun]
      exact keepsFds_bind.fds env s

theorem endSyscall_ok {mode : ResultCheckT} (h : endSyscall mode reply env s = (.ok (), t)) :
    t.fds = relocked env s.fds ∧ ∃ expected, getS32 env.result = .ok expected ∧
      (expected ≥ 0 ∨ reply.result = expected) := by
  obtain ⟨_, u, hmark, hrest⟩ := bind_ok h
  obtain ⟨_, v, hreacquire, hrest'⟩ := bind_ok hrest
  obtain ⟨_, w, hresult, hend⟩ := bind_ok hrest'
  obtain ⟨hfds, hexpected⟩ := checkResult_ok hresult
  refine ⟨?_, hexpected⟩
  rw [keepsFds_checkErrno.of_ok hend, hfds, reacquire_ok hreacquire]
  exact congrArg (fun s => relocked env s.fds) (congrArg Prod.snd hmark).symm

/-- A handler from `begin_syscall` on. -/
theorem bracket_ok {inv : Handler Reply} {mode : ResultCheckT} {rest : Reply → Unit → Handler Unit}
    (hinv : ∀ s, inv env s = (.ok reply, s))
    (h : (beginSyscall >>= fun _ => inv >>= fun reply => endSyscall mode reply >>= rest reply)
      env s = (.ok (), t)) :
    ∃ u, u.fds = relocked env s.fds ∧ rest reply () env u = (.ok (), t) ∧
      ∃ expected, getS32 env.result = .ok expected ∧
        (expected ≥ 0 ∨ reply.result = expected) := by
  obtain ⟨_, u, hbegin, hrest⟩ := bind_ok h
  obtain ⟨_, v, hcall, hrest'⟩ := bind_ok hrest
  rw [hinv] at hcall
  obtain ⟨heq, rfl⟩ := Prod.mk.inj hcall
  obtain rfl := Except.ok.inj heq
  obtain ⟨_, w, hend, hlast⟩ := bind_ok hrest'
  obtain ⟨hfds, hexpected⟩ := endSyscall_ok hend
  exact ⟨w, by rw [hfds, KeepsFds.of_ok hbegin], hlast, hexpected⟩

theorem Answers.invoke (h : Answers env reply) (call : Call) (s : State) :
    invoke call env s = (.ok reply, s) := by
  have hanswer : env.answer call = reply := by
    unfold Env.answer
    split
    · exact (h call).1
    · exact (h call).2
  simp only [Handler.invoke, bind, readEnv, pure, hanswer]

theorem Answers.invokeKernel (h : Answers env reply) (call : Call) (s : State) :
    invokeKernel call env s = (.ok reply, s) := by
  simp only [Handler.invokeKernel, bind, readEnv, pure, (h call).2]

variable {args : List Expression} {scriptFd : Int}

/-- A call that was to return a descriptor did, and an entry was added after the check. -/
def Granted (fds : List FdState) (scriptFd liveFd : Int) (fds' : List FdState) : Prop :=
  if liveFd ≥ 0 then scriptFd ≥ 0 ∧ checkDuplicateFd fds scriptFd liveFd = .ok () ∧
    ∃ type, fds' = stateAddFd fds type scriptFd liveFd
  else fds' = fds

/-- The last statements of a handler that is to return a descriptor. -/
theorem ite_setFds_ok {g : Int → List FdState → Except Stop (List FdState)} {rest : Handler Unit}
    (hscript : getS32 env.result = .ok scriptFd)
    (h : (if reply.result ≥ 0 then rest else pure ()) env s = (.ok (), t))
    (hrest : rest env s =
      (take (getS32 env.result) >>= fun scriptFd => setFds (g scriptFd)) env s) :
    if reply.result ≥ 0 then g scriptFd s.fds = .ok t.fds else t.fds = s.fds := by
  split at h
  · rename_i hnonneg
    obtain ⟨scriptFd', hscript', hset⟩ := take_bind_ok (hrest.symm.trans h)
    obtain rfl := Except.ok.inj (hscript.symm.trans hscript')
    rw [if_pos hnonneg]
    exact setFds_ok hset
  · rename_i hneg
    rw [if_neg hneg]
    exact KeepsFds.of_ok h

theorem granted_of_ite {g : Int → List FdState → Except Stop (List FdState)}
    {fds fds' : List FdState} (hscript : getS32 env.result = .ok scriptFd)
    (hexpected : ∃ expected, getS32 env.result = .ok expected ∧
      (expected ≥ 0 ∨ reply.result = expected))
    (hset : if reply.result ≥ 0 then g scriptFd fds = .ok fds' else fds' = fds)
    (hadd : g scriptFd fds = .ok fds' → checkDuplicateFd fds scriptFd reply.result = .ok () ∧
      ∃ type, fds' = stateAddFd fds type scriptFd reply.result) :
    Granted fds scriptFd reply.result fds' := by
  unfold Granted
  split at hset
  · rename_i hresult
    obtain ⟨expected, hexpected, hnonneg⟩ := hexpected
    obtain rfl := Except.ok.inj (hscript.symm.trans hexpected)
    rw [if_pos hresult]
    exact ⟨hnonneg.elim id fun heq => heq ▸ hresult, hadd hset⟩
  · rename_i hresult
    rw [if_neg hresult]
    exact hset

theorem syscallSocket_ok (hanswers : Answers env reply) (hscript : getS32 env.result = .ok scriptFd)
    (h : syscallSocket args env s = (.ok (), t)) :
    Granted (relocked env s.fds) scriptFd reply.result t.fds := by
  obtain ⟨_, -, h⟩ := take_bind_ok h
  obtain ⟨_, -, h⟩ := take_bind_ok h
  obtain ⟨type, -, h⟩ := take_bind_ok h
  obtain ⟨protocol, -, h⟩ := take_bind_ok h
  obtain ⟨u, hfds, hrest, hexpected⟩ := bracket_ok (hanswers.invoke _) h
  rw [← hfds]
  refine granted_of_ite hscript hexpected (ite_setFds_ok hscript hrest rfl) fun hadd => ?_
  unfold runSyscallSocket at hadd
  split at hadd
  · cases hadd
  · split at hadd
    · cases hadd
    · obtain ⟨_, hcheck, hend⟩ := bind_eq_ok_iff.mp hadd
      exact ⟨hcheck, _, (pure_eq_ok_iff.mp hend).symm⟩

theorem syscallOpen_ok (hanswers : Answers env reply) (hscript : getS32 env.result = .ok scriptFd)
    (h : syscallOpen args env s = (.ok (), t)) :
    Granted (relocked env s.fds) scriptFd reply.result t.fds := by
  obtain ⟨_, -, h⟩ := take_bind_ok h
  obtain ⟨nameExpression, -, h⟩ := take_bind_ok h
  obtain ⟨name, -, h⟩ := take_bind_ok h
  obtain ⟨flags, -, h⟩ := take_bind_ok h
  obtain ⟨u, hfds, hrest, hexpected⟩ := bracket_ok (hanswers.invokeKernel _) h
  rw [← hfds]
  refine granted_of_ite hscript hexpected (ite_setFds_ok hscript hrest rfl) fun hadd => ?_
  obtain ⟨_, hcheck, hend⟩ := bind_eq_ok_iff.mp hadd
  exact ⟨hcheck, _, (pure_eq_ok_iff.mp hend).symm⟩

theorem syscallEpollCreate_ok (hanswers : Answers env reply)
    (hscript : getS32 env.result = .ok scriptFd)
    (h : syscallEpollCreate args env s = (.ok (), t)) :
    Granted (relocked env s.fds) scriptFd reply.result t.fds := by
  obtain ⟨_, -, h⟩ := take_bind_ok h
  obtain ⟨size, -, h⟩ := take_bind_ok h
  obtain ⟨u, hfds, hrest, hexpected⟩ := bracket_ok (hanswers.invoke _) h
  rw [← hfds]
  refine granted_of_ite hscript hexpected (ite_setFds_ok hscript hrest rfl) fun hadd => ?_
  obtain ⟨_, hcheck, hend⟩ := bind_eq_ok_iff.mp hadd
  exact ⟨hcheck, _, (pure_eq_ok_iff.mp hend).symm⟩

/-- `accept` changes or adds one entry if it returns a descriptor. -/
theorem syscallAccept_ok (hanswers : Answers env reply) (hscript : getS32 env.result = .ok scriptFd)
    (h : syscallAccept args env s = (.ok (), t)) :
    if reply.result ≥ 0 then scriptFd ≥ 0 ∧ ∃ peer,
      runSyscallAccept env.config (relocked env s.fds) scriptFd reply.result peer = .ok t.fds
    else t.fds = relocked env s.fds := by
  obtain ⟨_, -, h⟩ := take_bind_ok h
  obtain ⟨listenFd, -, h⟩ := take_bind_ok h
  obtain ⟨liveFd, -, h⟩ := withFds_bind_ok h
  obtain ⟨_, -, h⟩ := take_bind_ok h
  obtain ⟨_, -, h⟩ := take_bind_ok h
  obtain ⟨u, hfds, hrest, expected, hexpected, hnonneg⟩ := bracket_ok (hanswers.invoke _) h
  obtain rfl := Except.ok.inj (hscript.symm.trans hexpected)
  split at hrest
  · rename_i hresult
    obtain ⟨script, hscript', hrest⟩ := take_bind_ok (readEnv_bind.symm.trans hrest)
    obtain rfl := Except.ok.inj (hscript.symm.trans hscript')
    obtain ⟨peer, -, hset⟩ := lift_bind_ok hrest
    rw [if_pos hresult, ← hfds]
    exact ⟨hnonneg.elim id fun heq => heq ▸ hresult, peer, setFds_ok hset⟩
  · rename_i hresult
    rw [if_neg hresult, ← hfds]
    exact KeepsFds.of_ok hrest

theorem syscallPipe_ok {pipeExpr : Expression} {scriptFds : Int × Int}
    (hanswers : Answers env reply) (hscript : getPipeExpression pipeExpr = .ok scriptFds)
    (h : syscallPipe [pipeExpr] env s = (.ok (), t)) :
    if reply.result ≥ 0 then
      runSyscallPipe (relocked env s.fds) scriptFds reply.pipeFds = .ok t.fds
    else t.fds = relocked env s.fds := by
  obtain ⟨_, -, h⟩ := take_bind_ok h
  obtain ⟨expr, hexpr, h⟩ := take_bind_ok h
  obtain rfl : pipeExpr = expr := Except.ok.inj hexpr
  obtain ⟨scriptFds', hscript', h⟩ := take_bind_ok h
  obtain rfl := Except.ok.inj (hscript.symm.trans hscript')
  obtain ⟨u, hfds, hrest, -⟩ := bracket_ok (hanswers.invoke _) h
  rw [← hfds]
  split at hrest
  · rename_i hresult
    rw [if_pos hresult]
    exact setFds_ok hrest
  · rename_i hresult
    rw [if_neg hresult]
    exact KeepsFds.of_ok hrest

theorem syscallClose_ok {liveFd : Int} (hscript : s32Arg args 0 = .ok scriptFd)
    (hlive : toLiveFd s.fds scriptFd = .ok liveFd) (h : syscallClose args env s = (.ok (), t)) :
    runSyscallClose (relocked env s.fds) scriptFd liveFd = .ok t.fds := by
  obtain ⟨_, -, h⟩ := take_bind_ok h
  obtain ⟨script, hscript', h⟩ := take_bind_ok h
  obtain rfl := Except.ok.inj (hscript.symm.trans hscript')
  obtain ⟨live, hlive', h⟩ := withFds_bind_ok h
  obtain rfl := Except.ok.inj (hlive.symm.trans hlive')
  obtain ⟨u, hfds, hrest, -⟩ := bracket_ok (fun _ => rfl) h
  rw [← hfds]
  exact setFds_ok hrest

end Handlers

/-! ## What a step keeps -/

section Steps

variable {fds fds' : List FdState} {held held' : List (Int × Int)} {scriptFd liveFd : Int}

theorem TableInv.granted (h : TableInv fds held) (hgranted : Granted fds scriptFd liveFd fds') :
    TableInv fds' (if liveFd ≥ 0 then (scriptFd, liveFd) :: held else held) := by
  unfold Granted at hgranted
  split at hgranted
  · rename_i hlive
    obtain ⟨hnonneg, hcheck, type, rfl⟩ := hgranted
    rw [if_pos hlive]
    exact h.grant hnonneg hlive fun fd hmem hopen => of_checkDuplicateFd hcheck fd hmem hopen.2
  · rename_i hlive
    rw [if_neg hlive, hgranted]
    exact h

theorem find?_of_findAccepted {peer : Endpoint} {fd : FdState}
    (h : findAccepted peer fds = .ok (some fd)) : fds.find? isConnected = some fd := by
  induction fds with
  | nil => cases h
  | cons e fds ih =>
    unfold findAccepted at h
    rw [List.find?_cons]
    cases htype : e.type with
    | socket socket =>
      rw [htype] at h
      dsimp only at h
      split at h
      · rename_i hstate
        obtain ⟨_, -, h⟩ := bind_eq_ok_iff.mp h
        obtain ⟨_, -, h⟩ := bind_eq_ok_iff.mp h
        have hconnected : isConnected e = true := by simpa [isConnected, htype] using hstate
        rw [hconnected]
        exact congrArg some (Option.some.inj (pure_eq_ok_iff.mp h))
      · rename_i hstate
        have hconnected : isConnected e = false := by simpa [isConnected, htype] using hstate
        rw [hconnected]
        exact ih h
    | file | pipe | epoll =>
      rw [htype] at h
      have hconnected : isConnected e = false := by simp [isConnected, htype]
      rw [hconnected]
      exact ih h

/-- `accept` with a request that meets the condition. -/
theorem TableInv.accept (h : TableInv fds held) {config : Config} {peer : Endpoint}
    (hmeets : Meets fds (.accept scriptFd)) (hfresh : Fresh fds liveFd) (hnonneg : scriptFd ≥ 0)
    (hlive : liveFd ≥ 0) (hok : runSyscallAccept config fds scriptFd liveFd peer = .ok fds') :
    TableInv fds' ((scriptFd, liveFd) :: held) := by
  have hdistinct : ∀ fd ∈ fds, IsOpen fd → fd.scriptFd ≠ scriptFd ∧ fd.liveFd ≠ liveFd :=
    fun fd hmem hopen => ⟨hmeets.1 fd hmem hopen, hfresh fd hmem hopen⟩
  obtain ⟨found, hfound, hok⟩ := bind_eq_ok_iff.mp hok
  cases found with
  | some fd =>
    obtain rfl := pure_eq_ok_iff.mp hok
    have hfind := find?_of_findAccepted hfound
    obtain ⟨hnone, hclosed⟩ := hmeets.2 fd hfind
    exact h.assign (List.mem_of_find?_eq_some hfind) hnone hclosed hnonneg hlive hdistinct
  | none =>
    dsimp only at hok
    split at hok
    · cases hok
    · obtain rfl := pure_eq_ok_iff.mp hok
      exact h.grant hnonneg hlive hdistinct

/-- `pipe` with a request that meets the condition. -/
theorem TableInv.pipe (h : TableInv fds held) {scriptFds liveFds : Int × Int}
    (hmeets : Meets fds (.pipe scriptFds))
    (hkernel : liveFds.1 ≠ liveFds.2 ∧ liveFds.1 ≥ 0 ∧ liveFds.2 ≥ 0)
    (hok : runSyscallPipe fds scriptFds liveFds = .ok fds') :
    TableInv fds' ((scriptFds.2, liveFds.2) :: (scriptFds.1, liveFds.1) :: held) := by
  obtain ⟨_, hfirst, hok⟩ := bind_eq_ok_iff.mp hok
  obtain ⟨_, hsecond, hok⟩ := bind_eq_ok_iff.mp hok
  obtain rfl := pure_eq_ok_iff.mp hok
  refine (h.grant hmeets.2.1 hkernel.2.1 fun fd hmem hopen =>
    of_checkDuplicateFd hfirst fd hmem hopen.2).grant hmeets.2.2 hkernel.2.2 ?_
  intro fd hmem hopen
  rcases List.mem_cons.mp hmem with rfl | hmem
  · exact ⟨hmeets.1, hkernel.1⟩
  · exact of_checkDuplicateFd hsecond fd hmem hopen.2

theorem TableInv.closeFd (h : TableInv fds held)
    (hok : runSyscallClose fds scriptFd liveFd = .ok fds') :
    TableInv fds' (held.filter (· ≠ (scriptFd, liveFd))) := by
  obtain ⟨found, hfound, hok⟩ := bind_eq_ok_iff.mp hok
  cases found with
  | none => cases hok
  | some fd =>
    dsimp only at hok
    split at hok
    · cases hok
    · rename_i hlive
      obtain rfl := pure_eq_ok_iff.mp hok
      obtain ⟨hmem, hopen, rfl⟩ := of_findByScriptFd hfound
      rw [← not_not.mp hlive]
      exact h.close hmem hopen

theorem TableInv.step {request : Request} (h : TableInv fds held) (hmeets : Meets fds request)
    (hstep : Step fds held request fds' held') : TableInv fds' held' := by
  cases hstep with
  | grant hhandler hanswers hfresh hscript hrun =>
    rcases hhandler with rfl | rfl | rfl
    · exact h.granted (syscallSocket_ok hanswers hscript hrun)
    · exact h.granted (syscallOpen_ok hanswers hscript hrun)
    · exact h.granted (syscallEpollCreate_ok hanswers hscript hrun)
  | accept hanswers hfresh hscript hrun =>
    have hok := syscallAccept_ok hanswers hscript hrun
    split at hok
    · rename_i hresult
      obtain ⟨hnonneg, peer, hok⟩ := hok
      rw [if_pos hresult] at hmeets ⊢
      exact h.accept hmeets hfresh hnonneg hresult hok
    · rename_i hresult
      rw [if_neg hresult, hok]
      exact h
  | pipe hanswers hfresh hkernel hscript hrun =>
    have hok := syscallPipe_ok hanswers hscript hrun
    split at hok
    · rename_i hresult
      rw [if_pos hresult] at hmeets ⊢
      exact h.pipe hmeets hkernel hok
    · rename_i hresult
      rw [if_neg hresult, hok]
      exact h
  | close hscript hlive hrun => exact h.closeFd (syscallClose_ok hscript hlive hrun)
  | passive socket => exact h.addPassive
  | change ptr socket => exact h.setSocket ptr socket

theorem tableInv_of_reachable (h : Reachable Meets fds held) : TableInv fds held := by
  induction h with
  | start => exact tableInv_nil
  | step _ hmeets hstep ih => exact ih.step hmeets hstep

/-- In every run whose requests meet the condition, the table stays faithful. -/
theorem faithful_of_reachable (h : Reachable Meets fds held) : Faithful fds held :=
  (tableInv_of_reachable h).faithful

end Steps

/-- A reply with a descriptor and a peer. -/
def grantReply (liveFd : Int) : Reply :=
  { plainReply liveFd with peer := .ok ⟨⟨.inet, [192, 0, 2, 2]⟩, 56268⟩ }

/-- A call that the script expects to return one descriptor, and the kernel returns another. -/
def grantEnv (scriptFd liveFd : Int) : Env :=
  { blockingEnv with
    blocking := false
    result := .integer scriptFd
    ifc := fun _ => grantReply liveFd
    kernel := fun _ => grantReply liveFd }

/-- The state in which a call that does not block is made. -/
def quietState (fds : List FdState) : State := ⟨fds, .idle, -1, true, []⟩

/-- The entry of `socket(..., SOCK_STREAM, IPPROTO_TCP) = 3`. -/
def listener : FdState :=
  ⟨0, .socket { socketNew with state := .new, addressFamily := 2, type := 1, protocol := 6 }, 3, 7,
    false⟩

theorem reachable_listener {meets : List FdState → Request → Prop} (h : meets [] .other) :
    Reachable meets [listener] [(3, 7)] := by
  refine .step .start h ?_
  have hrun : syscallSocket [.ellipsis, .integer 1, .integer 6] (grantEnv 3 7) (quietState []) =
      (.ok (), { quietState [listener] with marks := [.beginSyscall, .endSyscall] }) := rfl
  have hanswers : Answers (grantEnv 3 7) (grantReply 7) := fun _ => ⟨rfl, rfl⟩
  exact .grant (.inl rfl) hanswers (by simp [Fresh, relocked, grantEnv, quietState]) rfl hrun

/-- A connection whose handshake is over. -/
def connection : SocketInfo where
  state := .passiveSynackAcked
  addressFamily := 2
  type := 0
  protocol := 6
  script := ⟨none, none⟩
  live := ⟨some ⟨⟨.inet, [192, 0, 2, 1]⟩, 8080⟩, some ⟨⟨.inet, [192, 0, 2, 2]⟩, 56268⟩⟩

/-- Its entry, which has no descriptors before it is accepted. -/
def connected (scriptFd liveFd : Int) : FdState := ⟨1, .socket connection, scriptFd, liveFd, false⟩

theorem reachable_connected {meets : List FdState → Request → Prop}
    (h : ∀ fds, meets fds .other) :
    Reachable meets [connected (-1) (-1), listener] [(3, 7)] :=
  .step (.step (reachable_listener (h [])) (h _)
    (.passive { connection with state := .passivePacketReceived })) (h _) (.change 1 connection)

/-- `accept(3, ..., ...) = 4` -/
theorem step_accept : Step [connected (-1) (-1), listener] [(3, 7)] (.accept 4)
    [connected 4 8, listener] [(4, 8), (3, 7)] := by
  have hrun : syscallAccept [.integer 3, .ellipsis, .ellipsis] (grantEnv 4 8)
      (quietState [connected (-1) (-1), listener]) = (.ok (),
        { quietState [connected 4 8, listener] with marks := [.beginSyscall, .endSyscall] }) := rfl
  have hanswers : Answers (grantEnv 4 8) (grantReply 8) := fun _ => ⟨rfl, rfl⟩
  have hfresh : Fresh [connected (-1) (-1), listener] 8 := by simp [Fresh, connected, listener]
  exact .accept (s := quietState _) hanswers hfresh rfl hrun

/-- A call of `pipe` to which the kernel gives these descriptors. -/
def pipeEnv (liveFds : Int × Int) : Env :=
  { blockingEnv with
    blocking := false
    result := .integer 0
    ifc := fun _ => { plainReply 0 with pipeFds := liveFds }
    kernel := fun _ => { plainReply 0 with pipeFds := liveFds } }

/-- `pipe([5, 6]) = 0` -/
theorem step_pipe : ∃ fds, Step [connected 4 8, listener] [(4, 8), (3, 7)] (.pipe (5, 6)) fds
    [(6, 10), (5, 9), (4, 8), (3, 7)] := by
  obtain ⟨t, hrun⟩ : ∃ t, syscallPipe [.list [.integer 5, .integer 6]] (pipeEnv (9, 10))
      (quietState [connected 4 8, listener]) = (.ok (), t) := ⟨_, rfl⟩
  have hanswers : Answers (pipeEnv (9, 10)) { plainReply 0 with pipeFds := (9, 10) } :=
    fun _ => ⟨rfl, rfl⟩
  have hfresh : Fresh [connected 4 8, listener] 9 ∧ Fresh [connected 4 8, listener] 10 := by
    simp [Fresh, connected, listener]
  exact ⟨t.fds, .pipe (s := quietState _) hanswers hfresh (by decide) rfl hrun⟩

/-- A connection is accepted, and a pipe is made. -/
theorem faithful_of_reachable_connected : ∃ fds,
    Reachable Meets fds [(6, 10), (5, 9), (4, 8), (3, 7)] ∧
      Faithful fds [(6, 10), (5, 9), (4, 8), (3, 7)] := by
  have hconnected : Reachable Meets [connected (-1) (-1), listener] [(3, 7)] :=
    reachable_connected fun _ => trivial
  have hmeets : Meets [connected (-1) (-1), listener] (.accept 4) := by
    simp [Meets, connected, listener, isConnected, connection]
  have haccepted := hconnected.step hmeets step_accept
  obtain ⟨fds, hpipe⟩ := step_pipe
  have hreachable := haccepted.step (by simp [Meets]) hpipe
  exact ⟨fds, hreachable, faithful_of_reachable hreachable⟩

/-- `accept(3, ..., ...) = 3` -/
theorem not_forall_faithful :
    ¬ ∀ fds held, Reachable (fun _ _ => True) fds held → Faithful fds held := by
  intro h
  have hrun : syscallAccept [.integer 3, .ellipsis, .ellipsis] (grantEnv 3 8)
      (quietState [connected (-1) (-1), listener]) = (.ok (),
        { quietState [connected 3 8, listener] with marks := [.beginSyscall, .endSyscall] }) := rfl
  have hanswers : Answers (grantEnv 3 8) (grantReply 8) := fun _ => ⟨rfl, rfl⟩
  have hfresh : Fresh [connected (-1) (-1), listener] 8 := by simp [Fresh, connected, listener]
  have hstep : Step [connected (-1) (-1), listener] [(3, 7)] (.accept 3)
      [connected 3 8, listener] [(3, 8), (3, 7)] :=
    .accept (s := quietState _) hanswers hfresh rfl hrun
  have hnodup := (h _ _ (.step (reachable_connected fun _ => trivial) trivial hstep)).scripts
  revert hnodup
  decide

end QoSMos.Syscall
