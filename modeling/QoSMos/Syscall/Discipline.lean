import QoSMos.Flow.Key
import QoSMos.Syscall.Handlers

/-!
# The handlers pair their calls

Between `begin_syscall` and `end_syscall` a thread that runs a blocking call has given up the
mutex. `Paired` says of a part of a handler that it keeps to this order when it is run from the
start, `Closes` that it does when it is run after `begin_syscall`, and `Quiet` that it calls neither
function. The instances follow the statements that handlers are made of, so that the evidence for a
handler is found along its `do` block.
-/

namespace QoSMos.Syscall

open Handler

/-! ## The discipline -/

/-- A call is started by a thread that holds the mutex; a blocking one was enqueued. -/
structure Started (env : Env) (s : State) : Prop where
  marks : s.marks = []
  locked : s.locked = true
  enqueued : env.blocking → s.syscallState = .enqueued

/-- The marks of the two functions. -/
def calls (marks : List Mark) : List Mark :=
  marks.filter fun m => m = .beginSyscall ∨ m = .endSyscall

/-- The marks of the mutex. -/
def mutexOps (marks : List Mark) : List Mark := marks.filter fun m => m = .unlock ∨ m = .lock

/-- What the marks of a handler are to be. -/
structure Disciplined (env : Env) (marks : List Mark) : Prop where
  paired : .endSyscall ∈ marks → calls marks = [.beginSyscall, .endSyscall]
  handedBack : env.blocking → .endSyscall ∈ marks → mutexOps marks = [.unlock, .lock]
  asserted : ∀ expected actual, .asserted expected actual ∈ marks → actual = expected

/-! ## Parts of a handler -/

section Parts

variable {α β : Type} {m : Handler α} {f : α → Handler β} {env : Env} {s s' t : State}

/-- The states agree on what the discipline is about. -/
structure Same (s s' : State) : Prop where
  marks : s'.marks = s.marks
  locked : s'.locked = s.locked
  syscallState : s'.syscallState = s.syscallState

theorem Same.refl (s : State) : Same s s := ⟨rfl, rfl, rfl⟩

theorem Same.trans (h : Same s s') (h' : Same s' t) : Same s t :=
  ⟨h'.marks.trans h.marks, h'.locked.trans h.locked, h'.syscallState.trans h.syscallState⟩

/-- The marks that `begin_syscall` leaves. -/
def opening (env : Env) : List Mark :=
  if env.blocking then [.beginSyscall, .asserted .enqueued .enqueued, .unlock]
  else [.beginSyscall]

/-- The marks that `end_syscall` leaves. -/
def closing (env : Env) : List Mark :=
  if env.blocking then [.endSyscall, .lock, .asserted .running .running] else [.endSyscall]

/-- The thread has come through `begin_syscall`. -/
structure Begun (env : Env) (s : State) : Prop where
  unlocked : env.blocking → s.locked = false
  running : env.blocking → s.syscallState = .running

class Quiet {α : Type} (m : Handler α) : Prop where
  same : ∀ env s, Same s (m env s).2

class Closes {α : Type} (m : Handler α) : Prop where
  closes : ∀ env s, Begun env s →
    (m env s).2.marks = s.marks ∨ (m env s).2.marks = s.marks ++ closing env

class Paired {α : Type} (m : Handler α) : Prop where
  paired : ∀ env s, s.locked = true → (env.blocking → s.syscallState = .enqueued) →
    (m env s).2.marks = s.marks ∨ (m env s).2.marks = s.marks ++ opening env ∨
      (m env s).2.marks = s.marks ++ (opening env ++ closing env)

/-- A sequence ends where its first part stops, or goes on in the state that it leaves. -/
theorem bind_cases (m : Handler α) (f : α → Handler β) (env : Env) (s : State) :
    ((m >>= f) env s).2 = (m env s).2 ∨ ∃ a, ((m >>= f) env s) = f a env (m env s).2 := by
  rcases hm : m env s with ⟨_ | a, s'⟩
  · left
    simp only [Bind.bind, hm]
  · right
    exact ⟨a, by simp only [Bind.bind, hm]⟩

instance quiet_bind [hm : Quiet m] [hf : ∀ a, Quiet (f a)] : Quiet (m >>= f) where
  same env s := by
    rcases bind_cases m f env s with h | ⟨a, h⟩
    · rw [h]
      exact hm.same env s
    · rw [h]
      exact (hm.same env s).trans ((hf a).same env _)

instance closes_bind [hm : Quiet m] [hf : ∀ a, Closes (f a)] : Closes (m >>= f) where
  closes env s hbegun := by
    have hsame := hm.same env s
    rcases bind_cases m f env s with h | ⟨a, h⟩
    · rw [h]
      exact .inl hsame.marks
    · rw [h, ← hsame.marks]
      exact (hf a).closes env _ ⟨fun hb => hsame.locked.trans (hbegun.unlocked hb),
        fun hb => hsame.syscallState.trans (hbegun.running hb)⟩

theorem Paired.bind [hm : Quiet m] (hf : ∀ a, Paired (f a)) : Paired (m >>= f) where
  paired env s hlocked henqueued := by
    have hsame := hm.same env s
    rcases bind_cases m f env s with h | ⟨a, h⟩
    · rw [h]
      exact .inl hsame.marks
    · rw [h, ← hsame.marks]
      exact (hf a).paired env _ (hsame.locked.trans hlocked) fun hb =>
        hsame.syscallState.trans (henqueued hb)

instance paired_bind [Quiet m] [hf : ∀ a, Paired (f a)] : Paired (m >>= f) := .bind hf

instance quiet_ite {c : Prop} [Decidable c] {m m' : Handler α} [Quiet m] [Quiet m'] :
    Quiet (if c then m else m') := by
  split <;> infer_instance

instance paired_ite {c : Prop} [Decidable c] {m m' : Handler α} [Paired m] [Paired m'] :
    Paired (if c then m else m') := by
  split <;> infer_instance

/-! ## Statements that leave the marks alone -/

instance quiet_pure {a : α} : Quiet (pure a : Handler α) := ⟨fun _ _ => .refl _⟩

instance quiet_stop {stop : Stop} : Quiet (Handler.stop stop : Handler α) :=
  ⟨fun _ _ => .refl _⟩

instance quiet_fail {message : String} : Quiet (fail message : Handler α) := quiet_stop

instance quiet_readEnv : Quiet readEnv := ⟨fun _ _ => .refl _⟩

instance quiet_take {x : Checked α} : Quiet (take x) := ⟨fun _ _ => .refl _⟩

instance quiet_lift {x : Except Stop α} : Quiet (lift x) := ⟨fun _ _ => .refl _⟩

instance quiet_withFds {g : List FdState → Except Stop α} : Quiet (withFds g) :=
  ⟨fun _ _ => .refl _⟩

instance quiet_updateFds {g : List FdState → Except Stop (α × List FdState)} :
    Quiet (updateFds g) where
  same env s := by
    unfold updateFds
    split
    · exact ⟨rfl, rfl, rfl⟩
    · exact .refl _

instance quiet_setFds {g : List FdState → Except Stop (List FdState)} : Quiet (setFds g) :=
  quiet_updateFds

instance quiet_require {c : Prop} [Decidable c] {function expression : String} :
    Quiet (Handler.require c function expression) := quiet_lift

instance quiet_expect {c : Prop} [Decidable c] {message : String} : Quiet (expect c message) :=
  quiet_ite

instance quiet_invoke {call : Call} : Quiet (invoke call) := by
  unfold invoke
  infer_instance

instance quiet_invokeKernel {call : Call} : Quiet (invokeKernel call) := by
  unfold invokeKernel
  infer_instance

instance quiet_allocBuffer {isNull : Bool} {count : Int} : Quiet (allocBuffer isNull count) := by
  unfold allocBuffer
  infer_instance

instance quiet_checkResult {mode : ResultCheckT} {actual actualErrno : Int} :
    Quiet (checkResult mode actual actualErrno) := by
  unfold checkResult
  infer_instance

instance quiet_checkErrno {actualErrno : Int} : Quiet (checkErrno actualErrno) := by
  unfold checkErrno
  refine @quiet_bind _ _ _ _ inferInstance fun env => ?_
  split <;> infer_instance

instance quiet_connectMsg {scriptFd : Int} {msg : Msghdr} : Quiet (connectMsg scriptFd msg) := by
  unfold connectMsg
  refine @quiet_bind _ _ _ _ inferInstance fun env => ?_
  split <;> infer_instance

instance quiet_checkOptval {valExpression : Expression} {args : List Expression}
    {scriptOptlen : Int} {optval : List UInt8} :
    Quiet (checkOptval valExpression args scriptOptlen optval) := by
  unfold checkOptval
  split <;> infer_instance

/-! ## The two functions -/

theorem beginSyscall_spec (hlocked : s.locked = true)
    (henqueued : env.blocking → s.syscallState = .enqueued) :
    ∃ t, beginSyscall env s = (.ok (), t) ∧ t.marks = s.marks ++ opening env ∧ Begun env t := by
  cases hb : env.blocking with
  | false =>
    refine ⟨{ s with marks := s.marks ++ [.beginSyscall] }, ?_, by simp [opening, hb],
      ⟨by simp [hb], by simp [hb]⟩⟩
    simp [beginSyscall, bind, mark, readEnv, hb, pure]
  | true =>
    have hstate := henqueued hb
    refine ⟨{ s with
      syscallState := .running
      locked := false
      marks := s.marks ++ opening env }, ?_, rfl, ⟨fun _ => rfl, fun _ => rfl⟩⟩
    simp [beginSyscall, bind, mark, readEnv, hb, assertState, syscallState, hstate,
      Handler.require, lift, assert, setSyscallState, runUnlock, hlocked, opening]

/-- Only its first statements leave marks. -/
theorem endSyscall_marks {mode : ResultCheckT} {reply : Reply} (hbegun : Begun env s) :
    (endSyscall mode reply env s).2.marks = s.marks ++ closing env := by
  have hcheck : Quiet (checkResult mode reply.result reply.errno >>= fun _ =>
    checkErrno reply.errno) := inferInstance
  have hreacquire : ∃ t, reacquire env { s with marks := s.marks ++ [.endSyscall] } = (.ok (), t) ∧
      t.marks = s.marks ++ closing env := by
    cases hb : env.blocking with
    | false =>
      refine ⟨{ s with marks := s.marks ++ [.endSyscall] }, ?_, by simp [closing, hb]⟩
      simp [reacquire, bind, readEnv, hb, pure]
    | true =>
      have hlocked := hbegun.unlocked hb
      have hstate := hbegun.running hb
      refine ⟨_, by
        simp [reacquire, bind, readEnv, hb, runLock, hlocked, setLiveEndUsecs, assertState,
          syscallState, hstate, mark, Handler.require, lift, assert, setSyscallState]
        rfl, by simp [closing, hb]⟩
  obtain ⟨t, ht, hmarks⟩ := hreacquire
  have hend : endSyscall mode reply env s =
      (checkResult mode reply.result reply.errno >>= fun _ => checkErrno reply.errno) env t := by
    simp only [endSyscall, bind, mark, ht]
  rw [hend, (hcheck.same env t).marks, hmarks]

instance closes_endSyscall {mode : ResultCheckT} {reply : Reply} :
    Closes (endSyscall mode reply) := ⟨fun _ _ hbegun => .inr (endSyscall_marks hbegun)⟩

instance closes_endSyscall_bind {mode : ResultCheckT} {reply : Reply} {f : Unit → Handler α}
    [hf : ∀ a, Quiet (f a)] : Closes (endSyscall mode reply >>= f) where
  closes env s hbegun := by
    rcases bind_cases (endSyscall mode reply) f env s with h | ⟨a, h⟩
    · rw [h]
      exact .inr (endSyscall_marks hbegun)
    · rw [h, ((hf a).same env _).marks]
      exact .inr (endSyscall_marks hbegun)

instance paired_beginSyscall_bind {f : Unit → Handler α} [hf : ∀ a, Closes (f a)] :
    Paired (beginSyscall >>= f) where
  paired env s hlocked henqueued := by
    obtain ⟨t, ht, hmarks, hbegun⟩ := beginSyscall_spec hlocked henqueued
    have hrun : (beginSyscall >>= f) env s = f () env t := by
      simp only [bind, ht]
    rw [hrun]
    rcases (hf ()).closes env t hbegun with h | h
    · exact .inr (.inl (h.trans hmarks))
    · rw [h, hmarks, List.append_assoc]
      exact .inr (.inr rfl)

/-! ## The handlers -/

section Table

set_option synthInstance.maxSize 4000

variable (args : List Expression)

theorem paired_syscallSocket : Paired (syscallSocket args) := by
  unfold syscallSocket
  dsimp only
  infer_instance

theorem paired_syscallBind : Paired (syscallBind args) := by
  unfold syscallBind
  dsimp only
  infer_instance

theorem paired_syscallListen : Paired (syscallListen args) := by
  unfold syscallListen
  infer_instance

theorem paired_syscallAccept : Paired (syscallAccept args) := by
  unfold syscallAccept
  infer_instance

theorem paired_syscallConnect : Paired (syscallConnect args) := by
  unfold syscallConnect
  infer_instance

theorem paired_readOrWrite (call : Int → Bool → Int → Call) :
    Paired (readOrWrite call args) := by
  unfold readOrWrite
  infer_instance

theorem paired_readvOrWritev (call : Int → List Int → Int → Call) :
    Paired (readvOrWritev call args) := by
  unfold readvOrWritev
  infer_instance

theorem paired_recvOrSend (call : Int → Bool → Int → Int → Call) :
    Paired (recvOrSend call args) := by
  unfold recvOrSend
  infer_instance

theorem paired_syscallRecvfrom : Paired (syscallRecvfrom args) := by
  unfold syscallRecvfrom
  infer_instance

theorem paired_syscallRecvmsg : Paired (syscallRecvmsg args) := by
  unfold syscallRecvmsg
  refine .bind fun _ => .bind fun _ => .bind fun _ => .bind fun _ => .bind fun _ => ?_
  refine .bind fun (_, _) => .bind fun (_, _) => ?_
  infer_instance

instance paired_syscallIcmpSendto : Paired (syscallIcmpSendto args) := by
  unfold syscallIcmpSendto
  infer_instance

theorem paired_syscallSendto : Paired (syscallSendto args) := by
  unfold syscallSendto
  infer_instance

theorem paired_syscallSendmsg : Paired (syscallSendmsg args) := by
  unfold syscallSendmsg
  refine .bind fun _ => .bind fun _ => .bind fun _ => .bind fun _ => .bind fun _ => ?_
  refine .bind fun (_, _) => ?_
  infer_instance

theorem paired_syscallFcntl : Paired (syscallFcntl args) := by
  unfold syscallFcntl
  dsimp only
  infer_instance

theorem paired_syscallIoctl : Paired (syscallIoctl args) := by
  unfold syscallIoctl
  dsimp only
  infer_instance

theorem paired_syscallClose : Paired (syscallClose args) := by
  unfold syscallClose
  infer_instance

theorem paired_syscallShutdown : Paired (syscallShutdown args) := by
  unfold syscallShutdown
  infer_instance

theorem paired_syscallGetsockopt : Paired (syscallGetsockopt args) := by
  unfold syscallGetsockopt
  infer_instance

theorem paired_syscallSetsockopt : Paired (syscallSetsockopt args) := by
  unfold syscallSetsockopt
  infer_instance

theorem paired_syscallPoll : Paired (syscallPoll args) := by
  unfold syscallPoll
  infer_instance

theorem paired_syscallCapSet : Paired (syscallCapSet args) := by
  unfold syscallCapSet
  infer_instance

theorem paired_syscallOpen : Paired (syscallOpen args) := by
  unfold syscallOpen
  infer_instance

theorem paired_syscallSendfile : Paired (syscallSendfile args) := by
  unfold syscallSendfile
  infer_instance

theorem paired_syscallEpollCreate : Paired (syscallEpollCreate args) := by
  unfold syscallEpollCreate
  infer_instance

theorem paired_syscallEpollCtl : Paired (syscallEpollCtl args) := by
  unfold syscallEpollCtl
  refine .bind fun _ => .bind fun _ => .bind fun _ => .bind fun _ => .bind fun _ => ?_
  refine .bind fun _ => .bind fun _ => .bind fun (_, _) => ?_
  infer_instance

theorem paired_syscallEpollWait : Paired (syscallEpollWait args) := by
  unfold syscallEpollWait
  refine .bind fun _ => .bind fun _ => .bind fun _ => .bind fun _ => .bind fun (_, _) => ?_
  infer_instance

theorem paired_syscallPipe : Paired (syscallPipe args) := by
  unfold syscallPipe
  infer_instance

end Table

end Parts

/-! ## The table -/

section Table

variable {name : String} {handler : List Expression → Handler Unit} {args : List Expression}
  {env : Env} {s : State}

/-- Every entry of the table but the last keeps to the discipline, whatever its arguments. -/
theorem paired_of_mem (hmem : (name, handler) ∈ systemCallTable) (hname : name ≠ "splice") :
    Paired (handler args) := by
  simp only [systemCallTable, List.mem_cons, Prod.mk.injEq, List.not_mem_nil, or_false] at hmem
  rcases hmem with ⟨-, rfl⟩ | ⟨-, rfl⟩ | ⟨-, rfl⟩ | ⟨-, rfl⟩ | ⟨-, rfl⟩ | ⟨-, rfl⟩ | ⟨-, rfl⟩ |
    ⟨-, rfl⟩ | ⟨-, rfl⟩ | ⟨-, rfl⟩ | ⟨-, rfl⟩ | ⟨-, rfl⟩ | ⟨-, rfl⟩ | ⟨-, rfl⟩ | ⟨-, rfl⟩ |
    ⟨-, rfl⟩ | ⟨-, rfl⟩ | ⟨-, rfl⟩ | ⟨-, rfl⟩ | ⟨-, rfl⟩ | ⟨-, rfl⟩ | ⟨-, rfl⟩ | ⟨-, rfl⟩ |
    ⟨-, rfl⟩ | ⟨-, rfl⟩ | ⟨-, rfl⟩ | ⟨-, rfl⟩ | ⟨-, rfl⟩ | ⟨-, rfl⟩ | ⟨hsplice, -⟩
  · exact paired_syscallSocket args
  · exact paired_syscallBind args
  · exact paired_syscallListen args
  · exact paired_syscallAccept args
  · exact paired_syscallConnect args
  · exact paired_readOrWrite args .read
  · exact paired_readvOrWritev args .readv
  · exact paired_recvOrSend args .recv
  · exact paired_syscallRecvfrom args
  · exact paired_syscallRecvmsg args
  · exact paired_readOrWrite args .write
  · exact paired_readvOrWritev args .writev
  · exact paired_recvOrSend args .send
  · exact paired_syscallSendto args
  · exact paired_syscallSendmsg args
  · exact paired_syscallFcntl args
  · exact paired_syscallIoctl args
  · exact paired_syscallClose args
  · exact paired_syscallShutdown args
  · exact paired_syscallGetsockopt args
  · exact paired_syscallSetsockopt args
  · exact paired_syscallPoll args
  · exact paired_syscallCapSet args
  · exact paired_syscallOpen args
  · exact paired_syscallSendfile args
  · exact paired_syscallEpollCreate args
  · exact paired_syscallEpollCtl args
  · exact paired_syscallEpollWait args
  · exact paired_syscallPipe args
  · exact absurd hsplice hname

theorem disciplined_nil : Disciplined env [] := ⟨by simp, by simp, by simp⟩

theorem disciplined_opening : Disciplined env (opening env) := by
  cases hb : env.blocking <;> constructor <;> simp [opening, hb]

theorem disciplined_closed : Disciplined env (opening env ++ closing env) := by
  cases hb : env.blocking with
  | false => constructor <;> simp [opening, closing, calls, hb]
  | true =>
    constructor
    · simp [opening, closing, calls, hb]
    · simp [opening, closing, mutexOps, hb]
    · simp only [opening, closing, hb, if_true, List.mem_append, List.mem_cons]
      rintro _ _ h
      grind

theorem disciplined_of_paired [hp : Paired (handler args)] (hstart : Started env s) :
    Disciplined env (handler args env s).2.marks := by
  have hmarks := hp.paired env s hstart.locked hstart.enqueued
  rw [hstart.marks, List.nil_append, List.nil_append] at hmarks
  rcases hmarks with h | h | h <;> rw [h]
  · exact disciplined_nil
  · exact disciplined_opening
  · exact disciplined_closed

/-! ## The handler that does not -/

/-- Without `begin_syscall` the mutex is still held when `end_syscall` locks it. -/
theorem endSyscall_marks_of_locked {mode : ResultCheckT} {reply : Reply}
    (hlocked : s.locked = true) :
    (endSyscall mode reply env s).2.marks = s.marks ++ [Mark.endSyscall] := by
  have hcheck : Quiet (checkResult mode reply.result reply.errno >>= fun _ =>
    checkErrno reply.errno) := inferInstance
  let t := { s with marks := s.marks ++ [Mark.endSyscall] }
  have hend : endSyscall mode reply env s = (reacquire >>= fun _ =>
      checkResult mode reply.result reply.errno >>= fun _ => checkErrno reply.errno) env t := rfl
  have hreacquire : (reacquire env t).2 = t := by
    cases hb : env.blocking with
    | false => simp [reacquire, bind, readEnv, hb, pure]
    | true => simp [reacquire, bind, readEnv, hb, runLock, t, hlocked]
  rw [hend]
  rcases bind_cases reacquire _ env t with h | ⟨a, h⟩
  · rw [h, hreacquire]
  · rw [h, hreacquire, (hcheck.same env t).marks]

theorem splice_marks {call : Call} (hargs : spliceArgs args s.fds = .ok call)
    (hstart : Started env s) : (syscallSplice args env s).2.marks = [.endSyscall] := by
  have hrun : syscallSplice args env s = endSyscall .checkExact (env.answer call) env s := by
    simp only [syscallSplice, bind, withFds, hargs, invoke, readEnv, pure]
  rw [hrun, endSyscall_marks_of_locked hstart.locked, hstart.marks, List.nil_append]

theorem splice_stops {stop : Stop} (hargs : spliceArgs args s.fds = .error stop) :
    (syscallSplice args env s).2 = s := by
  simp only [syscallSplice, bind, withFds, hargs]

/-- The handlers keep to the discipline on every path, but for a `splice` whose arguments are
taken. -/
theorem disciplined_iff (hmem : (name, handler) ∈ systemCallTable) (hstart : Started env s) :
    Disciplined env (handler args env s).2.marks ↔
      ¬ (name = "splice" ∧ ∃ call, spliceArgs args s.fds = .ok call) := by
  by_cases hname : name = "splice"
  · obtain rfl : handler = syscallSplice := by
      simpa [systemCallTable, hname] using hmem
    cases hargs : spliceArgs args s.fds with
    | error stop =>
      rw [splice_stops hargs, hstart.marks]
      simpa using disciplined_nil
    | ok call =>
      rw [splice_marks hargs hstart]
      refine ⟨fun h => ?_, fun h => absurd ⟨hname, call, rfl⟩ h⟩
      have := h.paired (by simp)
      simp [calls] at this
  · have : Paired (handler args) := paired_of_mem hmem hname
    exact ⟨fun _ h => hname h.1, fun _ => disciplined_of_paired hstart⟩

end Table

/-- A reply of a call that fills no buffer. -/
def plainReply (result : Int) : Reply where
  result := result
  errno := 0
  peer := .error (.die "ip_from_sockaddr: bad address family: 0\n")
  msg := ⟨none, false, [], 0, none, 0⟩
  optval := []
  optlen := 0
  ioctlOptval := 0
  revents := []
  epollEvents := 0
  epollData := 0
  pipeFds := (0, 0)

/-- A blocking call that is expected to return one, on a kernel that returns one. -/
def blockingEnv : Env where
  config := ⟨2, 2, false, ⟨.inet, [192, 0, 2, 1]⟩, 8080, ⟨.inet, [192, 0, 2, 2]⟩, 8080,
    ⟨.inet, [192, 0, 2, 1]⟩, ⟨.inet, [192, 0, 2, 2]⟩⟩
  blocking := true
  result := .integer 1
  errnoMacro := none
  soInstance := false
  ifc := fun _ => plainReply 1
  kernel := fun _ => plainReply 1
  meanwhile := id
  nowUsecs := 1
  allocates := fun _ => true
  symbolToInt := fun symbol => .error s!"unknown symbol: '{symbol}'"
  strerror := fun errno => if errno = 0 then "Success" else s!"Unknown error {errno}"
  flagsToString := fun flags => s!"{flags}"
  inetNtop := plainInetNtop
  pointer := fun address => "0x" ++ .ofList (Nat.toDigits 16 address.toNat)
  cmsgNew := fun _ => .ok []
  cmsgExpectEq := fun _ _ => .ok ()
  capGetProc := true
  capFree := true

/-- The two ends of a pipe are open, and a call was enqueued. -/
def pipeState : State where
  fds := [⟨1, .pipe, 4, 8, false⟩, ⟨0, .pipe, 3, 7, false⟩]
  syscallState := .enqueued
  liveEndUsecs := -1
  locked := true
  marks := []

theorem started_pipeState : Started blockingEnv pipeState := ⟨rfl, rfl, fun _ => rfl⟩

theorem disciplined_iff_read :
    Disciplined blockingEnv
        (syscallRead [.integer 3, .ellipsis, .integer 1] blockingEnv pipeState).2.marks ↔
      ¬ ("read" = "splice" ∧ ∃ call,
        spliceArgs [.integer 3, .ellipsis, .integer 1] pipeState.fds = .ok call) :=
  disciplined_iff (by simp [systemCallTable]) started_pipeState

/-- `splice(3, 0, 4, 0, 1, 0)` as a blocking call: the thread waits for the mutex that it holds. -/
theorem not_disciplined_splice :
    ("splice", syscallSplice) ∈ systemCallTable ∧ Started blockingEnv pipeState ∧
      (syscallSplice [.integer 3, .integer 0, .integer 4, .integer 0, .integer 1, .integer 0]
        blockingEnv pipeState).1 = .error .deadlock ∧
      ¬ Disciplined blockingEnv
        (syscallSplice [.integer 3, .integer 0, .integer 4, .integer 0, .integer 1, .integer 0]
          blockingEnv pipeState).2.marks := by
  refine ⟨by simp [systemCallTable], started_pipeState, rfl, fun h => ?_⟩
  have hmarks : (syscallSplice [.integer 3, .integer 0, .integer 4, .integer 0, .integer 1,
      .integer 0] blockingEnv pipeState).2.marks = [.endSyscall] := rfl
  rw [hmarks] at h
  have := h.paired (by simp)
  simp [calls] at this

end QoSMos.Syscall
