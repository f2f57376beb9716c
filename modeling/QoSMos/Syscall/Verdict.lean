import QoSMos.Syscall.Discipline

/-!
# What a system call that passes has answered

A handler that returns has made a call of its name, on live descriptors that the list of descriptors
has for those of the script, and was answered with the result and the `errno` that the script
expects. `Leads` says of a part of a handler what holds wherever it returns. Its rules follow the
statements of the handlers.
-/

namespace QoSMos.Syscall

open Handler Returns

/-! ## The program -/

/-- What `invoke_system_call` does with an error. -/
def runtimeError {α : Type} (scriptPath : String) (lineNumber : Nat) (name error : String) :
    Handler α :=
  stop (.die (s!"{scriptPath}:{lineNumber}: runtime error in {name} call: {error}" ++ "\n"))

/-- `invoke_system_call` without waiting for the time of the event; `args` is what the evaluation of
the arguments returns. -/
def invokeSystemCall (scriptPath : String) (lineNumber : Nat) (name : String)
    (args : Checked (List Expression)) : Handler Unit :=
  match systemCallTable.find? fun entry => decide (name = entry.1) with
  | none => runtimeError scriptPath lineNumber name s!"Unknown system call: '{name}'"
  | some (_, handler) =>
    match args with
    | .error error => runtimeError scriptPath lineNumber name error
    | .ok args => fun env s =>
      match handler args env s with
      | (.error (.error error), s) => runtimeError scriptPath lineNumber name error env s
      | result => result

/-! ## What is expected -/

/-- The reply has the result that the script expects, and the `errno` if it names one. -/
structure MeetsScript (env : Env) (mode : ResultCheckT) (reply : Reply) : Prop where
  result : ∃ expected, getS32 env.result = .ok expected ∧
    if mode = .checkFd ∧ 0 ≤ expected then 0 ≤ reply.result else reply.result = expected
  errno : ∀ errnoMacro, env.errnoMacro = some errnoMacro →
    env.symbolToInt errnoMacro = .ok reply.errno

/-- The name of a call in the table. -/
def Call.name : Call → String
  | .socket _ _ _ => "socket"
  | .bind _ _ => "bind"
  | .listen _ _ => "listen"
  | .accept _ => "accept"
  | .connect _ _ => "connect"
  | .read _ _ _ => "read"
  | .readv _ _ _ => "readv"
  | .recv _ _ _ _ => "recv"
  | .recvfrom _ _ _ _ => "recvfrom"
  | .recvmsg _ _ _ => "recvmsg"
  | .write _ _ _ => "write"
  | .writev _ _ _ => "writev"
  | .send _ _ _ _ => "send"
  | .sendto _ _ _ _ _ _ => "sendto"
  | .sendmsg _ _ _ => "sendmsg"
  | .fcntl _ _ _ => "fcntl"
  | .ioctl _ _ _ => "ioctl"
  | .close _ => "close"
  | .shutdown _ _ => "shutdown"
  | .getsockopt _ _ _ _ => "getsockopt"
  | .setsockopt _ _ _ _ _ => "setsockopt"
  | .poll _ _ _ => "poll"
  | .capSetProc _ _ _ => "cap_set"
  | .open _ _ => "open"
  | .sendfile _ _ _ _ => "sendfile"
  | .epollCreate _ => "epoll_create"
  | .epollCtl _ _ _ _ _ => "epoll_ctl"
  | .epollWait _ _ _ => "epoll_wait"
  | .pipe => "pipe"
  | .splice _ _ _ _ _ _ => "splice"

/-- The descriptors that a call acts on. -/
def Call.descriptors : Call → List Int
  | .bind fd _ | .listen fd _ | .accept fd | .connect fd _ | .read fd _ _ | .readv fd _ _
  | .recv fd _ _ _ | .recvfrom fd _ _ _ | .recvmsg fd _ _ | .write fd _ _ | .writev fd _ _
  | .send fd _ _ _ | .sendto fd _ _ _ _ _ | .sendmsg fd _ _ | .fcntl fd _ _ | .ioctl fd _ _
  | .close fd | .shutdown fd _ | .getsockopt fd _ _ _ | .setsockopt fd _ _ _ _
  | .epollWait fd _ _ => [fd]
  | .poll fds _ _ => fds.map Pollfd.fd
  | .sendfile outFd inFd _ _ => [outFd, inFd]
  | .epollCtl epfd _ fd _ _ => [epfd, fd]
  | .splice fdIn _ fdOut _ _ _ => [fdIn, fdOut]
  | .socket _ _ _ | .capSetProc _ _ _ | .open _ _ | .epollCreate _ | .pipe => []

/-- The calls whose result is a descriptor, or is treated like one. -/
def Call.resultCheck : Call → ResultCheckT
  | .socket _ _ _ | .accept _ | .capSetProc _ _ _ | .open _ _ | .epollCreate _ => .checkFd
  | _ => .checkExact

/-- Some calls never go to a shared object under test. -/
def Env.answerOf (env : Env) : Call → Reply
  | .capSetProc flag value op => env.kernel (.capSetProc flag value op)
  | .open name flags => env.kernel (.open name flags)
  | .sendfile outFd inFd offset count => env.kernel (.sendfile outFd inFd offset count)
  | call => env.answer call

/-- The positions of the descriptors among the arguments; those of `poll` are in a list. -/
def Call.positions : Call → List Nat
  | .sendfile _ _ _ _ => [0, 1]
  | .epollCtl _ _ _ _ _ | .splice _ _ _ _ _ _ => [0, 2]
  | .socket _ _ _ | .capSetProc _ _ _ | .open _ _ | .epollCreate _ | .pipe => []
  | _ => [0]

/-- The descriptor of an element of the list of `poll`. -/
def pollDescriptor : Expression → Checked Int
  | .pollfd fd _ _ => do return toInt (← checkInteger fd)
  | expression => badType expression "pollfd"

/-- The descriptors that the script writes in a call. -/
def Call.scriptDescriptors (args : List Expression) : Call → Checked (List Int)
  | .poll _ _ _ => do (← checkList (← getArg args 0)).mapM pollDescriptor
  | call => call.positions.mapM (s32Arg args)

/-- The call acts on the live descriptors of those that the script writes, in their order. -/
def Targets (args : List Expression) (fds : List FdState) (call : Call) : Prop :=
  ∃ scriptFds, call.scriptDescriptors args = .ok scriptFds ∧
    List.Forall₂ (fun scriptFd fd => toLiveFd fds scriptFd = .ok fd) scriptFds call.descriptors

/-- A call of this name was answered as the script expects. -/
def Answered (env : Env) (fds : List FdState) (name : String) (args : List Expression) : Prop :=
  ∃ call : Call, call.name = name ∧ Targets args fds call ∧
    MeetsScript env call.resultCheck (env.answerOf call)

/-! ## Rules -/

/-- Wherever `m` returns, `Q` holds. -/
def Leads {α : Type} (m : Handler α) (env : Env) (s : State) (Q : Prop) : Prop :=
  ∀ a t, m env s = (.ok a, t) → Q

namespace Leads

variable {α β : Type} {m : Handler α} {f : α → Handler β} {env : Env} {s : State} {Q : Prop}

/-- The rest has to be looked at where the first part returns. -/
theorem bind (h : ∀ a t, m env s = (.ok a, t) → Leads (f a) env t Q) :
    Leads (m >>= f) env s Q := by
  intro b t hrun
  rcases hm : m env s with ⟨_ | a, u⟩
  · simp [Bind.bind, hm] at hrun
  · simp only [Bind.bind, hm] at hrun
    exact h a u hm b t hrun

theorem take {x : Checked α} (h : ∀ a, x = .ok a → Leads (f a) env s Q) :
    Leads (Handler.take x >>= f) env s Q := by
  refine bind fun a t hrun => ?_
  obtain ⟨hx, rfl⟩ := Prod.mk.inj hrun
  cases x with
  | error message => cases hx
  | ok b =>
    obtain rfl := Except.ok.inj hx
    exact h b rfl

theorem lift {x : Except Stop α} (h : ∀ a, x = .ok a → Leads (f a) env s Q) :
    Leads (Handler.lift x >>= f) env s Q := by
  refine bind fun a t hrun => ?_
  obtain ⟨rfl, rfl⟩ := Prod.mk.inj hrun
  exact h a rfl

theorem withFds {g : List FdState → Except Stop α}
    (h : ∀ a, g s.fds = .ok a → Leads (f a) env s Q) :
    Leads (Handler.withFds g >>= f) env s Q := by
  refine bind fun a t hrun => ?_
  obtain ⟨hg, rfl⟩ := Prod.mk.inj hrun
  exact h a hg

theorem readEnv {f : Env → Handler β} (h : Leads (f env) env s Q) :
    Leads (Handler.readEnv >>= f) env s Q := by
  refine bind fun a t hrun => ?_
  cases hrun
  exact h

/-- A statement of which nothing is used. -/
theorem any (h : ∀ a t, Leads (f a) env t Q) : Leads (m >>= f) env s Q := bind fun a t _ => h a t

theorem expect {c : Prop} [Decidable c] {message : String} (h : c → Q) :
    Leads (Handler.expect c message) env s Q := by
  intro a t hrun
  unfold Handler.expect at hrun
  split at hrun
  · exact h ‹c›
  · cases hrun

theorem expectBind {c : Prop} [Decidable c] {message : String} {f : Unit → Handler β}
    (h : Leads (f ()) env s Q) : Leads (Handler.expect c message >>= f) env s Q := by
  refine bind fun a t hrun => ?_
  unfold Handler.expect at hrun
  split at hrun
  · cases hrun
    exact h
  · cases hrun

theorem stop {stop : Stop} : Leads (Handler.stop stop >>= f) env s Q := by
  refine bind fun a t hrun => ?_
  cases hrun

theorem ite {c : Prop} [Decidable c] {m m' : Handler α} (h : Leads m env s Q)
    (h' : Leads m' env s Q) : Leads (if c then m else m') env s Q := by
  split
  · exact h
  · exact h'

/-- What was shown holds whatever follows. -/
theorem of (h : Q) : Leads m env s Q := fun _ _ _ => h

end Leads

/-! ## The end of a call -/

section End

variable {α : Type} {env : Env} {s : State} {mode : ResultCheckT} {reply : Reply} {Q : Prop}
  {f : Unit → Handler α} {c : Call} {name : String} {fds : List FdState} {scriptFd fd : Int}
  {args : List Expression}

theorem Leads.checkResult : Leads (checkResult mode reply.result reply.errno) env s
    (∃ expected, getS32 env.result = .ok expected ∧
      if mode = .checkFd ∧ 0 ≤ expected then 0 ≤ reply.result else reply.result = expected) := by
  unfold Handler.checkResult
  refine .readEnv (.take fun expected hexpected => ?_)
  dsimp only
  split
  · refine .expect fun hresult => ⟨expected, hexpected, ?_⟩
    rw [if_pos ‹_›]
    omega
  · refine .expect fun hresult => ⟨expected, hexpected, ?_⟩
    rw [if_neg ‹_›]
    exact hresult

theorem Leads.checkErrno : Leads (checkErrno reply.errno) env s
    (∀ errnoMacro, env.errnoMacro = some errnoMacro →
      env.symbolToInt errnoMacro = .ok reply.errno) := by
  unfold Handler.checkErrno
  refine .readEnv ?_
  split
  · rename_i hnone
    refine .of fun errnoMacro h => ?_
    cases hnone.symm.trans h
  · rename_i errnoMacro hsome
    refine .take fun expected hexpected => .expect fun herrno other h => ?_
    obtain rfl := Option.some.inj (hsome.symm.trans h)
    rw [hexpected, herrno]

/-- `end_syscall` returns where the reply is what the script expects. -/
theorem Leads.endSyscall (h : MeetsScript env mode reply → Q) :
    Leads (endSyscall mode reply) env s Q := by
  unfold Handler.endSyscall
  refine .any fun _ _ => .any fun _ _ => .bind fun _ _ hresult => fun _ _ herrno => h ?_
  exact ⟨Leads.checkResult _ _ hresult, Leads.checkErrno _ _ herrno⟩

theorem Leads.endSyscall_bind (h : MeetsScript env mode reply → Q) :
    Leads (Handler.endSyscall mode reply >>= f) env s Q :=
  .bind fun _ _ hend => .of (Leads.endSyscall h _ _ hend)

/-- The call that a handler is about. -/
structure Concerns (c : Call) (env : Env) (fds : List FdState) (name : String)
    (args : List Expression) (mode : ResultCheckT) (reply : Reply) : Prop where
  name_eq : c.name = name
  mode_eq : c.resultCheck = mode
  reply_eq : env.answerOf c = reply
  targets : Targets args fds c

theorem Concerns.answered (hc : Concerns c env fds name args mode reply)
    (h : MeetsScript env mode reply) : Answered env fds name args :=
  ⟨c, hc.name_eq, hc.targets, by rwa [hc.mode_eq, hc.reply_eq]⟩

/-- A call that ends the handler. -/
theorem Leads.last (hc : Concerns c env fds name args mode (env.answer c)) :
    Leads (beginSyscall >>= fun _ => invoke c >>= fun reply => Handler.endSyscall mode reply) env s
      (Answered env fds name args) :=
  .any fun _ t => .bind fun _ _ hinvoke => by
    cases hinvoke
    exact .endSyscall hc.answered

/-- A call whose reply is looked at. -/
theorem Leads.before {g : Reply → Unit → Handler α}
    (hc : Concerns c env fds name args mode (env.answer c)) :
    Leads (beginSyscall >>= fun _ => invoke c >>= fun reply =>
      Handler.endSyscall mode reply >>= g reply) env s (Answered env fds name args) :=
  .any fun _ t => .bind fun _ _ hinvoke => by
    cases hinvoke
    exact .endSyscall_bind hc.answered

theorem Leads.kernelLast (hc : Concerns c env fds name args mode (env.kernel c)) :
    Leads (beginSyscall >>= fun _ => invokeKernel c >>= fun reply =>
      Handler.endSyscall mode reply) env s (Answered env fds name args) :=
  .any fun _ t => .bind fun _ _ hinvoke => by
    cases hinvoke
    exact .endSyscall hc.answered

theorem Leads.kernelBefore {g : Reply → Unit → Handler α}
    (hc : Concerns c env fds name args mode (env.kernel c)) :
    Leads (beginSyscall >>= fun _ => invokeKernel c >>= fun reply =>
      Handler.endSyscall mode reply >>= g reply) env s (Answered env fds name args) :=
  .any fun _ t => .bind fun _ _ hinvoke => by
    cases hinvoke
    exact .endSyscall_bind hc.answered

theorem Targets.none (hscript : c.scriptDescriptors args = [].mapM (s32Arg args))
    (hlive : c.descriptors = []) : Targets args fds c :=
  ⟨[], hscript, by simp [hlive]⟩

theorem Targets.one (hscript : c.scriptDescriptors args = [0].mapM (s32Arg args))
    (hlive : c.descriptors = [fd]) (harg : s32Arg args 0 = .ok scriptFd)
    (hfd : toLiveFd fds scriptFd = .ok fd) : Targets args fds c := by
  refine ⟨[scriptFd], ?_, by simp [hlive, hfd]⟩
  rw [hscript, List.mapM_cons, harg]
  rfl

theorem Targets.two {second : Nat} {scriptFd' fd' : Int}
    (hscript : c.scriptDescriptors args = [0, second].mapM (s32Arg args))
    (hlive : c.descriptors = [fd, fd']) (harg : s32Arg args 0 = .ok scriptFd)
    (hfd : toLiveFd fds scriptFd = .ok fd) (harg' : s32Arg args second = .ok scriptFd')
    (hfd' : toLiveFd fds scriptFd' = .ok fd') : Targets args fds c := by
  refine ⟨[scriptFd, scriptFd'], ?_, by simp [hlive, hfd, hfd']⟩
  rw [hscript, List.mapM_cons, List.mapM_cons, harg, harg']
  rfl

end End

/-! ## The handlers -/

section Table

variable (args : List Expression) (env : Env) (s : State)

theorem leads_syscallSocket :
    Leads (syscallSocket args) env s (Answered env s.fds "socket" args) := by
  unfold syscallSocket
  refine .take fun _ _ => .take fun _ _ => .take fun _ _ => .take fun _ _ => .readEnv ?_
  exact .before ⟨rfl, rfl, rfl, .none rfl rfl⟩

theorem leads_syscallBind : Leads (syscallBind args) env s (Answered env s.fds "bind" args) := by
  unfold syscallBind
  refine .take fun _ _ => .take fun _ harg => .withFds fun _ hfd => .take fun _ _ => ?_
  exact .take fun _ _ => .readEnv (.last ⟨rfl, rfl, rfl, .one rfl rfl harg hfd⟩)

theorem leads_syscallListen :
    Leads (syscallListen args) env s (Answered env s.fds "listen" args) := by
  unfold syscallListen
  refine .take fun _ _ => .take fun _ harg => .withFds fun _ hfd => .take fun _ _ => ?_
  exact .before ⟨rfl, rfl, rfl, .one rfl rfl harg hfd⟩

theorem leads_syscallAccept :
    Leads (syscallAccept args) env s (Answered env s.fds "accept" args) := by
  unfold syscallAccept
  refine .take fun _ _ => .take fun _ harg => .withFds fun _ hfd => .take fun _ _ => ?_
  exact .take fun _ _ => .before ⟨rfl, rfl, rfl, .one rfl rfl harg hfd⟩

theorem leads_syscallConnect :
    Leads (syscallConnect args) env s (Answered env s.fds "connect" args) := by
  unfold syscallConnect
  refine .take fun _ _ => .take fun _ harg => .withFds fun _ hfd => .take fun _ _ => ?_
  exact .take fun _ _ => .readEnv (.any fun _ _ => .last ⟨rfl, rfl, rfl, .one rfl rfl harg hfd⟩)

theorem leads_readOrWrite {call : Int → Bool → Int → Call} {name : String}
    (hc : ∀ scriptFd fd isNull count, s32Arg args 0 = .ok scriptFd →
      toLiveFd s.fds scriptFd = .ok fd →
      Concerns (call fd isNull count) env s.fds name args .checkExact
        (env.answer (call fd isNull count))) :
    Leads (readOrWrite call args) env s (Answered env s.fds name args) := by
  unfold readOrWrite
  refine .take fun _ _ => .take fun _ harg => .withFds fun _ hfd => .take fun _ _ => ?_
  exact .take fun _ _ => .any fun _ _ => .last (hc _ _ _ _ harg hfd)

theorem leads_readvOrWritev {call : Int → List Int → Int → Call} {name : String}
    (hc : ∀ scriptFd fd iov iovCount, s32Arg args 0 = .ok scriptFd →
      toLiveFd s.fds scriptFd = .ok fd →
      Concerns (call fd iov iovCount) env s.fds name args .checkExact
        (env.answer (call fd iov iovCount))) :
    Leads (readvOrWritev call args) env s (Answered env s.fds name args) := by
  unfold readvOrWritev
  refine .take fun _ _ => .take fun _ harg => .withFds fun _ hfd => .take fun _ _ => ?_
  exact .lift fun _ _ => .take fun _ _ => .any fun _ _ => .last (hc _ _ _ _ harg hfd)

theorem leads_recvOrSend {call : Int → Bool → Int → Int → Call} {name : String}
    (hc : ∀ scriptFd fd isNull count flags, s32Arg args 0 = .ok scriptFd →
      toLiveFd s.fds scriptFd = .ok fd →
      Concerns (call fd isNull count flags) env s.fds name args .checkExact
        (env.answer (call fd isNull count flags))) :
    Leads (recvOrSend call args) env s (Answered env s.fds name args) := by
  unfold recvOrSend
  refine .take fun _ _ => .take fun _ harg => .withFds fun _ hfd => .take fun _ _ => ?_
  exact .take fun _ _ => .take fun _ _ => .any fun _ _ => .last (hc _ _ _ _ _ harg hfd)

theorem leads_syscallRecvfrom :
    Leads (syscallRecvfrom args) env s (Answered env s.fds "recvfrom" args) := by
  unfold syscallRecvfrom
  refine .take fun _ _ => .take fun _ harg => .withFds fun _ hfd => .take fun _ _ => ?_
  refine .take fun _ _ => .take fun _ _ => .take fun _ _ => .take fun _ _ => .any fun _ _ => ?_
  exact .last ⟨rfl, rfl, rfl, .one rfl rfl harg hfd⟩

theorem leads_syscallRecvmsg :
    Leads (syscallRecvmsg args) env s (Answered env s.fds "recvmsg" args) := by
  unfold syscallRecvmsg
  refine .take fun _ _ => .take fun _ harg => .withFds fun _ hfd => .take fun _ _ => .readEnv ?_
  refine .lift fun (_, _) _ => .lift fun (_, _) _ => .take fun _ _ => ?_
  exact .before ⟨rfl, rfl, rfl, .one rfl rfl harg hfd⟩

theorem leads_syscallIcmpSendto :
    Leads (syscallIcmpSendto args) env s (Answered env s.fds "sendto" args) := by
  unfold syscallIcmpSendto
  refine .take fun _ _ => .take fun _ harg => .withFds fun _ hfd => .take fun _ _ => ?_
  refine .take fun _ _ => .take fun _ _ => .take fun _ _ => .take fun _ _ => .readEnv ?_
  exact .any fun _ _ => .any fun _ _ => .last ⟨rfl, rfl, rfl, .one rfl rfl harg hfd⟩

theorem leads_syscallSendto :
    Leads (syscallSendto args) env s (Answered env s.fds "sendto" args) := by
  unfold syscallSendto
  refine .take fun _ _ => .take fun _ harg => .withFds fun _ hfd => .take fun _ _ => ?_
  refine .take fun _ _ => .take fun _ _ => .take fun _ _ => .take fun _ _ => ?_
  refine .withFds fun _ _ => .ite (leads_syscallIcmpSendto args env s) (.readEnv ?_)
  exact .any fun _ _ => .any fun _ _ => .last ⟨rfl, rfl, rfl, .one rfl rfl harg hfd⟩

theorem leads_syscallSendmsg :
    Leads (syscallSendmsg args) env s (Answered env s.fds "sendmsg" args) := by
  unfold syscallSendmsg
  refine .take fun _ _ => .take fun _ harg => .withFds fun _ hfd => .take fun _ _ => .readEnv ?_
  refine .lift fun (_, _) _ => .take fun _ _ => .any fun _ _ => .any fun _ _ => ?_
  exact .last ⟨rfl, rfl, rfl, .one rfl rfl harg hfd⟩

theorem leads_syscallFcntl : Leads (syscallFcntl args) env s (Answered env s.fds "fcntl" args) := by
  unfold syscallFcntl
  refine .expectBind ?_
  refine .take fun _ harg => .withFds fun _ hfd => .take fun _ _ => .ite ?_ (.take fun _ _ => ?_)
  · exact .last ⟨rfl, rfl, rfl, .one rfl rfl harg hfd⟩
  · exact .last ⟨rfl, rfl, rfl, .one rfl rfl harg hfd⟩

theorem leads_syscallIoctl : Leads (syscallIoctl args) env s (Answered env s.fds "ioctl" args) := by
  unfold syscallIoctl
  refine .expectBind ?_
  refine .take fun _ harg => .withFds fun _ hfd => .take fun _ _ => .ite ?_ (.take fun _ _ => ?_)
  · exact .last ⟨rfl, rfl, rfl, .one rfl rfl harg hfd⟩
  · exact .before ⟨rfl, rfl, rfl, .one rfl rfl harg hfd⟩

theorem leads_syscallClose : Leads (syscallClose args) env s (Answered env s.fds "close" args) := by
  unfold syscallClose
  refine .take fun _ _ => .take fun _ harg => .withFds fun _ hfd => ?_
  exact .before ⟨rfl, rfl, rfl, .one rfl rfl harg hfd⟩

theorem leads_syscallShutdown :
    Leads (syscallShutdown args) env s (Answered env s.fds "shutdown" args) := by
  unfold syscallShutdown
  refine .take fun _ _ => .take fun _ harg => .withFds fun _ hfd => .take fun _ _ => ?_
  exact .last ⟨rfl, rfl, rfl, .one rfl rfl harg hfd⟩

theorem leads_syscallGetsockopt :
    Leads (syscallGetsockopt args) env s (Answered env s.fds "getsockopt" args) := by
  unfold syscallGetsockopt
  refine .take fun _ _ => .take fun _ harg => .withFds fun _ hfd => .take fun _ _ => ?_
  refine .take fun _ _ => .take fun _ _ => .take fun _ _ => .readEnv (.any fun _ _ => ?_)
  exact .before ⟨rfl, rfl, rfl, .one rfl rfl harg hfd⟩

theorem leads_syscallSetsockopt :
    Leads (syscallSetsockopt args) env s (Answered env s.fds "setsockopt" args) := by
  unfold syscallSetsockopt
  refine .take fun _ _ => .take fun _ harg => .withFds fun _ hfd => .take fun _ _ => ?_
  refine .take fun _ _ => .take fun _ _ => .take fun _ _ => .take fun _ _ => ?_
  exact .last ⟨rfl, rfl, rfl, .one rfl rfl harg hfd⟩

theorem ok_of_checked {α : Type} {x : Checked α} {a : α} (hok : checked x = .ok a) : x = .ok a := by
  cases x with
  | ok b =>
    obtain rfl := Except.ok.inj hok
    rfl
  | error message => cases hok

theorem pollDescriptor_of_pollfdElement {fds : List FdState} {expression : Expression}
    {pollfd : Pollfd} (hok : pollfdElement fds expression = .ok pollfd) :
    ∃ scriptFd, pollDescriptor expression = .ok scriptFd ∧
      toLiveFd fds scriptFd = .ok pollfd.fd := by
  unfold pollfdElement at hok
  split at hok
  · obtain ⟨fd, hfd, hok⟩ := bind_eq_ok_iff.mp hok
    obtain ⟨events, -, hok⟩ := bind_eq_ok_iff.mp hok
    obtain ⟨revents, -, hok⟩ := bind_eq_ok_iff.mp hok
    obtain ⟨liveFd, hlive, hok⟩ := bind_eq_ok_iff.mp hok
    obtain rfl := pure_eq_ok_iff.mp hok
    exact ⟨toInt fd, bind_eq_ok_iff.mpr ⟨fd, ok_of_checked hfd, rfl⟩, hlive⟩
  · cases hok

/-- `pollfds_new` looks up the descriptors of the list one by one. -/
theorem descriptors_of_pollfdsNew {fds : List FdState} {expression : Expression}
    {pollfds : List Pollfd} (hok : pollfdsNew fds expression = .ok pollfds) :
    ∃ list scriptFds, checkList expression = .ok list ∧
      list.mapM pollDescriptor = .ok scriptFds ∧
      List.Forall₂ (fun scriptFd fd => toLiveFd fds scriptFd = .ok fd) scriptFds
        (pollfds.map Pollfd.fd) := by
  obtain ⟨list, hcheck, hlist⟩ := bind_eq_ok_iff.mp hok
  refine ⟨list, ?_⟩
  suffices h : ∃ scriptFds, list.mapM pollDescriptor = .ok scriptFds ∧
      List.Forall₂ (fun scriptFd fd => toLiveFd fds scriptFd = .ok fd) scriptFds
        (pollfds.map Pollfd.fd) from
    h.imp fun _ h => ⟨ok_of_checked hcheck, h⟩
  clear hok hcheck
  induction list generalizing pollfds with
  | nil =>
    obtain rfl := pure_eq_ok_iff.mp hlist
    exact ⟨[], rfl, .nil⟩
  | cons element list ih =>
    rw [List.mapM_cons] at hlist
    obtain ⟨pollfd, hfirst, hlist⟩ := bind_eq_ok_iff.mp hlist
    obtain ⟨rest, hrest, hlist⟩ := bind_eq_ok_iff.mp hlist
    obtain rfl := pure_eq_ok_iff.mp hlist
    obtain ⟨scriptFd, hscript, hlive⟩ := pollDescriptor_of_pollfdElement hfirst
    obtain ⟨scriptFds, hscripts, hlives⟩ := ih hrest
    refine ⟨scriptFd :: scriptFds, ?_, .cons hlive hlives⟩
    rw [List.mapM_cons, hscript, hscripts]
    rfl

theorem leads_syscallPoll : Leads (syscallPoll args) env s (Answered env s.fds "poll" args) := by
  unfold syscallPoll
  refine .take fun _ _ => .take fun _ harg => .withFds fun _ hfds => .take fun _ _ => ?_
  refine .take fun _ _ => .any fun _ _ => .before ⟨rfl, rfl, rfl, ?_⟩
  obtain ⟨list, scriptFds, hcheck, hscripts, hlive⟩ := descriptors_of_pollfdsNew hfds
  exact ⟨scriptFds,
    bind_eq_ok_iff.mpr ⟨_, harg, bind_eq_ok_iff.mpr ⟨list, hcheck, hscripts⟩⟩, hlive⟩

theorem leads_syscallCapSet :
    Leads (syscallCapSet args) env s (Answered env s.fds "cap_set" args) := by
  unfold syscallCapSet
  refine .take fun _ _ => .take fun _ _ => .take fun _ _ => .take fun _ _ => .readEnv ?_
  refine .ite .stop (.any fun _ _ => ?_)
  exact .kernelBefore ⟨rfl, rfl, rfl, .none rfl rfl⟩

theorem leads_syscallOpen : Leads (syscallOpen args) env s (Answered env s.fds "open" args) := by
  unfold syscallOpen
  refine .take fun _ _ => .take fun _ _ => .take fun _ _ => .take fun _ _ => ?_
  exact .kernelBefore ⟨rfl, rfl, rfl, .none rfl rfl⟩

theorem leads_syscallSendfile :
    Leads (syscallSendfile args) env s (Answered env s.fds "sendfile" args) := by
  unfold syscallSendfile
  refine .take fun _ _ => .take fun _ houtArg => .withFds fun _ hout => .take fun _ hinArg => ?_
  refine .withFds fun _ hin => .take fun _ _ => .take fun _ _ => ?_
  exact .kernelLast ⟨rfl, rfl, rfl, .two rfl rfl houtArg hout hinArg hin⟩

theorem leads_syscallEpollCreate :
    Leads (syscallEpollCreate args) env s (Answered env s.fds "epoll_create" args) := by
  unfold syscallEpollCreate
  exact .take fun _ _ => .take fun _ _ => .before ⟨rfl, rfl, rfl, .none rfl rfl⟩

theorem leads_syscallEpollCtl :
    Leads (syscallEpollCtl args) env s (Answered env s.fds "epoll_ctl" args) := by
  unfold syscallEpollCtl
  refine .take fun _ _ => .take fun _ hepfdArg => .withFds fun _ hepfd => .take fun _ _ => ?_
  refine .take fun _ harg => .withFds fun _ hfd => .take fun _ _ => .withFds fun (_, _) _ => ?_
  exact .last ⟨rfl, rfl, rfl, .two rfl rfl hepfdArg hepfd harg hfd⟩

theorem leads_syscallEpollWait :
    Leads (syscallEpollWait args) env s (Answered env s.fds "epoll_wait" args) := by
  unfold syscallEpollWait
  refine .take fun _ _ => .take fun _ harg => .withFds fun _ hfd => .take fun _ _ => ?_
  refine .withFds fun (_, _) _ => .take fun _ _ => .take fun _ _ => .readEnv (.any fun _ _ => ?_)
  exact .before ⟨rfl, rfl, rfl, .one rfl rfl harg hfd⟩

theorem leads_syscallPipe : Leads (syscallPipe args) env s (Answered env s.fds "pipe" args) := by
  unfold syscallPipe
  exact .take fun _ _ => .take fun _ _ => .take fun _ _ => .before ⟨rfl, rfl, rfl, .none rfl rfl⟩

/-- The two descriptors of `splice` are those of the script. -/
theorem concerns_of_spliceArgs {fds : List FdState} {call : Call}
    (hok : spliceArgs args fds = .ok call) :
    Concerns call env fds "splice" args .checkExact (env.answer call) := by
  obtain ⟨_, -, hok⟩ := bind_eq_ok_iff.mp hok
  obtain ⟨_, hinArg, hok⟩ := bind_eq_ok_iff.mp hok
  obtain ⟨fdIn, hin, hok⟩ := bind_eq_ok_iff.mp hok
  obtain ⟨_, -, hok⟩ := bind_eq_ok_iff.mp hok
  obtain ⟨_, houtArg, hok⟩ := bind_eq_ok_iff.mp hok
  obtain ⟨fdOut, hout, hok⟩ := bind_eq_ok_iff.mp hok
  obtain ⟨_, -, hok⟩ := bind_eq_ok_iff.mp hok
  obtain ⟨_, -, hok⟩ := bind_eq_ok_iff.mp hok
  obtain ⟨_, -, hok⟩ := bind_eq_ok_iff.mp hok
  obtain rfl := pure_eq_ok_iff.mp hok
  exact ⟨rfl, rfl, rfl, .two rfl rfl (ok_of_checked hinArg) hin (ok_of_checked houtArg) hout⟩

theorem leads_syscallSplice :
    Leads (syscallSplice args) env s (Answered env s.fds "splice" args) := by
  unfold syscallSplice
  refine .withFds fun _ hargs => .bind fun _ _ hinvoke => ?_
  cases hinvoke
  exact .endSyscall (concerns_of_spliceArgs args env hargs).answered

variable {args env s} {name : String} {handler : List Expression → Handler Unit}
  {scriptPath : String} {lineNumber : Nat} {evaluated : Checked (List Expression)}

/-- Every entry of the table is about calls of its name. -/
theorem leads_of_mem (hmem : (name, handler) ∈ systemCallTable) :
    Leads (handler args) env s (Answered env s.fds name args) := by
  simp only [systemCallTable, List.mem_cons, Prod.mk.injEq, List.not_mem_nil, or_false] at hmem
  rcases hmem with ⟨rfl, rfl⟩ | ⟨rfl, rfl⟩ | ⟨rfl, rfl⟩ | ⟨rfl, rfl⟩ | ⟨rfl, rfl⟩ | ⟨rfl, rfl⟩ |
    ⟨rfl, rfl⟩ | ⟨rfl, rfl⟩ | ⟨rfl, rfl⟩ | ⟨rfl, rfl⟩ | ⟨rfl, rfl⟩ | ⟨rfl, rfl⟩ | ⟨rfl, rfl⟩ |
    ⟨rfl, rfl⟩ | ⟨rfl, rfl⟩ | ⟨rfl, rfl⟩ | ⟨rfl, rfl⟩ | ⟨rfl, rfl⟩ | ⟨rfl, rfl⟩ | ⟨rfl, rfl⟩ |
    ⟨rfl, rfl⟩ | ⟨rfl, rfl⟩ | ⟨rfl, rfl⟩ | ⟨rfl, rfl⟩ | ⟨rfl, rfl⟩ | ⟨rfl, rfl⟩ | ⟨rfl, rfl⟩ |
    ⟨rfl, rfl⟩ | ⟨rfl, rfl⟩ | ⟨rfl, rfl⟩
  · exact leads_syscallSocket args env s
  · exact leads_syscallBind args env s
  · exact leads_syscallListen args env s
  · exact leads_syscallAccept args env s
  · exact leads_syscallConnect args env s
  · exact leads_readOrWrite args env s fun _ _ _ _ harg hfd =>
      ⟨rfl, rfl, rfl, .one rfl rfl harg hfd⟩
  · exact leads_readvOrWritev args env s fun _ _ _ _ harg hfd =>
      ⟨rfl, rfl, rfl, .one rfl rfl harg hfd⟩
  · exact leads_recvOrSend args env s fun _ _ _ _ _ harg hfd =>
      ⟨rfl, rfl, rfl, .one rfl rfl harg hfd⟩
  · exact leads_syscallRecvfrom args env s
  · exact leads_syscallRecvmsg args env s
  · exact leads_readOrWrite args env s fun _ _ _ _ harg hfd =>
      ⟨rfl, rfl, rfl, .one rfl rfl harg hfd⟩
  · exact leads_readvOrWritev args env s fun _ _ _ _ harg hfd =>
      ⟨rfl, rfl, rfl, .one rfl rfl harg hfd⟩
  · exact leads_recvOrSend args env s fun _ _ _ _ _ harg hfd =>
      ⟨rfl, rfl, rfl, .one rfl rfl harg hfd⟩
  · exact leads_syscallSendto args env s
  · exact leads_syscallSendmsg args env s
  · exact leads_syscallFcntl args env s
  · exact leads_syscallIoctl args env s
  · exact leads_syscallClose args env s
  · exact leads_syscallShutdown args env s
  · exact leads_syscallGetsockopt args env s
  · exact leads_syscallSetsockopt args env s
  · exact leads_syscallPoll args env s
  · exact leads_syscallCapSet args env s
  · exact leads_syscallOpen args env s
  · exact leads_syscallSendfile args env s
  · exact leads_syscallEpollCreate args env s
  · exact leads_syscallEpollCtl args env s
  · exact leads_syscallEpollWait args env s
  · exact leads_syscallPipe args env s
  · exact leads_syscallSplice args env s

/-- A system call of the script that does not end the run was made under its name, on the live
descriptors of those that it writes, and the reply has the result and the `errno` that it expects.
-/
theorem invokeSystemCall_answered
    (hok : (invokeSystemCall scriptPath lineNumber name evaluated env s).1 = .ok ()) :
    ∃ args, evaluated = .ok args ∧ Answered env s.fds name args := by
  unfold invokeSystemCall at hok
  cases hfind : systemCallTable.find? fun entry => decide (name = entry.1) with
  | none =>
    simp only [hfind] at hok
    cases hok
  | some entry =>
    simp only [hfind] at hok
    obtain ⟨entryName, handler⟩ := entry
    obtain rfl : name = entryName := by simpa using List.find?_some hfind
    cases evaluated with
    | error error => cases hok
    | ok args =>
      refine ⟨args, rfl, ?_⟩
      rcases hrun : handler args env s with ⟨stop | _, t⟩
      · simp only [hrun] at hok
        cases stop <;> cases hok
      · exact leads_of_mem (List.mem_of_find?_eq_some hfind) () t hrun

end Table

/-- `read(3, ..., 1)` on the pipe that is open as the descriptor 7. -/
theorem invokeSystemCall_answered_read :
    (invokeSystemCall "test.pkt" 1 "read" (.ok [.integer 3, .ellipsis, .integer 1]) blockingEnv
        pipeState).1 = .ok () ∧
      ∃ args,
        (.ok [.integer 3, .ellipsis, .integer 1] : Checked (List Expression)) = .ok args ∧
        Answered blockingEnv pipeState.fds "read" args := by
  have hok : (invokeSystemCall "test.pkt" 1 "read" (.ok [.integer 3, .ellipsis, .integer 1])
      blockingEnv pipeState).1 = .ok () := rfl
  exact ⟨hok, invokeSystemCall_answered hok⟩

end QoSMos.Syscall
