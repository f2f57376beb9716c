import QoSMos.Lib.Path
import QoSMos.Options.Iterator
import QoSMos.Outbound.Layers

/-!
# The queue of the tun device

`local_netdev_receive` sniffs packets until one parses, and then takes as many packets out of the
tun device. What `recvfrom` and `read` come to is given by a list of results for each of the two,
in the order of the calls.
-/

namespace QoSMos.TunQueue

open Returns

/-! ## The program -/

/-- `sll_pkttype` -/
inductive PktType where
  | host | broadcast | multicast | otherhost | outgoing
  deriving DecidableEq, Repr

/-- What `recvfrom` reads from the packet socket, and whether its time can be asked for. -/
structure Capture where
  buffer : Memory
  inBytes : Nat
  sllPkttype : PktType
  sllIfindex : Int
  stamped : Bool
  le : inBytes ≤ PACKET_READ_BYTES

inductive Recvfrom where
  | captured (capture : Capture)
  | eintr
  | failed

/-- A `read` of the tun device. -/
inductive TunRead where
  | read (inBytes : Nat)
  | eintr
  | failed
  deriving DecidableEq, Repr

/-- How a function of the module ends the process, or what C leaves undefined. -/
inductive Stop where
  | halt (halt : Halt)
  | diePerror (message : String)
  deriving DecidableEq, Repr

inductive Status where
  | statusOk | statusErr
  deriving DecidableEq, Repr

def haltStop {α : Type} (call : Except Halt α) : Except Stop α := call.mapError Stop.halt

/-- `packet_socket_receive` on the device with this index; `none` is `STATUS_ERR`. -/
def packetSocketReceive (index : Int) (direction : Direction) :
    Recvfrom → Except Stop (Option Capture)
  | .eintr => .ok none
  | .failed => .error (.diePerror "packet socket recvfrom()")
  | .captured capture =>
    -- we only want packets of one direction, and on our tun device
    if direction = .outbound ∧ capture.sllPkttype ≠ .outgoing then .ok none
    else if direction = .inbound ∧ capture.sllPkttype ≠ .host then .ok none
    else if capture.sllIfindex ≠ index then .ok none
    else if ¬ capture.stamped then .error (.diePerror "SIOCGSTAMP")
    else .ok (some capture)

/-- `status`, `*packet` and `*num_packets` when the loop returns. -/
structure LoopResult where
  status : Status
  packet : Option Packet
  numPackets : Nat

/-- The loop of `netdev_receive_loop`; `none` if it waits for another packet. -/
def netdevReceiveLoop (index : Int) (layer : PacketLayer) (direction : Direction) :
    List Recvfrom → Nat → Except Stop (Option LoopResult)
  | [], _ => .ok none
  | recvfrom :: recvs, numPackets => do
    match ← packetSocketReceive index direction recvfrom with
    | none => netdevReceiveLoop index layer direction recvs numPackets
    | some capture =>
      let function := "netdev_receive_loop"
      if numPackets = 2147483647 then .error (.halt (.undefined function "++*num_packets"))
      else
        let numPackets := numPackets + 1
        let (result, s) ← haltStop (ofFault
          (runParsePacket capture.buffer PACKET_READ_BYTES capture.inBytes layer))
        match result with
        | .ok => return some ⟨.statusOk, some s.packet, numPackets⟩
        | .bad => return some ⟨.statusErr, none, numPackets⟩
        | .unknownL4 => netdevReceiveLoop index layer direction recvs numPackets

/-- `sizeof(struct virtio_net_hdr) + 1` -/
def TUN_READ_BYTES : Nat := 11

/-- `local_netdev_read_queue`: how many packets were read; `none` if it waits for another one. -/
def localNetdevReadQueue : Nat → List TunRead → Except Stop (Option Nat)
  | 0, _ => .ok (some 0)
  | _ + 1, [] => .ok none
  | n + 1, .read inBytes :: reads => do
    haltStop (require (inBytes ≤ TUN_READ_BYTES) "local_netdev_read_queue"
      "in_bytes <= (int)sizeof(buf)")
    return (← localNetdevReadQueue n reads).map (· + 1)
  -- `continue` counts the turn although nothing was read
  | n + 1, .eintr :: reads => localNetdevReadQueue n reads
  | _ + 1, .failed :: _ => .error (.diePerror "tun read()")

/-- The results of the calls that one `local_netdev_receive` makes. -/
structure Call where
  recvs : List Recvfrom
  reads : List TunRead

/-- What a `local_netdev_receive` returns, and how many packets it has sniffed and read. -/
structure Receipt where
  status : Status
  packet : Option Packet
  sniffed : Nat
  consumed : Nat

/-- `local_netdev_receive`; `none` if it does not return. -/
def localNetdevReceive (index : Int) (call : Call) : Except Stop (Option Receipt) := do
  match ← netdevReceiveLoop index .layer3Ip .outbound call.recvs 0 with
  | none => return none
  | some result =>
    let consumed ← localNetdevReadQueue result.numPackets call.reads
    return consumed.map fun consumed =>
      ⟨result.status, result.packet, result.numPackets, consumed⟩

/-! ## Calls that are in step -/

section Call

variable {index : Int} {recvs : List Recvfrom} {reads : List TunRead} {n k : Nat} {status : Status}
  {packet : Option Packet} {call : Call}

/-- The first packet that the parser accepts or finds bad is the `n`-th one sniffed, and the call
is to return this. -/
inductive Decides (index : Int) : List Recvfrom → Nat → Status → Option Packet → Prop where
  | skip {recvfrom recvs n status packet} :
      packetSocketReceive index .outbound recvfrom = .ok none →
      Decides index recvs n status packet → Decides index (recvfrom :: recvs) n status packet
  | unknown {recvfrom recvs n status packet capture s} :
      packetSocketReceive index .outbound recvfrom = .ok (some capture) →
      runParsePacket capture.buffer PACKET_READ_BYTES capture.inBytes .layer3Ip =
        .ok (.unknownL4, s) →
      Decides index recvs n status packet → Decides index (recvfrom :: recvs) (n + 1) status packet
  | accepted {recvfrom recvs capture s} :
      packetSocketReceive index .outbound recvfrom = .ok (some capture) →
      runParsePacket capture.buffer PACKET_READ_BYTES capture.inBytes .layer3Ip = .ok (.ok, s) →
      Decides index (recvfrom :: recvs) 1 .statusOk (some s.packet)
  | bad {recvfrom recvs capture s} :
      packetSocketReceive index .outbound recvfrom = .ok (some capture) →
      runParsePacket capture.buffer PACKET_READ_BYTES capture.inBytes .layer3Ip = .ok (.bad, s) →
      Decides index (recvfrom :: recvs) 1 .statusErr none

/-- The first `n` reads return: with bytes, no more than asked for, or with `EINTR`. -/
def Served (reads : List TunRead) (n : Nat) : Prop :=
  n ≤ reads.length ∧
    ∀ read ∈ reads.take n, read = .eintr ∨ ∃ inBytes ≤ TUN_READ_BYTES, read = .read inBytes

/-- The calls of the system return as often as they are needed. -/
structure Answered (index : Int) (call : Call) : Prop where
  decides : ∃ n status packet, Decides index call.recvs n status packet
  served : ∀ n status packet, Decides index call.recvs n status packet → Served call.reads n

/-- The call returns what it should, and has read as many packets as it has sniffed. -/
def InStep (index : Int) (call : Call) : Prop :=
  ∃ receipt, localNetdevReceive index call = .ok (some receipt) ∧
    Decides index call.recvs receipt.sniffed receipt.status receipt.packet ∧
    receipt.consumed = receipt.sniffed

/-- None of the reads is interrupted, and an `int` can count them. -/
def Undisturbed (index : Int) (call : Call) : Prop :=
  ∀ n status packet, Decides index call.recvs n status packet →
    n ≤ 2147483647 ∧ .eintr ∉ call.reads.take n

theorem netdevReceiveLoop_skip {recvfrom : Recvfrom}
    (hrecv : packetSocketReceive index .outbound recvfrom = .ok none) :
    netdevReceiveLoop index .layer3Ip .outbound (recvfrom :: recvs) k =
      netdevReceiveLoop index .layer3Ip .outbound recvs k := by
  rw [netdevReceiveLoop, bind_of_ok hrecv]

theorem netdevReceiveLoop_full {recvfrom : Recvfrom} {capture : Capture}
    (hrecv : packetSocketReceive index .outbound recvfrom = .ok (some capture)) :
    netdevReceiveLoop index .layer3Ip .outbound (recvfrom :: recvs) 2147483647 =
      .error (.halt (.undefined "netdev_receive_loop" "++*num_packets")) := by
  rw [netdevReceiveLoop, bind_of_ok hrecv]
  rfl

/-- A packet of the device is counted and parsed. -/
theorem netdevReceiveLoop_sniff {recvfrom : Recvfrom} {capture : Capture} {result : ParseResult}
    {s : ParseState} (hrecv : packetSocketReceive index .outbound recvfrom = .ok (some capture))
    (hparse : runParsePacket capture.buffer PACKET_READ_BYTES capture.inBytes .layer3Ip =
      .ok (result, s)) (hk : k < 2147483647) :
    netdevReceiveLoop index .layer3Ip .outbound (recvfrom :: recvs) k =
      match result with
      | .ok => .ok (some ⟨.statusOk, some s.packet, k + 1⟩)
      | .bad => .ok (some ⟨.statusErr, none, k + 1⟩)
      | .unknownL4 => netdevReceiveLoop index .layer3Ip .outbound recvs (k + 1) := by
  rw [netdevReceiveLoop, bind_of_ok hrecv]
  simp only [if_neg (Nat.ne_of_lt hk), hparse]
  cases result <;> rfl

/-- The loop returns at the packet that decides. -/
theorem Decides.loop (h : Decides index recvs n status packet) (hn : k + n ≤ 2147483647) :
    netdevReceiveLoop index .layer3Ip .outbound recvs k =
      .ok (some ⟨status, packet, k + n⟩) := by
  induction h generalizing k with
  | skip hrecv _ ih =>
    rw [netdevReceiveLoop_skip hrecv]
    exact ih hn
  | @unknown recvfrom recvs n _ _ _ _ hrecv hparse _ ih =>
    have hnext : k + (n + 1) = k + 1 + n := by omega
    rw [netdevReceiveLoop_sniff hrecv hparse (by omega), hnext]
    exact ih (by omega)
  | accepted hrecv hparse => rw [netdevReceiveLoop_sniff hrecv hparse (by omega)]
  | bad hrecv hparse => rw [netdevReceiveLoop_sniff hrecv hparse (by omega)]

/-- Or it has to count further than an `int` can. -/
theorem Decides.loop_overflow (h : Decides index recvs n status packet) (hk : k ≤ 2147483647)
    (hn : 2147483647 < k + n) : netdevReceiveLoop index .layer3Ip .outbound recvs k =
      .error (.halt (.undefined "netdev_receive_loop" "++*num_packets")) := by
  induction h generalizing k with
  | skip hrecv _ ih =>
    rw [netdevReceiveLoop_skip hrecv]
    exact ih hk hn
  | unknown hrecv hparse _ ih =>
    by_cases hfull : k = 2147483647
    · rw [hfull, netdevReceiveLoop_full hrecv]
    · rw [netdevReceiveLoop_sniff hrecv hparse (by omega)]
      exact ih (by omega) (by omega)
  | accepted hrecv hparse =>
    obtain rfl : k = 2147483647 := by omega
    exact netdevReceiveLoop_full hrecv
  | bad hrecv hparse =>
    obtain rfl : k = 2147483647 := by omega
    exact netdevReceiveLoop_full hrecv

/-- What one call sniffs is determined. -/
theorem Decides.unique {m : Nat} {status' : Status} {packet' : Option Packet}
    (h : Decides index recvs n status packet) (h' : Decides index recvs m status' packet') :
    n = m ∧ status = status' ∧ packet = packet' := by
  induction h generalizing m status' packet' with
  | skip hrecv _ ih => cases h' <;> grind
  | unknown hrecv hparse _ ih => cases h' <;> grind
  | accepted hrecv hparse => cases h' <;> grind
  | bad hrecv hparse => cases h' <;> grind

/-- Every interrupted read leaves a packet in the queue. -/
theorem localNetdevReadQueue_eq_ok (h : Served reads n) :
    ∃ consumed, localNetdevReadQueue n reads = .ok (some consumed) ∧
      consumed + (reads.take n).count .eintr = n := by
  induction n generalizing reads with
  | zero => exact ⟨0, rfl, by simp⟩
  | succ n ih =>
    obtain ⟨hlen, hall⟩ := h
    cases reads with
    | nil => simp at hlen
    | cons read reads =>
      have hrest : Served reads n :=
        ⟨by simpa using hlen, fun r hr => hall r (List.mem_cons_of_mem _ hr)⟩
      obtain ⟨consumed, hok, hcount⟩ := ih hrest
      obtain rfl | ⟨inBytes, hle, rfl⟩ := hall read List.mem_cons_self
      · exact ⟨consumed, hok, by simp; omega⟩
      · refine ⟨consumed + 1, ?_, by simp; omega⟩
        rw [localNetdevReadQueue, require_ok hle, hok]
        rfl

theorem inStep_iff (h : Answered index call) : InStep index call ↔ Undisturbed index call := by
  obtain ⟨n, status, packet, hdecides⟩ := h.decides
  constructor
  · rintro ⟨receipt, hok, hreceipt, hsame⟩ m status' packet' hm
    obtain ⟨rfl, -, -⟩ := hdecides.unique hm
    obtain ⟨rfl, -, -⟩ := hdecides.unique hreceipt
    obtain ⟨result, hloop, hok⟩ := bind_eq_ok_iff.mp hok
    have hn : receipt.sniffed ≤ 2147483647 := by
      by_contra hlarge
      rw [hdecides.loop_overflow (Nat.zero_le _) (by omega)] at hloop
      cases hloop
    rw [hdecides.loop (by omega)] at hloop
    obtain rfl := Except.ok.inj hloop
    obtain ⟨consumed, hread, hcount⟩ := localNetdevReadQueue_eq_ok (h.served _ _ _ hdecides)
    rw [Nat.zero_add] at hok
    have hconsumed : consumed = receipt.consumed := by
      obtain ⟨consumed', hread', hok⟩ := bind_eq_ok_iff.mp hok
      rw [hread] at hread'
      obtain rfl := Except.ok.inj hread'
      rw [← Option.some.inj (Except.ok.inj hok)]
    refine ⟨hn, List.count_eq_zero.mp ?_⟩
    omega
  · intro hcalm
    obtain ⟨hn, hread⟩ := hcalm _ _ _ hdecides
    obtain ⟨consumed, hok, hcount⟩ := localNetdevReadQueue_eq_ok (h.served _ _ _ hdecides)
    rw [List.count_eq_zero.mpr hread, Nat.add_zero] at hcount
    subst hcount
    refine ⟨⟨status, packet, consumed, consumed⟩, ?_, hdecides, rfl⟩
    rw [localNetdevReceive, bind_of_ok (hdecides.loop (by omega)), Nat.zero_add]
    simp [hok, bind, Except.bind, pure, Except.pure]

end Call

/-! ## Runs -/

/-- A call adds the packets that it sniffs to the queue, and takes those that it reads. -/
def Step (index : Int) (queued : Nat) (call : Call) (queued' : Nat) : Prop :=
  ∃ receipt, localNetdevReceive index call = .ok (some receipt) ∧
    queued' + receipt.consumed = queued + receipt.sniffed

/-- All calls of a run are in step, and from no call to a later one has the queue grown. -/
structure StaysInStep (index : Int) (calls : List Call) : Prop where
  inStep : ∀ call ∈ calls, InStep index call
  notGrown : ∀ some more queued queued', calls = some ++ more →
    LabelledPath.Path (Step index) queued some queued' → queued' ≤ queued

variable {index : Int} {calls : List Call}

/-- A call in step leaves the queue as long as it was. -/
theorem InStep.step {call : Call} {queued queued' : Nat} (h : InStep index call)
    (hstep : Step index queued call queued') : queued' = queued := by
  obtain ⟨receipt, hok, -, hsame⟩ := h
  obtain ⟨receipt', hok', hqueued⟩ := hstep
  rw [hok] at hok'
  obtain rfl := Option.some.inj (Except.ok.inj hok')
  omega

theorem path_queued {queued queued' : Nat} (h : ∀ call ∈ calls, InStep index call)
    (hpath : LabelledPath.Path (Step index) queued calls queued') : queued' = queued := by
  induction hpath with
  | nil => rfl
  | cons hstep _ ih =>
    have hrest := ih fun call hmem => h call (List.mem_cons_of_mem _ hmem)
    rw [hrest, (h _ List.mem_cons_self).step hstep]

/-- The calls stay in step if and only if no `read` of them is interrupted. -/
theorem staysInStep_iff (h : ∀ call ∈ calls, Answered index call) :
    StaysInStep index calls ↔ ∀ call ∈ calls, Undisturbed index call := by
  constructor
  · intro hstays call hmem
    exact (inStep_iff (h call hmem)).mp (hstays.inStep call hmem)
  · intro hcalm
    have hin : ∀ call ∈ calls, InStep index call := fun call hmem =>
      (inStep_iff (h call hmem)).mpr (hcalm call hmem)
    refine ⟨hin, ?_⟩
    rintro before after queued queued' rfl hpath
    exact (path_queued (fun call hmem => hin call (List.mem_append_left _ hmem)) hpath).le

/-- A GRE packet that is sniffed at once, and a tun device whose first `read` comes to this. -/
def greMplsCall (read : TunRead) : Call :=
  { recvs := [.captured ⟨.ofList greMplsPacket, 84, .outgoing, 7, true, by decide⟩]
    reads := [read] }

theorem greMplsCall_decides (read : TunRead) :
    ∃ packet, Decides 7 (greMplsCall read).recvs 1 .statusOk packet := ⟨_, .accepted rfl rfl⟩

theorem greMplsCall_answered (read : TunRead)
    (hread : read = .eintr ∨ ∃ inBytes ≤ TUN_READ_BYTES, read = .read inBytes) :
    Answered 7 (greMplsCall read) := by
  obtain ⟨packet, hdecides⟩ := greMplsCall_decides read
  refine ⟨⟨_, _, _, hdecides⟩, fun n status packet' h => ?_⟩
  obtain ⟨rfl, -, -⟩ := hdecides.unique h
  exact ⟨le_rfl, by simpa [greMplsCall] using hread⟩

theorem staysInStep_iff_greMpls :
    StaysInStep 7 [greMplsCall (.read 11), greMplsCall (.read 11)] ↔
      ∀ call ∈ [greMplsCall (.read 11), greMplsCall (.read 11)], Undisturbed 7 call :=
  staysInStep_iff fun call hmem => by
    obtain rfl : call = greMplsCall (.read 11) := by simpa using hmem
    exact greMplsCall_answered _ (.inr ⟨11, le_rfl, rfl⟩)

theorem not_forall_staysInStep :
    ¬ ∀ (index : Int) (calls : List Call), (∀ call ∈ calls, Answered index call) →
      StaysInStep index calls := by
  intro h
  have hanswered := greMplsCall_answered .eintr (.inl rfl)
  have hstays := h 7 [greMplsCall .eintr] (by simpa using hanswered)
  obtain ⟨packet, hdecides⟩ := greMplsCall_decides .eintr
  have hcalm := (inStep_iff hanswered).mp (hstays.inStep _ List.mem_cons_self)
  exact (hcalm _ _ _ hdecides).2 List.mem_cons_self

end QoSMos.TunQueue
