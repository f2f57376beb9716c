import QoSMos.Build.Finish
import QoSMos.Dump.Flags

/-!
# What compared headers agree in

A live packet agrees with the packet of the script in the fields that the verifiers compare, as far
as the checks of the script ask for. Where the script does not check the options, the live packet
is longer by as many bytes as it has options.
-/

namespace QoSMos

open Returns

/-- The type of service of a live header, as far as it is to be checked. -/
def TosAgrees (tosChk : TosCheck) (live script : Nat) : Prop :=
  match tosChk with
  | .none => True
  | .tos => live = script
  | .ecn =>
    if script = ECN_ECT01 then
      live &&& IP_ECN_MASK = IP_ECN_ECT0 ∨ live &&& IP_ECN_MASK = IP_ECN_ECT1
    else live &&& IP_ECN_MASK = script

/-- The time to live or the hop limit, unless it is not to be checked. -/
def TtlAgrees (live script : Nat) : Prop := script ≠ TTL_CHECK_NONE.toNat → live = script

/-- The bytes of the options that the live packet may have beyond those of the script. -/
def uncheckedBytes (live script : FullPacket) : Int :=
  if script.flags &&& FLAG_OPTIONS_NOCHECK ≠ 0 then
    match live.tcp with
    | some tcp => Tcp.doff live.buffer tcp * 4 - TCP_BYTES
    | none => 0
  else 0

/-- An IPv4 header at `a` and that of the script at `s`. -/
structure Ipv4Agrees (script : FullPacket) (unchecked : Int) (b : Memory) (a s : Nat) : Prop where
  version : Ipv4.version b a = Ipv4.version script.buffer s
  ihl : Ipv4.ihl b a = Ipv4.ihl script.buffer s
  protocol : Ipv4.protocol b a = Ipv4.protocol script.buffer s
  totLen : (Ipv4.totLen b a : Int) = Ipv4.totLen script.buffer s + unchecked
  tos : TosAgrees script.tosChk (Ipv4.tos b a) (Ipv4.tos script.buffer s)
  ttl : TtlAgrees (Ipv4.ttl b a) (Ipv4.ttl script.buffer s)

/-- An IPv6 header at `a` and that of the script at `s`. -/
structure Ipv6Agrees (script : FullPacket) (unchecked : Int) (b : Memory) (a s : Nat) : Prop where
  version : Ipv6.version b a = Ipv6.version script.buffer s
  nextHeader : Ipv6.nextHeader b a = Ipv6.nextHeader script.buffer s
  payloadLen : (Ipv6.payloadLen b a : Int) = Ipv6.payloadLen script.buffer s + unchecked
  tos : TosAgrees script.tosChk (Ipv6.tosByte b a) (Ipv6.tosByte script.buffer s)
  hopLimit : TtlAgrees (Ipv6.hopLimit b a) (Ipv6.hopLimit script.buffer s)

/-- A TCP header at `a` and that of the script at `s`. -/
structure TcpAgrees (script : FullPacket) (unchecked : Int) (b : Memory) (a s : Nat) : Prop where
  doff : (Tcp.doff b a * 4 : Int) = Tcp.doff script.buffer s * 4 + unchecked
  flags : tcpFlags b a = tcpFlags script.buffer s
  res1 : Tcp.res1 b a = Tcp.res1 script.buffer s
  seq : Tcp.seq b a = Tcp.seq script.buffer s
  ackSeq : Tcp.ackSeq b a = Tcp.ackSeq script.buffer s
  window : script.flags &&& FLAG_WIN_NOCHECK = 0 → Tcp.window b a = Tcp.window script.buffer s
  urgPtr : Tcp.urgPtr b a = Tcp.urgPtr script.buffer s

/-- A header at `a` and that of the script at `s`, which have this type. -/
def FieldsAgree (type : HeaderType) (script : FullPacket) (unchecked : Int) (b : Memory)
    (a s : Nat) : Prop :=
  match type with
  | .ipv4 => Ipv4Agrees script unchecked b a s
  | .ipv6 => Ipv6Agrees script unchecked b a s
  | .tcp => TcpAgrees script unchecked b a s
  | .udp => Udp.len b a = Udp.len script.buffer s
  | _ => True

/-- A header of a live packet and the one of the script in its place. -/
def HeaderAgrees (live script : FullPacket) (h g : Header) : Prop :=
  h.type = g.type ∧ ∃ a s, h.ptr = some a ∧ g.ptr = some s ∧
    FieldsAgree g.type script (uncheckedBytes live script) live.buffer a s

/-! ## The comparison -/

section Compare

variable {actual script : FullPacket} {layer a s : Nat} {unchecked : Int} {function : String}
  {b : Memory} {x y : Nat}

theorem layerPtr_of_ptr {packet : FullPacket} {p : Nat}
    (hp : (packet.headerAt layer).ptr = some p) : layerPtr function packet layer = .ok p := by
  rw [layerPtr, Header.data, hp]
  rfl

theorem tcpOptionsAllowance_ok (hok : tcpOptionsAllowance actual script = .ok unchecked) :
    unchecked = uncheckedBytes actual script := by
  unfold tcpOptionsAllowance packetTcpOptionsLen at hok
  unfold uncheckedBytes
  split_ifs at hok ⊢
  · cases htcp : actual.tcp with
    | none =>
      rw [htcp] at hok
      cases hok
    | some tcp =>
      rw [htcp] at hok
      exact (Except.ok.inj hok).symm
  · exact (Except.ok.inj hok).symm

/-- The sum of a field and the length of the options is not cut off. -/
theorem u32_add (hunchecked : 0 ≤ unchecked ∧ unchecked ≤ 40) (hx : x < 65536)
    (h : y = u32 (x + unchecked)) : (y : Int) = x + unchecked := by
  unfold u32 at h
  omega

theorem tosAgrees_of_ok (hok : verifyOutboundLiveTos script.tosChk x y = .ok ()) :
    TosAgrees script.tosChk x y := by
  unfold verifyOutboundLiveTos at hok
  unfold TosAgrees
  cases hchk : script.tosChk with
  | none => trivial
  | tos =>
    rw [hchk] at hok
    exact checkField_eq_ok_iff.mp hok
  | ecn =>
    rw [hchk] at hok
    dsimp only at hok ⊢
    split at hok
    · rw [if_pos ‹_›]
      exact check_eq_ok_iff.mp hok
    · rw [if_neg ‹_›]
      exact checkField_eq_ok_iff.mp hok

theorem ttlAgrees_of_ok (hok : verifyOutboundLiveTtlOrHl x y = .ok ()) : TtlAgrees x y := by
  intro hne
  rw [verifyOutboundLiveTtlOrHl, if_pos hne] at hok
  exact checkField_eq_ok_iff.mp hok

theorem ipv4Agrees_of_ok (ha : (actual.headerAt layer).ptr = some a)
    (hs : (script.headerAt layer).ptr = some s)
    (hbound : 0 ≤ uncheckedBytes actual script ∧ uncheckedBytes actual script ≤ 40)
    (hok : verifyIpv4 actual script layer true = .ok ()) :
    Ipv4Agrees script (uncheckedBytes actual script) actual.buffer a s := by
  unfold verifyIpv4 at hok
  simp only [layerPtr_of_ptr ha, layerPtr_of_ptr hs, bind_of_ok rfl, if_true] at hok
  obtain ⟨_, hversion, hok⟩ := bind_eq_ok_iff.mp hok
  obtain ⟨_, hprotocol, hok⟩ := bind_eq_ok_iff.mp hok
  obtain ⟨_, hihl, hok⟩ := bind_eq_ok_iff.mp hok
  obtain ⟨allowance, hallowance, hok⟩ := bind_eq_ok_iff.mp hok
  obtain ⟨_, htotLen, hok⟩ := bind_eq_ok_iff.mp hok
  obtain ⟨_, htos, httl⟩ := bind_eq_ok_iff.mp hok
  obtain rfl := tcpOptionsAllowance_ok (halting_eq_ok_iff.mp hallowance)
  have htotLen := checkField_eq_ok_iff.mp htotLen
  exact ⟨checkField_eq_ok_iff.mp hversion, checkField_eq_ok_iff.mp hihl,
    checkField_eq_ok_iff.mp hprotocol, u32_add hbound (be16At_lt _ _) htotLen, tosAgrees_of_ok htos,
    ttlAgrees_of_ok httl⟩

theorem ipv6Agrees_of_ok (ha : (actual.headerAt layer).ptr = some a)
    (hs : (script.headerAt layer).ptr = some s)
    (hbound : 0 ≤ uncheckedBytes actual script ∧ uncheckedBytes actual script ≤ 40)
    (hok : verifyIpv6 actual script layer true = .ok ()) :
    Ipv6Agrees script (uncheckedBytes actual script) actual.buffer a s := by
  unfold verifyIpv6 at hok
  simp only [layerPtr_of_ptr ha, layerPtr_of_ptr hs, bind_of_ok rfl, if_true] at hok
  obtain ⟨_, hversion, hok⟩ := bind_eq_ok_iff.mp hok
  obtain ⟨allowance, hallowance, hok⟩ := bind_eq_ok_iff.mp hok
  obtain ⟨_, hpayloadLen, hok⟩ := bind_eq_ok_iff.mp hok
  obtain ⟨_, hnextHeader, hok⟩ := bind_eq_ok_iff.mp hok
  obtain ⟨_, htos, hhopLimit⟩ := bind_eq_ok_iff.mp hok
  obtain rfl := tcpOptionsAllowance_ok (halting_eq_ok_iff.mp hallowance)
  have hpayloadLen := checkField_eq_ok_iff.mp hpayloadLen
  exact ⟨checkField_eq_ok_iff.mp hversion, checkField_eq_ok_iff.mp hnextHeader,
    u32_add hbound (be16At_lt _ _) hpayloadLen, tosAgrees_of_ok htos, ttlAgrees_of_ok hhopLimit⟩

theorem toNat_injective : ∀ x y : Bool, x.toNat = y.toNat → x = y := by decide

/-- In strict mode every flag is compared. -/
theorem verifyTcpFlags_ok {c : Memory} {checks : List (String × (Memory → Nat → Bool) × Bool)}
    (hok : verifyTcpFlags b c a s true checks = .ok ()) :
    checks.map (fun flag => flag.2.1 b a) = checks.map fun flag => flag.2.1 c s := by
  induction checks with
  | nil => rfl
  | cons flag checks ih =>
    obtain ⟨name, flag, onlyStrict⟩ := flag
    rw [verifyTcpFlags, if_pos (.inl rfl)] at hok
    obtain ⟨_, hflag, hok⟩ := bind_eq_ok_iff.mp hok
    have hsame : flag b a = flag c s :=
      toNat_injective _ _ (checkField_eq_ok_iff.mp hflag)
    rw [List.map_cons, List.map_cons, ih hok]
    exact congrArg (· :: _) hsame

theorem uncheckedBytes_of_tcp (htcp : actual.tcp = some a) : uncheckedBytes actual script =
    if script.flags &&& FLAG_OPTIONS_NOCHECK ≠ 0 then
      (Tcp.doff actual.buffer a * 4 : Int) - TCP_BYTES
    else 0 := by
  rw [uncheckedBytes, htcp]

/-- Data offsets count words, and those of the options that are not checked are whole. -/
theorem doff_of_ok (htcp : actual.tcp = some a) (hdoff : TCP_BYTES ≤ Tcp.doff actual.buffer a * 4)
    (h : Tcp.doff actual.buffer a = u32 (x + uncheckedBytes actual script / 4)) (hx : x < 16) :
    (Tcp.doff actual.buffer a * 4 : Int) = x * 4 + uncheckedBytes actual script := by
  have hbyte := u8At_lt actual.buffer (a + 12)
  have hlt : Tcp.doff actual.buffer a < 16 := by
    unfold Tcp.doff
    omega
  have hsize : TCP_BYTES = 20 := rfl
  rw [uncheckedBytes_of_tcp htcp, u32] at h
  rw [uncheckedBytes_of_tcp htcp]
  generalize Tcp.doff actual.buffer a = doff at *
  split_ifs at h ⊢ <;> omega

theorem tcpAgrees_of_ok (ha : (actual.headerAt layer).ptr = some a)
    (hs : (script.headerAt layer).ptr = some s) (htcp : actual.tcp = some a)
    (hdoff : TCP_BYTES ≤ Tcp.doff actual.buffer a * 4)
    (hok : verifyTcp actual script layer true = .ok ()) :
    TcpAgrees script (uncheckedBytes actual script) actual.buffer a s := by
  unfold verifyTcp at hok
  simp only [layerPtr_of_ptr ha, layerPtr_of_ptr hs, bind_of_ok rfl, if_true] at hok
  obtain ⟨_, -, hok⟩ := bind_eq_ok_iff.mp hok
  obtain ⟨allowance, hallowance, hok⟩ := bind_eq_ok_iff.mp hok
  obtain rfl := tcpOptionsAllowance_ok (halting_eq_ok_iff.mp hallowance)
  obtain ⟨_, hdoffSame, hok⟩ := bind_eq_ok_iff.mp hok
  obtain ⟨_, hflags, hok⟩ := bind_eq_ok_iff.mp hok
  obtain ⟨_, hres1, hok⟩ := bind_eq_ok_iff.mp hok
  obtain ⟨_, hseq, hok⟩ := bind_eq_ok_iff.mp hok
  obtain ⟨_, hackSeq, hok⟩ := bind_eq_ok_iff.mp hok
  have hscript := u8At_lt script.buffer (s + 12)
  have hdoffSame := doff_of_ok htcp hdoff (checkField_eq_ok_iff.mp hdoffSame)
    (by unfold Tcp.doff; omega)
  have hrest : (script.flags &&& FLAG_WIN_NOCHECK = 0 →
      Tcp.window actual.buffer a = Tcp.window script.buffer s) ∧
        checkField "tcp_urg_ptr" (Tcp.urgPtr script.buffer s) (Tcp.urgPtr actual.buffer a) =
          .ok () := by
    split at hok
    · obtain ⟨_, hwindow, hurgPtr⟩ := bind_eq_ok_iff.mp hok
      exact ⟨fun _ => checkField_eq_ok_iff.mp hwindow, hurgPtr⟩
    · exact ⟨fun h => absurd h ‹_›, hok⟩
  exact ⟨hdoffSame, verifyTcpFlags_ok hflags, checkField_eq_ok_iff.mp hres1,
    checkField_eq_ok_iff.mp hseq, checkField_eq_ok_iff.mp hackSeq, hrest.1,
    checkField_eq_ok_iff.mp hrest.2⟩

theorem udpLen_of_ok (ha : (actual.headerAt layer).ptr = some a)
    (hs : (script.headerAt layer).ptr = some s)
    (hok : verifyUdp actual script layer true = .ok ()) :
    Udp.len actual.buffer a = Udp.len script.buffer s := by
  unfold verifyUdp at hok
  simp only [layerPtr_of_ptr ha, layerPtr_of_ptr hs, bind_of_ok rfl, if_true] at hok
  exact checkField_eq_ok_iff.mp hok

/-- The fields of a header are compared by the verifier of its type. -/
theorem fieldsAgree_of_ok (ha : (actual.headerAt layer).ptr = some a)
    (hs : (script.headerAt layer).ptr = some s)
    (hbound : 0 ≤ uncheckedBytes actual script ∧ uncheckedBytes actual script ≤ 40)
    (htcp : (script.headerAt layer).type = .tcp →
      actual.tcp = some a ∧ TCP_BYTES ≤ Tcp.doff actual.buffer a * 4)
    (hok : verifyHeader actual script layer true = .ok ()) :
    FieldsAgree (script.headerAt layer).type script (uncheckedBytes actual script) actual.buffer
      a s := by
  have hsame := (verifyHeader_ok hok).1
  unfold verifyHeader at hok
  dsimp only at hok
  rw [if_neg (not_not.mpr hsame.symm)] at hok
  cases htype : (script.headerAt layer).type with
  | ipv4 =>
    rw [htype] at hok
    exact ipv4Agrees_of_ok ha hs hbound hok
  | ipv6 =>
    rw [htype] at hok
    exact ipv6Agrees_of_ok ha hs hbound hok
  | tcp =>
    rw [htype] at hok
    obtain ⟨hptr, hdoff⟩ := htcp htype
    exact tcpAgrees_of_ok ha hs hptr hdoff hok
  | udp =>
    rw [htype] at hok
    exact udpLen_of_ok ha hs hok
  | none | gre | mpls | icmpv4 | icmpv6 => trivial

theorem verifyHeader_timestamps {x y : Option Nat} : verifyHeader actual
    { script with
      tcpTsVal := x
      tcpTsEcr := y } layer true = verifyHeader actual script layer true := rfl

end Compare

/-! ## Other bytes -/

section Transfer

variable {script : FullPacket} {unchecked : Int} {b b' : Memory} {a s : Nat}

/-- The fields that are compared stand in front of the addresses. -/
theorem Ipv4Agrees.congr (h : Ipv4Agrees script unchecked b a s)
    (hsame : ∀ i < 12, b' (a + i) = b (a + i)) : Ipv4Agrees script unchecked b' a s := by
  have hbyte (i : Nat) (hi : i < 12) : u8At b' (a + i) = u8At b (a + i) :=
    u8At_transfer (hsame i hi)
  have h0 : u8At b' a = u8At b a := hbyte 0 (by omega)
  have hlen : Ipv4.totLen b' a = Ipv4.totLen b a :=
    be16At_transfer (hsame 2 (by omega)) (hsame 3 (by omega))
  constructor
  · rw [Ipv4.version, h0]
    exact h.version
  · rw [Ipv4.ihl, h0]
    exact h.ihl
  · rw [Ipv4.protocol, hbyte 9 (by omega)]
    exact h.protocol
  · rw [hlen]
    exact h.totLen
  · rw [Ipv4.tos, hbyte 1 (by omega)]
    exact h.tos
  · rw [Ipv4.ttl, hbyte 8 (by omega)]
    exact h.ttl

theorem Ipv6Agrees.congr (h : Ipv6Agrees script unchecked b a s)
    (hsame : ∀ i < 8, b' (a + i) = b (a + i)) : Ipv6Agrees script unchecked b' a s := by
  have hbyte (i : Nat) (hi : i < 8) : u8At b' (a + i) = u8At b (a + i) :=
    u8At_transfer (hsame i hi)
  have h0 : u8At b' a = u8At b a := hbyte 0 (by omega)
  have hlen : Ipv6.payloadLen b' a = Ipv6.payloadLen b a :=
    be16At_transfer (hsame 4 (by omega)) (hsame 5 (by omega))
  constructor
  · rw [Ipv6.version, h0]
    exact h.version
  · rw [Ipv6.nextHeader, hbyte 6 (by omega)]
    exact h.nextHeader
  · rw [hlen]
    exact h.payloadLen
  · rw [Ipv6.tosByte, h0, hbyte 1 (by omega)]
    exact h.tos
  · rw [Ipv6.hopLimit, hbyte 7 (by omega)]
    exact h.hopLimit

/-- Those of a TCP header stand behind the ports. -/
theorem TcpAgrees.congr (h : TcpAgrees script unchecked b a s)
    (hsame : ∀ i, 4 ≤ i → i < TCP_BYTES → b' (a + i) = b (a + i)) :
    TcpAgrees script unchecked b' a s := by
  have hsize : TCP_BYTES = 20 := rfl
  have hbyte (i : Nat) (hle : 4 ≤ i) (hlt : i < 20) : u8At b' (a + i) = u8At b (a + i) :=
    u8At_transfer (hsame i hle hlt)
  have hseq : Tcp.seq b' a = Tcp.seq b a :=
    be32At_transfer fun k hk => by
      simpa only [Nat.add_assoc] using hsame (4 + k) (by omega) (by omega)
  have hackSeq : Tcp.ackSeq b' a = Tcp.ackSeq b a :=
    be32At_transfer fun k hk => by
      simpa only [Nat.add_assoc] using hsame (8 + k) (by omega) (by omega)
  have hwindow : Tcp.window b' a = Tcp.window b a :=
    be16At_transfer (hsame 14 (by omega) (by omega)) (hsame 15 (by omega) (by omega))
  have hurgPtr : Tcp.urgPtr b' a = Tcp.urgPtr b a :=
    be16At_transfer (hsame 18 (by omega) (by omega)) (hsame 19 (by omega) (by omega))
  have h12 := hbyte 12 (by omega) (by omega)
  have hflags : tcpFlags b' a = tcpFlags b a := by
    unfold tcpFlags Tcp.fin Tcp.syn Tcp.rst Tcp.psh Tcp.ack Tcp.urg Tcp.ece Tcp.cwr
    rw [hbyte 13 (by omega) (by omega)]
  constructor
  · rw [Tcp.doff, h12]
    exact h.doff
  · rw [hflags]
    exact h.flags
  · rw [Tcp.res1, h12]
    exact h.res1
  · rw [hseq]
    exact h.seq
  · rw [hackSeq]
    exact h.ackSeq
  · rw [hwindow]
    exact h.window
  · rw [hurgPtr]
    exact h.urgPtr

/-- The bytes at the offsets at which a header of the type is compared. -/
def HeaderType.Compares (type : HeaderType) (i : Nat) : Prop :=
  match type with
  | .ipv4 => i < 12
  | .ipv6 => i < 8
  | .tcp => 4 ≤ i ∧ i < TCP_BYTES
  | .udp => 4 ≤ i ∧ i < UDP_BYTES
  | _ => False

theorem FieldsAgree.congr {type : HeaderType} (h : FieldsAgree type script unchecked b a s)
    (hsame : ∀ i, type.Compares i → b' (a + i) = b (a + i)) :
    FieldsAgree type script unchecked b' a s := by
  cases type with
  | ipv4 => exact Ipv4Agrees.congr h hsame
  | ipv6 => exact Ipv6Agrees.congr h hsame
  | tcp => exact TcpAgrees.congr h fun i hle hlt => hsame i ⟨hle, hlt⟩
  | udp =>
    have hlen : Udp.len b' a = Udp.len b a :=
      be16At_transfer (hsame 4 ⟨by decide, by decide⟩) (hsame 5 ⟨by decide, by decide⟩)
    exact hlen.trans h
  | none | gre | mpls | icmpv4 | icmpv6 => trivial

end Transfer

end QoSMos
