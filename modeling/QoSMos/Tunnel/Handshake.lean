import QoSMos.Lib.Returns
import QoSMos.Packet.Store
import QoSMos.Tunnel.Program

/-!
# The handshake of the tunnel

`startTunnel` sends the secret twice in a control packet and makes up to fifty attempts to receive
one, whose text it returns. Both packets are in arrays of a fixed size.
-/

namespace QoSMos.Tunnel

open Returns

/-! ## The program -/

/-- The bytes of `ctrlPacket`. -/
def CTRL_PACKET_BYTES : Nat := 1024

/-- The bytes of `recvBuf`. -/
def RECV_BUF_BYTES : Nat := 2048

/-- What a `recvfrom` of the loop comes to, and `time(NULL)` then. -/
structure Attempt where
  io : Io
  clock : Nat

/-- What has been sent, what `lastRecvTime` has been set to, and the string that is returned. -/
structure Started where
  sent : List (List UInt8)
  lastRecvTime : Option Nat
  parameters : List UInt8
  deriving DecidableEq, Repr

/-- What `recvfrom` stores: of a datagram that is too long, the front. -/
def recvd (io : Io) : List UInt8 := (io.datagram.getD []).take RECV_BUF_BYTES

/-- The string at `recvBuf + 1`. -/
def recvString (recvBuf : Memory) : List UInt8 :=
  (readBytes recvBuf 1 (RECV_BUF_BYTES - 1)).takeWhile (· ≠ 0)

/-- `n` turns of the loop that receives; where `attempts` ends, nothing arrives any more. -/
def receiveLoop (sent : List (List UInt8)) :
    Nat → List Attempt → Memory → Except Halt Started
  | 0, _, _ => .ok ⟨sent, none, []⟩
  | _ + 1, [], _ => .ok ⟨sent, none, []⟩
  | n + 1, attempt :: attempts, recvBuf => do
    let recvBuf := writeBytes recvBuf 0 (recvd attempt.io)
    -- no call, an error and an empty datagram leave `recvLen` at most 0
    let recvLen := (recvd attempt.io).length
    if 0 < recvLen ∧ recvBuf 0 = 0 then
      let recvBuf ← storeInside RECV_BUF_BYTES recvBuf recvLen [0] "startTunnel"
        "recvBuf[recvLen] = 0"
      return ⟨sent, some attempt.clock, recvString recvBuf⟩
    else receiveLoop sent n attempts recvBuf

def startTunnel (secret : List UInt8) (attempts : List Attempt) : Except Halt Started := do
  let secLen := secret.length
  let ctrlPacketLen := secLen + 1
  let ctrlPacket ← storeInside CTRL_PACKET_BYTES (fun _ => 0) 1 secret "startTunnel"
    "memcpy(ctrlPacket + 1, pSecret, secLen)"
  let sent := List.replicate 2 (readBytes ctrlPacket 0 ctrlPacketLen)
  receiveLoop sent 50 attempts (fun _ => 0)

/-! ## The handshake -/

/-- The control packet that carries a secret. -/
def controlPacket (secret : List UInt8) : List UInt8 := 0 :: secret

def Attempt.control (attempt : Attempt) : Option (List UInt8) :=
  attempt.io.datagram.filter fun datagram => datagram.head? = some 0

/-- The first attempt that receives a control packet. -/
def firstControl (attempts : List Attempt) : Option Attempt :=
  (attempts.take 50).find? fun attempt => attempt.control.isSome

/-- The text of a control packet. -/
def controlText (datagram : List UInt8) : List UInt8 := datagram.tail.takeWhile (· ≠ 0)

/-- What `startTunnel` should do. -/
def expectedStart (secret : List UInt8) (attempts : List Attempt) : Started where
  sent := [controlPacket secret, controlPacket secret]
  lastRecvTime := (firstControl attempts).map Attempt.clock
  parameters := controlText (((firstControl attempts).bind Attempt.control).getD [])

/-- No byte is stored outside the arrays, and the handshake is the one expected. -/
def Shakes (secret : List UInt8) (attempts : List Attempt) : Prop :=
  startTunnel secret attempts = .ok (expectedStart secret attempts)

/-- The packets have room in the arrays, the received one with a terminator behind it. -/
structure HasRoom (secret : List UInt8) (attempts : List Attempt) : Prop where
  secret : secret.length < CTRL_PACKET_BYTES
  received : ∀ datagram, (firstControl attempts).bind Attempt.control = some datagram →
    datagram.length < RECV_BUF_BYTES

section Receive

variable {secret text datagram : List UInt8} {attempts : List Attempt} {attempt : Attempt}
  {sent : List (List UInt8)} {recvBuf : Memory} {n : Nat}

/-- What stands behind a terminator is no part of the string. -/
theorem takeWhile_terminated (text more : List UInt8) :
    (text ++ [0] ++ more).takeWhile (· ≠ 0) = text.takeWhile (· ≠ 0) := by
  induction text with
  | nil => rfl
  | cons byte text ih =>
    rw [List.cons_append, List.cons_append, List.takeWhile_cons, List.takeWhile_cons, ih]

/-- What was in the buffer before does not show behind the terminator. -/
theorem recvString_terminated (h : text.length + 1 < RECV_BUF_BYTES) :
    recvString (writeBytes (writeBytes recvBuf 0 (0 :: text)) (text.length + 1) [0]) =
      text.takeWhile (· ≠ 0) := by
  have hwhole : writeBytes (writeBytes recvBuf 0 (0 :: text)) (text.length + 1) [0] =
      writeBytes (writeBytes recvBuf 0 [0]) 1 (text ++ [0]) := by
    have hend : text.length + 1 = 0 + (0 :: text).length := by simp
    have hsplit : writeBytes (writeBytes recvBuf 0 [0]) 1 (text ++ [0]) =
        writeBytes recvBuf 0 ([0] ++ (text ++ [0])) := writeBytes_append
    rw [hend, writeBytes_append, hsplit]
    rfl
  have hbytes : RECV_BUF_BYTES - 1 =
      (text ++ [0]).length + (RECV_BUF_BYTES - 1 - (text ++ [0]).length) := by
    simp only [List.length_append, List.length_singleton]
    omega
  rw [recvString, hwhole, hbytes, readBytes_append, readBytes_writeBytes, takeWhile_terminated]

theorem control_eq_some (h : attempt.control = some datagram) :
    ∃ text, datagram = 0 :: text ∧ attempt.io.datagram = some (0 :: text) := by
  obtain ⟨hio, hhead⟩ := Option.filter_eq_some_iff.mp h
  cases datagram with
  | nil => simp at hhead
  | cons byte text =>
    obtain rfl : byte = 0 := by simpa using hhead
    exact ⟨text, rfl, hio⟩

/-- Only a control packet ends the loop. -/
theorem receiveLoop_skip (h : attempt.control = none) :
    receiveLoop sent (n + 1) (attempt :: attempts) recvBuf =
      receiveLoop sent n attempts (writeBytes recvBuf 0 (recvd attempt.io)) := by
  rw [receiveLoop]
  apply if_neg
  rintro ⟨hlen, hzero⟩
  cases hio : attempt.io.datagram with
  | none => simp [recvd, hio] at hlen
  | some datagram =>
    have hhead : datagram.head? ≠ some 0 := by
      intro hhead
      simp [Attempt.control, hio, Option.filter, hhead] at h
    cases datagram with
    | nil => simp [recvd, hio] at hlen
    | cons byte text =>
      have hfirst := writeBytes_inside (b := recvBuf) (p := 0) hlen
      rw [hzero] at hfirst
      exact hhead (by simp [recvd, hio, RECV_BUF_BYTES] at hfirst; simp [hfirst])

/-- A control packet is the answer if its terminator has room. -/
theorem receiveLoop_control (h : attempt.control = some datagram) :
    receiveLoop sent (n + 1) (attempt :: attempts) recvBuf =
      if datagram.length < RECV_BUF_BYTES then
        .ok ⟨sent, some attempt.clock, controlText datagram⟩
      else .error (.undefined "startTunnel" "recvBuf[recvLen] = 0") := by
  obtain ⟨text, rfl, hio⟩ := control_eq_some h
  have hrecvd : recvd attempt.io = 0 :: text.take (RECV_BUF_BYTES - 1) := by
    rw [recvd, hio]
    rfl
  have hfirst : writeBytes recvBuf 0 (0 :: text.take (RECV_BUF_BYTES - 1)) 0 = 0 :=
    writeBytes_inside (p := 0) (k := 0) (Nat.succ_pos _)
  simp only [receiveLoop, hrecvd, hfirst, and_true]
  rw [if_pos (by simp), List.length_cons, List.length_cons, List.length_take]
  split_ifs with hlen
  · have htake : text.take (RECV_BUF_BYTES - 1) = text := List.take_of_length_le (by omega)
    have hmin : min (RECV_BUF_BYTES - 1) text.length = text.length := by omega
    rw [htake, hmin, bind_of_ok (storeInside_of_le hlen), recvString_terminated hlen]
    rfl
  · have hmin : min (RECV_BUF_BYTES - 1) text.length = RECV_BUF_BYTES - 1 := by omega
    rw [hmin, storeInside_of_lt (by simp [RECV_BUF_BYTES])]
    rfl

/-- The loop answers the first control packet among its attempts. -/
theorem receiveLoop_eq : receiveLoop sent n attempts recvBuf =
    match (attempts.take n).find? fun attempt => attempt.control.isSome with
    | none => .ok ⟨sent, none, []⟩
    | some attempt =>
      if (attempt.control.getD []).length < RECV_BUF_BYTES then
        .ok ⟨sent, some attempt.clock, controlText (attempt.control.getD [])⟩
      else .error (.undefined "startTunnel" "recvBuf[recvLen] = 0") := by
  induction n generalizing attempts recvBuf with
  | zero => simp [receiveLoop]
  | succ n ih =>
    cases attempts with
    | nil => simp [receiveLoop]
    | cons attempt attempts =>
      cases hcontrol : attempt.control with
      | none => simp [receiveLoop_skip hcontrol, ih, hcontrol]
      | some datagram => simp [receiveLoop_control hcontrol, hcontrol]

theorem startTunnel_of_secret (h : secret.length < CTRL_PACKET_BYTES) :
    startTunnel secret attempts =
      receiveLoop [controlPacket secret, controlPacket secret] 50 attempts (fun _ => 0) := by
  have hpacket : readBytes (writeBytes (fun _ => 0) 1 secret) 0 (secret.length + 1) =
      controlPacket secret := by
    rw [Nat.add_comm, readBytes_append, readBytes_writeBytes]
    have hzero : writeBytes (fun _ => 0) 1 secret 0 = 0 := writeBytes_outside (by omega)
    simp [readBytes, hzero, controlPacket]
  rw [startTunnel, bind_of_ok (storeInside_of_le (by omega)), hpacket]
  rfl

end Receive

/-- The handshake is the one expected if and only if both packets have room. -/
theorem shakes_iff (secret : List UInt8) (attempts : List Attempt) :
    Shakes secret attempts ↔ HasRoom secret attempts := by
  by_cases hsecret : secret.length < CTRL_PACKET_BYTES
  · rw [Shakes, startTunnel_of_secret hsecret, receiveLoop_eq, expectedStart, firstControl]
    cases hfirst : (attempts.take 50).find? fun attempt => attempt.control.isSome with
    | none =>
      refine iff_of_true rfl ⟨hsecret, fun datagram hdatagram => ?_⟩
      simp [firstControl, hfirst] at hdatagram
    | some attempt =>
      have hsome : attempt.control.isSome := List.find?_some (p := fun attempt : Attempt =>
        attempt.control.isSome) hfirst
      obtain ⟨datagram, hcontrol⟩ := Option.isSome_iff_exists.mp hsome
      have hroom : HasRoom secret attempts ↔ datagram.length < RECV_BUF_BYTES := by
        constructor
        · intro hroom
          exact hroom.received datagram (by simp [firstControl, hfirst, hcontrol])
        · refine fun hlen => ⟨hsecret, fun received hreceived => ?_⟩
          obtain rfl : datagram = received := by
            simpa [firstControl, hfirst, hcontrol] using hreceived
          exact hlen
      rw [hroom]
      simp only [hcontrol, Option.getD_some, Option.map_some, Option.bind_some]
      by_cases hlen : datagram.length < RECV_BUF_BYTES <;> simp [hlen]
  · constructor
    · intro hshakes
      rw [Shakes, startTunnel, storeInside_of_lt (by omega)] at hshakes
      cases hshakes
    · intro hroom
      exact absurd hroom.secret hsecret

/-- A control packet that fills the buffer. -/
def fullDatagram : List UInt8 := List.replicate RECV_BUF_BYTES 0

theorem not_forall_shakes : ¬ ∀ (secret : List UInt8) (attempts : List Attempt),
    Shakes secret attempts := by
  intro h
  have hcontrol : (⟨.received fullDatagram, 0⟩ : Attempt).control = some fullDatagram := rfl
  have hfull : ¬ fullDatagram.length < RECV_BUF_BYTES := by
    rw [fullDatagram, List.length_replicate]
    exact Nat.lt_irrefl _
  have hshakes := h [] [⟨.received fullDatagram, 0⟩]
  rw [Shakes, startTunnel_of_secret (by decide), receiveLoop_control hcontrol,
    if_neg hfull] at hshakes
  cases hshakes

end QoSMos.Tunnel
