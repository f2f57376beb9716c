import QoSMos.Flow.Tuple
import QoSMos.Outbound.HashMap
import QoSMos.Outbound.Options

/-!
# Sockets

The part of `struct socket` that translates between the live values of a connection and those
of the script, and the offsets between the two spaces of sequence numbers.
-/

namespace QoSMos

/-- `enum socket_state_t` -/
inductive SocketStateT where
  | init | new | passiveListening | passivePacketReceived | passiveSynackSent
  | passiveSynackAcked | activeConnecting | activeSynSent | activeSynAcked
  deriving DecidableEq, Repr

/-- `struct socket_state`, with the initial sequence numbers in host order. -/
structure SocketState where
  localEndpoint : Endpoint
  localIsn : Nat
  remoteEndpoint : Endpoint
  remoteIsn : Nat
  deriving DecidableEq, Repr

/-- `struct socket` -/
structure Socket where
  state : SocketStateT
  protocol : Nat
  script : SocketState
  live : SocketState
  tsValMap : HashMap
  foundFirstTcpTs : Bool
  firstScriptTsVal : UInt32
  firstActualTsVal : UInt32
  firstScriptTsEcr : UInt32
  firstActualTsEcr : UInt32
  lastOutboundTcpHeader : List UInt8

/-- `remote_seq_script_to_live_offset` -/
def remoteSeqScriptToLiveOffset (socket : Socket) (isSyn : Bool) : Nat :=
  if isSyn then 0 else socket.live.remoteIsn

/-- `remote_seq_live_to_script_offset` -/
def remoteSeqLiveToScriptOffset (socket : Socket) (isSyn : Bool) : Nat :=
  u32 (-(remoteSeqScriptToLiveOffset socket isSyn))

/-- `local_seq_script_to_live_offset` -/
def localSeqScriptToLiveOffset (socket : Socket) (isSyn : Bool) : Nat :=
  if isSyn then u32 (socket.live.localIsn - socket.script.localIsn) else socket.live.localIsn

/-- `local_seq_live_to_script_offset` -/
def localSeqLiveToScriptOffset (socket : Socket) (isSyn : Bool) : Nat :=
  u32 (-(localSeqScriptToLiveOffset socket isSyn))

/-- The sequence number of a TCP header raised by an offset. -/
def offsetSeq (b : Memory) (tcp offset : Nat) : Memory :=
  writeBytes b (tcp + 4) (be32 ((Tcp.seq b tcp + offset) % 4294967296))

/-- The acknowledgment number raised by an offset, if there is one. -/
def offsetAckSeq (b : Memory) (tcp offset : Nat) : Memory :=
  if Tcp.ack b tcp then writeBytes b (tcp + 8) (be32 ((Tcp.ackSeq b tcp + offset) % 4294967296))
  else b

/-- The sequence numbers of a packet from live to script space, with the TCP header at `tcp`. -/
def convertSeqNumbers (socket : Socket) (packet : FullPacket) (tcp : Nat) : Status FullPacket :=
  let isSyn := Tcp.syn packet.buffer tcp
  let b := offsetSeq packet.buffer tcp (localSeqLiveToScriptOffset socket isSyn)
  let ackOffset := remoteSeqLiveToScriptOffset socket isSyn
  offsetSackBlocks { packet with buffer := offsetAckSeq b tcp ackOffset } ackOffset

/-- `tcp_convert_seq_number` -/
def tcpConvertSeqNumber (socket : Socket) (packet : FullPacket) : Status FullPacket :=
  match packet.tcp with
  | none => .error (.halt (.undefined "tcp_convert_seq_number" "packet->tcp"))
  | some tcp => convertSeqNumbers socket packet tcp

section Offsets

variable {b : Memory} {tcp offset i : Nat} {packet packet' : FullPacket} {socket : Socket}

theorem offsetSeq_frame (hi : i < tcp + 4 ∨ tcp + 8 ≤ i) : offsetSeq b tcp offset i = b i :=
  writeBytes_outside (by simp only [length_be32]; omega)

theorem offsetAckSeq_frame (hi : i < tcp + 8 ∨ tcp + 12 ≤ i) :
    offsetAckSeq b tcp offset i = b i := by
  unfold offsetAckSeq
  split
  · exact writeBytes_outside (by simp only [length_be32]; omega)
  · rfl

/-- A conversion changes the sequence numbers and the options of the TCP header. -/
theorem tcpConvertSeqNumber_spec (htcp : packet.tcp = some tcp)
    (hok : tcpConvertSeqNumber socket packet = .ok packet') :
    ∃ b, packet' = { packet with buffer := b } ∧
      ∀ i, i < tcp + 4 ∨ tcp + 12 ≤ i ∧ i < tcp + TCP_BYTES → b i = packet.buffer i := by
  unfold tcpConvertSeqNumber at hok
  rw [htcp] at hok
  have htcp' (b : Memory) : ({ packet with buffer := b } : FullPacket).tcp = some tcp := htcp
  obtain ⟨b, rfl, hb⟩ := offsetSackBlocks_spec (htcp' _) hok
  refine ⟨b, rfl, fun i hi => ?_⟩
  have hbytes : TCP_BYTES = 20 := rfl
  rw [hb i (by omega)]
  exact (offsetAckSeq_frame (by omega)).trans (offsetSeq_frame (by omega))

end Offsets

end QoSMos
