import QoSMos.Packet.Write

/-!
# The connection between client and server

`wire_conn.c`: messages on a TCP connection. Each has a header with its length, which counts the
header, and its `op`. The four loops call `read` and `write` until all bytes have passed.

What these system calls come to is a schedule, of which each call uses up one outcome. Where the
schedule is too short, the program is still waiting. A store behind the end of a buffer is a fault.
-/

namespace QoSMos.Wire

/-! ## System calls -/

inductive Errno where
  | EINTR | EAGAIN | other
  deriving DecidableEq, Repr

/-- What a call comes to: -1 and an error, or a number of bytes. No call moves more bytes than it
is given, nor `read` more than there are. -/
inductive Outcome where
  | failed (errno : Errno)
  | moved (count : Nat)
  deriving DecidableEq, Repr

/-- What a function returns; or it has stored behind its buffer, or it is still waiting. -/
inductive Status where
  | ok | err | fault | waiting
  deriving DecidableEq, Repr

/-! ## Writing -/

/-- The side that writes: outcomes to come, and bytes written. -/
structure Sender where
  schedule : List Outcome
  sent : List UInt8

/-- `write_bytes`, with the outcomes and the bytes sent as arguments. -/
def writeBytes : List Outcome → List UInt8 → List UInt8 → Status × Sender
  | schedule, sent, [] => (.ok, { schedule := schedule, sent := sent })
  | [], sent, _ :: _ => (.waiting, { schedule := [], sent := sent })
  | .failed errno :: schedule, sent, byte :: buf =>
    if errno = .EINTR ∨ errno = .EAGAIN then writeBytes schedule sent (byte :: buf)
    else (.err, { schedule := schedule, sent := sent })
  | .moved bytesWritten :: schedule, sent, byte :: buf =>
    writeBytes schedule (sent ++ (byte :: buf).take bytesWritten) ((byte :: buf).drop bytesWritten)

def HEADER_BYTES : Nat := 8

/-- `wire_conn_write`, whose `op` is an `enum wire_op_t`. -/
def wireConnWrite (conn : Sender) (op : UInt32) (buf : List UInt8) : Status × Sender :=
  let header := be32 (HEADER_BYTES + buf.length) ++ be32 op.toNat
  match writeBytes conn.schedule conn.sent header with
  | (.ok, conn) => writeBytes conn.schedule conn.sent buf
  | result => result

/-! ## Reading -/

/-- The side that reads: outcomes to come, bytes that are not read yet, and the buffer at which
they are stored. -/
structure Reader where
  schedule : List Outcome
  incoming : List UInt8
  memory : Memory

/-- `read_bytes` into a buffer with so much space, from an offset on. -/
def readBytes (space : Nat) : List Outcome → List UInt8 → Memory → Nat → Nat → Status × Reader
  | schedule, incoming, memory, _, 0 => (.ok, ⟨schedule, incoming, memory⟩)
  | [], incoming, memory, _, _ + 1 => (.waiting, ⟨[], incoming, memory⟩)
  | .failed errno :: schedule, incoming, memory, offset, bufLen + 1 =>
    if errno = .EINTR ∨ errno = .EAGAIN then
      readBytes space schedule incoming memory offset (bufLen + 1)
    else (.err, ⟨schedule, incoming, memory⟩)
  | .moved count :: schedule, incoming, memory, offset, bufLen + 1 =>
    let bytes := incoming.take (min count (bufLen + 1))
    let bytesRead := bytes.length
    if bytesRead = 0 then (.err, ⟨schedule, incoming, memory⟩)
    else if space < offset + bytesRead then (.fault, ⟨schedule, incoming, memory⟩)
    else
      readBytes space schedule (incoming.drop bytesRead) (QoSMos.writeBytes memory offset bytes)
        (offset + bytesRead) (bufLen + 1 - bytesRead)

def MAX_MESSAGE_BYTES : Nat := 10 * 1000 * 1000

/-- A number of type `size_t` as an `int`. -/
def toInt (n : Nat) : Int := (n : Int).bmod 4294967296

/-- `struct wire_conn` with its buffer `in` -/
structure Conn where
  schedule : List Outcome
  incoming : List UInt8
  buf : Memory
  bufSpace : Nat

/-- What `wire_conn_read` returns in its arguments. -/
structure Call where
  conn : Conn
  op : Nat
  bufLen : Int

/-- The bytes at `*buf`. -/
def Call.bytes (call : Call) : List UInt8 := QoSMos.readBytes call.conn.buf 0 call.bufLen.toNat

/-- The first `if` behind the header: a larger buffer. -/
def Conn.grow (malloc : Nat → Memory) (conn : Conn) (bufLen : Nat) : Conn :=
  if conn.bufSpace < bufLen then
    { conn with bufSpace := 2 * bufLen, buf := malloc (2 * bufLen) }
  else conn

/-- `wire_conn_read` behind the header -/
def Conn.readPayload (malloc : Nat → Memory) (conn : Conn) (op : Nat) (bufLen : Int) :
    Status × Call :=
  if bufLen < 0 ∨ bufLen > MAX_MESSAGE_BYTES then (.err, ⟨conn, op, bufLen⟩)
  else
    let conn := conn.grow malloc bufLen.toNat
    let (status, reader) :=
      readBytes conn.bufSpace conn.schedule conn.incoming conn.buf 0 bufLen.toNat
    let conn := { conn with
      schedule := reader.schedule
      incoming := reader.incoming
      buf := reader.memory }
    (status, ⟨conn, op, bufLen⟩)

/-- `*buf_len`, as the header has it -/
def Reader.bufLen (reader : Reader) : Int :=
  toInt (be32At reader.memory 0 + 18446744073709551616 - HEADER_BYTES)

/-- `wire_conn_read`; `malloc` returns what a new buffer contains. -/
def wireConnRead (malloc : Nat → Memory) (conn : Conn) : Status × Call :=
  match readBytes HEADER_BYTES conn.schedule conn.incoming (fun _ => 0) 0 HEADER_BYTES with
  | (.ok, reader) =>
    let conn := { conn with schedule := reader.schedule, incoming := reader.incoming }
    conn.readPayload malloc (be32At reader.memory 4) reader.bufLen
  | (status, reader) =>
    let conn := { conn with schedule := reader.schedule, incoming := reader.incoming }
    (status, ⟨conn, 0, -1⟩)

end QoSMos.Wire
