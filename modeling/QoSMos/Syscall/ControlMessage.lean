import QoSMos.Packet.Store
import QoSMos.Script.Program
import QoSMos.Syscall.Expression

/-!
# Control messages of a script

`cmsg_new` makes the control messages of a `struct msghdr` out of a list of expressions. It appends
them to an array of a fixed size, where `cmsg` is the offset of the next header; the macros are
those of a 64-bit glibc.
-/

namespace QoSMos.ControlMessage

open Script

/-- How a function stops before it returns `STATUS_OK`. The first is `STATUS_ERR`, with what it has
left in `*error`. -/
inductive Stop where
  | error (message : Option String)
  | die (message : String)
  | halt (halt : Halt)
  deriving DecidableEq, Repr

def halted {α : Type} (call : Except Halt α) : Except Stop α := call.mapError Stop.halt

/-! ## Expressions -/

/-- An expression as `check_type` and `get_s32` see it. -/
def outline : Expression → Syscall.Expression
  | .ellipsis => .ellipsis
  | .integer num => .integer num.toInt
  | .linger onoff linger => .linger onoff linger
  | .word string => .word string
  | .string string => .string string
  | .gre _ => .gre 0 0 0 0 0
  | .in6Addr addressIpv6 => .in6Addr addressIpv6.toList
  | .socketAddressIpv4 _ => .socketAddressIpv4
  | .socketAddressIpv6 _ => .socketAddressIpv6
  | .binary op _ _ => .binary op .ellipsis .ellipsis
  | .list _ => .list []
  | .iovec _ _ => .iovec .ellipsis .ellipsis
  | .msghdr _ _ _ _ _ _ => .msghdr none none none none none none
  | .cmsg _ _ _ => .cmsg .ellipsis .ellipsis .ellipsis
  | .pollfd _ _ _ => .pollfd .ellipsis .ellipsis .ellipsis
  | .mplsStack _ => .mplsStack []
  | .scmTimestamping _ => .scmTimestamping
  | .sockExtendedErr _ _ _ _ _ _ =>
    .sockExtendedErr .ellipsis .ellipsis .ellipsis .ellipsis .ellipsis .ellipsis
  | .epollev _ _ _ _ _ => .epollev .ellipsis none none none none

/-- A function that only sets an error message. -/
def checked {α : Type} (call : Syscall.Checked α) : Except Stop α :=
  call.mapError fun message => .error (some message)

/-- A failed `check_type`. -/
def badType {α : Type} (expression : Expression) (expected : String) : Except Stop α :=
  checked (Syscall.badType (outline expression) expected)

def getS32 (expression : Expression) : Except Stop Int :=
  checked (Syscall.getS32 (outline expression))

/-- An `s32` in memory. -/
def s32Bytes (value : Int) : List UInt8 := LittleEndian.encode 4 (value % 4294967296).toNat

/-- An `s64` in memory. -/
def s64Bytes (value : Int) : List UInt8 :=
  LittleEndian.encode 8 (value % 18446744073709551616).toNat

/-- `get_s32` into an array. -/
def getS32At (size : Nat) (b : Memory) (offset : Nat) (expression : Expression) :
    Except Stop Memory := do
  let value ← getS32 expression
  halted (storeInside size b offset (s32Bytes value) "get_s32" "*value")

/-! ## Attributes -/

/-- `struct nla_type_info` -/
structure NlaTypeInfo where
  name : String
  length : Nat
  deriving DecidableEq, Repr

def tcpNla : List NlaTypeInfo :=
  [⟨"TCP_NLA_PAD", 4⟩, ⟨"TCP_NLA_BUSY", 8⟩, ⟨"TCP_NLA_RWND_LIMITED", 8⟩,
   ⟨"TCP_NLA_SNDBUF_LIMITED", 8⟩, ⟨"TCP_NLA_DATA_SEGS_OUT", 8⟩, ⟨"TCP_NLA_TOTAL_RETRANS", 8⟩,
   ⟨"TCP_NLA_PACING_RATE", 8⟩, ⟨"TCP_NLA_DELIVERY_RATE", 8⟩, ⟨"TCP_NLA_SND_CWND", 4⟩,
   ⟨"TCP_NLA_REORDERING", 4⟩, ⟨"TCP_NLA_MIN_RTT", 4⟩, ⟨"TCP_NLA_RECUR_RETRANS", 1⟩,
   ⟨"TCP_NLA_DELIVERY_RATE_APP_LMT", 1⟩, ⟨"TCP_NLA_SNDQ_SIZE", 4⟩, ⟨"TCP_NLA_CA_STATE", 1⟩]

/-- `nla_info[key_num]`, if the table has such an entry. -/
def nlaInfo (keyNum : Int) : Option NlaTypeInfo :=
  if keyNum < 0 then none else tcpNla[keyNum.toNat]?

def NLA_HDRLEN : Nat := 4

def nlaAlign (len : Nat) : Nat := (len + 3) / 4 * 4

/-- The bytes that `add_nla` stores; the two fields of the header have 16 bits. -/
def nlaBytes (type len : Nat) (data : List UInt8) : List UInt8 :=
  let attrSize := NLA_HDRLEN + len
  LittleEndian.encode 2 attrSize ++ LittleEndian.encode 2 type ++ data ++
    List.replicate (nlaAlign attrSize - attrSize) 0

def OPT_NLA_IGNORE_VAL : Nat := 4294967295

/-- `get_nla_value`, with the bytes that it copies. -/
def getNlaValue (value : Expression) (numBytes : Nat) : List UInt8 :=
  match value with
  | .integer num => LittleEndian.encode numBytes num.toUInt64.toNat
  | _ => LittleEndian.encode numBytes OPT_NLA_IGNORE_VAL

/-- `nla_value_is_valid` -/
def nlaValueIsValid : Expression → Bool
  | .integer _ | .ellipsis => true
  | _ => false

/-- The comparison of a value with the width of its field; fields of 8 bytes take all of them. -/
def inWidth (numBytes : Nat) : Expression → Bool
  | .integer num =>
    if numBytes = 1 then decide (0 ≤ num.toInt ∧ num.toInt ≤ 255)
    else if numBytes = 4 then decide (0 ≤ num.toInt ∧ num.toInt ≤ 4294967295)
    else true
  | _ => true

/-- The bytes stored so far, and the offset of `dst`. -/
structure Attributes where
  b : Memory
  dst : Nat

/-- A turn of `nla_expr_list_to_nla`. -/
def nlaStep (size : Nat) (s : Attributes) (element : Expression) : Except Stop Attributes :=
  match element with
  | .binary op key value =>
    -- `STATUS_ERR` without a message
    if op ≠ "=" then throw (.error none)
    else
      match key with
      | .integer keyNum =>
        if ¬ nlaValueIsValid value then throw (.error (some "values must be numeric or ellipsis"))
        else
          match nlaInfo keyNum.toInt with
          | none => throw (.halt (.undefined "nla_expr_list_to_nla" "nla_info[key_num].length"))
          | some info =>
            if ¬ inWidth info.length value then
              throw (.die (s!"out of bound u{8 * info.length} value specified" ++ "\n"))
            else do
              let attr := nlaBytes keyNum.toInt.toNat info.length (getNlaValue value info.length)
              let b ← halted (storeInside size s.b s.dst attr "add_nla"
                "memcpy(dst + NLA_HDRLEN, data, len)")
              return ⟨b, s.dst + nlaAlign (NLA_HDRLEN + info.length)⟩
      | key => badType key "integer"
  | element => badType element "binary_expression"

/-- `nla_expr_list_to_nla`, with `*len` -/
def nlaExprListToNla (size : Nat) (b : Memory) (start : Nat) (list : List Expression) :
    Except Stop (Memory × Nat) := do
  let s ← list.foldlM (nlaStep size) ⟨b, start⟩
  return (s.b, s.dst - start)

/-! ## Extended errors -/

/-- The members of `struct sock_extended_err_expr` with the offsets of the fields that they go to.
The fields at 4, 5 and 6 have one byte. -/
def extendedErrStores (eeErrno eeOrigin eeType eeCode eeInfo eeData : Expression) :
    List (Nat × Expression) :=
  [(0, eeErrno), (4, eeOrigin), (5, eeType), (6, eeCode), (8, eeInfo), (12, eeData)]

/-- `sizeof(struct sock_extended_err)` -/
def EXTENDED_ERR_BYTES : Nat := 16

/-- `new_extended_err` -/
def newExtendedErr (size : Nat) (b : Memory) (ee : Nat)
    (eeErrno eeOrigin eeType eeCode eeInfo eeData : Expression) : Except Stop Memory :=
  (extendedErrStores eeErrno eeOrigin eeType eeCode eeInfo eeData).foldlM
    (fun b (field : Nat × Expression) => getS32At size b (ee + field.1) field.2) b

/-! ## Control messages -/

def MSGHDR_MAX_CONTROLLEN : Nat := 1000

/-- `sizeof(struct cmsghdr)` -/
def CMSGHDR_BYTES : Nat := 16

def cmsgAlign (len : Nat) : Nat := (len + 7) / 8 * 8

def cmsgLen (len : Nat) : Nat := cmsgAlign CMSGHDR_BYTES + len

def cmsgSpace (len : Nat) : Nat := cmsgAlign len + cmsgAlign CMSGHDR_BYTES

/-- `CMSG_NXTHDR`: none where there is no room for a header. -/
def cmsgNxthdr (cmsg len : Nat) : Option Nat :=
  let next := cmsg + cmsgAlign len
  if next + CMSGHDR_BYTES ≤ MSGHDR_MAX_CONTROLLEN then some next else none

/-- `sizeof(struct sockaddr_in)` and `sizeof(struct sockaddr_in6)` -/
def SOCKADDR_IN_BYTES : Nat := 16
def SOCKADDR_IN6_BYTES : Nat := 28

def SOL_IP : Int := 0

/-- `get_s32` into a field of the header. -/
def getS32AtHeader (b : Memory) (cmsg : Option Nat) (field : Nat) (expression : Expression) :
    Except Stop (Nat × Int × Memory) := do
  let value ← getS32 expression
  match cmsg with
  | none => throw (.halt (.undefined "get_s32" "*value"))
  | some cmsg =>
    let b ← halted (storeInside MSGHDR_MAX_CONTROLLEN b (cmsg + field) (s32Bytes value) "get_s32"
      "*value")
    return (cmsg, value, b)

/-- The `switch`, with `len`. -/
def storeData (b : Memory) (level : Int) (data : Nat) :
    Expression → Except Stop (Memory × Nat)
  | .integer num => do
    let b ← getS32At MSGHDR_MAX_CONTROLLEN b data (.integer num)
    return (b, 4)
  | .scmTimestamping ts => do
    let times := ts.toList.flatMap fun time => s64Bytes time.1 ++ s64Bytes time.2
    let b ← halted (storeInside MSGHDR_MAX_CONTROLLEN b data times "cmsg_new"
      "memcpy(data, scm_timestamping, len)")
    return (b, times.length)
  | .list stats => nlaExprListToNla MSGHDR_MAX_CONTROLLEN b data stats
  | .sockExtendedErr eeErrno eeOrigin eeType eeCode eeInfo eeData => do
    let address := if level = SOL_IP then SOCKADDR_IN_BYTES else SOCKADDR_IN6_BYTES
    let b ← newExtendedErr MSGHDR_MAX_CONTROLLEN b data eeErrno eeOrigin eeType eeCode eeInfo eeData
    return (b, EXTENDED_ERR_BYTES + address)
  | _ => throw (.error (some "Unrecognized type for cmsg_data"))

/-- `msg_control`, `cmsg` and `sum`. -/
structure Control where
  b : Memory
  cmsg : Option Nat
  sum : Nat

/-- A turn of the loop of `cmsg_new`. -/
def cmsgStep (s : Control) (expr : Expression) : Except Stop Control :=
  match expr with
  | .cmsg cmsgLevel cmsgType cmsgData => do
    let (_, level, b) ← getS32AtHeader s.b s.cmsg 8 cmsgLevel
    let (cmsg, _, b) ← getS32AtHeader b s.cmsg 12 cmsgType
    let (b, len) ← storeData b level (cmsg + cmsgAlign CMSGHDR_BYTES) cmsgData
    let b ← halted (storeInside MSGHDR_MAX_CONTROLLEN b cmsg (LittleEndian.encode 8 (cmsgLen len))
      "cmsg_new" "cmsg->cmsg_len")
    return ⟨b, cmsgNxthdr cmsg (cmsgLen len), s.sum + cmsgSpace len⟩
  | expr => badType expr "cmsg"

/-- `msg_control` and `msg_controllen` of `struct msghdr`. -/
structure Msg where
  msgControl : Memory
  msgControllen : Nat

/-- `cmsg_new` -/
def cmsgNew : Expression → Except Stop Msg
  | .list list => do
    let s ← list.foldlM cmsgStep ⟨fun _ => 0, some 0, 0⟩
    return ⟨s.b, s.sum⟩
  | _ => throw (.halt (.fault (.assertionFailed "cmsg_new" "expr->type == EXPR_LIST")))

end QoSMos.ControlMessage
