import Mathlib.Data.Nat.Basic

/-!
# Script expressions as system call arguments

The expressions of `script.h`, evaluated, and the functions of `run_system_call.c` that take the
arguments of a call from a list of expressions. A function that sets the error message and
returns `STATUS_ERR` returns `.error` with the message.
-/

namespace QoSMos.Syscall

/-- `struct expression`. What no function of the module reads is left out of the values, and
`none` is a null pointer. -/
inductive Expression where
  | ellipsis
  | integer (num : Int)
  | linger (onoff linger : Int)
  | word (string : String)
  | string (string : String)
  | gre (flags be16First be16Second be32Second be32Third : Nat)
  | in6Addr (address : List UInt8)
  | socketAddressIpv4
  | socketAddressIpv6
  | binary (op : String) (lhs rhs : Expression)
  | list (list : List Expression)
  | iovec (iovBase iovLen : Expression)
  | msghdr (msgName msgNamelen msgIov msgIovlen msgControl msgFlags : Option Expression)
  | cmsg (cmsgLevel cmsgType cmsgData : Expression)
  | pollfd (fd events revents : Expression)
  | mplsStack (entries : List Nat)
  | scmTimestamping
  | sockExtendedErr (eeErrno eeOrigin eeType eeCode eeInfo eeData : Expression)
  | epollev (events : Expression) (ptr fd u32 u64 : Option Expression)

/-- `expression_type_to_string` of the type -/
def Expression.typeName : Expression → String
  | .ellipsis => "ellipsis"
  | .integer _ => "integer"
  | .linger _ _ => "linger"
  | .word _ => "word"
  | .string _ => "string"
  | .gre _ _ _ _ _ => "gre"
  | .in6Addr _ => "in6_addr"
  | .socketAddressIpv4 => "sockaddr_in"
  | .socketAddressIpv6 => "sockaddr_in6"
  | .binary _ _ _ => "binary_expression"
  | .list _ => "list"
  | .iovec _ _ => "iovec"
  | .msghdr _ _ _ _ _ _ => "msghdr"
  | .cmsg _ _ _ => "cmsg"
  | .pollfd _ _ _ => "pollfd"
  | .mplsStack _ => "mpls_stack"
  | .scmTimestamping => "scm_timestamping"
  | .sockExtendedErr _ _ _ _ _ _ => "sock_extended_err"
  | .epollev _ _ _ _ _ => "epollev"

abbrev Checked := Except String

/-- A value of 64 bits stored in an `int`. -/
def toInt (num : Int) : Int := num.bmod 4294967296

/-- The message of `check_type` -/
def badType {α : Type} (expression : Expression) (expected : String) : Checked α :=
  .error s!"Bad type; actual: {expression.typeName} expected: {expected}"

/-- `check_type(expression, EXPR_INTEGER)`, with the number -/
def checkInteger : Expression → Checked Int
  | .integer num => .ok num
  | expression => badType expression "integer"

/-- `check_type(expression, EXPR_LIST)`, with the list -/
def checkList : Expression → Checked (List Expression)
  | .list list => .ok list
  | expression => badType expression "list"

/-- `check_type(expression, EXPR_STRING)`, with the string -/
def checkString : Expression → Checked String
  | .string string => .ok string
  | expression => badType expression "string"

def checkEllipsis : Expression → Checked Unit
  | .ellipsis => .ok ()
  | expression => badType expression "ellipsis"

def checkArgCount (args : List Expression) (expected : Nat) : Checked Unit :=
  if args.length ≠ expected then .error s!"Expected {expected} args but got {args.length}"
  else .ok ()

def getArg (args : List Expression) (index : Nat) : Checked Expression :=
  match args[index]? with
  | some expression => .ok expression
  | none => .error "Argument list too short"

def getS32 (expression : Expression) : Checked Int := do
  let num ← checkInteger expression
  if num > 4294967295 ∨ num < -2147483648 then
    .error s!"Value out of range for 32-bit integer: {num}"
  else return toInt num

/-- `get_s64` -/
def getS64 (expression : Expression) : Checked Int := checkInteger expression

def s32Arg (args : List Expression) (index : Nat) : Checked Int := do
  getS32 (← getArg args index)

def s64Arg (args : List Expression) (index : Nat) : Checked Int := do
  getS64 (← getArg args index)

def bracketedArg (args : List Expression) (index : Nat) : Checked Expression := do
  match ← checkList (← getArg args index) with
  | [expression] => return expression
  | _ => .error "Expected [<element>] but got multiple elements"

def s32BracketedArg (args : List Expression) (index : Nat) : Checked Int := do
  getS32 (← bracketedArg args index)

def s64BracketedArg (args : List Expression) (index : Nat) : Checked Int := do
  getS64 (← bracketedArg args index)

def ellipsisArg (args : List Expression) (index : Nat) : Checked Unit := do
  checkEllipsis (← getArg args index)

/-- The address argument of `connect` and `sendto`: an ellipsis, or the number of a family. -/
def saFamilyArg (args : List Expression) (index : Nat) : Checked Int :=
  match ellipsisArg args index with
  | .ok () => .ok (-1)
  | .error _ => s32Arg args index

/-- `buffer_arg`: whether the buffer is a null pointer -/
def bufferArg (args : List Expression) (index : Nat) : Checked Bool :=
  match getArg args index with
  | .ok .ellipsis => .ok false
  | .ok (.integer 0) => .ok true
  | _ => .error "Expected ... or NULL for buffer"

/-- `get_pipe_expression` -/
def getPipeExpression (expression : Expression) : Checked (Int × Int) := do
  match ← checkList expression with
  | [first, second] => return (toInt (← checkInteger first), toInt (← checkInteger second))
  | list => .error s!"{list.length} pipe file descriptors instead of 2\n"

end QoSMos.Syscall
