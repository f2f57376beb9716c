import QoSMos.Build.Encapsulate

/-!
# Expressions of a script

`struct expression` and the functions of `script.c` that evaluate the arguments of a system call
before the call is made. The arguments of the calls in `run_system_call.c` are the values.

A function that returns `STATUS_ERR` fails with what it left in `*error`, which is `none` where
it left it as it was. A C string is a string of which each character stands for a byte.
-/

namespace QoSMos.Script

/-! ## Data -/

/-- The 16 bytes of a `struct gre` of the version and kind that `gre_len` asserts. -/
structure Gre where
  bytes : Vector UInt8 16
  version : QoSMos.Gre.version (.ofList bytes.toList) 0 = 0
  hasRouting : QoSMos.Gre.hasRouting (.ofList bytes.toList) 0 = false

/-- `gre_len` -/
def Gre.len (gre : Gre) : Nat := QoSMos.Gre.len (.ofList gre.bytes.toList) 0

/-- `struct expression` without its printing format, which is not evaluated. -/
inductive Expression where
  | ellipsis
  | integer (num : Int64)
  | linger (onoff linger : Int)
  | word (string : String)
  | string (string : String)
  | gre (gre : Gre)
  | in6Addr (addressIpv6 : Vector UInt8 16)
  | socketAddressIpv4 (address : Vector UInt8 16)
  | socketAddressIpv6 (address : Vector UInt8 28)
  | binary (op : String) (lhs rhs : Expression)
  | list (list : List Expression)
  | iovec (iovBase iovLen : Expression)
  | msghdr (msgName msgNamelen msgIov msgIovlen msgControl msgFlags : Expression)
  | cmsg (cmsgLevel cmsgType cmsgData : Expression)
  | pollfd (fd events revents : Expression)
  | mplsStack (mplsStack : MplsStack)
  | scmTimestamping (ts : Vector (Int × Int) 3)
  | sockExtendedErr (eeErrno eeOrigin eeType eeCode eeInfo eeData : Expression)
  /-- The alternatives are those of a union, and a null pointer is `none`. -/
  | epollev (events : Expression) (ptr fd u32 u64 : Option Expression)

abbrev Evaluation := Except (Option String)

/-! ## Symbols -/

structure IntSymbol where
  value : Int64
  name : String

/-- `cross_platform_symbols` and `platform_symbols()`. -/
structure SymbolTables where
  crossPlatformSymbols : List IntSymbol
  platformSymbols : List IntSymbol

/-- `lookup_int_symbol` -/
def lookupIntSymbol (inputSymbol : String) : List IntSymbol → Option Int64
  | [] => none
  | symbol :: symbols =>
    if inputSymbol = symbol.name then some symbol.value else lookupIntSymbol inputSymbol symbols

/-- `symbol_to_int` -/
def symbolToInt (tables : SymbolTables) (inputSymbol : String) : Evaluation Int64 :=
  match lookupIntSymbol inputSymbol tables.crossPlatformSymbols with
  | some value => .ok value
  | none =>
    match lookupIntSymbol inputSymbol tables.platformSymbols with
    | some value => .ok value
    | none => .error (some s!"unknown symbol: '{inputSymbol}'")

/-! ## Strings -/

def hexDigit (c : Char) : Option Nat :=
  if '0' ≤ c ∧ c ≤ '9' then some (c.toNat - 48)
  else if 'a' ≤ c ∧ c ≤ 'f' then some (c.toNat - 87)
  else if 'A' ≤ c ∧ c ≤ 'F' then some (c.toNat - 55)
  else none

def isSpace (c : Char) : Bool := c = ' ' ∨ '\x09' ≤ c ∧ c ≤ '\x0d'

/-- `strtol(s, &end, 16)` of two characters, where it takes both of them: the first may also be
white space or a sign. -/
def strtol (c0 c1 : Char) : Option Int :=
  match hexDigit c1, hexDigit c0 with
  | none, _ => none
  | some low, some high => some (16 * high + low)
  | some low, none =>
    if isSpace c0 ∨ c0 = '+' then some low else if c0 = '-' then some (-low) else none

/-- The message for what follows `\x`. -/
def invalidHexEscape (rest : List Char) : String :=
  s!"invalid hex escape (\\xhh): '\\x{String.ofList rest}'"

/-- The loop of `unescape_cstring_expression`. -/
def unescape : List Char → Except String (List Char)
  | [] => .ok []
  | '\\' :: [] => .error "unsupported escape code: '"
  -- The cases of the backslash and the quote fall through to that of the form feed.
  | '\\' :: '\\' :: rest | '\\' :: '\x22' :: rest | '\\' :: 'f' :: rest =>
    (unescape rest).map ('\x0c' :: ·)
  | '\\' :: 'n' :: rest => (unescape rest).map ('\n' :: ·)
  | '\\' :: 'r' :: rest => (unescape rest).map ('\x0d' :: ·)
  | '\\' :: 't' :: rest => (unescape rest).map ('\t' :: ·)
  | '\\' :: 'v' :: rest => (unescape rest).map ('\x0b' :: ·)
  | '\\' :: 'x' :: c0 :: c1 :: rest =>
    match strtol c0 c1 with
    | some value => (unescape rest).map (Char.ofNat (value % 256).toNat :: ·)
    | none => .error (invalidHexEscape (c0 :: c1 :: rest))
  | '\\' :: 'x' :: rest => .error (invalidHexEscape rest)
  | '\\' :: c :: _ => .error s!"unsupported escape code: '{c}'"
  | c :: rest => (unescape rest).map (c :: ·)

/-- `unescape_cstring_expression` -/
def unescapeCstringExpression (inputString : String) : Evaluation String :=
  match unescape inputString.toList with
  | .ok string => .ok (String.ofList string)
  | .error error => .error (some error)

/-! ## Evaluation -/

/-- The `gre_len` bytes of a header that `memcpy` copies to zeros. -/
def Gre.copied (gre : Gre) : Vector UInt8 16 :=
  .ofFn fun i => if i < gre.len then gre.bytes.toList.getD i 0 else 0

theorem Gre.ofList_copied (gre : Gre) {i : Nat} (hi : i < gre.len) (hlt : i < 16) :
    Memory.ofList gre.copied.toList i = Memory.ofList gre.bytes.toList i := by
  simp [Memory.ofList, Gre.copied, List.getD, hi, hlt]

theorem Gre.minlen_le (gre : Gre) : GRE_MINLEN ≤ gre.len := Gre.minlen_le_len _ _

theorem Gre.version_copied (gre : Gre) :
    QoSMos.Gre.version (.ofList gre.copied.toList) 0 = 0 := by
  have hmin := gre.minlen_le
  rw [GRE_MINLEN] at hmin
  rw [QoSMos.Gre.version, u8At, gre.ofList_copied (by omega) (by omega)]
  exact gre.version

theorem Gre.hasRouting_copied (gre : Gre) :
    QoSMos.Gre.hasRouting (.ofList gre.copied.toList) 0 = false := by
  have hmin := gre.minlen_le
  rw [GRE_MINLEN] at hmin
  rw [QoSMos.Gre.hasRouting, u8At, gre.ofList_copied (by omega) (by omega)]
  exact gre.hasRouting

def Gre.copy (gre : Gre) : Gre := ⟨gre.copied, gre.version_copied, gre.hasRouting_copied⟩

/-- What `evaluate_binary_expression` makes of its evaluated sides. -/
def evaluateBinaryExpression (op : String) (lhs rhs : Expression) : Evaluation Expression :=
  if op = "|" then
    match lhs, rhs with
    | .integer lhs, .integer rhs => .ok (.integer (lhs ||| rhs))
    | .integer _, _ => .error (some "right hand side of | not an integer")
    | _, _ => .error (some "left hand side of | not an integer")
  else if op = "=" then .ok (.binary op lhs rhs)
  else .error (some s!"bad binary operator '{op}'")

mutual

/-- `evaluate`, with a branch for each of the functions it calls: a structure is evaluated member
by member. -/
def evaluate (tables : SymbolTables) : Expression → Evaluation Expression
  | .ellipsis => .ok .ellipsis
  | .integer num => .ok (.integer num)
  | .gre gre => .ok (.gre gre.copy)
  | .in6Addr addressIpv6 => .ok (.in6Addr addressIpv6)
  | .linger onoff linger => .ok (.linger onoff linger)
  | .word string => return .integer (← symbolToInt tables string)
  | .string string => return .string (← unescapeCstringExpression string)
  | .socketAddressIpv4 address => .ok (.socketAddressIpv4 address)
  | .socketAddressIpv6 address => .ok (.socketAddressIpv6 address)
  | .binary op lhs rhs => do
    let lhs ← evaluate tables lhs
    let rhs ← evaluate tables rhs
    evaluateBinaryExpression op lhs rhs
  | .list list => return .list (← evaluateList tables list)
  | .iovec iovBase iovLen =>
    return .iovec (← evaluate tables iovBase) (← evaluate tables iovLen)
  | .msghdr msgName msgNamelen msgIov msgIovlen msgControl msgFlags =>
    return .msghdr (← evaluate tables msgName) (← evaluate tables msgNamelen)
      (← evaluate tables msgIov) (← evaluate tables msgIovlen) (← evaluate tables msgControl)
      (← evaluate tables msgFlags)
  | .cmsg cmsgLevel cmsgType cmsgData =>
    return .cmsg (← evaluate tables cmsgLevel) (← evaluate tables cmsgType)
      (← evaluate tables cmsgData)
  | .scmTimestamping ts => .ok (.scmTimestamping ts)
  | .sockExtendedErr eeErrno eeOrigin eeType eeCode eeInfo eeData =>
    return .sockExtendedErr (← evaluate tables eeErrno) (← evaluate tables eeOrigin)
      (← evaluate tables eeType) (← evaluate tables eeCode) (← evaluate tables eeInfo)
      (← evaluate tables eeData)
  | .pollfd fd events revents =>
    return .pollfd (← evaluate tables fd) (← evaluate tables events) (← evaluate tables revents)
  | .mplsStack mplsStack => .ok (.mplsStack mplsStack)
  | .epollev events (some ptr) _ _ _ =>
    return .epollev (← evaluate tables events) (some (← evaluate tables ptr)) none none none
  | .epollev events none (some fd) _ _ =>
    return .epollev (← evaluate tables events) none (some (← evaluate tables fd)) none none
  | .epollev events none none (some u32) _ =>
    return .epollev (← evaluate tables events) none none (some (← evaluate tables u32)) none
  | .epollev events none none none (some u64) =>
    return .epollev (← evaluate tables events) none none none (some (← evaluate tables u64))
  | .epollev events none none none none => do
    let _ ← evaluate tables events
    -- `STATUS_ERR` without a message.
    .error none

/-- The loop of `evaluate_expression_list`. -/
def evaluateList (tables : SymbolTables) : List Expression → Evaluation (List Expression)
  | [] => .ok []
  | expression :: inList =>
    return (← evaluate tables expression) :: (← evaluateList tables inList)

end

inductive Status where
  | statusOk
  | statusErr
deriving DecidableEq

/-- What a call of `evaluate_expression_list` leaves where `*out_list` and `*error` were `NULL`
before; the empty list is `NULL`. -/
structure Evaluated where
  status : Status
  outList : List Expression
  error : Option String

/-- `evaluate_expression_list` -/
def evaluateExpressionList (tables : SymbolTables) (inList : List Expression) : Evaluated :=
  match evaluateList tables inList with
  | .ok outList => ⟨.statusOk, outList, none⟩
  | .error error => ⟨.statusErr, [], error⟩

end QoSMos.Script
