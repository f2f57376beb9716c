import QoSMos.Build.Program
import QoSMos.Lib.Assignments
import QoSMos.Lib.LittleEndian

/-!
# Code snippets of a script

Where a script has a snippet of code, `code.c` asks the kernel about the socket under test and keeps
the answers with the snippet. At the end of the script it writes all of that to a Python file and
runs it. A text is a list of characters; the kernel has the byte order of x86.
-/

namespace QoSMos.Code

open Assignments

/-! ## What is kept -/

/-- `enum code_data_t` on Linux, as far as a buffer can have it. -/
inductive CodeDataT where
  | tcpInfo | tcpCcInfo | soMeminfo
  deriving DecidableEq, Repr

/-- `struct code_text` -/
structure CodeText where
  text : List Char
  fileName : List Char
  lineNumber : Nat
  deriving DecidableEq, Repr

/-- `struct code_data` -/
structure CodeData where
  buffer : List UInt8
  type : CodeDataT
  len : Nat
  deriving DecidableEq, Repr

/-- `struct code_fragment` -/
inductive CodeFragment where
  | text (text : CodeText)
  | data (data : CodeData)
  deriving DecidableEq, Repr

/-- `struct code_state`; its format is Python. -/
structure CodeState where
  /-- `none` for `DATA_NONE`. -/
  dataType : Option CodeDataT
  commandLine : List Char
  path : Option (List Char)
  fragments : List CodeFragment
  deriving DecidableEq, Repr

/-- The fields of `struct config` that `code_new` reads. -/
structure CodeConfig where
  codeFormat : String
  codeSockopt : String
  codeCommandLine : String
  deriving DecidableEq, Repr

/-- `code_new`, or the message with which it ends the run. -/
def codeNew (config : CodeConfig) : Except String CodeState := do
  if config.codeFormat ≠ "python" then
    throw (s!"unsupported --code_format '{config.codeFormat}'" ++ "\n")
  let dataType ←
    if config.codeSockopt = "" then pure none
    else if config.codeSockopt = "TCP_INFO" then pure (some .tcpInfo)
    else if config.codeSockopt = "TCP_CC_INFO" then pure (some .tcpCcInfo)
    else if config.codeSockopt = "SO_MEMINFO" then pure (some .soMeminfo)
    else throw (s!"unsupported --code_sockopt '{config.codeSockopt}'" ++ "\n")
  return ⟨dataType, config.codeCommandLine.toList, none, []⟩

/-- `append_fragment` -/
def appendFragment (code : CodeState) (fragment : CodeFragment) : CodeState :=
  { code with fragments := code.fragments ++ [fragment] }

/-- `append_text` -/
def appendText (code : CodeState) (fileName : List Char) (lineNumber : Nat)
    (text : List Char) : CodeState :=
  appendFragment code (.text ⟨text, fileName, lineNumber⟩)

/-- `append_data` -/
def appendData (code : CodeState) (dataType : CodeDataT) (buffer : List UInt8) (len : Nat) :
    CodeState :=
  appendFragment code (.data ⟨buffer, dataType, len⟩)

/-! ## Events -/

/-- The `data_len` of a type of data. -/
def dataLen : CodeDataT → Nat
  | .tcpInfo => 192
  | .tcpCcInfo => 20
  | .soMeminfo => 36

/-- A code event, with what is there when it is run: whether there is a socket under test, and for
each option the bytes that `getsockopt` stores, unless it fails. -/
structure CodeEvent where
  lineNumber : Nat
  text : List Char
  hasSocket : Bool
  getsockopt : CodeDataT → Option (List UInt8)

/-- `get_data`: the buffer, of which the kernel has stored the first bytes, and their number. -/
def getData (e : CodeEvent) (dataType : CodeDataT) : Option (List UInt8 × Nat) :=
  (e.getsockopt dataType).map fun stored =>
    let stored := stored.take (dataLen dataType)
    (stored ++ List.replicate (dataLen dataType - stored.length) 0, stored.length)

/-- The part of `run_code_event` for one option. -/
def collectData (code : CodeState) (e : CodeEvent) (dataType : CodeDataT) (error : String) :
    Except String CodeState :=
  let code := { code with dataType := some dataType }
  match getData e dataType with
  | some (data, len) => .ok (appendData code dataType data len)
  | none => .error error

/-- What `run_code_event` does before it looks at the error. -/
def collectAll (scriptPath : List Char) (code : CodeState) (e : CodeEvent) :
    Except String CodeState := do
  if e.hasSocket = false then throw "no socket to use for code"
  let code ← collectData code e .tcpInfo "can't find getsockopt to get TCP info"
  let code ← collectData code e .tcpCcInfo "can't find getsockopt to get TCP_CC_INFO"
  let code ← collectData code e .soMeminfo "can't find getsockopt to get sk_meminfo"
  return appendText code scriptPath e.lineNumber e.text

/-- `run_code_event` without waiting for the time of the event, or the message with which it ends
the run. -/
def runCodeEvent (scriptPath : List Char) (code : CodeState) (e : CodeEvent) :
    Except String CodeState :=
  (collectAll scriptPath code e).mapError fun error =>
    s!"{String.ofList scriptPath}:{e.lineNumber}: runtime error in code: {error}" ++ "\n"

/-- The code events of a script, one after the other. -/
def runCodeEvents (scriptPath : List Char) : CodeState → List CodeEvent → Except String CodeState
  | code, [] => .ok code
  | code, e :: events => do runCodeEvents scriptPath (← runCodeEvent scriptPath code e) events

/-! ## Writing -/

/-- A field of a `struct`: some bits of some of its bytes. -/
structure Field where
  offset : Nat
  bytes : Nat
  shift : Nat
  bits : Nat
  deriving DecidableEq, Repr

def u8 (offset : Nat) : Field := ⟨offset, 1, 0, 8⟩
def u16 (offset : Nat) : Field := ⟨offset, 2, 0, 16⟩
def u32 (offset : Nat) : Field := ⟨offset, 4, 0, 32⟩
def u64 (offset : Nat) : Field := ⟨offset, 8, 0, 64⟩

def Field.read (field : Field) (buffer : List UInt8) : Nat :=
  LittleEndian.decode ((buffer.drop field.offset).take field.bytes) / 2 ^ field.shift %
    2 ^ field.bits

/-- The variables for some fields of a buffer. -/
def values (fields : List (String × Field)) (buffer : List UInt8) : List Assignment :=
  fields.map fun (name, field) => ⟨name.toList, field.read buffer⟩

/-- The names and numbers of `write_symbols`. -/
def symbols : List Assignment :=
  [("TCP_ESTABLISHED", 1), ("TCP_SYN_SENT", 2), ("TCP_SYN_RECV", 3), ("TCP_FIN_WAIT1", 4),
    ("TCP_FIN_WAIT2", 5), ("TCP_TIME_WAIT", 6), ("TCP_CLOSE", 7), ("TCP_CLOSE_WAIT", 8),
    ("TCP_LAST_ACK", 9), ("TCP_LISTEN", 10), ("TCP_CLOSING", 11), ("TCP_CA_Open", 0),
    ("TCP_CA_Disorder", 1), ("TCP_CA_CWR", 2), ("TCP_CA_Recovery", 3), ("TCP_CA_Loss", 4),
    ("TCPI_OPT_TIMESTAMPS", 1), ("TCPI_OPT_WSCALE", 4), ("TCPI_OPT_ECN", 8),
    ("TCPI_OPT_SYN_DATA", 32)].map fun (name, value) => ⟨name.toList, value⟩

/-- The fields of `struct _tcp_info` in the order in which `write_tcp_info` emits them. -/
def tcpInfoFields : List (String × Field) :=
  [("tcpi_state", u8 0), ("tcpi_ca_state", u8 1), ("tcpi_retransmits", u8 2), ("tcpi_probes", u8 3),
    ("tcpi_backoff", u8 4), ("tcpi_options", u8 5), ("tcpi_snd_wscale", ⟨6, 1, 0, 4⟩),
    ("tcpi_rcv_wscale", ⟨6, 1, 4, 4⟩), ("tcpi_delivery_rate_app_limited", ⟨7, 1, 0, 1⟩),
    ("tcpi_rto", u32 8), ("tcpi_ato", u32 12), ("tcpi_snd_mss", u32 16), ("tcpi_rcv_mss", u32 20),
    ("tcpi_unacked", u32 24), ("tcpi_sacked", u32 28), ("tcpi_lost", u32 32),
    ("tcpi_retrans", u32 36), ("tcpi_fackets", u32 40), ("tcpi_last_data_sent", u32 44),
    ("tcpi_last_ack_sent", u32 48), ("tcpi_last_data_recv", u32 52),
    ("tcpi_last_ack_recv", u32 56), ("tcpi_pmtu", u32 60), ("tcpi_rcv_ssthresh", u32 64),
    ("tcpi_rtt", u32 68), ("tcpi_rttvar", u32 72), ("tcpi_snd_ssthresh", u32 76),
    ("tcpi_snd_cwnd", u32 80), ("tcpi_advmss", u32 84), ("tcpi_reordering", u32 88),
    ("tcpi_total_retrans", u32 100), ("tcpi_pacing_rate", u64 104),
    ("tcpi_max_pacing_rate", u64 112), ("tcpi_rcv_rtt", u32 92), ("tcpi_rcv_space", u32 96),
    ("tcpi_bytes_acked", u64 120), ("tcpi_bytes_received", u64 128), ("tcpi_segs_out", u32 136),
    ("tcpi_segs_in", u32 140), ("tcpi_notsent_bytes", u32 144), ("tcpi_min_rtt", u32 148),
    ("tcpi_data_segs_in", u32 152), ("tcpi_data_segs_out", u32 156),
    ("tcpi_delivery_rate", u64 160), ("tcpi_busy_time", u64 168), ("tcpi_rwnd_limited", u64 176),
    ("tcpi_sndbuf_limited", u64 184)]

def emitVarEnd : List Char := ['\n']

/-- `write_tcp_info` -/
def writeTcpInfo (info : List UInt8) (len : Nat) : Except Halt (List Char) := do
  require (len ≥ 192) "write_tcp_info" "len >= sizeof(struct _tcp_info)"
  return print symbols ++ print (values tcpInfoFields info) ++ emitVarEnd

/-- The variables of `write_tcp_bbr_cc_info`; `bbr_bw` is made of two fields. -/
def bbrValues (info : List UInt8) : List Assignment :=
  let lo := (u32 0).read info
  let hi := (u32 4).read info
  let bw := (hi * 4294967296 + lo) % 18446744073709551616
  [⟨"bbr_bw_lo".toList, lo⟩, ⟨"bbr_bw_hi".toList, hi⟩, ⟨"bbr_bw".toList, bw⟩] ++
    values [("bbr_min_rtt", u32 8), ("bbr_pacing_gain", u32 12), ("bbr_cwnd_gain", u32 16)] info

/-- The fields of `struct _tcp_dctcp_info` -/
def dctcpFields : List (String × Field) :=
  [("dctcp_enabled", u16 0), ("dctcp_ce_state", u16 2), ("dctcp_alpha", u32 4),
    ("dctcp_ab_ecn", u32 8), ("dctcp_ab_tot", u32 12)]

/-- The fields of `struct _tcpvegas_info` -/
def vegasFields : List (String × Field) :=
  [("tcpv_enabled", u32 0), ("tcpv_rttcnt", u32 4), ("tcp_rtt", u32 8), ("tcp_minrtt", u32 12)]

/-- `write_tcp_bbr_cc_info` -/
def writeTcpBbrCcInfo (info : List UInt8) (len : Nat) : List Char :=
  if len < 16 + 4 then [] else print (bbrValues info)

/-- `write_tcp_dctcp_cc_info` -/
def writeTcpDctcpCcInfo (info : List UInt8) (len : Nat) : List Char :=
  if len < 12 + 4 then [] else print (values dctcpFields info)

/-- `write_tcp_vegas_cc_info` -/
def writeTcpVegasCcInfo (info : List UInt8) (len : Nat) : List Char :=
  if len < 12 + 4 then [] else print (values vegasFields info)

/-- `write_tcp_cc_info` -/
def writeTcpCcInfo (info : List UInt8) (len : Nat) : List Char :=
  writeTcpBbrCcInfo info len ++ writeTcpDctcpCcInfo info len ++ writeTcpVegasCcInfo info len ++
    emitVarEnd

/-- The elements of the array that `write_so_meminfo` emits. -/
def meminfoFields : List (String × Field) :=
  [("SK_MEMINFO_RMEM_ALLOC", u32 0), ("SK_MEMINFO_RCVBUF", u32 4),
    ("SK_MEMINFO_WMEM_ALLOC", u32 8), ("SK_MEMINFO_SNDBUF", u32 12),
    ("SK_MEMINFO_FWD_ALLOC", u32 16), ("SK_MEMINFO_WMEM_QUEUED", u32 20),
    ("SK_MEMINFO_OPTMEM", u32 24), ("SK_MEMINFO_BACKLOG", u32 28), ("SK_MEMINFO_DROPS", u32 32)]

/-- `write_so_meminfo` -/
def writeSoMeminfo (memInfo : List UInt8) (len : Nat) : Except Halt (List Char) := do
  require (len ≥ 4 * 9) "write_so_meminfo" "len >= sizeof(u32) * _SK_MEMINFO_VARS"
  return print (values meminfoFields memInfo) ++ emitVarEnd

/-- `write_text` -/
def writeText (text : CodeText) : List Char :=
  "_file = '".toList ++ text.fileName ++ "'\n_line = ".toList ++ Nat.toDigits 10 text.lineNumber ++
    ['\n'] ++ text.text ++ "\n\n".toList

/-- `write_data` -/
def writeData (data : CodeData) : Except Halt (List Char) :=
  match data.type with
  | .tcpInfo => writeTcpInfo data.buffer data.len
  | .tcpCcInfo => .ok (writeTcpCcInfo data.buffer data.len)
  | .soMeminfo => writeSoMeminfo data.buffer data.len

/-- `write_fragment` -/
def writeFragment : CodeFragment → Except Halt (List Char)
  | .text text => .ok (writeText text)
  | .data data => writeData data

/-- `write_all_fragments` -/
def writeAllFragments : List CodeFragment → Except Halt (List Char)
  | [] => .ok []
  | fragment :: fragments => do
    let text ← writeFragment fragment
    return text ++ (← writeAllFragments fragments)

/-- `python_preamble`, with the line end of `write_preamble` -/
def preamble : List Char :=
  ("import sys\n" ++ "import traceback\n" ++ "def excepthook(etype, value, tb):\n" ++
    "  sys.stderr.write(\"%s:%d: error in Python code\\n\" %\n" ++
    "                   (_file, _line))\n" ++
    "  traceback.print_exception(etype, value, tb)\n" ++ "\n" ++ "sys.excepthook = excepthook\n" ++
    "\n" ++ "\n").toList

/-! ## Execution -/

/-- What `code_execute` does to the world. -/
inductive Action where
  | wrote (path text : List Char)
  | ran (commandLine : List Char)
  | unlinked (path : List Char)
  deriving DecidableEq, Repr

/-- The file name that `mkstemp` chooses, and what `system` returns. -/
structure World where
  path : List Char
  status : Int
  strerror : String
  strsignal : Int → String

/-- `WTERMSIG` -/
def wtermsig (status : Int) : Int := status % 128

/-- `WIFSIGNALED` -/
def wifsignaled (status : Int) : Bool := 0 < wtermsig status && wtermsig status < 127

/-- `WEXITSTATUS` -/
def wexitstatus (status : Int) : Int := status / 256 % 256

def SIGINT : Int := 2
def SIGQUIT : Int := 3

/-- What `execute_code_command_line` makes of the status. -/
def commandResult (world : World) (commandLine : List Char) : Except String Unit :=
  let command := String.ofList commandLine
  if world.status = -1 then
    .error s!"error running '{command}' with system(3): {world.strerror}"
  else if wifsignaled world.status ∧
      (wtermsig world.status = SIGINT ∨ wtermsig world.status = SIGQUIT) then
    .error (s!"'{command}' got signal {wtermsig world.status} " ++
      s!"({world.strsignal (wtermsig world.status)})")
  else if wexitstatus world.status ≠ 0 then
    .error s!"'{command}' returned non-zero status {wexitstatus world.status}"
  else .ok ()

/-- `code_execute`, with what it does. -/
def codeExecute (world : World) (code : CodeState) :
    Except Halt (CodeState × List Action × Except String Unit) :=
  if code.fragments = [] then .ok (code, [], .ok ())
  else do
    require (code.path = none) "write_code_file" "code->path == NULL"
    let text := preamble ++ (← writeAllFragments code.fragments)
    let fullCommandLine := code.commandLine ++ [' '] ++ world.path
    return ({ code with path := some world.path },
      [.wrote world.path text, .ran fullCommandLine, .unlinked world.path],
      commandResult world code.commandLine)

end QoSMos.Code
