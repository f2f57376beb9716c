import QoSMos.Address.Defaults
import QoSMos.Address.PrefixText
import QoSMos.Lib.Buckets
import QoSMos.Syscall.Accept

/-!
# The configuration

`config.c` starts with a default configuration, processes the options of the script and then those
of the command line, and calculates the addresses. The texts of options have one `Char` for each
byte. What `getopt_long` makes of the command line is given as the list of its results.
-/

namespace QoSMos.Configuration

open Buckets

/-- `enum ip_version_t` -/
inductive IpVersion where
  | v4 | v4Mapped6 | v6
  deriving DecidableEq, Repr

/-- `enum option_codes`; `unknown` is any other result of `getopt_long`. -/
inductive OptionCode where
  | ipVersion | bindPort | codeCommand | codeFormat | codeSockopt | connectPort | remoteIp | localIp
  | gatewayIp | netmaskIp | speed | mss | mtu | initScripts | toleranceUsecs | wireClient
  | wireServer | wireServerIp | wireServerPort | wireClientDev | wireServerDev | soFilename
  | soFlags | tcpTsEcrScaled | tcpTsTickUsecs | strictSegments | nonFatal | dryRun | isAnyip
  | sendOmitFree | define | verbose | unknown
  deriving DecidableEq, Repr

/-- A row of `options[]`. -/
structure OptionSpec where
  name : String
  hasArg : Bool
  val : OptionCode

def options : List OptionSpec :=
  [⟨"ip_version", true, .ipVersion⟩, ⟨"bind_port", true, .bindPort⟩,
    ⟨"code_command", true, .codeCommand⟩, ⟨"code_format", true, .codeFormat⟩,
    ⟨"code_sockopt", true, .codeSockopt⟩, ⟨"connect_port", true, .connectPort⟩,
    ⟨"remote_ip", true, .remoteIp⟩, ⟨"local_ip", true, .localIp⟩,
    ⟨"gateway_ip", true, .gatewayIp⟩, ⟨"netmask_ip", true, .netmaskIp⟩, ⟨"speed", true, .speed⟩,
    ⟨"mss", true, .mss⟩, ⟨"mtu", true, .mtu⟩, ⟨"init_scripts", true, .initScripts⟩,
    ⟨"tolerance_usecs", true, .toleranceUsecs⟩, ⟨"wire_client", false, .wireClient⟩,
    ⟨"wire_server", false, .wireServer⟩, ⟨"wire_server_ip", true, .wireServerIp⟩,
    ⟨"wire_server_port", true, .wireServerPort⟩, ⟨"wire_client_dev", true, .wireClientDev⟩,
    ⟨"wire_server_dev", true, .wireServerDev⟩, ⟨"so_filename", true, .soFilename⟩,
    ⟨"so_flags", true, .soFlags⟩, ⟨"tcp_ts_ecr_scaled", false, .tcpTsEcrScaled⟩,
    ⟨"tcp_ts_tick_usecs", true, .tcpTsTickUsecs⟩, ⟨"strict_segments", false, .strictSegments⟩,
    ⟨"non_fatal", true, .nonFatal⟩, ⟨"dry_run", false, .dryRun⟩, ⟨"is_anyip", false, .isAnyip⟩,
    ⟨"send_omit_free", false, .sendOmitFree⟩, ⟨"define", true, .define⟩,
    ⟨"verbose", false, .verbose⟩]

/-- `struct definition`; the list of them is that of the configuration. -/
structure Definition where
  symbol : String
  value : String
  deriving DecidableEq, Repr

/-- `struct config` without the copy of the arguments; an address or a pointer that is still zero is
`none`. -/
structure Config extends LiveStrings where
  ipVersion : IpVersion
  socketDomain : Option AddressFamily
  wireProtocol : Option AddressFamily
  liveBindPort : Int
  liveConnectPort : Int
  liveBindIp : Option IpAddress
  liveConnectIp : Option IpAddress
  liveLocalIp : Option IpAddress
  liveRemoteIp : Option IpAddress
  liveRemotePrefix : Option IpPrefix
  liveGatewayIp : Option IpAddress
  liveRemotePrefixString : String
  livePrefixLen : Int
  toleranceUsecs : Int
  tcpTsEcrScaled : Bool
  tcpTsTickUsecs : Int
  speed : Int
  mss : Int
  mtu : Int
  strictSegments : Bool
  nonFatalPacket : Bool
  nonFatalSyscall : Bool
  sendOmitFree : Bool
  dryRun : Bool
  verbose : Bool
  scriptPath : String
  codeCommandLine : String
  codeFormat : String
  codeSockopt : String
  initScripts : Option String
  isWireClient : Bool
  isWireServer : Bool
  wireClientDevice : String
  wireServerDevice : String
  wireServerIp : Option IpAddress
  wireServerIpString : Option String
  wireServerPort : Int
  soFilename : Option String
  soFlags : Option String
  isAnyip : Bool
  defines : List Definition
  deriving DecidableEq, Repr

def TUN_DRIVER_SPEED_CUR : Int := 0
def TUN_DRIVER_DEFAULT_MTU : Int := 1500

/-- `set_default_config`, and the path that `parse_script_and_set_config` sets. -/
def setDefaultConfig (scriptPath : String) : Config where
  liveRemoteIpString := ""
  liveNetmaskIpString := ""
  liveLocalIpString := ""
  liveGatewayIpString := ""
  ipVersion := .v4
  socketDomain := none
  wireProtocol := none
  liveBindPort := 8080
  liveConnectPort := 8080
  liveBindIp := none
  liveConnectIp := none
  liveLocalIp := none
  liveRemoteIp := none
  liveRemotePrefix := none
  liveGatewayIp := none
  liveRemotePrefixString := ""
  livePrefixLen := 0
  toleranceUsecs := 4000
  tcpTsEcrScaled := false
  tcpTsTickUsecs := 0
  speed := TUN_DRIVER_SPEED_CUR
  mss := 0
  mtu := TUN_DRIVER_DEFAULT_MTU
  strictSegments := false
  nonFatalPacket := false
  nonFatalSyscall := false
  sendOmitFree := false
  dryRun := false
  verbose := false
  scriptPath := scriptPath
  codeCommandLine := "/usr/bin/python"
  codeFormat := "python"
  codeSockopt := ""
  initScripts := none
  isWireClient := false
  isWireServer := false
  wireClientDevice := "eth0"
  wireServerDevice := "eth0"
  wireServerIp := none
  wireServerIpString := none
  wireServerPort := 8081
  soFilename := none
  soFlags := none
  isAnyip := false
  defines := []

/-- Why the configuration is not accepted: a message, or the usage. -/
inductive ConfigStop where
  | die (text : String)
  | usage
  deriving DecidableEq, Repr

/-! ## Definitions of symbols -/

/-- `definition_set` -/
def definitionSet (defs : List Definition) (symbol value : String) : List Definition :=
  match modifyKey Definition.symbol symbol (fun d => { d with value }) defs with
  | some defs => defs
  | none => ⟨symbol, value⟩ :: defs

/-- `definition_get` -/
def definitionGet (defs : List Definition) (symbol : String) : Option String :=
  (findKey Definition.symbol symbol defs).map Definition.value

/-! ## Options -/

/-- The tokens that `strtok_r` finds between commas and blanks. -/
def tokens (arg : String) : List String :=
  ((arg.toList.splitOnP fun c => c = ',' || c = ' ').filter (· ≠ [])).map String.ofList

/-- `parse_non_fatal_arg` -/
def parseNonFatalArg (arg : String) (config : Config) : Config :=
  (tokens arg).foldl (fun config token =>
    if token = "packet" then { config with nonFatalPacket := true }
    else if token = "syscall" then { config with nonFatalSyscall := true }
    else config) config

/-- `strncpy(buffer, arg, ADDR_STR_LEN-1)`, where the last byte of the buffer is 0. -/
def strncpyAddress (arg : String) : String := String.ofList (arg.toList.take (ADDR_STR_LEN - 1))

def badOption (location option arg : String) : ConfigStop :=
  .die (s!"{location}: bad --{option}: {arg}" ++ "\n")

/-- The ports of `process_option`. -/
def parsePort (location option arg : String) : Except ConfigStop Int :=
  let port := Numeral.atoi arg.toList
  if port ≤ 0 ∨ port > 0xffff then .error (badOption location option arg) else .ok port

/-- A number of type `int` that must lie between two others. -/
def parseBounded (location option arg : String) (low high : Int) : Except ConfigStop Int :=
  let n := Numeral.atoi arg.toList
  if n < low ∨ n > high then .error (badOption location option arg) else .ok n

def INT_MAX : Int := 2147483647

/-- `--speed` -/
def parseSpeed (location arg : String) : Except ConfigStop Int :=
  let number := Numeral.strtoul arg.toList
  if number.rest = arg.toList ∨ number.rest ≠ [] ∨ ¬ number.value ≤ 4294967295 then
    .error (badOption location "speed" arg)
  else .ok number.value

def parseIpVersion (location arg : String) : Except ConfigStop IpVersion :=
  if arg = "ipv4" then .ok .v4
  else if arg = "ipv4-mapped-ipv6" then .ok .v4Mapped6
  else if arg = "ipv6" then .ok .v6
  else .error (badOption location "ip_version" arg)

def isNotEquals (c : Char) : Bool := c ≠ '='

/-- The two sides of the first `=`, the first of which must not be empty. -/
def parseDefinition (location arg : String) : Except ConfigStop Definition :=
  let symbol := arg.toList.takeWhile isNotEquals
  match arg.toList.dropWhile isNotEquals with
  | [] => .error (.die (s!"{location}: bad definition: {arg}" ++ "\n"))
  | _ :: value =>
    if symbol = [] then .error (.die (s!"{location}: bad definition: {arg}" ++ "\n"))
    else .ok ⟨String.ofList symbol, String.ofList value⟩

/-- A function that ends the process with a message. -/
def orDie {α : Type} : Except String α → Except ConfigStop α
  | .ok a => .ok a
  | .error text => .error (.die text)

section Program

variable (inetPton : InetPton)

/-- `process_option` -/
def processOption (location : String) (opt : OptionCode) (optarg : String) (config : Config) :
    Except ConfigStop Config :=
  match opt with
  | .ipVersion => do return { config with ipVersion := ← parseIpVersion location optarg }
  | .bindPort => do return { config with liveBindPort := ← parsePort location "bind_port" optarg }
  | .codeCommand => .ok { config with codeCommandLine := optarg }
  | .codeFormat => .ok { config with codeFormat := optarg }
  | .codeSockopt => .ok { config with codeSockopt := optarg }
  | .connectPort => do
    return { config with liveConnectPort := ← parsePort location "connect_port" optarg }
  | .remoteIp => .ok { config with liveRemoteIpString := strncpyAddress optarg }
  | .localIp => .ok { config with liveLocalIpString := strncpyAddress optarg }
  | .gatewayIp => .ok { config with liveGatewayIpString := strncpyAddress optarg }
  | .mss => do return { config with mss := ← parseBounded location "mss" optarg 1 INT_MAX }
  | .mtu => do return { config with mtu := ← parseBounded location "mtu" optarg 0 INT_MAX }
  | .netmaskIp => .ok { config with liveNetmaskIpString := strncpyAddress optarg }
  | .initScripts => .ok { config with initScripts := some optarg }
  | .nonFatal => .ok (parseNonFatalArg optarg config)
  | .speed => do return { config with speed := ← parseSpeed location optarg }
  | .toleranceUsecs => do
    return { config with
      toleranceUsecs := ← parseBounded location "tolerance_usecs" optarg 1 INT_MAX }
  | .tcpTsEcrScaled => .ok { config with tcpTsEcrScaled := true }
  | .tcpTsTickUsecs => do
    return { config with
      tcpTsTickUsecs := ← parseBounded location "tcp_ts_tick_usecs" optarg 0 1000000 }
  | .strictSegments => .ok { config with strictSegments := true }
  | .wireClient => .ok { config with isWireClient := true }
  | .wireServer => .ok { config with isWireServer := true }
  | .wireServerIp => do
    let ip ← orDie (ipv4Parse inetPton optarg)
    return { config with wireServerIpString := some optarg, wireServerIp := some ip }
  | .wireServerPort => do
    return { config with wireServerPort := ← parsePort location "wire_server_port" optarg }
  | .wireClientDev => .ok { config with wireClientDevice := optarg }
  | .wireServerDev => .ok { config with wireServerDevice := optarg }
  | .soFilename => .ok { config with soFilename := some optarg }
  | .soFlags => .ok { config with soFlags := some optarg }
  | .dryRun => .ok { config with dryRun := true }
  | .isAnyip => .ok { config with isAnyip := true }
  | .sendOmitFree => .ok { config with sendOmitFree := true }
  | .define => do
    let d ← parseDefinition location optarg
    return { config with defines := definitionSet config.defines d.symbol d.value }
  | .verbose => .ok { config with verbose := true }
  | .unknown => .error .usage

/-- `parse_command_line_options`, for the results of `getopt_long`. -/
def parseCommandLineOptions (results : List (OptionCode × String)) (config : Config) :
    Except ConfigStop Config :=
  results.foldlM
    (fun config result => processOption inetPton "Command Line" result.1 result.2 config) config

/-- `struct option_list` -/
structure ScriptOption where
  name : String
  value : Option String
  deriving DecidableEq, Repr

/-- The option of the table that an option of a script names, with its argument. -/
def findOption (scriptPath : String) (opt : ScriptOption) :
    Except ConfigStop (OptionCode × String) :=
  match options.find? fun spec => spec.name = opt.name with
  | none => .error (.die (s!"{scriptPath}: option '{opt.name}' unknown" ++ "\n"))
  | some spec =>
    match opt.value, spec.hasArg with
    | some _, false =>
      .error (.die (s!"{scriptPath}: option '{opt.name}' forbids an argument" ++ "\n"))
    | none, true =>
      .error (.die (s!"{scriptPath}: option '{opt.name}' requires an argument" ++ "\n"))
    | value, _ => .ok (spec.val, value.getD "")

/-- `parse_script_options` -/
def parseScriptOptions (list : List ScriptOption) (config : Config) : Except ConfigStop Config :=
  list.foldlM (fun config opt => do
    let (code, arg) ← findOption config.scriptPath opt
    processOption inetPton config.scriptPath code arg config) config

/-! ## The last details -/

variable (inetNtop : IpAddress → String) (random : List UInt8)

/-- `set_remote_ip_and_prefix` -/
def setRemoteIpAndPrefix (config : Config) (p : IpPrefix) : Except ConfigStop Config := do
  let normalized ← match (ipPrefixNormalize p).result with
    | .ok normalized => .ok normalized
    | .error _ => .error (.die "")
  let prefixString ← orDie (ipPrefixToString inetNtop normalized)
  return { config with
    liveRemoteIp := some p.ip
    liveRemoteIpString := inetNtop p.ip
    liveRemotePrefix := some normalized
    liveRemotePrefixString := prefixString }

/-- What `finalize_ipv4_config` and `finalize_ipv4_mapped_ipv6_config` begin with. -/
def finalizeIpv4 (config : Config) : Except ConfigStop Config := do
  let strings ← orDie (setIpv4Defaults inetPton inetNtop random config.toLiveStrings)
  let config := { config with toLiveStrings := strings }
  let localIp ← orDie (ipv4Parse inetPton config.liveLocalIpString)
  let config := { config with liveLocalIp := some localIp }
  let remotePrefix ← orDie (ipv4PrefixParse inetPton config.liveRemoteIpString)
  let config ← setRemoteIpAndPrefix inetNtop config remotePrefix
  let prefixLen ← orDie (netmaskToPrefix inetPton config.liveNetmaskIpString)
  let gatewayIp ← orDie (ipv4Parse inetPton config.liveGatewayIpString)
  return { config with livePrefixLen := prefixLen, liveGatewayIp := some gatewayIp }

/-- `finalize_ipv4_config` -/
def finalizeIpv4Config (config : Config) : Except ConfigStop Config := do
  let config ← finalizeIpv4 inetPton inetNtop random config
  return { config with
    liveBindIp := config.liveLocalIp
    liveConnectIp := config.liveRemoteIp
    socketDomain := some .inet
    wireProtocol := some .inet }

/-- `finalize_ipv4_mapped_ipv6_config` -/
def finalizeIpv4MappedIpv6Config (config : Config) : Except ConfigStop Config := do
  let config ← finalizeIpv4 inetPton inetNtop random config
  return { config with
    liveBindIp := config.liveLocalIp.map Syscall.ipv6MapFromIpv4
    liveConnectIp := config.liveRemoteIp.map Syscall.ipv6MapFromIpv4
    socketDomain := some .inet6
    wireProtocol := some .inet }

/-- `finalize_ipv6_config` -/
def finalizeIpv6Config (config : Config) : Except ConfigStop Config := do
  let strings ← orDie (setIpv6Defaults inetPton inetNtop random config.toLiveStrings)
  let config := { config with toLiveStrings := strings }
  let localIp ← orDie (ipv6Parse inetPton config.liveLocalIpString)
  let config := { config with liveLocalIp := some localIp }
  let remotePrefix ← orDie (ipv6PrefixParse inetPton config.liveRemoteIpString)
  let config ← setRemoteIpAndPrefix inetNtop config remotePrefix
  let gatewayIp ← orDie (ipv6Parse inetPton config.liveGatewayIpString)
  return { config with
    livePrefixLen := DEFAULT_V6_LIVE_PREFIX_LEN
    liveGatewayIp := some gatewayIp
    liveBindIp := config.liveLocalIp
    liveConnectIp := config.liveRemoteIp
    socketDomain := some .inet6
    wireProtocol := some .inet6 }

/-- `finalize_config` -/
def finalizeConfig (config : Config) : Except ConfigStop Config :=
  match config.ipVersion with
  | .v4 => finalizeIpv4Config inetPton inetNtop random config
  | .v4Mapped6 => finalizeIpv4MappedIpv6Config inetPton inetNtop random config
  | .v6 => finalizeIpv6Config inetPton inetNtop random config

/-- `parse_and_finalize_config`, from the default configuration on. -/
def parseAndFinalizeConfig (scriptPath : String) (script : List ScriptOption)
    (commandLine : List (OptionCode × String)) : Except ConfigStop Config := do
  let config ← parseScriptOptions inetPton script (setDefaultConfig scriptPath)
  -- Command line options overwrite options in script
  let config ← parseCommandLineOptions inetPton commandLine config
  finalizeConfig inetPton inetNtop random config

end Program

end QoSMos.Configuration
