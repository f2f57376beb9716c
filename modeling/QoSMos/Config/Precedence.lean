import Mathlib.Data.List.TakeWhile
import QoSMos.Config.Program
import QoSMos.Lib.Settings

/-!
# Which option decides

Every option has a setting of its own, which the options of the script and those of the command
line update in this order. So the last option of a kind decides, and one of the command line over
all of the script.
-/

namespace QoSMos.Configuration

open Buckets Returns Settings

/-- What an option sets. -/
inductive Setting where
  | version (version : IpVersion)
  | number (n : Int)
  | text (text : String)
  | optional (text : Option String)
  | flag (isSet : Bool)
  | nonFatal (packet syscall : Bool)
  | address (text : Option String) (ip : Option IpAddress)
  | definitions (defs : List Definition)
  | nothing
  deriving DecidableEq, Repr

/-- The setting of an option. -/
def Config.get (config : Config) : OptionCode → Setting
  | .ipVersion => .version config.ipVersion
  | .bindPort => .number config.liveBindPort
  | .codeCommand => .text config.codeCommandLine
  | .codeFormat => .text config.codeFormat
  | .codeSockopt => .text config.codeSockopt
  | .connectPort => .number config.liveConnectPort
  | .remoteIp => .text config.liveRemoteIpString
  | .localIp => .text config.liveLocalIpString
  | .gatewayIp => .text config.liveGatewayIpString
  | .netmaskIp => .text config.liveNetmaskIpString
  | .speed => .number config.speed
  | .mss => .number config.mss
  | .mtu => .number config.mtu
  | .initScripts => .optional config.initScripts
  | .toleranceUsecs => .number config.toleranceUsecs
  | .wireClient => .flag config.isWireClient
  | .wireServer => .flag config.isWireServer
  | .wireServerIp => .address config.wireServerIpString config.wireServerIp
  | .wireServerPort => .number config.wireServerPort
  | .wireClientDev => .text config.wireClientDevice
  | .wireServerDev => .text config.wireServerDevice
  | .soFilename => .optional config.soFilename
  | .soFlags => .optional config.soFlags
  | .tcpTsEcrScaled => .flag config.tcpTsEcrScaled
  | .tcpTsTickUsecs => .number config.tcpTsTickUsecs
  | .strictSegments => .flag config.strictSegments
  | .nonFatal => .nonFatal config.nonFatalPacket config.nonFatalSyscall
  | .dryRun => .flag config.dryRun
  | .isAnyip => .flag config.isAnyip
  | .sendOmitFree => .flag config.sendOmitFree
  | .define => .definitions config.defines
  | .verbose => .flag config.verbose
  | .unknown => .nothing

section Program

variable (inetPton : InetPton)

/-- What an argument stands for, for an option that overwrites its setting. -/
def valueOf (code : OptionCode) (arg : String) : Setting :=
  match code with
  | .ipVersion =>
    .version (if arg = "ipv4" then .v4 else if arg = "ipv4-mapped-ipv6" then .v4Mapped6 else .v6)
  | .bindPort | .connectPort | .wireServerPort | .mss | .mtu | .toleranceUsecs | .tcpTsTickUsecs =>
    .number (Numeral.atoi arg.toList)
  | .speed => .number (Numeral.strtoul arg.toList).value
  | .codeCommand | .codeFormat | .codeSockopt | .wireClientDev | .wireServerDev => .text arg
  | .remoteIp | .localIp | .gatewayIp | .netmaskIp => .text (strncpyAddress arg)
  | .initScripts | .soFilename | .soFlags => .optional (some arg)
  | .wireServerIp => .address (some arg) (ipv4Parse inetPton arg).toOption
  | .wireClient | .wireServer | .tcpTsEcrScaled | .strictSegments | .dryRun | .isAnyip
  | .sendOmitFree | .verbose => .flag true
  | .nonFatal | .define | .unknown => .nothing

/-- The two sides of a definition. -/
def splitDefinition (arg : String) : Definition :=
  ⟨String.ofList (arg.toList.takeWhile isNotEquals),
    String.ofList ((arg.toList.dropWhile isNotEquals).drop 1)⟩

/-- What an option makes of its setting. -/
def update (code : OptionCode) (arg : String) (old : Setting) : Setting :=
  match code, old with
  | .nonFatal, .nonFatal packet syscall =>
    .nonFatal (packet || decide ("packet" ∈ tokens arg))
      (syscall || decide ("syscall" ∈ tokens arg))
  | .define, .definitions defs =>
    .definitions (definitionSet defs (splitDefinition arg).symbol (splitDefinition arg).value)
  | code, _ => valueOf inetPton code arg

end Program

section Laws

variable {inetPton : InetPton} {location arg scriptPath : String} {opt code : OptionCode}
  {config config' : Config} {defs : List Definition} {symbol value symbol' : String}

theorem orDie_eq_ok_iff {α : Type} {x : Except String α} {a : α} : orDie x = .ok a ↔ x = .ok a := by
  cases x <;> simp [orDie]

theorem parsePort_ok {name : String} {port : Int} (h : parsePort location name arg = .ok port) :
    port = Numeral.atoi arg.toList ∧ 1 ≤ port ∧ port ≤ 65535 := by
  unfold parsePort at h
  dsimp only at h
  split_ifs at h with hbad
  obtain rfl := Except.ok.inj h
  omega

theorem parseBounded_ok {name : String} {low high n : Int}
    (h : parseBounded location name arg low high = .ok n) :
    n = Numeral.atoi arg.toList ∧ low ≤ n ∧ n ≤ high := by
  unfold parseBounded at h
  dsimp only at h
  split_ifs at h with hbad
  obtain rfl := Except.ok.inj h
  omega

theorem parseSpeed_ok {n : Int} (h : parseSpeed location arg = .ok n) :
    n = (Numeral.strtoul arg.toList).value ∧ n ≤ 4294967295 := by
  unfold parseSpeed at h
  dsimp only at h
  split_ifs at h with hbad
  obtain rfl := Except.ok.inj h
  simp only [not_or, not_not] at hbad
  exact ⟨rfl, by omega⟩

theorem parseIpVersion_ok {version : IpVersion} (h : parseIpVersion location arg = .ok version) :
    .version version = valueOf inetPton .ipVersion arg := by
  unfold parseIpVersion at h
  unfold valueOf
  split_ifs at h with h4 hmapped h6 <;> obtain rfl := Except.ok.inj h
  · simp [h4]
  · simp [hmapped]
  · simp [h6]

theorem parseDefinition_ok {d : Definition} (h : parseDefinition location arg = .ok d) :
    d = splitDefinition arg ∧ d.symbol ≠ "" ∧ '=' ∉ d.symbol.toList := by
  unfold parseDefinition at h
  dsimp only at h
  cases hdrop : arg.toList.dropWhile isNotEquals with
  | nil => simp [hdrop] at h
  | cons c rest =>
    rw [hdrop] at h
    dsimp only at h
    split_ifs at h with hnil
    obtain rfl := Except.ok.inj h
    refine ⟨by simp [splitDefinition, hdrop], ?_, ?_⟩
    · intro hempty
      have := congrArg String.toList hempty
      rw [String.toList_ofList] at this
      exact hnil this
    · rw [String.toList_ofList]
      intro hmem
      simpa [isNotEquals] using List.mem_takeWhile_imp hmem

theorem parseNonFatalArg_eq (arg : String) (config : Config) :
    parseNonFatalArg arg config = { config with
      nonFatalPacket := config.nonFatalPacket || decide ("packet" ∈ tokens arg)
      nonFatalSyscall := config.nonFatalSyscall || decide ("syscall" ∈ tokens arg) } := by
  unfold parseNonFatalArg
  induction tokens arg generalizing config with
  | nil => simp
  | cons token rest ih =>
    rw [List.foldl_cons, ih]
    split_ifs with hpacket hsyscall
    · simp [hpacket]
    · simp [hsyscall]
    · simp [Ne.symm hpacket, Ne.symm hsyscall]

/-- A step: an option updates its own setting. -/
theorem processOption_get (h : processOption inetPton location opt arg config = .ok config')
    (code : OptionCode) : config'.get code =
      if opt = code then update inetPton code arg (config.get code) else config.get code := by
  cases opt <;> simp only [processOption] at h
  case ipVersion =>
    obtain ⟨version, hversion, h⟩ := bind_eq_ok_iff.mp h
    obtain rfl := pure_eq_ok_iff.mp h
    have hvalue : .version version = valueOf inetPton .ipVersion arg := parseIpVersion_ok hversion
    cases code <;> first | rfl | exact hvalue
  case bindPort | connectPort | wireServerPort =>
    obtain ⟨port, hport, h⟩ := bind_eq_ok_iff.mp h
    obtain rfl := pure_eq_ok_iff.mp h
    obtain ⟨rfl, -⟩ := parsePort_ok hport
    cases code <;> rfl
  case mss | mtu | toleranceUsecs | tcpTsTickUsecs =>
    obtain ⟨n, hn, h⟩ := bind_eq_ok_iff.mp h
    obtain rfl := pure_eq_ok_iff.mp h
    obtain ⟨rfl, -⟩ := parseBounded_ok hn
    cases code <;> rfl
  case speed =>
    obtain ⟨n, hn, h⟩ := bind_eq_ok_iff.mp h
    obtain rfl := pure_eq_ok_iff.mp h
    obtain ⟨rfl, -⟩ := parseSpeed_ok hn
    cases code <;> rfl
  case wireServerIp =>
    obtain ⟨ip, hip, h⟩ := bind_eq_ok_iff.mp h
    obtain rfl := pure_eq_ok_iff.mp h
    have hparse := orDie_eq_ok_iff.mp hip
    cases code <;> first | rfl | simp [Config.get, update, valueOf, hparse, Except.toOption]
  case define =>
    obtain ⟨d, hd, h⟩ := bind_eq_ok_iff.mp h
    obtain rfl := pure_eq_ok_iff.mp h
    obtain ⟨rfl, -⟩ := parseDefinition_ok hd
    cases code <;> rfl
  case nonFatal =>
    obtain rfl := Except.ok.inj h
    rw [parseNonFatalArg_eq]
    cases code <;> rfl
  case unknown => cases h
  all_goals
    obtain rfl := Except.ok.inj h
    cases code <;> rfl

theorem definitionGet_definitionSet : definitionGet (definitionSet defs symbol value) symbol' =
    if symbol = symbol' then some value else definitionGet defs symbol' := by
  have hkey (d : Definition) : Definition.symbol { d with value } = d.symbol := rfl
  unfold definitionSet
  cases hmod : modifyKey Definition.symbol symbol (fun d => { d with value }) defs with
  | some defs' =>
    rw [definitionGet, definitionGet, findKey_modifyKey hkey hmod]
    by_cases hsymbol : symbol = symbol'
    · obtain ⟨d, hd⟩ : ∃ d, findKey Definition.symbol symbol' defs = some d := by
        rw [← Option.ne_none_iff_exists', ← hsymbol, Ne, ← modifyKey_eq_none_iff, hmod]
        simp
      simp [hsymbol, hd]
    · simp [hsymbol]
  | none =>
    rw [definitionGet, definitionGet, findKey_cons]
    by_cases hsymbol : symbol = symbol' <;> simp [hsymbol]

/-- The definitions that options have made. -/
theorem definitionGet_foldl (inetPton : InetPton) (defs : List Definition) (args : List String) :
    ∃ final, args.foldl (fun v a => update inetPton .define a v) (.definitions defs) =
        .definitions final ∧
      ∀ symbol, definitionGet final symbol =
        (lastSet (args.map fun a => ((splitDefinition a).symbol, (splitDefinition a).value))
          symbol).or (definitionGet defs symbol) := by
  induction args using List.reverseRecOn with
  | nil => exact ⟨defs, rfl, fun symbol => by simp [lastSet]⟩
  | append_singleton args arg ih =>
    obtain ⟨final, hfinal, hget⟩ := ih
    refine ⟨definitionSet final (splitDefinition arg).symbol (splitDefinition arg).value, ?_, ?_⟩
    · rw [List.foldl_append, hfinal]
      rfl
    · intro symbol
      rw [List.map_append, List.map_singleton, lastSet_concat, definitionGet_definitionSet, hget]
      split_ifs <;> simp

theorem nonFatal_foldl (args : List String) (packet syscall : Bool) :
    args.foldl (fun v a => update inetPton .nonFatal a v) (.nonFatal packet syscall) =
      .nonFatal (packet || args.any fun a => decide ("packet" ∈ tokens a))
        (syscall || args.any fun a => decide ("syscall" ∈ tokens a)) := by
  induction args generalizing packet syscall with
  | nil => simp
  | cons arg args ih =>
    rw [List.foldl_cons, update, ih]
    simp [Bool.or_assoc]

/-- The options of a script, and their arguments, in view of the table. -/
def Named (scriptPath : String) (script : List ScriptOption) (given : List (OptionCode × String)) :
    Prop :=
  List.Forall₂ (fun opt option => findOption scriptPath opt = .ok option) script given

theorem scriptPath_processOption
    (h : processOption inetPton location opt arg config = .ok config') :
    config'.scriptPath = config.scriptPath := by
  cases opt <;> simp only [processOption] at h
  case nonFatal =>
    obtain rfl := Except.ok.inj h
    rw [parseNonFatalArg_eq]
  case unknown => cases h
  all_goals first
    | obtain rfl := Except.ok.inj h; rfl
    | obtain ⟨x, -, h⟩ := bind_eq_ok_iff.mp h; obtain rfl := pure_eq_ok_iff.mp h; rfl

/-- Options of the script are processed as those of the command line are. -/
theorem parseScriptOptions_ok {script : List ScriptOption}
    (h : parseScriptOptions inetPton script config = .ok config') :
    ∃ given, Named config.scriptPath script given ∧
      given.foldlM (fun c (option : OptionCode × String) =>
        processOption inetPton config.scriptPath option.1 option.2 c) config = .ok config' := by
  induction script generalizing config with
  | nil => exact ⟨[], .nil, h⟩
  | cons opt script ih =>
    unfold parseScriptOptions at h
    rw [List.foldlM_cons] at h
    obtain ⟨next, hnext, h⟩ := bind_eq_ok_iff.mp h
    obtain ⟨⟨code, arg⟩, hfind, hprocess⟩ := bind_eq_ok_iff.mp hnext
    have hpath := scriptPath_processOption hprocess
    obtain ⟨given, hnamed, hfold⟩ := ih h
    rw [hpath] at hnamed hfold
    refine ⟨(code, arg) :: given, .cons hfind hnamed, ?_⟩
    rw [List.foldlM_cons, bind_of_ok hprocess]
    exact hfold

theorem processOption_independent (location : String) :
    Independent (fun c (option : OptionCode × String) =>
      processOption inetPton location option.1 option.2 c) Config.get (update inetPton) :=
  fun _ _ _ h code => processOption_get h code

end Laws

end QoSMos.Configuration
