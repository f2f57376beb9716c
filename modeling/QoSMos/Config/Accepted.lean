import QoSMos.Config.Finalize
import QoSMos.Outbound.VerifyOptions

/-!
# The configuration that is accepted

What holds of the configuration of a test whenever `parse_and_finalize_config` returns: its settings
are those of the last options, its numbers lie within the bounds that are checked, and its addresses
are parsed from their texts.
-/

namespace QoSMos.Configuration

open Buckets Returns Settings

/-- The numbers that an option lets pass; zero stands for a maximum segment size that is not set. -/
def OptionCode.range : OptionCode → Option (Int × Int)
  | .bindPort | .connectPort | .wireServerPort => some (1, 65535)
  | .mss | .mtu => some (0, INT_MAX)
  | .toleranceUsecs => some (1, INT_MAX)
  | .tcpTsTickUsecs => some (0, 1000000)
  | .speed => some (0, 4294967295)
  | _ => none

/-- The settings that are numbers lie within their bounds. -/
def InRange (config : Config) : Prop :=
  ∀ code low high, code.range = some (low, high) →
    ∃ n, config.get code = .number n ∧ low ≤ n ∧ n ≤ high

/-- A symbol is defined once, and is a text in front of a `=`. -/
structure WellDefined (defs : List Definition) : Prop where
  distinct : (defs.map Definition.symbol).Nodup
  symbol : ∀ d ∈ defs, d.symbol ≠ "" ∧ '=' ∉ d.symbol.toList

/-- The setting that the last option of a kind decides, or the default. -/
def chosen (inetPton : InetPton) (scriptPath : String) (given : List (OptionCode × String))
    (code : OptionCode) : Setting :=
  ((argsOf code given).getLast?.map (valueOf inetPton code)).getD
    ((setDefaultConfig scriptPath).get code)

section Accepted

variable {inetPton : InetPton} {inetNtop : IpAddress → String} {random : List UInt8}
  {scriptPath location arg symbol value : String} {script : List ScriptOption}
  {given commandLine : List (OptionCode × String)} {opt code : OptionCode}
  {config config' final : Config} {defs : List Definition} {low high : Int}

/-! ## Bounds -/

theorem processOption_range (h : processOption inetPton location opt arg config = .ok config')
    (hrange : opt.range = some (low, high)) :
    ∃ n, config'.get opt = .number n ∧ low ≤ n ∧ n ≤ high := by
  cases opt <;>
    simp only [OptionCode.range, Option.some.injEq, Prod.mk.injEq, reduceCtorEq] at hrange
  all_goals
    obtain ⟨rfl, rfl⟩ := hrange
    obtain ⟨n, hn, h⟩ := bind_eq_ok_iff.mp h
    obtain rfl := pure_eq_ok_iff.mp h
    refine ⟨n, rfl, ?_⟩
  case bindPort | connectPort | wireServerPort => exact (parsePort_ok hn).2
  case speed =>
    obtain ⟨rfl, hle⟩ := parseSpeed_ok hn
    exact ⟨Int.natCast_nonneg _, hle⟩
  case mss =>
    obtain ⟨-, hlow, hhigh⟩ := parseBounded_ok hn
    exact ⟨by omega, hhigh⟩
  all_goals exact (parseBounded_ok hn).2

/-- An option that is accepted keeps its number within the bounds, and leaves the others alone. -/
theorem InRange.processOption (hrange : InRange config)
    (h : processOption inetPton location opt arg config = .ok config') : InRange config' := by
  intro code low high hcode
  by_cases hopt : opt = code
  · subst hopt
    exact processOption_range h hcode
  · rw [processOption_get h code, if_neg hopt]
    exact hrange code low high hcode

theorem WellDefined.definitionSet (hdefs : WellDefined defs) (hsymbol : symbol ≠ "")
    (hequals : '=' ∉ symbol.toList) : WellDefined (definitionSet defs symbol value) := by
  have hkey (d : Definition) : Definition.symbol { d with value } = d.symbol := rfl
  unfold Configuration.definitionSet
  cases hmod : modifyKey Definition.symbol symbol (fun d => { d with value }) defs with
  | some defs' =>
    have hsymbols := map_key_modifyKey hkey hmod
    refine ⟨hsymbols ▸ hdefs.distinct, fun d hd => ?_⟩
    have hmem : d.symbol ∈ defs.map Definition.symbol := hsymbols ▸ List.mem_map_of_mem hd
    obtain ⟨old, hold, hsame⟩ := List.mem_map.mp hmem
    exact hsame ▸ hdefs.symbol old hold
  | none =>
    have hnone := modifyKey_eq_none_iff.mp hmod
    refine ⟨List.nodup_cons.mpr ⟨?_, hdefs.distinct⟩, ?_⟩
    · rintro hmem
      obtain ⟨d, hd, hsame⟩ := List.mem_map.mp hmem
      simpa [hsame] using List.find?_eq_none.mp hnone d hd
    · rintro d (_ | ⟨_, hd⟩)
      · exact ⟨hsymbol, hequals⟩
      · exact hdefs.symbol d hd

theorem WellDefined.processOption (hdefs : WellDefined config.defines)
    (h : processOption inetPton location opt arg config = .ok config') :
    WellDefined config'.defines := by
  have hget := processOption_get h .define
  by_cases hopt : opt = .define
  · subst hopt
    obtain ⟨d, hd, h⟩ := bind_eq_ok_iff.mp h
    obtain rfl := pure_eq_ok_iff.mp h
    obtain ⟨-, hsymbol, hequals⟩ := parseDefinition_ok hd
    exact hdefs.definitionSet hsymbol hequals
  · rw [if_neg hopt] at hget
    rw [Setting.definitions.inj hget]
    exact hdefs

/-! ## The run -/

/-- The options of the script and then those of the command line make this of the defaults. -/
def Processed (inetPton : InetPton) (scriptPath : String)
    (given commandLine : List (OptionCode × String)) (config : Config) : Prop :=
  ∃ middle, given.foldlM (fun c (option : OptionCode × String) =>
      processOption inetPton scriptPath option.1 option.2 c) (setDefaultConfig scriptPath) =
        .ok middle ∧
    commandLine.foldlM (fun c (option : OptionCode × String) =>
      processOption inetPton "Command Line" option.1 option.2 c) middle = .ok config

/-- What is processed is the options of the script and then those of the command line. -/
theorem parseAndFinalizeConfig_ok
    (h : parseAndFinalizeConfig inetPton inetNtop random scriptPath script commandLine =
      .ok final) :
    ∃ given config, Named scriptPath script given ∧
      Processed inetPton scriptPath given commandLine config ∧
      finalizeConfig inetPton inetNtop random config = .ok final := by
  obtain ⟨middle, hscript, h⟩ := bind_eq_ok_iff.mp h
  obtain ⟨config, hcommand, hfinal⟩ := bind_eq_ok_iff.mp h
  obtain ⟨given, hnamed, hfold⟩ := parseScriptOptions_ok hscript
  exact ⟨given, config, hnamed, ⟨middle, hfold, hcommand⟩, hfinal⟩

/-- The setting of an option after those of the script and those of the command line. -/
theorem Processed.get (h : Processed inetPton scriptPath given commandLine config)
    (code : OptionCode) : config.get code =
      (argsOf code (given ++ commandLine)).foldl (fun v a => update inetPton code a v)
        ((setDefaultConfig scriptPath).get code) := by
  obtain ⟨middle, hscript, hcommand⟩ := h
  rw [(processOption_independent _).foldlM hcommand code,
    (processOption_independent _).foldlM hscript code, argsOf_append, List.foldl_append]

theorem update_of_isPlain (hplain : code.isPlain) (arg : String) (old : Setting) :
    update inetPton code arg old = valueOf inetPton code arg := by
  cases code <;> first | rfl | cases hplain

/-- The last option decides where its argument overwrites the setting. -/
theorem Processed.chosen (h : Processed inetPton scriptPath given commandLine config)
    (hvalue : ∀ arg old, update inetPton code arg old = valueOf inetPton code arg) :
    config.get code = Configuration.chosen inetPton scriptPath (given ++ commandLine) code := by
  rw [h.get code, foldl_overwrite hvalue]
  rfl

end Accepted

/-! ## The results -/

def testAddress (a b c d : UInt8) : Vector UInt8 4 := #v[a, b, c, d]

/-- `inet_pton`, as far as the tests below need it. -/
def testNet : InetPton where
  inet text :=
    if text = "198.51.100.1" then some (testAddress 198 51 100 1)
    else if text = "192.0.2.1" then some (testAddress 192 0 2 1)
    else if text = "192.168.0.0" then some (testAddress 192 168 0 0)
    else if text = "192.168.0.1" then some (testAddress 192 168 0 1)
    else if text = "192.168.0.2" then some (testAddress 192 168 0 2)
    else if text = "192.168.3.4" then some (testAddress 192 168 3 4)
    else if text = "255.255.0.0" then some (testAddress 255 255 0 0)
    else none
  inet6 text :=
    if text = "fd3d:fa7b:d17d::0" then
      some ((Vector.replicate 16 0).set 0 0xfd |>.set 1 0x3d |>.set 2 0xfa |>.set 3 0x7b
        |>.set 4 0xd1 |>.set 5 0x7d)
    else none

/-- A script with two options, one of which the command line overwrites. -/
def testOptions : Except ConfigStop Config :=
  parseAndFinalizeConfig testNet plainInetNtop [] "test.pkt"
    [⟨"ip_version", some "ipv4-mapped-ipv6"⟩, ⟨"bind_port", some "80"⟩]
    [(.bindPort, "8081"), (.localIp, "192.168.0.2"), (.remoteIp, "198.51.100.1/24"),
      (.nonFatal, "packet, syscall"), (.define, "A=1")]

theorem testOptions_ok : ∃ config, testOptions = .ok config :=
  exists_of_isOk (by decide +kernel)

theorem named_test {given : List (OptionCode × String)}
    (h : Named "test.pkt"
      [⟨"ip_version", some "ipv4-mapped-ipv6"⟩, ⟨"bind_port", some "80"⟩] given) :
    given = [(.ipVersion, "ipv4-mapped-ipv6"), (.bindPort, "80")] := by
  cases h with
  | cons hversion h =>
    cases h with
    | cons hport h =>
      cases h
      rw [← Except.ok.inj hversion, ← Except.ok.inj hport]
      rfl

/-- The last option of a kind decides, where those of the command line come after those of the
script; what must not be fatal adds up, and a symbol has the value of its last definition. -/
theorem parseAndFinalizeConfig_chosen {inetPton : InetPton} {inetNtop : IpAddress → String}
    {random : List UInt8} {scriptPath : String} {script : List ScriptOption}
    {commandLine : List (OptionCode × String)} {config : Config}
    (h : parseAndFinalizeConfig inetPton inetNtop random scriptPath script commandLine =
      .ok config) :
    ∃ given, Named scriptPath script given ∧
      (∀ code, code.isPlain →
        config.get code = chosen inetPton scriptPath (given ++ commandLine) code) ∧
      config.nonFatalPacket =
        (argsOf .nonFatal (given ++ commandLine)).any (fun a => decide ("packet" ∈ tokens a)) ∧
      config.nonFatalSyscall =
        (argsOf .nonFatal (given ++ commandLine)).any (fun a => decide ("syscall" ∈ tokens a)) ∧
      ∀ symbol, definitionGet config.defines symbol =
        lastSet ((argsOf .define (given ++ commandLine)).map fun a =>
          ((splitDefinition a).symbol, (splitDefinition a).value)) symbol := by
  obtain ⟨given, parsed, hnamed, hprocessed, hfinal⟩ := parseAndFinalizeConfig_ok h
  obtain ⟨-, hsame⟩ := finalizeConfig_ok hfinal
  have hnonFatal := hprocessed.get .nonFatal
  have hdefine := hprocessed.get .define
  simp only [Config.get, setDefaultConfig, nonFatal_foldl, Bool.false_or, Setting.nonFatal.injEq]
    at hnonFatal
  obtain ⟨defs, hdefs, hget⟩ := definitionGet_foldl inetPton []
    (argsOf .define (given ++ commandLine))
  refine ⟨given, hnamed, fun code hplain => ?_, ?_, ?_, fun symbol => ?_⟩
  · rw [hsame.get code hplain]
    exact hprocessed.chosen (update_of_isPlain hplain)
  · exact hsame.nonFatalPacket.trans hnonFatal.1
  · exact hsame.nonFatalSyscall.trans hnonFatal.2
  · have hparsed : parsed.defines = defs := Setting.definitions.inj (hdefine.trans hdefs)
    rw [hsame.defines, hparsed, hget symbol]
    simp [definitionGet, findKey]

theorem parseAndFinalizeConfig_chosen_test : ∃ config, testOptions = .ok config ∧
    config.get .bindPort = .number 8081 ∧ config.nonFatalSyscall = true ∧
    definitionGet config.defines "A" = some "1" := by
  obtain ⟨config, hconfig⟩ := testOptions_ok
  obtain ⟨given, hnamed, hget, -, hsyscall, hdefine⟩ := parseAndFinalizeConfig_chosen hconfig
  obtain rfl := named_test hnamed
  exact ⟨config, hconfig, (hget .bindPort rfl).trans (by decide +kernel),
    hsyscall.trans (by decide +kernel), (hdefine "A").trans (by decide +kernel)⟩

/-- The addresses are parsed from the texts of the last options, or from those of the defaults; the
local one is drawn if no option gives it. -/
theorem parseAndFinalizeConfig_addresses {inetPton : InetPton} {inetNtop : IpAddress → String}
    {random : List UInt8} {scriptPath : String} {script : List ScriptOption}
    {commandLine : List (OptionCode × String)} {config : Config}
    (h : parseAndFinalizeConfig inetPton inetNtop random scriptPath script commandLine =
      .ok config) :
    ∃ given strings, Named scriptPath script given ∧
      chosen inetPton scriptPath (given ++ commandLine) .remoteIp =
        .text strings.liveRemoteIpString ∧
      chosen inetPton scriptPath (given ++ commandLine) .netmaskIp =
        .text strings.liveNetmaskIpString ∧
      chosen inetPton scriptPath (given ++ commandLine) .localIp =
        .text strings.liveLocalIpString ∧
      chosen inetPton scriptPath (given ++ commandLine) .gatewayIp =
        .text strings.liveGatewayIpString ∧
      Addresses inetPton inetNtop random strings config := by
  obtain ⟨given, parsed, hnamed, hprocessed, hfinal⟩ := parseAndFinalizeConfig_ok h
  exact ⟨given, parsed.toLiveStrings, hnamed,
    (hprocessed.chosen fun _ _ => rfl).symm,
    (hprocessed.chosen fun _ _ => rfl).symm,
    (hprocessed.chosen fun _ _ => rfl).symm,
    (hprocessed.chosen fun _ _ => rfl).symm, (finalizeConfig_ok hfinal).1⟩

/-- No options at all. -/
def testDrawn : Except ConfigStop Config :=
  parseAndFinalizeConfig testNet plainInetNtop [4, 3, 2, 1] "test.pkt" [] []

theorem testDrawn_ok : ∃ config, testDrawn = .ok config :=
  exists_of_isOk (by decide +kernel)

theorem testNet_parsesDefaults : ParsesDefaults testNet :=
  ⟨by decide +kernel, by decide +kernel, _, rfl, rfl⟩

theorem parseAndFinalizeConfig_addresses_test : ∃ config drawn, testOptions = .ok config ∧
    testDrawn = .ok drawn ∧
    config.liveBindIp = config.liveLocalIp.map config.ipVersion.toSocket ∧
    ∃ addr, drawn.liveLocalIpString = plainInetNtop addr ∧
      drawn.ipVersion.IsDefaultHost addr := by
  obtain ⟨config, hconfig⟩ := testOptions_ok
  obtain ⟨drawn, hdrawn⟩ := testDrawn_ok
  obtain ⟨given, strings, -, -, -, -, -, haddresses⟩ :=
    parseAndFinalizeConfig_addresses hconfig
  obtain ⟨none, strings', hnamed, -, hnetmask, hlocal, -, haddresses'⟩ :=
    parseAndFinalizeConfig_addresses hdrawn
  cases hnamed
  obtain ⟨addr, -, htext, hhost⟩ := haddresses'.localDrawn (Setting.text.inj hlocal).symm
  exact ⟨config, drawn, hconfig, hdrawn, haddresses.bindIp, addr, htext,
    hhost testNet_parsesDefaults (by decide) (Setting.text.inj hnetmask).symm⟩

end QoSMos.Configuration
