import QoSMos.Config.Precedence
import QoSMos.Outbound.VerifyOptions

/-!
# The configuration that is accepted

What `parse_and_finalize_config` leaves of the options, the bounds of the numbers that it lets pass,
and the addresses that `finalize_config` calculates for the three flavors of IP.
-/

namespace QoSMos.Configuration

open Buckets Returns Settings

/-- The family of the addresses on the wire. -/
def IpVersion.wireFamily : IpVersion → AddressFamily
  | .v4 | .v4Mapped6 => .inet
  | .v6 => .inet6

/-- The family of the sockets. -/
def IpVersion.socketFamily : IpVersion → AddressFamily
  | .v4 => .inet
  | .v4Mapped6 | .v6 => .inet6

/-- The address that a socket uses for one on the wire. -/
def IpVersion.toSocket : IpVersion → IpAddress → IpAddress
  | .v4Mapped6, ip => Syscall.ipv6MapFromIpv4 ip
  | _, ip => ip

/-- The defaults of the remote address and of the gateway. -/
def IpVersion.defaultRemote : IpVersion → String
  | .v4 | .v4Mapped6 => DEFAULT_V4_LIVE_REMOTE_IP_STRING
  | .v6 => DEFAULT_V6_LIVE_REMOTE_IP_STRING

def IpVersion.defaultGateway : IpVersion → String
  | .v4 | .v4Mapped6 => DEFAULT_V4_LIVE_GATEWAY_IP_STRING
  | .v6 => DEFAULT_V6_LIVE_GATEWAY_IP_STRING

/-- The length of the local prefix; the netmask matters for IPv4 on the wire only. -/
def IpVersion.prefixLen (inetPton : InetPton) (netmask : String) : IpVersion → Except String Nat
  | .v4 | .v4Mapped6 =>
    netmaskToPrefix inetPton (orDefault netmask DEFAULT_V4_LIVE_NETMASK_IP_STRING)
  | .v6 => .ok DEFAULT_V6_LIVE_PREFIX_LEN

/-- The address that is drawn where no option gives the local one. -/
def IpVersion.drawLocal (inetPton : InetPton) (random : List UInt8) (netmask : String) :
    IpVersion → Except String IpAddress
  | .v4 | .v4Mapped6 =>
    generateRandomIpv4Addr inetPton random DEFAULT_V4_LIVE_LOCAL_IP_STRING
      (orDefault netmask DEFAULT_V4_LIVE_NETMASK_IP_STRING)
  | .v6 =>
    generateRandomIpv6Addr inetPton random DEFAULT_V6_LIVE_LOCAL_IP_STRING
      DEFAULT_V6_LIVE_PREFIX_LEN

/-- The address is a host of the default network, 192.168.0.0/16 or fd3d:fa7b:d17d::/48. -/
def IpVersion.IsDefaultHost (addr : IpAddress) : IpVersion → Prop
  | .v4 | .v4Mapped6 => IsHost 16 0xc0a80000 addr.number
  | .v6 => IsIpv6Host 48 ⟨.inet6, DEFAULT_V6_NETWORK⟩ addr

/-- An option that overwrites its setting, which is left alone at the end. -/
def OptionCode.isPlain : OptionCode → Bool
  | .nonFatal | .define | .unknown | .remoteIp | .localIp | .gatewayIp | .netmaskIp => false
  | _ => true

/-- The addresses of a configuration, which are parsed from the texts that options give or from the
defaults. Without a text the local address is drawn, from the default network unless a netmask is
given. -/
structure Parsed (inetPton : InetPton) (inetNtop : IpAddress → String) (random : List UInt8)
    (version : IpVersion) (given : LiveStrings) (config : Config) : Prop where
  localIp : ∃ ip, addressParse inetPton version.wireFamily config.liveLocalIpString = .ok ip ∧
    config.liveLocalIp = some ip
  localString : given.liveLocalIpString ≠ "" → config.liveLocalIpString = given.liveLocalIpString
  localDrawn : given.liveLocalIpString = "" → ∃ addr,
    version.drawLocal inetPton random given.liveNetmaskIpString = .ok addr ∧
      config.liveLocalIpString = inetNtop addr ∧
      (ParsesDefaults inetPton → 4 ≤ random.length → given.liveNetmaskIpString = "" →
        version.IsDefaultHost addr)
  gatewayIp : ∃ ip, addressParse inetPton version.wireFamily
      (orDefault given.liveGatewayIpString version.defaultGateway) = .ok ip ∧
    config.liveGatewayIp = some ip
  prefixLen : ∃ n, version.prefixLen inetPton given.liveNetmaskIpString = .ok n ∧
    config.livePrefixLen = n
  remoteIp : ∃ p normalized, prefixParse inetPton version.wireFamily
      (orDefault given.liveRemoteIpString version.defaultRemote) = .ok p ∧
    config.liveRemoteIp = some p.ip ∧ config.liveRemoteIpString = inetNtop p.ip ∧
    config.liveRemotePrefix = some normalized ∧ Normalized p normalized ∧
    ipPrefixToString inetNtop normalized = .ok config.liveRemotePrefixString

/-- The addresses of a configuration that is final, with those of the sockets. -/
structure Addresses (inetPton : InetPton) (inetNtop : IpAddress → String) (random : List UInt8)
    (given : LiveStrings) (config : Config) : Prop
    extends Parsed inetPton inetNtop random config.ipVersion given config where
  wireProtocol : config.wireProtocol = some config.ipVersion.wireFamily
  socketDomain : config.socketDomain = some config.ipVersion.socketFamily
  bindIp : config.liveBindIp = config.liveLocalIp.map config.ipVersion.toSocket
  connectIp : config.liveConnectIp = config.liveRemoteIp.map config.ipVersion.toSocket

/-- The settings that nothing changes at the end. -/
structure SameSettings (config final : Config) : Prop where
  get : ∀ code, code.isPlain → final.get code = config.get code
  nonFatalPacket : final.nonFatalPacket = config.nonFatalPacket
  nonFatalSyscall : final.nonFatalSyscall = config.nonFatalSyscall
  defines : final.defines = config.defines

section Finalize

variable {inetPton : InetPton} {inetNtop : IpAddress → String} {random : List UInt8}
  {config final : Config} {p : IpPrefix} {code : OptionCode}

theorem setRemoteIpAndPrefix_ok (hp : p.Valid)
    (h : setRemoteIpAndPrefix inetNtop config p = .ok final) :
    ∃ (normalized : IpPrefix) (prefixString : String), Normalized p normalized ∧
      ipPrefixToString inetNtop normalized = .ok prefixString ∧
      final = { config with
        liveRemoteIp := some p.ip
        liveRemoteIpString := inetNtop p.ip
        liveRemotePrefix := some normalized
        liveRemotePrefixString := prefixString } := by
  obtain ⟨normalized, hresult, hnormalized, -⟩ := ipPrefixNormalize_spec hp
  unfold setRemoteIpAndPrefix at h
  rw [hresult] at h
  obtain ⟨prefixString, hprint, hpure⟩ := bind_eq_ok_iff.mp ((bind_of_ok rfl).symm.trans h)
  exact ⟨normalized, prefixString, hnormalized, orDie_eq_ok_iff.mp hprint,
    (pure_eq_ok_iff.mp hpure).symm⟩

/-- The strings that no option gives. -/
theorem setIpv4Defaults_ok {strings strings' : LiveStrings}
    (h : setIpv4Defaults inetPton inetNtop random strings = .ok strings') :
    strings'.liveRemoteIpString =
        orDefault strings.liveRemoteIpString DEFAULT_V4_LIVE_REMOTE_IP_STRING ∧
      strings'.liveGatewayIpString =
        orDefault strings.liveGatewayIpString DEFAULT_V4_LIVE_GATEWAY_IP_STRING ∧
      strings'.liveNetmaskIpString =
        orDefault strings.liveNetmaskIpString DEFAULT_V4_LIVE_NETMASK_IP_STRING ∧
      (strings.liveLocalIpString ≠ "" →
        strings'.liveLocalIpString = strings.liveLocalIpString) := by
  unfold setIpv4Defaults at h
  by_cases hgiven : strings.liveLocalIpString = ""
  · simp only [if_pos hgiven] at h
    obtain ⟨localIp, -, h⟩ := bind_eq_ok_iff.mp h
    obtain rfl := pure_eq_ok_iff.mp h
    exact ⟨rfl, rfl, rfl, fun hne => absurd hgiven hne⟩
  · simp only [if_neg hgiven] at h
    obtain ⟨localIp, hlocal, h⟩ := bind_eq_ok_iff.mp h
    obtain rfl := pure_eq_ok_iff.mp h
    exact ⟨rfl, rfl, rfl, fun _ => (pure_eq_ok_iff.mp hlocal).symm⟩

theorem setIpv6Defaults_ok {strings strings' : LiveStrings}
    (h : setIpv6Defaults inetPton inetNtop random strings = .ok strings') :
    strings'.liveRemoteIpString =
        orDefault strings.liveRemoteIpString DEFAULT_V6_LIVE_REMOTE_IP_STRING ∧
      strings'.liveGatewayIpString =
        orDefault strings.liveGatewayIpString DEFAULT_V6_LIVE_GATEWAY_IP_STRING ∧
      (strings.liveLocalIpString ≠ "" →
        strings'.liveLocalIpString = strings.liveLocalIpString) := by
  unfold setIpv6Defaults at h
  by_cases hgiven : strings.liveLocalIpString = ""
  · simp only [if_pos hgiven] at h
    obtain ⟨localIp, -, h⟩ := bind_eq_ok_iff.mp h
    obtain rfl := pure_eq_ok_iff.mp h
    exact ⟨rfl, rfl, fun hne => absurd hgiven hne⟩
  · simp only [if_neg hgiven] at h
    obtain ⟨localIp, hlocal, h⟩ := bind_eq_ok_iff.mp h
    obtain rfl := pure_eq_ok_iff.mp h
    exact ⟨rfl, rfl, fun _ => (pure_eq_ok_iff.mp hlocal).symm⟩

theorem finalizeIpv4_ok (h : finalizeIpv4 inetPton inetNtop random config = .ok final) :
    Parsed inetPton inetNtop random .v4 config.toLiveStrings final ∧
      SameSettings config final := by
  unfold finalizeIpv4 at h
  obtain ⟨strings, hstrings, h⟩ := bind_eq_ok_iff.mp h
  obtain ⟨localIp, hlocal, h⟩ := bind_eq_ok_iff.mp h
  obtain ⟨p, hp, h⟩ := bind_eq_ok_iff.mp h
  obtain ⟨remote, hremoteIp, h⟩ := bind_eq_ok_iff.mp h
  obtain ⟨prefixLen, hprefixLen, h⟩ := bind_eq_ok_iff.mp h
  obtain ⟨gatewayIp, hgatewayIp, h⟩ := bind_eq_ok_iff.mp h
  obtain ⟨hremote, hgateway, hnetmask, hgiven⟩ := setIpv4Defaults_ok (orDie_eq_ok_iff.mp hstrings)
  have hdrawn := setIpv4Defaults_local (orDie_eq_ok_iff.mp hstrings)
  have hparse := orDie_eq_ok_iff.mp hp
  have hvalid : p.Valid := (prefixParse_valid (show prefixParse inetPton .inet _ = _ from hparse)).1
  obtain ⟨normalized, prefixString, hnormalized, hprint, rfl⟩ :=
    setRemoteIpAndPrefix_ok hvalid hremoteIp
  obtain rfl := pure_eq_ok_iff.mp h
  rw [hremote] at hparse
  rw [hgateway] at hgatewayIp
  rw [hnetmask] at hprefixLen
  refine ⟨⟨⟨localIp, orDie_eq_ok_iff.mp hlocal, rfl⟩, hgiven,
    hdrawn,
    ⟨gatewayIp, orDie_eq_ok_iff.mp hgatewayIp, rfl⟩,
    ⟨prefixLen, orDie_eq_ok_iff.mp hprefixLen, rfl⟩,
    ⟨p, normalized, hparse, rfl, rfl, rfl, hnormalized, hprint⟩⟩, ⟨?_, rfl, rfl, rfl⟩⟩
  intro code hplain
  cases code <;> first | rfl | cases hplain

theorem finalizeIpv6Config_ok (h : finalizeIpv6Config inetPton inetNtop random config = .ok final) :
    Parsed inetPton inetNtop random .v6 config.toLiveStrings final ∧ SameSettings config final ∧
      final.socketDomain = some .inet6 ∧ final.wireProtocol = some .inet6 ∧
      final.liveBindIp = final.liveLocalIp ∧ final.liveConnectIp = final.liveRemoteIp := by
  unfold finalizeIpv6Config at h
  obtain ⟨strings, hstrings, h⟩ := bind_eq_ok_iff.mp h
  obtain ⟨localIp, hlocal, h⟩ := bind_eq_ok_iff.mp h
  obtain ⟨p, hp, h⟩ := bind_eq_ok_iff.mp h
  obtain ⟨remote, hremoteIp, h⟩ := bind_eq_ok_iff.mp h
  obtain ⟨gatewayIp, hgatewayIp, h⟩ := bind_eq_ok_iff.mp h
  obtain ⟨hremote, hgateway, hgiven⟩ := setIpv6Defaults_ok (orDie_eq_ok_iff.mp hstrings)
  have hdrawn := setIpv6Defaults_local (orDie_eq_ok_iff.mp hstrings)
  have hparse := orDie_eq_ok_iff.mp hp
  have hvalid : p.Valid :=
    (prefixParse_valid (show prefixParse inetPton .inet6 _ = _ from hparse)).1
  obtain ⟨normalized, prefixString, hnormalized, hprint, rfl⟩ :=
    setRemoteIpAndPrefix_ok hvalid hremoteIp
  obtain rfl := pure_eq_ok_iff.mp h
  rw [hremote] at hparse
  rw [hgateway] at hgatewayIp
  refine ⟨⟨⟨localIp, orDie_eq_ok_iff.mp hlocal, rfl⟩, hgiven, ?_,
    ⟨gatewayIp, orDie_eq_ok_iff.mp hgatewayIp, rfl⟩, ⟨_, rfl, rfl⟩,
    ⟨p, normalized, hparse, rfl, rfl, rfl, hnormalized, hprint⟩⟩, ⟨?_, rfl, rfl, rfl⟩, rfl, rfl,
    rfl, rfl⟩
  · intro hnone
    obtain ⟨addr, haddr, htext, hhost⟩ := hdrawn hnone
    exact ⟨addr, haddr, htext, fun hparses _ _ => hhost hparses⟩
  · intro code hplain
    cases code <;> first | rfl | cases hplain

theorem toSocket_v4 : IpVersion.v4.toSocket = id := rfl

theorem toSocket_v6 : IpVersion.v6.toSocket = id := rfl

theorem SameSettings.ipVersion (h : SameSettings config final) :
    final.ipVersion = config.ipVersion :=
  Setting.version.inj (h.get .ipVersion rfl)

/-- The sockets of the flavor for IPv4 use the addresses on the wire, those of the flavor with
mapped addresses their images in IPv6. -/
theorem finalizeConfig_ok (h : finalizeConfig inetPton inetNtop random config = .ok final) :
    Addresses inetPton inetNtop random config.toLiveStrings final ∧
      SameSettings config final := by
  unfold finalizeConfig at h
  cases hversion : config.ipVersion with
  | v4 =>
    rw [hversion] at h
    obtain ⟨common, hcommon, h⟩ := bind_eq_ok_iff.mp h
    obtain rfl := pure_eq_ok_iff.mp h
    obtain ⟨hparsed, hsame⟩ := finalizeIpv4_ok hcommon
    have hfinal := hsame.ipVersion.trans hversion
    refine ⟨⟨?_, ?_, ?_, ?_, ?_⟩, ⟨fun code hplain => ?_, hsame.2, hsame.3, hsame.4⟩⟩
    · simp only [hfinal]
      exact ⟨hparsed.1, hparsed.2, hparsed.3, hparsed.4, hparsed.5, hparsed.6⟩
    · simp only [hfinal, IpVersion.wireFamily]
    · simp only [hfinal, IpVersion.socketFamily]
    · simp only [hfinal, toSocket_v4, Option.map_id_fun, id_eq]
    · simp only [hfinal, toSocket_v4, Option.map_id_fun, id_eq]
    · rw [← hsame.get code hplain]
      cases code <;> rfl
  | v4Mapped6 =>
    rw [hversion] at h
    obtain ⟨common, hcommon, h⟩ := bind_eq_ok_iff.mp h
    obtain rfl := pure_eq_ok_iff.mp h
    obtain ⟨hparsed, hsame⟩ := finalizeIpv4_ok hcommon
    have hfinal := hsame.ipVersion.trans hversion
    refine ⟨⟨?_, ?_, ?_, ?_, ?_⟩, ⟨fun code hplain => ?_, hsame.2, hsame.3, hsame.4⟩⟩
    · simp only [hfinal]
      exact ⟨hparsed.1, hparsed.2, hparsed.3, hparsed.4, hparsed.5, hparsed.6⟩
    · simp only [hfinal, IpVersion.wireFamily]
    · simp only [hfinal, IpVersion.socketFamily]
    · simp only [hfinal]
      rfl
    · simp only [hfinal]
      rfl
    · rw [← hsame.get code hplain]
      cases code <;> rfl
  | v6 =>
    rw [hversion] at h
    obtain ⟨hparsed, hsame, hsocket, hwire, hbind, hconnect⟩ := finalizeIpv6Config_ok h
    have hfinal := hsame.ipVersion.trans hversion
    refine ⟨⟨?_, ?_, ?_, ?_, ?_⟩, hsame⟩ <;> rw [hfinal]
    · exact hparsed
    · exact hwire
    · exact hsocket
    · rw [toSocket_v6, Option.map_id_fun]
      exact hbind
    · rw [toSocket_v6, Option.map_id_fun]
      exact hconnect

end Finalize

end QoSMos.Configuration
