import QoSMos.Address.RandomIpv6
import QoSMos.Lib.Returns

/-!
# Default addresses

`set_ipv4_defaults` and `set_ipv6_defaults` of `config.c` fill in the addresses that no option
gives, and draw the local one.
-/

namespace QoSMos

def DEFAULT_V4_LIVE_REMOTE_IP_STRING : String := "192.0.2.1/24"
def DEFAULT_V4_LIVE_LOCAL_IP_STRING : String := "192.168.0.0"
def DEFAULT_V4_LIVE_GATEWAY_IP_STRING : String := "192.168.0.1"
def DEFAULT_V4_LIVE_NETMASK_IP_STRING : String := "255.255.0.0"

def DEFAULT_V6_LIVE_REMOTE_IP_STRING : String := "2001:DB8::1/32"
def DEFAULT_V6_LIVE_LOCAL_IP_STRING : String := "fd3d:fa7b:d17d::0"
def DEFAULT_V6_LIVE_GATEWAY_IP_STRING : String := "fd3d:fa7b:d17d:8888::0"
def DEFAULT_V6_LIVE_PREFIX_LEN : Nat := 48

/-- The addresses of `struct config` in human-readable form. -/
structure LiveStrings where
  liveRemoteIpString : String
  liveNetmaskIpString : String
  liveLocalIpString : String
  liveGatewayIpString : String
  deriving DecidableEq, Repr

/-- A string, or another one for the empty string. -/
def orDefault (string default : String) : String := if string = "" then default else string

section Defaults

variable (inetPton : InetPton) (inetNtop : IpAddress → String) (random : List UInt8)
  (config : LiveStrings)

def setIpv4Defaults : Except String LiveStrings := do
  let netmask := orDefault config.liveNetmaskIpString DEFAULT_V4_LIVE_NETMASK_IP_STRING
  let localIp ←
    if config.liveLocalIpString = "" then
      inetNtop <$> generateRandomIpv4Addr inetPton random DEFAULT_V4_LIVE_LOCAL_IP_STRING netmask
    else pure config.liveLocalIpString
  return {
    liveRemoteIpString := orDefault config.liveRemoteIpString DEFAULT_V4_LIVE_REMOTE_IP_STRING
    liveNetmaskIpString := netmask
    liveLocalIpString := localIp
    liveGatewayIpString := orDefault config.liveGatewayIpString DEFAULT_V4_LIVE_GATEWAY_IP_STRING }

def setIpv6Defaults : Except String LiveStrings := do
  let localIp ←
    if config.liveLocalIpString = "" then
      inetNtop <$> generateRandomIpv6Addr inetPton random DEFAULT_V6_LIVE_LOCAL_IP_STRING
        DEFAULT_V6_LIVE_PREFIX_LEN
    else pure config.liveLocalIpString
  return { config with
    liveRemoteIpString := orDefault config.liveRemoteIpString DEFAULT_V6_LIVE_REMOTE_IP_STRING
    liveLocalIpString := localIp
    liveGatewayIpString := orDefault config.liveGatewayIpString DEFAULT_V6_LIVE_GATEWAY_IP_STRING }

end Defaults

section Drawn

open Returns

variable {inetPton : InetPton} {inetNtop : IpAddress → String} {random : List UInt8}
  {config config' : LiveStrings}

/-- The bytes of `DEFAULT_V6_LIVE_LOCAL_IP_STRING`. -/
def DEFAULT_V6_NETWORK : List UInt8 :=
  [0xfd, 0x3d, 0xfa, 0x7b, 0xd1, 0x7d] ++ List.replicate 10 0

/-- What `inet_pton` makes of the default network and its netmask. -/
structure ParsesDefaults (inetPton : InetPton) : Prop where
  localIp : inetPton.inet DEFAULT_V4_LIVE_LOCAL_IP_STRING = some #v[192, 168, 0, 0]
  netmask : inetPton.inet DEFAULT_V4_LIVE_NETMASK_IP_STRING = some #v[255, 255, 0, 0]
  localIp6 : ∃ bytes, inetPton.inet6 DEFAULT_V6_LIVE_LOCAL_IP_STRING = some bytes ∧
    bytes.toList = DEFAULT_V6_NETWORK

/-- A base without host bits always gives a host. -/
theorem LeavesHost.of_clear {n base rnd : Nat} (hn : n ≠ 0) (hlt : n < 31)
    (hclear : ∀ i < 32 - n, base.testBit i = false) : LeavesHost n base rnd := by
  rw [LeavesHost, if_neg hn]
  split_ifs with hsmall hlast
  · exact ⟨0, by omega, hclear 0 (by omega), by decide⟩
  · exact hclear 0 (by omega)
  · rw [mod_two_pow_eq_ones_iff] at hlast
    push Not at hlast
    obtain ⟨i, hi, hbit⟩ := hlast
    exact ⟨i, hi, hclear i hi, Bool.eq_false_of_not_eq_true hbit⟩

/-- The local address that is drawn; without a netmask it is a host of the default network. -/
theorem setIpv4Defaults_local (h : setIpv4Defaults inetPton inetNtop random config = .ok config')
    (hlocal : config.liveLocalIpString = "") :
    ∃ addr, generateRandomIpv4Addr inetPton random DEFAULT_V4_LIVE_LOCAL_IP_STRING
        (orDefault config.liveNetmaskIpString DEFAULT_V4_LIVE_NETMASK_IP_STRING) = .ok addr ∧
      config'.liveLocalIpString = inetNtop addr ∧
      (ParsesDefaults inetPton → 4 ≤ random.length → config.liveNetmaskIpString = "" →
        IsHost 16 0xc0a80000 addr.number) := by
  unfold setIpv4Defaults at h
  simp only [if_pos hlocal] at h
  obtain ⟨text, htext, h⟩ := bind_eq_ok_iff.mp h
  obtain rfl := pure_eq_ok_iff.mp h
  obtain ⟨addr, haddr, rfl⟩ := map_eq_ok_iff.mp htext
  refine ⟨addr, haddr, rfl, ?_⟩
  intro hparses hrandom hnetmask
  have hip : ipv4Parse inetPton DEFAULT_V4_LIVE_LOCAL_IP_STRING =
      .ok ⟨.inet, [192, 168, 0, 0] ++ List.replicate 12 0⟩ := by
    rw [ipv4Parse, hparses.localIp]
    rfl
  have hmask : ipv4Parse inetPton DEFAULT_V4_LIVE_NETMASK_IP_STRING =
      .ok ⟨.inet, [255, 255, 0, 0] ++ List.replicate 12 0⟩ := by
    rw [ipv4Parse, hparses.netmask]
    rfl
  obtain ⟨drawn, hdrawn, hnumber⟩ :=
    generateRandomIpv4Addr_spec (n := 16) (by decide) hip hmask rfl hrandom
  rw [orDefault, if_pos hnetmask] at haddr
  obtain rfl : drawn = addr := Except.ok.inj (hdrawn.symm.trans haddr)
  rw [hnumber]
  exact (isHost_adjustIpv4_iff (by decide) (by decide)).mpr
    (LeavesHost.of_clear (by decide) (by decide) (by decide))

/-- So is the one for IPv6, of which 48 bits are the prefix and the last 32 are random. -/
theorem setIpv6Defaults_local (h : setIpv6Defaults inetPton inetNtop random config = .ok config')
    (hlocal : config.liveLocalIpString = "") :
    ∃ addr, generateRandomIpv6Addr inetPton random DEFAULT_V6_LIVE_LOCAL_IP_STRING
        DEFAULT_V6_LIVE_PREFIX_LEN = .ok addr ∧
      config'.liveLocalIpString = inetNtop addr ∧
      (ParsesDefaults inetPton → IsIpv6Host 48 ⟨.inet6, DEFAULT_V6_NETWORK⟩ addr) := by
  unfold setIpv6Defaults at h
  simp only [if_pos hlocal] at h
  obtain ⟨text, htext, h⟩ := bind_eq_ok_iff.mp h
  obtain rfl := pure_eq_ok_iff.mp h
  obtain ⟨addr, haddr, rfl⟩ := map_eq_ok_iff.mp htext
  refine ⟨addr, haddr, rfl, ?_⟩
  intro hparses
  have hip : ipv6Parse inetPton DEFAULT_V6_LIVE_LOCAL_IP_STRING =
      .ok ⟨.inet6, DEFAULT_V6_NETWORK⟩ := by
    obtain ⟨bytes, hbytes, hlist⟩ := hparses.localIp6
    rw [ipv6Parse, hbytes, ← hlist]
  have hlength := ipv6Parse_length hip
  obtain rfl := Except.ok.inj
    ((generateRandomIpv6Addr_spec random DEFAULT_V6_LIVE_PREFIX_LEN hip).symm.trans haddr)
  exact isIpv6Host_orWord (randomWord random) hlength
    (show HostBitsClear 48 _ by decide)
    ((orWord_keeps_iff _ (by decide) hlength).mpr fun h => absurd h (by decide))

end Drawn

end QoSMos
