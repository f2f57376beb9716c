import QoSMos.Address.Random

/-!
# Random IPv6 addresses

The last word of an address gets random host bits, at most 32 of them. The base has no host bits of
its own.
-/

namespace QoSMos

open BitString

section Ipv6

variable {inetPton : InetPton} {prefixlen : Nat} {random : List UInt8} {rnd : UInt32}
  {base : String} {ip : IpAddress}

/-- The host bits that are drawn. -/
def hostWidth (prefixlen : Nat) : Nat := min 32 (128 - prefixlen)

/-- The low host bits of an address. -/
def IpAddress.hostBits (ip : IpAddress) (prefixlen : Nat) : Nat :=
  be32At (.ofList ip.bytes) 12 % 2 ^ hostWidth prefixlen

/-- The address has the prefix of the base, and where two host bits are left or more, its low ones
are neither all zero nor all one. -/
structure IsIpv6Host (prefixlen : Nat) (base addr : IpAddress) : Prop where
  keeps : ∀ i < prefixlen, bitAt addr.bytes i = bitAt base.bytes i
  ne_zero : prefixlen ≤ 126 → addr.hostBits prefixlen ≠ 0
  ne_ones : prefixlen ≤ 126 → addr.hostBits prefixlen ≠ 2 ^ hostWidth prefixlen - 1

/-- All bits behind the prefix are clear. -/
def HostBitsClear (prefixlen : Nat) (base : IpAddress) : Prop :=
  ∀ i < 128, prefixlen ≤ i → bitAt base.bytes i = false

instance : Decidable (HostBitsClear prefixlen ip) :=
  inferInstanceAs (Decidable (∀ i < 128, prefixlen ≤ i → bitAt ip.bytes i = false))

/-- With one bit left both adjustments are made of a random 0, and the second of a 1. -/
theorem adjustIpv6_eq_zero : adjustIpv6 127 rnd = 0 := by
  have hmask : ((1 : UInt32) <<< UInt32.ofNat (128 - 127)) - 1 = 1 := by decide
  have htoNat : (rnd &&& 1).toNat = rnd.toNat % 2 := by
    rw [UInt32.toNat_and]
    exact Nat.and_one_is_mod _
  have hbit : rnd &&& 1 = 0 ∨ rnd &&& 1 = 1 := by
    simp only [← UInt32.toNat_inj, htoNat]
    exact Nat.mod_two_eq_zero_or_one rnd.toNat
  rw [adjustIpv6, if_pos (by decide)]
  simp only [hmask]
  rcases hbit with hclear | hset
  · rw [hclear]
    decide
  · rw [hset]
    decide

/-- With no bit left the first adjustment is made, and the second is not. -/
theorem adjustIpv6_eq_one : adjustIpv6 128 rnd = 1 := by
  have hmask : ((1 : UInt32) <<< UInt32.ofNat (128 - 128)) - 1 = 0 := by decide
  rw [adjustIpv6, if_pos (by decide)]
  simp only [hmask, UInt32.and_zero]
  decide

/-- The two adjustments of a number that is below a power of two. -/
theorem notZeroNorMask_bounds {mask : UInt32} {k : Nat} (hk : 2 ≤ k)
    (hmask : mask.toNat = 2 ^ k - 1) (hrnd : rnd.toNat < 2 ^ k) :
    0 < (notZeroNorMask mask rnd).toNat ∧ (notZeroNorMask mask rnd).toNat < 2 ^ k - 1 := by
  have hfour : 2 ^ 2 ≤ 2 ^ k := Nat.pow_le_pow_right (by decide) hk
  have hone : (1 : UInt32).toNat = 1 := rfl
  by_cases hzero : rnd = 0
  · have hne : (0 : UInt32) + 1 ≠ mask := by
      intro h
      rw [← h] at hmask
      have : ((0 : UInt32) + 1).toNat = 1 := rfl
      omega
    rw [notZeroNorMask, if_pos hzero, hzero, if_neg hne]
    change 0 < 1 ∧ 1 < 2 ^ k - 1
    omega
  · have hpos : rnd.toNat ≠ 0 := fun h => hzero (UInt32.toNat_inj.mp h)
    rw [notZeroNorMask, if_neg hzero]
    by_cases hlast : rnd = mask
    · rw [if_pos hlast, hlast, UInt32.toNat_sub_of_le, hmask, hone]
      · omega
      · rw [UInt32.le_iff_toNat_le, hmask, hone]
        omega
    · have hne : rnd.toNat ≠ mask.toNat := fun h => hlast (UInt32.toNat_inj.mp h)
      rw [if_neg hlast]
      omega

/-- With two bits or more, the adjusted number has a bit that is set and one that is clear. -/
theorem adjustIpv6_bounds (rnd : UInt32) (hlen : prefixlen ≤ 126) :
    0 < (adjustIpv6 prefixlen rnd).toNat ∧
      (adjustIpv6 prefixlen rnd).toNat < 2 ^ hostWidth prefixlen - 1 := by
  by_cases hlong : prefixlen > 128 - 32
  · have hwidth : hostWidth prefixlen = 128 - prefixlen := by
      rw [hostWidth]
      omega
    have hmask : ((1 : UInt32) <<< UInt32.ofNat (128 - prefixlen) - 1).toNat =
        2 ^ (128 - prefixlen) - 1 := toNat_shiftLeft_sub_one (by omega)
    have hmasked : (rnd &&& ((1 : UInt32) <<< UInt32.ofNat (128 - prefixlen) - 1)).toNat <
        2 ^ (128 - prefixlen) := by
      rw [UInt32.toNat_and, hmask, Nat.and_two_pow_sub_one_eq_mod]
      exact Nat.mod_lt _ (Nat.two_pow_pos _)
    rw [adjustIpv6, if_pos hlong, hwidth]
    exact notZeroNorMask_bounds (by omega) hmask hmasked
  · have hwidth : hostWidth prefixlen = 32 := by
      rw [hostWidth]
      omega
    rw [adjustIpv6, if_neg hlong, hwidth]
    exact notZeroNorMask_bounds (by decide) rfl rnd.toNat_lt

/-- The number in the last word of a base without host bits. -/
theorem hostBits_eq_zero (hclear : HostBitsClear prefixlen ip) : ip.hostBits prefixlen = 0 := by
  have hwidth : hostWidth prefixlen ≤ 32 := Nat.min_le_left ..
  have hrest : hostWidth prefixlen ≤ 128 - prefixlen := Nat.min_le_right ..
  apply Nat.eq_of_testBit_eq
  intro j
  rw [IpAddress.hostBits, Nat.testBit_mod_two_pow, Nat.zero_testBit]
  by_cases hj : j < hostWidth prefixlen
  · have hlt : 31 - j < 32 := by omega
    have hbit := testBit_be32At ip.bytes 12 hlt
    rw [Nat.sub_sub_self (by omega), hclear _ (by omega) (by omega)] at hbit
    rw [hbit, Bool.and_false]
  · rw [decide_eq_false hj, Bool.false_and]

theorem ipv6Parse_length (h : ipv6Parse inetPton base = .ok ip) : ip.bytes.length = 16 := by
  rw [ipv6Parse] at h
  cases hpton : inetPton.inet6 base with
  | none => simp [hpton] at h
  | some v6 =>
    rw [hpton] at h
    obtain rfl := Except.ok.inj h
    exact Vector.length_toList

/-- The address is the base with the adjusted number in its last word. -/
theorem generateRandomIpv6Addr_spec (random : List UInt8) (prefixlen : Nat)
    (hbase : ipv6Parse inetPton base = .ok ip) :
    generateRandomIpv6Addr inetPton random base prefixlen = .ok { ip with
      bytes := orWord ip.bytes 3 (adjustIpv6 prefixlen (randomWord random)) } := by
  rw [generateRandomIpv6Addr, hbase]
  rfl

theorem adjustIpv6_lt (rnd : UInt32) (hlen : prefixlen ≤ 127) :
    (adjustIpv6 prefixlen rnd).toNat < 2 ^ hostWidth prefixlen := by
  by_cases hlast : prefixlen = 127
  · subst hlast
    rw [adjustIpv6_eq_zero]
    decide
  · have hshort : prefixlen ≤ 126 := by omega
    have hbounds := adjustIpv6_bounds rnd hshort
    omega

/-- The prefix is kept, but for the last bit of an address that is all prefix. -/
theorem orWord_keeps_iff (rnd : UInt32) (hlen : prefixlen ≤ 128) (hlength : ip.bytes.length = 16) :
    (∀ i < prefixlen, bitAt (orWord ip.bytes 3 (adjustIpv6 prefixlen rnd)) i = bitAt ip.bytes i) ↔
      (prefixlen = 128 → bitAt ip.bytes 127 = true) := by
  by_cases hall : prefixlen = 128
  · subst hall
    have hbit (i : Nat) : bitAt (orWord ip.bytes 3 (adjustIpv6 128 rnd)) i =
        (bitAt ip.bytes i || decide (i = 127)) := by
      rw [bitAt_orWord (by omega), adjustIpv6_eq_one]
      by_cases hi : 96 ≤ i ∧ i < 128
      · have hone : (1 : UInt32).toNat.testBit (31 - (i - 32 * 3)) = decide (i = 127) :=
          (Nat.testBit_two_pow (n := 0)).trans (decide_eq_decide.mpr (by omega))
        rw [hone, decide_eq_true (by omega), Bool.true_and]
      · rw [decide_eq_false (by omega), decide_eq_false (by omega), Bool.false_and]
    constructor
    · intro h _
      have hlast := h 127 (by decide)
      rw [hbit, decide_eq_true rfl, Bool.or_true] at hlast
      exact hlast.symm
    · intro h i _
      rw [hbit]
      by_cases hi : i = 127
      · subst hi
        rw [h rfl, Bool.true_or]
      · rw [decide_eq_false hi, Bool.or_false]
  · refine iff_of_true ?_ (fun h => absurd h hall)
    intro i hi
    have hshort : prefixlen ≤ 127 := by omega
    have hlt := adjustIpv6_lt rnd hshort
    rw [bitAt_orWord (by omega)]
    by_cases hlow : 96 ≤ i ∧ i < 128
    · have hbeyond : 2 ^ hostWidth prefixlen ≤ 2 ^ (31 - (i - 32 * 3)) := by
        apply Nat.pow_le_pow_right (by decide)
        rw [hostWidth]
        omega
      rw [Nat.testBit_lt_two_pow (hlt.trans_le hbeyond), Bool.and_false, Bool.or_false]
    · rw [decide_eq_false (by omega), Bool.false_and, Bool.or_false]

/-- Where the prefix is kept, the host bits are those of the adjusted number. -/
theorem isIpv6Host_orWord (rnd : UInt32) (hlength : ip.bytes.length = 16)
    (hclear : HostBitsClear prefixlen ip)
    (hkeeps : ∀ i < prefixlen,
      bitAt (orWord ip.bytes 3 (adjustIpv6 prefixlen rnd)) i = bitAt ip.bytes i) :
    IsIpv6Host prefixlen ip
      { ip with bytes := orWord ip.bytes 3 (adjustIpv6 prefixlen rnd) } := by
  have hhostBits (hshort : prefixlen ≤ 126) :
      IpAddress.hostBits { ip with bytes := orWord ip.bytes 3 (adjustIpv6 prefixlen rnd) }
        prefixlen = (adjustIpv6 prefixlen rnd).toNat := by
    have hzero := hostBits_eq_zero hclear
    have hlt := adjustIpv6_lt rnd (hshort.trans (by decide))
    rw [IpAddress.hostBits] at hzero
    rw [IpAddress.hostBits, be32At_orWord (w := 3) (by omega), Nat.or_mod_two_pow, hzero,
      Nat.mod_eq_of_lt hlt, Nat.zero_or]
  refine ⟨hkeeps, fun hshort => ?_, fun hshort => ?_⟩
  · have hbounds := adjustIpv6_bounds rnd hshort
    rw [hhostBits hshort]
    omega
  · have hbounds := adjustIpv6_bounds rnd hshort
    rw [hhostBits hshort]
    omega

/-- The function draws such an address unless it has to set a bit of the prefix. -/
theorem generateRandomIpv6Addr_host_iff (hlen : prefixlen ≤ 128)
    (hbase : ipv6Parse inetPton base = .ok ip) (hclear : HostBitsClear prefixlen ip) :
    (∃ addr, generateRandomIpv6Addr inetPton random base prefixlen = .ok addr ∧
      IsIpv6Host prefixlen ip addr) ↔ (prefixlen = 128 → bitAt ip.bytes 127 = true) := by
  have hlength := ipv6Parse_length hbase
  have haddr := generateRandomIpv6Addr_spec random prefixlen hbase
  rw [← orWord_keeps_iff (randomWord random) hlen hlength]
  constructor
  · rintro ⟨addr, hsame, hhost⟩
    obtain rfl := Except.ok.inj (haddr.symm.trans hsame)
    exact hhost.keeps
  · intro hkeeps
    exact ⟨_, haddr, isIpv6Host_orWord _ hlength hclear hkeeps⟩

/-- What `inet_pton` makes of the default network. -/
def ulaPton : InetPton where
  inet _ := none
  inet6
    | "fd3d:fa7b:d17d::0" =>
      some #v[0xfd, 0x3d, 0xfa, 0x7b, 0xd1, 0x7d, 0, 0, 0, 0, 0, 0, 0, 0, 0, 0]
    | _ => none

/-- The default network, with all random bits set. -/
theorem generateRandomIpv6Addr_host_default :
    ∃ addr, generateRandomIpv6Addr ulaPton [255, 255, 255, 255] "fd3d:fa7b:d17d::0" 48 = .ok addr ∧
      IsIpv6Host 48 ⟨.inet6, [0xfd, 0x3d, 0xfa, 0x7b, 0xd1, 0x7d] ++ List.replicate 10 0⟩ addr :=
  (generateRandomIpv6Addr_host_iff (by decide)
    (show ipv6Parse ulaPton "fd3d:fa7b:d17d::0" =
      .ok ⟨.inet6, [0xfd, 0x3d, 0xfa, 0x7b, 0xd1, 0x7d] ++ List.replicate 10 0⟩ from rfl)
    (by decide)).mpr (fun h => absurd h (by decide))

/-- An address that is all prefix does not stay as it is. -/
theorem generateRandomIpv6Addr_all_prefix : ¬ ∀ (inetPton : InetPton) (random : List UInt8)
    (base : String) (prefixlen : Nat) (ip : IpAddress), prefixlen ≤ 128 →
    ipv6Parse inetPton base = .ok ip → HostBitsClear prefixlen ip →
    ∃ addr, generateRandomIpv6Addr inetPton random base prefixlen = .ok addr ∧
      IsIpv6Host prefixlen ip addr := by
  intro h
  let ip : IpAddress := ⟨.inet6, [0xfd, 0x3d, 0xfa, 0x7b, 0xd1, 0x7d] ++ List.replicate 10 0⟩
  obtain ⟨addr, haddr, hhost⟩ := h ulaPton [1, 2, 3, 4] "fd3d:fa7b:d17d::0" 128 ip (by decide) rfl
    (by decide)
  have hresult : generateRandomIpv6Addr ulaPton [1, 2, 3, 4] "fd3d:fa7b:d17d::0" 128 =
      .ok { ip with bytes := ip.bytes.take 15 ++ [1] } := by decide
  obtain rfl := Except.ok.inj (haddr.symm.trans hresult)
  exact absurd (hhost.keeps 127 (by decide)) (by decide)

end Ipv6

end QoSMos
