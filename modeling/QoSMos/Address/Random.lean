import QoSMos.Address.Word
import QoSMos.Build.Encapsulate
import QoSMos.Lib.LittleEndian

/-!
# Random addresses

`generate_random_ipv4_addr` and `generate_random_ipv6_addr` of `ip_address.c` draw the host bits of
an address. `inet_pton` is a parameter of the functions, and so are the bytes that `urandom_read`
gets; an address is given as it is before `ip_to_string` prints it.
-/

namespace QoSMos

open BitString

section Program

variable (inetPton : InetPton)

/-- `ipv4_parse`, which ends the process with a message. -/
def ipv4Parse (ipString : String) : Except String IpAddress :=
  match inetPton.inet ipString with
  | some v4 => .ok ⟨.inet, v4.toList ++ List.replicate 12 0⟩
  | none => .error (s!"bad IPv4 address: {ipString}" ++ "\n")

/-- `ipv6_parse`, which ends the process with a message. -/
def ipv6Parse (ipString : String) : Except String IpAddress :=
  match inetPton.inet6 ipString with
  | some v6 => .ok ⟨.inet6, v6.toList⟩
  | none => .error (s!"bad IPv6 address: {ipString}" ++ "\n")

/-- The loop of `netmask_to_prefix` over the positions below `pos`. The shift of 1 may reach the
sign bit of an `int`; compilers take it as that of an unsigned number. -/
def countOnes (maskAddr : UInt32) : Nat → Nat
  | 0 => 0
  | pos + 1 =>
    if maskAddr &&& (1 <<< UInt32.ofNat pos) = 0 then 0 else countOnes maskAddr pos + 1

/-- `netmask_to_prefix` -/
def netmaskToPrefix (netmask : String) : Except String Nat := do
  let mask ← ipv4Parse inetPton netmask
  return countOnes (mask.word 0) 32

/-- The word that `urandom_read` leaves in a variable that was 0, from the bytes that it gets. -/
def randomWord (random : List UInt8) : UInt32 := UInt32.ofNat (LittleEndian.decode (random.take 4))

/-- The host bits that `generate_random_ipv4_addr` makes of a random number. -/
def adjustIpv4 (prefixLen : Nat) (rnd : UInt32) : UInt32 :=
  if prefixLen ≠ 0 then
    let mask := (1 <<< UInt32.ofNat (32 - prefixLen)) - 1
    let rnd := rnd &&& mask
    -- `.0` is reserved for the network address, and `.1` for the gateway
    let rnd := if rnd < 2 then 2 else rnd
    -- `.255.255` is reserved for the net broadcast
    if rnd = mask then rnd - 1 else rnd
  else rnd

/-- `generate_random_ipv4_addr` -/
def generateRandomIpv4Addr (random : List UInt8) (base netmask : String) :
    Except String IpAddress := do
  let prefixLen ← netmaskToPrefix inetPton netmask
  let addr ← ipv4Parse inetPton base
  return if prefixLen < 31 ∧ 4 ≤ random.length then
      { addr with bytes := orWord addr.bytes 0 (adjustIpv4 prefixLen (randomWord random)) }
    else addr

/-- The two adjustments of `generate_random_ipv6_addr`. -/
def notZeroNorMask (mask rnd : UInt32) : UInt32 :=
  let rnd := if rnd = 0 then rnd + 1 else rnd
  if rnd = mask then rnd - 1 else rnd

/-- The host bits that `generate_random_ipv6_addr` makes of a random number. -/
def adjustIpv6 (prefixlen : Nat) (rnd : UInt32) : UInt32 :=
  if prefixlen > 128 - 32 then
    let mask := (1 <<< UInt32.ofNat (128 - prefixlen)) - 1
    notZeroNorMask mask (rnd &&& mask)
  else notZeroNorMask (~~~0) rnd

/-- `generate_random_ipv6_addr`, which does not ask how many bytes were read. The length is at most
128; a longer one would have it shift by a negative number. -/
def generateRandomIpv6Addr (random : List UInt8) (base : String) (prefixlen : Nat) :
    Except String IpAddress := do
  let addr ← ipv6Parse inetPton base
  return { addr with bytes := orWord addr.bytes 3 (adjustIpv6 prefixlen (randomWord random)) }

end Program

/-! ## Host bits -/

/-- An address of the network of `base` that is neither the network itself nor its gateway nor its
broadcast address, where a network has `n` bits. -/
structure IsHost (n base addr : Nat) : Prop where
  network : addr / 2 ^ (32 - n) = base / 2 ^ (32 - n)
  ne_network : addr % 2 ^ (32 - n) ≠ 0
  ne_gateway : addr % 2 ^ (32 - n) ≠ 1
  ne_broadcast : addr % 2 ^ (32 - n) ≠ 2 ^ (32 - n) - 1

/-- A host bit that is clear in the base, and that the random number leaves clear: the number 2 is
taken for 0 and 1, and all ones without the last for all ones. Without a network nothing is taken
for anything, and a bit other than the last has to be set, too. -/
def LeavesHost (n base rnd : Nat) : Prop :=
  if n = 0 then
    (2 ≤ base ∨ 2 ≤ rnd) ∧ ∃ i < 32, base.testBit i = false ∧ rnd.testBit i = false
  else if rnd % 2 ^ (32 - n) < 2 then ∃ i < 32 - n, base.testBit i = false ∧ i ≠ 1
  else if rnd % 2 ^ (32 - n) = 2 ^ (32 - n) - 1 then base.testBit 0 = false
  else ∃ i < 32 - n, base.testBit i = false ∧ rnd.testBit i = false

section Bits

variable {n k x y base : Nat} {rnd : UInt32}

theorem mod_two_pow_eq_ones_iff : x % 2 ^ k = 2 ^ k - 1 ↔ ∀ i < k, x.testBit i = true := by
  constructor
  · intro h i hi
    have hbit := congrArg (fun n => n.testBit i) h
    simpa [Nat.testBit_mod_two_pow, Nat.testBit_two_pow_sub_one, hi] using hbit
  · intro h
    apply Nat.eq_of_testBit_eq
    intro i
    rw [Nat.testBit_mod_two_pow, Nat.testBit_two_pow_sub_one]
    by_cases hi : i < k
    · simp [h i hi, hi]
    · simp [hi]

/-- Not all low bits of a disjunction are set if one is clear on both sides. -/
theorem or_mod_two_pow_ne_ones_iff : (x ||| y) % 2 ^ k ≠ 2 ^ k - 1 ↔
    ∃ i < k, x.testBit i = false ∧ y.testBit i = false := by
  rw [Ne, mod_two_pow_eq_ones_iff]
  simp [Nat.testBit_or]

/-- Random host bits from 2 on make a host, unless they fill up the base. -/
theorem isHost_or_iff (hy : y < 2 ^ (32 - n)) (htwo : 2 ≤ y) : IsHost n base (base ||| y) ↔
    ∃ i < 32 - n, base.testBit i = false ∧ y.testBit i = false := by
  have hnetwork : (base ||| y) / 2 ^ (32 - n) = base / 2 ^ (32 - n) := by
    rw [Nat.or_div_two_pow, Nat.div_eq_of_lt hy, Nat.or_zero]
  have hhost : 2 ≤ (base ||| y) % 2 ^ (32 - n) := by
    rw [Nat.or_mod_two_pow, Nat.mod_eq_of_lt hy]
    exact htwo.trans Nat.right_le_or
  constructor
  · intro h
    exact or_mod_two_pow_ne_ones_iff.mp h.ne_broadcast
  · intro h
    exact ⟨hnetwork, by omega, by omega, or_mod_two_pow_ne_ones_iff.mpr h⟩

/-- Without a network the number is taken as it is. -/
theorem isHost_zero_iff (hbase : base < 2 ^ 32) (hy : y < 2 ^ 32) : IsHost 0 base (base ||| y) ↔
    (2 ≤ base ∨ 2 ≤ y) ∧ ∃ i < 32, base.testBit i = false ∧ y.testBit i = false := by
  have hor : base ||| y < 2 ^ 32 := Nat.or_lt_two_pow hbase hy
  have hmod : (base ||| y) % 2 ^ (32 - 0) = base ||| y := Nat.mod_eq_of_lt hor
  have htwo : 2 ≤ base ||| y ↔ 2 ≤ base ∨ 2 ≤ y := by
    constructor
    · intro h
      by_contra hsmall
      have hlt : base ||| y < 2 ^ 1 := Nat.or_lt_two_pow (by omega) (by omega)
      omega
    · rintro (hleft | hright)
      · exact hleft.trans Nat.left_le_or
      · exact hright.trans Nat.right_le_or
  constructor
  · intro h
    have hnetwork := h.ne_network
    have hgateway := h.ne_gateway
    rw [hmod] at hnetwork hgateway
    exact ⟨htwo.mp (by omega), or_mod_two_pow_ne_ones_iff.mp h.ne_broadcast⟩
  · rintro ⟨hlarge, hclear⟩
    have hle := htwo.mpr hlarge
    refine ⟨?_, by omega, by omega, or_mod_two_pow_ne_ones_iff.mpr hclear⟩
    rw [Nat.div_eq_of_lt hor, Nat.div_eq_of_lt hbase]

theorem toNat_adjustIpv4 (hn : n ≠ 0) (hlt : n < 31) :
    (adjustIpv4 n rnd).toNat =
      if rnd.toNat % 2 ^ (32 - n) < 2 then 2
      else if rnd.toNat % 2 ^ (32 - n) = 2 ^ (32 - n) - 1 then 2 ^ (32 - n) - 2
      else rnd.toNat % 2 ^ (32 - n) := by
  have hfour : 2 ^ 2 ≤ 2 ^ (32 - n) := Nat.pow_le_pow_right (by decide) (by omega)
  have hmask : ((1 : UInt32) <<< UInt32.ofNat (32 - n) - 1).toNat = 2 ^ (32 - n) - 1 :=
    toNat_shiftLeft_sub_one (by omega)
  have hmasked : (rnd &&& ((1 : UInt32) <<< UInt32.ofNat (32 - n) - 1)).toNat =
      rnd.toNat % 2 ^ (32 - n) := by
    rw [UInt32.toNat_and, hmask, Nat.and_two_pow_sub_one_eq_mod]
  have htwo : (2 : UInt32).toNat = 2 := rfl
  have hone : (1 : UInt32).toNat = 1 := rfl
  rw [adjustIpv4, if_pos hn]
  simp only [UInt32.lt_iff_toNat_lt, ← UInt32.toNat_inj, hmasked, htwo, hmask]
  by_cases hsmall : rnd.toNat % 2 ^ (32 - n) < 2
  · rw [if_pos hsmall, if_pos hsmall, if_neg (by rw [htwo]; omega), htwo]
  · rw [if_neg hsmall, if_neg hsmall, hmasked]
    by_cases hlast : rnd.toNat % 2 ^ (32 - n) = 2 ^ (32 - n) - 1
    · rw [if_pos hlast, if_pos hlast, UInt32.toNat_sub_of_le, hmasked, hlast, hone]
      · omega
      · rw [UInt32.le_iff_toNat_le, hmasked, hlast, hone]
        omega
    · rw [if_neg hlast, if_neg hlast, hmasked]

/-- The adjusted number makes a host under just this condition. -/
theorem isHost_adjustIpv4_iff (hlt : n < 31) (hbase : base < 2 ^ 32) :
    IsHost n base (base ||| (adjustIpv4 n rnd).toNat) ↔ LeavesHost n base rnd.toNat := by
  by_cases hn : n = 0
  · subst hn
    rw [LeavesHost, if_pos rfl]
    exact isHost_zero_iff hbase rnd.toNat_lt
  · have hfour : 2 ^ 2 ≤ 2 ^ (32 - n) := Nat.pow_le_pow_right (by decide) (by omega)
    have hmod : rnd.toNat % 2 ^ (32 - n) < 2 ^ (32 - n) := Nat.mod_lt _ (by omega)
    rw [LeavesHost, if_neg hn, toNat_adjustIpv4 hn hlt]
    split_ifs with hsmall hlast
    · have htwo (i : Nat) : (2 : Nat).testBit i = false ↔ i ≠ 1 := by
        rw [show (2 : Nat) = 2 ^ 1 from rfl, Nat.testBit_two_pow, decide_eq_false_iff_not]
        exact ne_comm
      rw [isHost_or_iff (by omega) le_rfl]
      simp only [htwo]
    · have hones (i : Nat) (hi : i < 32 - n) : (2 ^ (32 - n) - 2).testBit i = false ↔ i = 0 := by
        rw [Nat.testBit_two_pow_sub_succ (x := 1) (by omega), decide_eq_true hi, Bool.true_and,
          Bool.not_eq_false', Nat.testBit_one_eq_true_iff_self_eq_zero]
      rw [isHost_or_iff (by omega) (by omega)]
      constructor
      · rintro ⟨i, hi, hclear, hbit⟩
        rwa [(hones i hi).mp hbit] at hclear
      · intro hclear
        exact ⟨0, by omega, hclear, (hones 0 (by omega)).mpr rfl⟩
    · rw [isHost_or_iff hmod (by omega)]
      refine exists_congr fun i => and_congr_right fun hi => ?_
      rw [Nat.testBit_mod_two_pow, decide_eq_true hi, Bool.true_and]

theorem and_shiftLeft_eq_zero_iff (mask : UInt32) (hk : k < 32) :
    mask &&& ((1 : UInt32) <<< UInt32.ofNat k) = 0 ↔ mask.toNat.testBit k = false := by
  rw [← UInt32.toNat_inj, UInt32.toNat_and, toNat_one_shiftLeft hk, Nat.and_two_pow]
  cases mask.toNat.testBit k with
  | false => simp
  | true => simp

/-- The mask of a prefix of `n` bits has `n` ones in front. -/
theorem countOnes_eq {mask : UInt32} (hn : n ≤ 32) (hmask : mask.toNat = 2 ^ 32 - 2 ^ (32 - n)) :
    countOnes mask 32 = n := by
  have hbit (i : Nat) (hi : i < 32) : mask.toNat.testBit i = !decide (i < 32 - n) := by
    have hpos := Nat.one_le_two_pow (n := 32 - n)
    have hle : 2 ^ (32 - n) ≤ 2 ^ 32 := Nat.pow_le_pow_right (by decide) (by omega)
    have hsucc : mask.toNat = 2 ^ 32 - (2 ^ (32 - n) - 1 + 1) := by omega
    rw [hsucc, Nat.testBit_two_pow_sub_succ (by omega), decide_eq_true hi, Bool.true_and,
      Nat.testBit_two_pow_sub_one]
  have hcount (pos : Nat) (hpos : pos ≤ 32) : countOnes mask pos = pos - (32 - n) := by
    induction pos with
    | zero => rw [countOnes, Nat.zero_sub]
    | succ pos ih =>
      have hclear := and_shiftLeft_eq_zero_iff mask (Nat.lt_of_succ_le hpos)
      rw [hbit pos (by omega), Bool.not_eq_false', decide_eq_true_iff] at hclear
      rw [countOnes, ih (by omega)]
      split_ifs with hzero
      · have hlt := hclear.mp hzero
        omega
      · have hge := mt hclear.mpr hzero
        omega
  rw [hcount 32 le_rfl]
  omega

end Bits

/-! ## Addresses -/

section Addresses

variable {inetPton : InetPton} {n : Nat} {random : List UInt8} {base netmask : String}

/-- The number that an IPv4 address stands for. -/
def IpAddress.number (ip : IpAddress) : Nat := be32At (.ofList ip.bytes) 0

/-- The mask is that of a prefix of `n` bits. -/
def IsNetmask (n : Nat) (mask : IpAddress) : Prop := mask.number = 2 ^ 32 - 2 ^ (32 - n)

theorem ipv4Parse_length {ip : IpAddress} (h : ipv4Parse inetPton base = .ok ip) :
    ip.bytes.length = 16 := by
  rw [ipv4Parse] at h
  cases hpton : inetPton.inet base with
  | none => simp [hpton] at h
  | some v4 =>
    rw [hpton] at h
    obtain rfl := Except.ok.inj h
    rw [List.length_append, Vector.length_toList, List.length_replicate]

theorem netmaskToPrefix_eq {mask : IpAddress} (hn : n ≤ 32)
    (hnetmask : ipv4Parse inetPton netmask = .ok mask) (hmask : IsNetmask n mask) :
    netmaskToPrefix inetPton netmask = .ok n := by
  have hword : (mask.word 0).toNat = 2 ^ 32 - 2 ^ (32 - n) := by
    rw [IpAddress.word, UInt32.toNat_ofNat_of_lt' (be32At_lt _ _)]
    exact hmask
  rw [netmaskToPrefix, hnetmask, ← countOnes_eq hn hword]
  rfl

/-- The address drawn is the base with the adjusted number in it. -/
theorem generateRandomIpv4Addr_spec {ip mask : IpAddress} (hlt : n < 31)
    (hbase : ipv4Parse inetPton base = .ok ip)
    (hnetmask : ipv4Parse inetPton netmask = .ok mask) (hmask : IsNetmask n mask)
    (hrandom : 4 ≤ random.length) :
    ∃ addr, generateRandomIpv4Addr inetPton random base netmask = .ok addr ∧
      addr.number = ip.number ||| (adjustIpv4 n (randomWord random)).toNat := by
  have hlength := ipv4Parse_length hbase
  refine ⟨{ ip with bytes := orWord ip.bytes 0 (adjustIpv4 n (randomWord random)) }, ?_, ?_⟩
  · rw [generateRandomIpv4Addr, netmaskToPrefix_eq (by omega) hnetmask hmask, hbase]
    simp [bind, Except.bind, pure, Except.pure, hlt, hrandom]
  · exact be32At_orWord (by omega)

/-- The function draws a host of the network under just this condition. -/
theorem generateRandomIpv4Addr_host_iff {ip mask : IpAddress} (hlt : n < 31)
    (hbase : ipv4Parse inetPton base = .ok ip)
    (hnetmask : ipv4Parse inetPton netmask = .ok mask) (hmask : IsNetmask n mask)
    (hrandom : 4 ≤ random.length) :
    (∃ addr, generateRandomIpv4Addr inetPton random base netmask = .ok addr ∧
      IsHost n ip.number addr.number) ↔ LeavesHost n ip.number (randomWord random).toNat := by
  obtain ⟨addr, haddr, hnumber⟩ :=
    generateRandomIpv4Addr_spec hlt hbase hnetmask hmask hrandom
  have hnumber_lt : ip.number < 2 ^ 32 := be32At_lt _ _
  rw [← isHost_adjustIpv4_iff hlt hnumber_lt, ← hnumber]
  constructor
  · rintro ⟨_, hsame, hhost⟩
    obtain rfl := Except.ok.inj (haddr.symm.trans hsame)
    exact hhost
  · intro hhost
    exact ⟨addr, haddr, hhost⟩

/-- What `inet_pton` makes of some dotted quads. -/
def somePton : InetPton where
  inet
    | "192.168.0.0" => some #v[192, 168, 0, 0]
    | "255.255.0.0" => some #v[255, 255, 0, 0]
    | "255.0.0.0" => some #v[255, 0, 0, 0]
    | _ => none
  inet6 _ := none

/-- All random bits set, in the default network. -/
theorem generateRandomIpv4Addr_host_default :
    ∃ addr, generateRandomIpv4Addr somePton [255, 255, 255, 255] "192.168.0.0" "255.255.0.0" =
      .ok addr ∧ IsHost 16 0xc0a80000 addr.number :=
  (generateRandomIpv4Addr_host_iff (n := 16) (by decide)
    (show ipv4Parse somePton "192.168.0.0" =
      .ok ⟨.inet, [192, 168, 0, 0] ++ List.replicate 12 0⟩ from rfl)
    (show ipv4Parse somePton "255.255.0.0" =
      .ok ⟨.inet, [255, 255, 0, 0] ++ List.replicate 12 0⟩ from rfl) rfl (by decide)).mpr (by
    rw [LeavesHost, if_neg (by decide), if_neg (by decide), if_pos (by decide)]
    decide)

/-- In a larger network, host bits of the base and random ones add up to the broadcast address. -/
theorem generateRandomIpv4Addr_broadcast : ¬ ∀ (inetPton : InetPton) (n : Nat)
    (random : List UInt8) (base netmask : String) (ip mask : IpAddress), n < 31 →
    ipv4Parse inetPton base = .ok ip → ipv4Parse inetPton netmask = .ok mask → IsNetmask n mask →
    4 ≤ random.length → ∃ addr, generateRandomIpv4Addr inetPton random base netmask = .ok addr ∧
      IsHost n ip.number addr.number := by
  intro h
  obtain ⟨addr, haddr, hhost⟩ := h somePton 8 [0xff, 0xff, 0x57, 0x00] "192.168.0.0" "255.0.0.0"
    ⟨.inet, [192, 168, 0, 0] ++ List.replicate 12 0⟩ ⟨.inet, [255, 0, 0, 0] ++ List.replicate 12 0⟩
    (by decide) rfl rfl rfl (by decide)
  have hresult : generateRandomIpv4Addr somePton [0xff, 0xff, 0x57, 0x00] "192.168.0.0"
      "255.0.0.0" = .ok ⟨.inet, [192, 255, 255, 255] ++ List.replicate 12 0⟩ := by decide
  obtain rfl := Except.ok.inj (haddr.symm.trans hresult)
  exact hhost.ne_broadcast (by decide)

end Addresses

end QoSMos
