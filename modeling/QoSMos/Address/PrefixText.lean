import QoSMos.Address.Prefix
import QoSMos.Address.Random
import QoSMos.Lib.Numeral
import QoSMos.Lib.Returns

/-!
# Prefixes as texts

`ipv4_prefix_parse`, `ipv6_prefix_parse` and `ip_prefix_to_string` of `ip_prefix.c`. `inet_pton` and
`inet_ntop` are parameters.
-/

namespace QoSMos

open Returns

/-! ## The program -/

section Program

variable (inetPton : InetPton) (inetNtop : IpAddress → String)

def ADDR_STR_LEN : Nat := 67

/-- `strstr(string, "/")`: what comes in front of the first slash, and behind it. -/
def splitSlash (string : List Char) : List Char × Option (List Char) :=
  match string.dropWhile (· ≠ '/') with
  | [] => (string, none)
  | _ :: behind => (string.takeWhile (· ≠ '/'), some behind)

/-- `prefix_len_parse`, which ends the process with a message. -/
def prefixLenParse (prefixString : String) (maxLen : Int) : Except String Int :=
  match (splitSlash prefixString.toList).2 with
  | some lenStr =>
    let number := Numeral.strtol lenStr
    -- The number of type `long` becomes an `int`.
    let prefixLen := number.value.bmod 4294967296
    if number.outOfRange ∨ number.rest ≠ [] ∨ prefixLen < 0 ∨ prefixLen > maxLen then
      .error (s!"bad prefix length in prefix '{prefixString}'" ++ "\n")
    else .ok prefixLen
  | none => .ok maxLen

/-- `copy_prefix_address` -/
def copyPrefixAddress (prefixString : String) : String :=
  String.ofList (splitSlash prefixString.toList).1

/-- `ipv4_prefix_parse` -/
def ipv4PrefixParse (prefixString : String) : Except String IpPrefix := do
  let ip ← ipv4Parse inetPton (copyPrefixAddress prefixString)
  let prefixLen ← prefixLenParse prefixString (8 * ipAddressLength .inet)
  ipToPrefix ip prefixLen

/-- `ipv6_prefix_parse` -/
def ipv6PrefixParse (prefixString : String) : Except String IpPrefix := do
  let ip ← ipv6Parse inetPton (copyPrefixAddress prefixString)
  let prefixLen ← prefixLenParse prefixString (8 * ipAddressLength .inet6)
  ipToPrefix ip prefixLen

/-- The functions for the addresses of a family. -/
def addressParse : AddressFamily → String → Except String IpAddress
  | .inet => ipv4Parse inetPton
  | .inet6 => ipv6Parse inetPton

def prefixParse : AddressFamily → String → Except String IpPrefix
  | .inet => ipv4PrefixParse inetPton
  | .inet6 => ipv6PrefixParse inetPton

/-- `ip_prefix_to_string`, which ends the process with a message. -/
def ipPrefixToString (p : IpPrefix) : Except String String :=
  let ipStr := inetNtop p.ip
  if ipStr.length + "/128".length + 1 > ADDR_STR_LEN then
    .error "address prefix would overflow buffer!"
  else
    let buffer := ipStr ++ "/" ++ toString p.prefixLen
    if buffer.length ≥ ADDR_STR_LEN then .error "address prefix overflowed buffer!" else .ok buffer

end Program

/-! ## Printing and parsing -/

/-- The text of an address is one that `inet_pton` reads, has no slash and fits into a buffer of
`INET6_ADDRSTRLEN` bytes. -/
structure Prints (inetPton : InetPton) (inetNtop : IpAddress → String) (ip : IpAddress) : Prop where
  parsed : addressParse inetPton ip.addressFamily (inetNtop ip) = .ok ip
  slash : '/' ∉ (inetNtop ip).toList
  length : (inetNtop ip).length < 46

section Text

variable {inetPton : InetPton} {inetNtop : IpAddress → String} {p : IpPrefix} {string : String}
  {family : AddressFamily}

theorem splitSlash_append {address : List Char} (h : '/' ∉ address) (len : List Char) :
    splitSlash (address ++ '/' :: len) = (address, some len) := by
  have hall : ∀ c ∈ address, decide (c ≠ '/') = true := by
    intro c hc
    simp only [decide_eq_true_eq]
    rintro rfl
    exact h hc
  unfold splitSlash
  rw [List.dropWhile_append_of_pos hall, List.takeWhile_append_of_pos hall]
  simp

/-- The parsers of the two families differ in the function that reads the address. -/
theorem prefixParse_eq (family : AddressFamily) (string : String) :
    prefixParse inetPton family string = (do
      let ip ← addressParse inetPton family (copyPrefixAddress string)
      let prefixLen ← prefixLenParse string (8 * ipAddressLength family)
      ipToPrefix ip prefixLen) := by
  cases family <;> rfl

/-- What is parsed is an address of the family. -/
theorem addressParse_wellFormed {ip : IpAddress}
    (h : addressParse inetPton family string = .ok ip) :
    ip.WellFormed ∧ ip.addressFamily = family := by
  cases family with
  | inet =>
    simp only [addressParse, ipv4Parse] at h
    cases hpton : inetPton.inet string with
    | none => simp [hpton] at h
    | some v4 =>
      rw [hpton] at h
      obtain rfl := Except.ok.inj h
      refine ⟨⟨by simp, fun _ => ?_⟩, rfl⟩
      exact List.drop_left' Vector.length_toList
  | inet6 =>
    simp only [addressParse, ipv6Parse] at h
    cases hpton : inetPton.inet6 string with
    | none => simp [hpton] at h
    | some v6 =>
      rw [hpton] at h
      obtain rfl := Except.ok.inj h
      exact ⟨⟨Vector.length_toList, by simp⟩, rfl⟩

/-- What is parsed is a prefix within its address. -/
theorem prefixParse_valid (h : prefixParse inetPton family string = .ok p) :
    p.Valid ∧ p.ip.addressFamily = family := by
  rw [prefixParse_eq] at h
  obtain ⟨ip, hip, h⟩ := bind_eq_ok_iff.mp h
  obtain ⟨prefixLen, -, hprefix⟩ := bind_eq_ok_iff.mp h
  obtain ⟨hwell, hfamily⟩ := addressParse_wellFormed hip
  refine ⟨ipToPrefix_valid hwell hprefix, ?_⟩
  rw [ipToPrefix] at hprefix
  split_ifs at hprefix
  obtain rfl := Except.ok.inj hprefix
  exact hfamily

theorem toString_prefixLen {n : Nat} (hn : n ≤ 128) :
    (toString (n : Int)).toList = Nat.toDigits 10 n ∧ (toString (n : Int)).length ≤ 3 := by
  have hlist : (toString (n : Int)).toList = Nat.toDigits 10 n := Nat.toList_repr
  refine ⟨hlist, ?_⟩
  rw [← String.length_toList, hlist, Nat.length_toDigits_le_iff (by decide) (by decide)]
  omega

/-- The text of a prefix fits, and is the address, a slash and the length. -/
theorem ipPrefixToString_eq (hp : p.Valid) (hprints : Prints inetPton inetNtop p.ip) :
    ipPrefixToString inetNtop p = .ok (inetNtop p.ip ++ "/" ++ toString p.prefixLen) := by
  have hwidth : 8 * ipAddressLength p.ip.addressFamily ≤ 128 := by
    cases p.ip.addressFamily <;> decide
  obtain ⟨n, hn⟩ := Int.eq_ofNat_of_zero_le hp.nonneg
  have hle := hp.le_width
  have hlength := (toString_prefixLen (n := n) (by omega)).2
  have hshort := hprints.length
  have hslash : ("/128" : String).length = 4 := rfl
  have hone : ("/" : String).length = 1 := rfl
  unfold ipPrefixToString ADDR_STR_LEN
  rw [hn]
  simp only [hslash, String.length_append, hone]
  rw [if_neg (by omega), if_neg (by omega)]

theorem prefixLenParse_print (hp : p.Valid) (hprints : Prints inetPton inetNtop p.ip) :
    prefixLenParse (inetNtop p.ip ++ "/" ++ toString p.prefixLen)
      (8 * ipAddressLength p.ip.addressFamily) = .ok p.prefixLen := by
  have hwidth : 8 * ipAddressLength p.ip.addressFamily ≤ 128 := by
    cases p.ip.addressFamily <;> decide
  obtain ⟨n, hn⟩ := Int.eq_ofNat_of_zero_le hp.nonneg
  have hle := hp.le_width
  rw [hn] at hle ⊢
  have hlist := (toString_prefixLen (n := n) (by omega)).1
  have hsplit : splitSlash (inetNtop p.ip ++ "/" ++ toString (n : Int)).toList =
      ((inetNtop p.ip).toList, some (Nat.toDigits 10 n)) := by
    have happend : (inetNtop p.ip ++ "/" ++ toString (n : Int)).toList =
        (inetNtop p.ip).toList ++ '/' :: Nat.toDigits 10 n := by
      rw [String.toList_append, String.toList_append, hlist, List.append_assoc]
      rfl
    rw [happend, splitSlash_append hprints.slash]
  have hread : Numeral.strtol (Nat.toDigits 10 n) = ⟨n, [], false⟩ := by
    have hn : n ≤ Numeral.LONG_MAX := by
      unfold Numeral.LONG_MAX
      omega
    have hrest : ∀ c ∈ ([] : List Char).head?, c.isDigit = false := by simp
    simpa using Numeral.strtol_toDigits hn hrest
  have hint : (n : Int).bmod 4294967296 = n := by
    rw [Int.bmod_def]
    split <;> omega
  unfold prefixLenParse
  simp only [hsplit, hread, hint]
  rw [if_neg]
  simp only [Bool.false_eq_true, ne_eq, not_true_eq_false, false_or]
  omega

end Text

/-- The text of a prefix is parsed to the prefix, for both families; and whatever is parsed has a
length within its address, so that its text is parsed to it again. -/
theorem prefixParse_roundTrip {inetPton : InetPton} {inetNtop : IpAddress → String} {p : IpPrefix}
    (hprints : Prints inetPton inetNtop p.ip) :
    (p.Valid → ∃ string, ipPrefixToString inetNtop p = .ok string ∧
      prefixParse inetPton p.ip.addressFamily string = .ok p) ∧
    ∀ family string, prefixParse inetPton family string = .ok p →
      p.Valid ∧ p.ip.addressFamily = family ∧ ∃ printed, ipPrefixToString inetNtop p = .ok printed ∧
        prefixParse inetPton family printed = .ok p := by
  have hround (hp : p.Valid) : ∃ string, ipPrefixToString inetNtop p = .ok string ∧
      prefixParse inetPton p.ip.addressFamily string = .ok p := by
    refine ⟨_, ipPrefixToString_eq hp hprints, ?_⟩
    have haddress : copyPrefixAddress (inetNtop p.ip ++ "/" ++ toString p.prefixLen) =
        inetNtop p.ip := by
      unfold copyPrefixAddress
      rw [String.toList_append, String.toList_append, List.append_assoc]
      have hslash : ("/" : String).toList ++ (toString p.prefixLen).toList =
          '/' :: (toString p.prefixLen).toList := rfl
      rw [hslash, splitSlash_append hprints.slash, String.ofList_toList]
    have hrange : ¬ (p.prefixLen < 0 ∨ p.prefixLen > 8 * ipAddressLength p.ip.addressFamily) := by
      have := hp.nonneg
      have := hp.le_width
      omega
    rw [prefixParse_eq, haddress, bind_of_ok hprints.parsed,
      bind_of_ok (prefixLenParse_print hp hprints),
      ipToPrefix, if_neg hrange]
  refine ⟨hround, ?_⟩
  intro family string hparse
  obtain ⟨hp, rfl⟩ := prefixParse_valid hparse
  exact ⟨hp, rfl, hround hp⟩

/-- An address, as `inet_pton` and `inet_ntop` give it. -/
theorem prefixParse_roundTrip_net : ∃ string,
    ipPrefixToString plainInetNtop ⟨⟨.inet, [192, 0, 2, 1] ++ List.replicate 12 0⟩, 24⟩ =
      .ok string ∧
    prefixParse ⟨fun text => if text = "192.0.2.1" then some #v[192, 0, 2, 1] else none,
      fun _ => none⟩ .inet string = .ok ⟨⟨.inet, [192, 0, 2, 1] ++ List.replicate 12 0⟩, 24⟩ :=
  (prefixParse_roundTrip ⟨rfl, by decide, by decide⟩).1 ⟨rfl, by decide, by decide⟩

end QoSMos
