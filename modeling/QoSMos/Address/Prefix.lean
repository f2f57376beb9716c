import QoSMos.Build.Program
import QoSMos.Flow.Key
import QoSMos.Lib.BitString
import QoSMos.Lib.Traced

/-!
# Prefixes of addresses

`ip_to_prefix` and `ip_prefix_normalize` of `ip_prefix.c`. The second notes the bytes of the union
in `struct ip_address` that it writes to.
-/

namespace QoSMos

open BitString Traced

/-- `ip_address_length` -/
def ipAddressLength : AddressFamily → Nat
  | .inet => 4
  | .inet6 => 16

/-- The bytes of an address on the wire. -/
def IpAddress.octets (ip : IpAddress) : List UInt8 :=
  ip.bytes.take (ipAddressLength ip.addressFamily)

/-- `struct ip_prefix` -/
structure IpPrefix where
  ip : IpAddress
  prefixLen : Int
  deriving DecidableEq, Repr

/-- `ip_to_prefix`, which ends the process with a message. -/
def ipToPrefix (ip : IpAddress) (prefixLen : Int) : Except String IpPrefix :=
  let maxPrefixBits : Int := 8 * ipAddressLength ip.addressFamily
  if prefixLen < 0 ∨ prefixLen > maxPrefixBits then
    .error s!"invalid prefix_len: {prefixLen} bits"
  else .ok ⟨ip, prefixLen⟩

/-- `bytes[i] &= ~((1U << pos) - 1)` -/
def clearLowBits (bytes : List UInt8) (i pos : Int) : Traced Nat Halt (List UInt8) :=
  if 0 ≤ i ∧ i < bytes.length then do
    touch [i.toNat]
    let mask := ~~~(((1 : UInt32) <<< UInt32.ofNat pos.toNat) - 1)
    return bytes.modify i.toNat fun byte => (byte.toUInt32 &&& mask).toUInt8
  else lift (.error (.undefined "ip_prefix_normalize" "prefix->ip.ip.bytes[bytes]"))

/-- `memset(bytes + start, 0, n)`. A negative length is a huge one of type `size_t`. -/
def memsetZero (bytes : List UInt8) (start n : Int) : Traced Nat Halt (List UInt8) :=
  if 0 ≤ start ∧ 0 ≤ n ∧ start + n ≤ bytes.length then do
    touch ((List.range n.toNat).map (start.toNat + ·))
    return bytes.take start.toNat ++ List.replicate n.toNat 0 ++ bytes.drop (start + n).toNat
  else lift (.error (.undefined "ip_prefix_normalize" "memset"))

/-- Zero the bits beyond the prefix in the byte where it ends. -/
def zeroBitsBeyond (address : List UInt8) (bytes bits : Int) : Traced Nat Halt (List UInt8) :=
  if bits ≠ 0 then clearLowBits address bytes (8 - bits) else pure address

/-- `ip_prefix_normalize` -/
def ipPrefixNormalize (p : IpPrefix) : Traced Nat Halt IpPrefix := do
  let bytes := p.prefixLen.tdiv 8
  let bits := p.prefixLen.tmod 8
  let maxPrefixBytes : Int := ipAddressLength p.ip.addressFamily
  let cleared ← zeroBitsBeyond p.ip.bytes bytes bits
  let bytes := if bits ≠ 0 then bytes + 1 else bytes
  let zeroed ← memsetZero cleared bytes (maxPrefixBytes - bytes)
  return { p with ip := { p.ip with bytes := zeroed } }

/-! ## Cutting off -/

/-- An address in a union of 16 bytes, and a length within it. -/
structure IpPrefix.Valid (p : IpPrefix) : Prop where
  length_bytes : p.ip.bytes.length = 16
  nonneg : 0 ≤ p.prefixLen
  le_width : p.prefixLen ≤ 8 * ipAddressLength p.ip.addressFamily

section Normalize

variable {p q : IpPrefix} {bytes : List UInt8} {x : UInt8} {k pos : Nat}

theorem toNat_one_shiftLeft (hpos : pos < 32) :
    ((1 : UInt32) <<< UInt32.ofNat pos).toNat = 2 ^ pos := by
  have hpow : 2 ^ pos < 2 ^ 32 := Nat.pow_lt_pow_right (by decide) hpos
  rw [UInt32.toNat_shiftLeft, UInt32.toNat_ofNat_of_lt' (hpos.trans (by decide)),
    Nat.mod_eq_of_lt hpos]
  change 1 <<< pos % 2 ^ 32 = _
  rw [Nat.one_shiftLeft, Nat.mod_eq_of_lt hpow]

theorem toNat_shiftLeft_sub_one (hpos : pos < 32) :
    (((1 : UInt32) <<< UInt32.ofNat pos) - 1).toNat = 2 ^ pos - 1 := by
  have hshift := toNat_one_shiftLeft hpos
  have hone : (1 : UInt32).toNat = 1 := rfl
  rw [UInt32.toNat_sub_of_le, hshift, hone]
  rw [UInt32.le_iff_toNat_le, hshift, hone]
  exact Nat.one_le_two_pow

/-- The mask leaves the high bits of a byte. -/
theorem testBit_clearLowBits (x : UInt8) (hpos : pos < 32) (hk : k < 8) :
    ((x.toUInt32 &&& ~~~(((1 : UInt32) <<< UInt32.ofNat pos) - 1)).toUInt8).toNat.testBit (7 - k) =
      (x.toNat.testBit (7 - k) && decide (k + pos < 8)) := by
  have hpow : 2 ^ pos - 1 < 2 ^ 32 := by
    have := Nat.pow_lt_pow_right (show 1 < 2 by decide) hpos
    omega
  have hmask : (~~~(((1 : UInt32) <<< UInt32.ofNat pos) - 1)).toNat =
      2 ^ 32 - (2 ^ pos - 1 + 1) := by
    rw [UInt32.toNat_not, toNat_shiftLeft_sub_one hpos, UInt32.size]
    omega
  rw [UInt32.toNat_toUInt8, UInt32.toNat_and, UInt8.toNat_toUInt32, hmask,
    Nat.testBit_mod_two_pow _ 8, Nat.testBit_and, Nat.testBit_two_pow_sub_succ hpow,
    Nat.testBit_two_pow_sub_one]
  have hbyte : 7 - k < 8 := by omega
  have hword : 7 - k < 32 := by omega
  have hmasked : 7 - k < pos ↔ ¬ k + pos < 8 := by omega
  grind

theorem clearLowBits_eq {i : Nat} (hi : i < bytes.length) :
    clearLowBits bytes i pos = ⟨[i], .ok (bytes.modify i fun byte =>
      (byte.toUInt32 &&& ~~~(((1 : UInt32) <<< UInt32.ofNat pos) - 1)).toUInt8)⟩ := by
  rw [clearLowBits, if_pos (by omega)]
  rfl

theorem memsetZero_eq {start n : Nat} (h : start + n ≤ bytes.length) :
    memsetZero bytes start n = ⟨(List.range n).map (start + ·),
      .ok (bytes.take start ++ List.replicate n 0 ++ bytes.drop (start + n))⟩ := by
  have hend : ((start : Int) + n).toNat = start + n := by omega
  rw [memsetZero, if_pos (by omega), hend]
  change Traced.mk ((List.range n).map (start + ·) ++ []) _ = _
  rw [List.append_nil]
  rfl

/-- What is kept of an address, and that the rest of the union is. -/
structure Normalized (p q : IpPrefix) : Prop where
  prefixLen : q.prefixLen = p.prefixLen
  addressFamily : q.ip.addressFamily = p.ip.addressFamily
  length_bytes : q.ip.bytes.length = p.ip.bytes.length
  octets : Keeps p.prefixLen.toNat p.ip.octets q.ip.octets
  rest : q.ip.bytes.drop (ipAddressLength p.ip.addressFamily) =
    p.ip.bytes.drop (ipAddressLength p.ip.addressFamily)

/-- The bytes that are zeroed up to the end of the address. -/
theorem Normalized.of_zeroed {cleared : List UInt8} {start : Nat} (hp : p.Valid)
    (hlength : cleared.length = 16) (hstart : start ≤ ipAddressLength p.ip.addressFamily)
    (hrest : cleared.drop (ipAddressLength p.ip.addressFamily) =
      p.ip.bytes.drop (ipAddressLength p.ip.addressFamily))
    (hkept : ∀ j < start, ∀ k < 8, (cleared.getD j 0).toNat.testBit (7 - k) =
      ((p.ip.bytes.getD j 0).toNat.testBit (7 - k) && decide (8 * j + k < p.prefixLen.toNat)))
    (hcut : p.prefixLen.toNat ≤ 8 * start) :
    Normalized p { p with ip := { p.ip with
      bytes := cleared.take start ++
        List.replicate (ipAddressLength p.ip.addressFamily - start) 0 ++
          cleared.drop (ipAddressLength p.ip.addressFamily) } } := by
  have hwidth : ipAddressLength p.ip.addressFamily ≤ 16 := by
    cases p.ip.addressFamily <;> decide
  have hbytes := hp.length_bytes
  generalize hw : ipAddressLength p.ip.addressFamily = width at hstart hrest hwidth ⊢
  have hfront : (cleared.take start ++ List.replicate (width - start) 0).length = width := by
    rw [List.length_append, List.length_take, List.length_replicate]
    omega
  refine ⟨rfl, rfl, ?_, ?_, ?_⟩
  · rw [List.length_append, hfront, List.length_drop]
    omega
  · rw [IpAddress.octets, IpAddress.octets, hw, List.take_left' hfront]
    apply Keeps.of_bytes
    · rw [hfront, List.length_take]
      omega
    · intro j k hk
      by_cases hj : j < start
      · -- a byte of the prefix, or the one in which it ends
        have hfirst : (cleared.take start ++ List.replicate (width - start) 0).getD j 0 =
            cleared.getD j 0 := by grind
        have hsecond : (p.ip.bytes.take width).getD j 0 = p.ip.bytes.getD j 0 := by grind
        rw [hfirst, hsecond]
        exact hkept j hj k hk
      · have hzero : (cleared.take start ++ List.replicate (width - start) 0).getD j 0 = 0 := by
          grind
        have hbeyond : ¬ 8 * j + k < p.prefixLen.toNat := by omega
        rw [hzero, decide_eq_false hbeyond, Bool.and_false]
        exact Nat.zero_testBit _
  · rw [hw, List.drop_left' hfront, hrest]

/-- The last statements, once the byte in which the prefix ends is done. -/
theorem ipPrefixNormalize_eq {bytes bits start : Nat} {noted : List Nat} {cleared : List UInt8}
    (hlen : p.prefixLen = 8 * bytes + bits) (hbits : bits < 8)
    (hcleared : zeroBitsBeyond p.ip.bytes bytes bits = ⟨noted, .ok cleared⟩)
    (hnext : (if (bits : Int) ≠ 0 then (bytes : Int) + 1 else bytes) = start)
    (hstart : start ≤ ipAddressLength p.ip.addressFamily)
    (hlength : ipAddressLength p.ip.addressFamily ≤ cleared.length) :
    let width := ipAddressLength p.ip.addressFamily
    ipPrefixNormalize p = ⟨noted ++ (List.range (width - start)).map (start + ·),
      .ok { p with ip := { p.ip with
        bytes := cleared.take start ++ List.replicate (width - start) 0 ++
          cleared.drop width } }⟩ := by
  intro width
  have hdiv : p.prefixLen.tdiv 8 = bytes := by
    rw [Int.tdiv_eq_ediv_of_nonneg (by omega)]
    omega
  have hmod : p.prefixLen.tmod 8 = bits := by
    rw [Int.tmod_eq_emod_of_nonneg (by omega)]
    omega
  have hcount : (ipAddressLength p.ip.addressFamily : Int) - start = (width - start : Nat) := by
    omega
  have hfits : start + (width - start) ≤ cleared.length := by omega
  have hzeroed := memsetZero_eq hfits
  rw [Nat.add_sub_cancel' hstart] at hzeroed
  rw [ipPrefixNormalize, hdiv, hmod]
  simp only [hnext, hcount, hcleared, mk_ok_bind, hzeroed, touched_pure, result_pure,
    List.append_nil]
  rfl

/-- Bits are zeroed up to the end of the byte in which the prefix ends. -/
theorem zeroBitsBeyond_spec {n : Nat} (hn : n ≤ 8 * bytes.length) :
    ∃ noted cleared,
      zeroBitsBeyond bytes (n / 8 : Nat) (n % 8 : Nat) = ⟨noted, .ok cleared⟩ ∧
        cleared.length = bytes.length ∧ (∀ i ∈ noted, 8 * i < n) ∧
          (∀ width, n ≤ 8 * width → cleared.drop width = bytes.drop width) ∧
            ∀ j k, 8 * j < n → k < 8 → (cleared.getD j 0).toNat.testBit (7 - k) =
              ((bytes.getD j 0).toNat.testBit (7 - k) && decide (8 * j + k < n)) := by
  by_cases hbits : n % 8 = 0
  · refine ⟨[], bytes, ?_, rfl, by simp, fun _ _ => rfl, fun j k hj hk => ?_⟩
    · rw [zeroBitsBeyond, if_neg (by omega)]
      rfl
    · have hkept : 8 * j + k < n := by omega
      rw [decide_eq_true hkept, Bool.and_true]
  · have hindex : n / 8 < bytes.length := by omega
    have hpos : (8 : Int) - (n % 8 : Nat) = (8 - n % 8 : Nat) := by omega
    have hcleared : zeroBitsBeyond bytes (n / 8 : Nat) (n % 8 : Nat) =
        clearLowBits bytes (n / 8 : Nat) (8 - n % 8 : Nat) := by
      rw [zeroBitsBeyond, if_pos (by omega), hpos]
    refine ⟨_, _, hcleared.trans (clearLowBits_eq hindex), List.length_modify .., ?_,
      fun width hwidth => ?_, fun j k hj hk => ?_⟩
    · intro i hi
      rw [List.mem_singleton.mp hi]
      omega
    · rw [List.drop_modify_of_lt]
      omega
    · by_cases hlast : n / 8 = j
      · have hcut : k + (8 - n % 8) < 8 ↔ 8 * j + k < n := by omega
        have hlt : 8 - n % 8 < 32 := by omega
        rw [← decide_eq_decide.mpr hcut, ← testBit_clearLowBits _ hlt hk]
        subst hlast
        simp [List.getElem?_eq_getElem hindex]
      · have hkept : 8 * j + k < n := by omega
        rw [decide_eq_true hkept, Bool.and_true]
        simp [hlast]

/-- The function writes within the address, and cuts it off behind the prefix. -/
theorem ipPrefixNormalize_spec (hp : p.Valid) :
    ∃ q, (ipPrefixNormalize p).result = .ok q ∧ Normalized p q ∧
      Within (· < ipAddressLength p.ip.addressFamily) (ipPrefixNormalize p) := by
  have hwidth : ipAddressLength p.ip.addressFamily ≤ 16 := by
    cases p.ip.addressFamily <;> decide
  have hbytes := hp.length_bytes
  have hle := hp.le_width
  obtain ⟨n, hn⟩ := Int.eq_ofNat_of_zero_le hp.nonneg
  obtain ⟨noted, cleared, hcleared, hlength, hnoted, hdrop, hbit⟩ :=
    zeroBitsBeyond_spec (show n ≤ 8 * p.ip.bytes.length by omega)
  have hlen : p.prefixLen = 8 * (n / 8 : Nat) + (n % 8 : Nat) := by omega
  have hnext : (if ((n % 8 : Nat) : Int) ≠ 0 then ((n / 8 : Nat) : Int) + 1 else (n / 8 : Nat)) =
      ((n + 7) / 8 : Nat) := by
    split_ifs <;> omega
  have heq := ipPrefixNormalize_eq hlen (by omega) hcleared hnext (by omega) (by omega)
  refine ⟨_, by rw [heq], Normalized.of_zeroed hp (by omega) (by omega) (hdrop _ (by omega)) ?_
    (by omega), ?_⟩
  · intro j hj k hk
    have hcut : 8 * j + k < n ↔ 8 * j + k < p.prefixLen.toNat := by omega
    rw [hbit j k (by omega) hk, decide_eq_decide.mpr hcut]
  · rw [heq]
    intro c hc
    rcases List.mem_append.mp hc with hc | hc
    · have hlow := hnoted c hc
      omega
    · obtain ⟨i, hi, rfl⟩ := List.mem_map.mp hc
      rw [List.mem_range] at hi
      omega

theorem Normalized.valid (h : Normalized p q) (hp : p.Valid) : q.Valid where
  length_bytes := h.length_bytes.trans hp.length_bytes
  nonneg := h.prefixLen ▸ hp.nonneg
  le_width := by
    rw [h.prefixLen, h.addressFamily]
    exact hp.le_width

/-- A prefix that is cut off already stays as it is. -/
theorem Normalized.eq_self {r : IpPrefix} (h : Normalized p q) (h' : Normalized q r) : r = q := by
  have hoctets : r.ip.octets = q.ip.octets := by
    have hkeeps := h'.octets
    rw [h.prefixLen] at hkeeps
    exact hkeeps.unique h.octets.again
  have hrest := h'.rest
  rw [IpAddress.octets, IpAddress.octets, h'.addressFamily] at hoctets
  have hbytes : r.ip.bytes = q.ip.bytes := by
    rw [← List.take_append_drop (ipAddressLength q.ip.addressFamily) r.ip.bytes, hoctets, hrest,
      List.take_append_drop]
  have hfamily := h'.addressFamily
  have hlen := h'.prefixLen
  obtain ⟨⟨_, _⟩, _⟩ := r
  simp only at hbytes hfamily hlen
  subst hbytes hfamily hlen
  rfl

/-- The function keeps the bits of the prefix and clears all others of the address, writes nowhere
else, and does no more the second time. What is left of two addresses is the same if and only if
they share the prefix. -/
theorem ipPrefixNormalize_law (hp : p.Valid) :
    ∃ q, (ipPrefixNormalize p).result = .ok q ∧ q.prefixLen = p.prefixLen ∧
      (∀ i < 8 * ipAddressLength p.ip.addressFamily, bitAt q.ip.octets i =
        (bitAt p.ip.octets i && decide ((i : Int) < p.prefixLen))) ∧
      Within (· < ipAddressLength p.ip.addressFamily) (ipPrefixNormalize p) ∧
      (ipPrefixNormalize q).result = .ok q ∧
      ∀ p' q', p'.Valid → p'.ip.addressFamily = p.ip.addressFamily →
        p'.prefixLen = p.prefixLen → (ipPrefixNormalize p').result = .ok q' →
          (q.ip.octets = q'.ip.octets ↔
            ∀ i : Nat, (i : Int) < p.prefixLen → bitAt p.ip.octets i = bitAt p'.ip.octets i) := by
  have hnonneg := hp.nonneg
  obtain ⟨q, hq, hnormalized, hwithin⟩ := ipPrefixNormalize_spec hp
  refine ⟨q, hq, hnormalized.prefixLen, ?_, hwithin, ?_, ?_⟩
  · intro i _
    have hkept : i < p.prefixLen.toNat ↔ (i : Int) < p.prefixLen := by omega
    rw [hnormalized.octets.bit, decide_eq_decide.mpr hkept]
  · obtain ⟨r, hr, hagain, -⟩ := ipPrefixNormalize_spec (hnormalized.valid hp)
    rw [hr, hnormalized.eq_self hagain]
  · intro p' q' hp' hfamily hlen hq'
    obtain ⟨r, hr, hnormalized', -⟩ := ipPrefixNormalize_spec hp'
    obtain rfl := Except.ok.inj (hr.symm.trans hq')
    have hkeeps := hnormalized'.octets
    rw [hlen] at hkeeps
    have hlength : p.ip.octets.length = p'.ip.octets.length := by
      simp only [IpAddress.octets, List.length_take, hp.length_bytes, hp'.length_bytes, hfamily]
    rw [hnormalized.octets.eq_iff hkeeps hlength, Shares]
    exact forall_congr' fun i => imp_congr (by omega) Iff.rfl

/-- A prefix that ends within a byte. -/
theorem ipPrefixNormalize_law_nineteen : ∃ q,
    (ipPrefixNormalize ⟨⟨.inet, [192, 168, 255, 77] ++ List.replicate 12 0⟩, 19⟩).result = .ok q ∧
      (ipPrefixNormalize q).result = .ok q := by
  obtain ⟨q, hq, -, -, -, hagain, -⟩ :=
    ipPrefixNormalize_law (p := ⟨⟨.inet, [192, 168, 255, 77] ++ List.replicate 12 0⟩, 19⟩)
      ⟨rfl, by decide, by decide⟩
  exact ⟨q, hq, hagain⟩

/-- `ip_to_prefix` builds prefixes of this kind. -/
theorem ipToPrefix_valid {ip : IpAddress} {prefixLen : Int} (hip : ip.WellFormed)
    (h : ipToPrefix ip prefixLen = .ok p) : p.Valid := by
  rw [ipToPrefix] at h
  split_ifs at h with hrange
  obtain rfl := Except.ok.inj h
  obtain ⟨hlow, hhigh⟩ := not_or.mp hrange
  exact ⟨hip.1, Int.not_lt.mp hlow, Int.not_lt.mp hhigh⟩

end Normalize

end QoSMos
