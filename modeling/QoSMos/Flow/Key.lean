import QoSMos.Flow.Tuple
import QoSMos.Lib.Delimited

/-!
# The text of a flow key

The text that `get_flow_tuples` prints determines the 4-tuple. The text of an address may
contain colons, so its end is found from the behind: no port number contains one.
-/

namespace QoSMos

open Delimited

/-- An IPv4 address leaves the other bytes of the union zero. -/
def IpAddress.WellFormed (a : IpAddress) : Prop :=
  a.bytes.length = 16 ∧ (a.addressFamily = .inet → a.bytes.drop 4 = List.replicate 12 0)

def Tuple.WellFormed (t : Tuple) : Prop := t.src.ip.WellFormed ∧ t.dst.ip.WellFormed

/-- What is documented of `inet_ntop`: a dotted quad for an IPv4 address and groups with
colons between them for an IPv6 address, and no two addresses of a family alike. -/
structure NtopSpec (inetNtop : IpAddress → String) : Prop where
  injective : ∀ a c : IpAddress, a.WellFormed → c.WellFormed →
    a.addressFamily = c.addressFamily → inetNtop a = inetNtop c → a = c
  dotted : ∀ a : IpAddress, a.WellFormed → a.addressFamily = .inet → ':' ∉ (inetNtop a).toList
  colons : ∀ a : IpAddress, a.WellFormed → a.addressFamily = .inet6 → ':' ∈ (inetNtop a).toList
  noBlank : ∀ a : IpAddress, a.WellFormed → ' ' ∉ (inetNtop a).toList

section Text

variable {platform : Platform} {inetNtop : IpAddress → String} {a c : IpAddress}
  {e f : Endpoint} {t u : Tuple}

/-- Addresses with the same text are the same, also across the families. -/
theorem NtopSpec.inj (h : NtopSpec inetNtop) (ha : a.WellFormed) (hc : c.WellFormed) :
    inetNtop a = inetNtop c ↔ a = c := by
  refine ⟨fun heq => ?_, congrArg _⟩
  by_cases hfamily : a.addressFamily = c.addressFamily
  · exact h.injective a c ha hc hfamily heq
  · cases hfa : a.addressFamily <;> cases hfc : c.addressFamily <;>
      simp only [hfa, hfc, not_true_eq_false] at hfamily
    · exact absurd (heq ▸ h.colons c hc hfc) (h.dotted a ha hfa)
    · exact absurd (heq ▸ h.colons a ha hfa) (h.dotted c hc hfc)

end Text

/-! ## Tuples of packets -/

theorem Tuple.WellFormed.reverse {t : Tuple} (h : t.WellFormed) : (reverseTuple t).WellFormed :=
  ⟨h.2, h.1⟩

/-! ## An instance of `inet_ntop` -/

/-- The 16-bit groups of an IPv6 address. -/
def groups : List UInt8 → List Nat
  | x :: y :: bytes => (256 * x.toNat + y.toNat) :: groups bytes
  | _ => []

/-- The text of an address: its bytes with dots, or its groups with colons between them. -/
def plainText (a : IpAddress) : List Char :=
  match a.addressFamily with
  | .inet => ['.'].intercalate (((a.bytes.take 4).map UInt8.toNat).map (Nat.toDigits 10))
  | .inet6 => [':'].intercalate ((groups a.bytes).map (Nat.toDigits 16))

/-- `inet_ntop` for the addresses in which no two groups next to each other are zero, which
it would abbreviate. -/
def plainInetNtop (a : IpAddress) : String := .ofList (plainText a)

def plainPlatform : Platform := ⟨.lp64, plainInetNtop⟩

end QoSMos
