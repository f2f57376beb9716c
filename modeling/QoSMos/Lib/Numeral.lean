import Mathlib.Data.List.Basic
import Mathlib.Tactic.Common

/-!
# Decimal numbers in texts

`strtol` and `strtoul` of C, with base 10 and numbers of 64 bits: white space, a sign, digits, and
what comes behind them. The numeral of a number is read back.

`parseInt`, `parseShort` and `parseLong` of Java take a text that is a number from end to end, in
the digits of any script.
-/

namespace Numeral

/-- `isspace` -/
def isSpace (c : Char) : Bool := c = ' ' || (9 ≤ c.toNat && c.toNat ≤ 13)

/-- The sign in front of a number, and the text behind it. -/
def sign : List Char → Bool × List Char
  | '-' :: text => (true, text)
  | '+' :: text => (false, text)
  | text => (false, text)

/-- A number that was read. -/
structure Read (α : Type) where
  value : α
  /-- What `end` points to. -/
  rest : List Char
  /-- `errno` is `ERANGE`. -/
  outOfRange : Bool
  deriving DecidableEq, Repr

def LONG_MAX : Nat := 9223372036854775807
def ULONG_MAX : Nat := 18446744073709551615

/-- The number of type `long` that is closest to one with this sign. -/
def clampLong (negative : Bool) (n : Nat) : Int × Bool :=
  if negative then
    if n ≤ LONG_MAX + 1 then (-n, false) else (-(LONG_MAX + 1 : Nat), true)
  else if n ≤ LONG_MAX then (n, false) else (LONG_MAX, true)

/-- A negative number is taken modulo `ULONG_MAX + 1`. -/
def clampUnsignedLong (negative : Bool) (n : Nat) : Nat × Bool :=
  if n ≤ ULONG_MAX then ((if negative then (ULONG_MAX + 1 - n) % (ULONG_MAX + 1) else n), false)
  else (ULONG_MAX, true)

/-- A number is read where there are digits; else `end` is the whole text. -/
def read {α : Type} (zero : α) (clamp : Bool → Nat → α × Bool) (text : List Char) : Read α :=
  let (negative, behind) := sign (text.dropWhile isSpace)
  let digits := behind.takeWhile Char.isDigit
  if digits = [] then ⟨zero, text, false⟩
  else
    let (value, outOfRange) := clamp negative (Nat.ofDigitChars 10 digits 0)
    ⟨value, behind.dropWhile Char.isDigit, outOfRange⟩

def strtol (text : List Char) : Read Int := read 0 clampLong text

def strtoul (text : List Char) : Read Nat := read 0 clampUnsignedLong text

/-- `(int)strtol(text, NULL, 10)` -/
def atoi (text : List Char) : Int := (strtol text).value.bmod 4294967296

/-- The zeros of `Character.digit`, from which the other digits of a script count on. -/
def digitZeros : List Nat :=
  [0x0030, 0x0660, 0x06f0, 0x07c0, 0x0966, 0x09e6, 0x0a66, 0x0ae6, 0x0b66, 0x0be6, 0x0c66, 0x0ce6,
   0x0d66, 0x0de6, 0x0e50, 0x0ed0, 0x0f20, 0x1040, 0x1090, 0x17e0, 0x1810, 0x1946, 0x19d0, 0x1a80,
   0x1a90, 0x1b50, 0x1bb0, 0x1c40, 0x1c50, 0xa620, 0xa8d0, 0xa900, 0xa9d0, 0xa9f0, 0xaa50, 0xabf0,
   0xff10]

/-- `Character.digit(c, 10)` -/
def digit (c : Char) : Option Nat :=
  (digitZeros.find? fun first => first ≤ c.toNat ∧ c.toNat < first + 10).map (c.toNat - ·)

/-- The number that a text in Java is from end to end. -/
def parseNumber (s : String) : Option Int :=
  let (negative, digits) := sign s.toList
  if digits = [] then none
  else do
    let digits ← digits.mapM digit
    let n : Nat := digits.foldl (fun n d => 10 * n + d) 0
    return if negative then -n else n

/-- `Integer.parseInt`, with `none` for its exception. -/
def parseInt (s : String) : Option Int := do
  let value ← parseNumber s
  if -2147483648 ≤ value ∧ value ≤ 2147483647 then some value else none

/-- `Short.parseShort` -/
def parseShort (s : String) : Option Int := do
  let value ← parseInt s
  if -32768 ≤ value ∧ value ≤ 32767 then some value else none

/-- `Long.parseLong` -/
def parseLong (s : String) : Option Int64 := do
  let value ← parseNumber s
  if -9223372036854775808 ≤ value ∧ value ≤ 9223372036854775807 then some (Int64.ofInt value)
  else none

section Laws

variable {α : Type} {zero : α} {clamp : Bool → Nat → α × Bool} {c : Char} {n : Nat}
  {rest : List Char}

theorem isSpace_of_isDigit (h : c.isDigit) : isSpace c = false := by
  have hc : 48 ≤ c.toNat := by
    simp only [Char.isDigit, Bool.and_eq_true, decide_eq_true_eq] at h
    exact h.1
  have hspace : c ≠ ' ' := by
    rintro rfl
    exact absurd hc (by decide)
  simp only [isSpace, hspace, decide_false, Bool.false_or, Bool.and_eq_false_imp,
    decide_eq_true_eq, decide_eq_false_iff_not]
  omega

theorem sign_of_isDigit (h : c.isDigit) (text : List Char) :
    sign (c :: text) = (false, c :: text) := by
  unfold sign
  split
  · next heq =>
    obtain ⟨rfl, -⟩ := List.cons.inj heq
    exact absurd h (by decide)
  · next heq =>
    obtain ⟨rfl, -⟩ := List.cons.inj heq
    exact absurd h (by decide)
  · rfl

/-- The numeral of a number, with something else than a digit behind it, is read as the number. -/
theorem read_toDigits (n : Nat) (hrest : ∀ c ∈ rest.head?, c.isDigit = false) :
    read zero clamp (Nat.toDigits 10 n ++ rest) = ⟨(clamp false n).1, rest, (clamp false n).2⟩ := by
  have hdigits : ∀ c ∈ Nat.toDigits 10 n, c.isDigit := fun c hc =>
    Nat.isDigit_of_mem_toDigits (by decide) (by decide) hc
  have htake : (Nat.toDigits 10 n ++ rest).takeWhile Char.isDigit = Nat.toDigits 10 n := by
    rw [List.takeWhile_append_of_pos hdigits]
    cases rest with
    | nil => simp
    | cons c rest => simp [hrest c rfl]
  have hdrop : (Nat.toDigits 10 n ++ rest).dropWhile Char.isDigit = rest := by
    rw [List.dropWhile_append_of_pos hdigits]
    cases rest with
    | nil => rfl
    | cons c rest => simp [hrest c rfl]
  have hsign : sign ((Nat.toDigits 10 n ++ rest).dropWhile isSpace) =
      (false, Nat.toDigits 10 n ++ rest) := by
    obtain ⟨c, cs, hcons⟩ := List.exists_cons_of_ne_nil (Nat.toDigits_ne_nil (n := n) (b := 10))
    have hc : c.isDigit := hdigits c (by simp [hcons])
    rw [hcons, List.cons_append, List.dropWhile_cons_of_neg (by simp [isSpace_of_isDigit hc]),
      sign_of_isDigit hc]
  unfold read
  simp only [hsign, htake, hdrop, Nat.toDigits_ne_nil, if_false, Nat.ofDigitChars_ten_toDigits]

theorem strtol_toDigits (hn : n ≤ LONG_MAX) (hrest : ∀ c ∈ rest.head?, c.isDigit = false) :
    strtol (Nat.toDigits 10 n ++ rest) = ⟨n, rest, false⟩ := by
  rw [strtol, read_toDigits n hrest]
  simp [clampLong, hn]

end Laws

end Numeral
