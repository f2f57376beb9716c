import QoSMos.Options.Sack

/-!
# Printing TCP options

`tcp_options_to_string` prints an option before the iterator has checked its length. What it
prints in front of an error is left out.
-/

namespace QoSMos

open Returns

def TCPOLEN_MD5_BASE : Nat := 2
def TCPOLEN_MD5SIG : Nat := 18
def TCPOPT_FASTOPEN_MAGIC : Nat := 0xf989
def TCPOLEN_EXP_FASTOPEN_BASE : Nat := 4
def TCPOLEN_FASTOPEN_BASE : Nat := 2
def MAX_TCP_OPTION_BYTES : Nat := MAX_TCP_HEADER_BYTES - TCP_BYTES
def MAX_TCP_FAST_OPEN_COOKIE_BYTES : Nat := MAX_TCP_OPTION_BYTES - TCPOLEN_FASTOPEN_BASE
def MAX_TCP_FAST_OPEN_EXP_COOKIE_BYTES : Nat := MAX_TCP_OPTION_BYTES - TCPOLEN_EXP_FASTOPEN_BASE

/-- `%02x` of `n` bytes. -/
def hexBytes (b : Memory) (p n : Nat) : String :=
  String.join ((List.range' p n).map fun i =>
    (if u8At b i < 16 then "0" else "") ++ hex (u8At b i))

/-- `tcp_md5_option_to_string`, whose status is not used: it prints nothing if it fails. -/
def tcpMd5OptionToString (b : Memory) (option : Nat) : Access String := do
  Traced.touch [option + 1]
  let length := u8At b (option + 1)
  if length < TCPOLEN_MD5_BASE ∨ length > TCPOLEN_MD5SIG then return ""
  else
    let digestBytes := length - TCPOLEN_MD5_BASE
    Traced.touch (List.range' (option + 2) digestBytes)
    return "md5" ++ (if digestBytes > 0 then " " else "") ++ hexBytes b (option + 2) digestBytes

/-- `tcp_fast_open_option_to_string` behind its check, with the offset of the cookie. -/
def printCookie (b : Memory) (option base maxBytes : Nat) (name : String) : Access String := do
  let function := "tcp_fast_open_option_to_string"
  let cookieBytes : Int := u8At b (option + 1) - base
  Traced.lift (halting (require (cookieBytes ≥ 0) function "cookie_bytes >= 0"))
  Traced.lift (halting (require (cookieBytes ≤ maxBytes) function
    ("cookie_bytes <= (exp ? MAX_TCP_FAST_OPEN_EXP_COOKIE_BYTES : " ++
      "MAX_TCP_FAST_OPEN_COOKIE_BYTES)")))
  Traced.touch (List.range' (option + base) cookieBytes.toNat)
  return name ++ (if cookieBytes > 0 then " " else "") ++
    hexBytes b (option + base) cookieBytes.toNat

/-- `tcp_fast_open_option_to_string` for the option of RFC 7413. -/
def tcpFastOpenOptionToString (b : Memory) (option : Nat) : Access String := do
  Traced.touch [option + 1]
  printCookie b option TCPOLEN_FASTOPEN_BASE MAX_TCP_FAST_OPEN_COOKIE_BYTES "FO"

/-- The same for an experimental option, with the error of its caller. -/
def tcpFastOpenExpOptionToString (b : Memory) (option : Nat) : Access String := do
  Traced.touch [option + 1]
  if u8At b (option + 1) < TCPOLEN_EXP_FASTOPEN_BASE then
    Traced.lift (.error (.error "unknown experimental option"))
  else
    Traced.touch [option + 2, option + 3]
    Traced.lift (check (be16At b (option + 2) = TCPOPT_FASTOPEN_MAGIC)
      "unknown experimental option")
    printCookie b option TCPOLEN_EXP_FASTOPEN_BASE MAX_TCP_FAST_OPEN_EXP_COOKIE_BYTES "FOEXP"

/-- The case of a SACK option in `tcp_options_to_string`. -/
def printSack (b : Memory) (option : Nat) : Access String := do
  Traced.touch [option + 1]
  let numBlocks ← Traced.lift (numSackBlocks (u8At b (option + 1)))
  Traced.touch (List.range' (option + 2) (SACK_BLOCK_BYTES * numBlocks))
  let blocks := (List.range numBlocks).map fun i =>
    s!"{be32At b (option + 2 + SACK_BLOCK_BYTES * i)}:" ++
      s!"{be32At b (option + 2 + SACK_BLOCK_BYTES * i + 4)}"
  return "sack " ++ " ".intercalate blocks

/-- A case that prints fields of `n` bytes in total behind the kind and the length byte. -/
def printFields (option n : Nat) (text : String) : Access String := do
  Traced.touch (List.range' (option + 2) n)
  return text

/-- The `switch` of `tcp_options_to_string` -/
def printOption (b : Memory) (option : Nat) : Access String := do
  Traced.touch [option]
  let kind := u8At b option
  if kind = TCPOPT_EOL then return "eol"
  else if kind = TCPOPT_NOP then return "nop"
  else if kind = TCPOPT_MAXSEG then printFields option 2 s!"mss {be16At b (option + 2)}"
  else if kind = TCPOPT_WINDOW then printFields option 1 s!"wscale {u8At b (option + 2)}"
  else if kind = TCPOPT_SACK_PERMITTED then return "sackOK"
  else if kind = TCPOPT_SACK then printSack b option
  else if kind = TCPOPT_TIMESTAMP then
    printFields option 8 s!"TS val {be32At b (option + 2)} ecr {be32At b (option + 6)}"
  else if kind = TCPOPT_MD5SIG then tcpMd5OptionToString b option
  else if kind = TCPOPT_FASTOPEN then tcpFastOpenOptionToString b option
  else if kind = TCPOPT_EXP then tcpFastOpenExpOptionToString b option
  else Traced.lift (.error (.error s!"unexpected TCP option kind: {kind}"))

/-- A turn of the loop, with the number of options seen so far and the text. -/
def printVisit (b : Memory) (option : Nat) (s : Nat × String) : Access (Nat × String) := do
  let text ← printOption b option
  return (s.1 + 1, s.2 ++ (if s.1 > 0 then "," else "") ++ text)

/-- `tcp_options_to_string` -/
def tcpOptionsToString (packet : Packet) : Access String := do
  let (_, text) ← traceTcpOptions (fun _ => packet.buffer) (printVisit packet.buffer) packet (0, "")
  return text

/-! ## What a printer needs -/

/-- The magic number of a fast open option that is experimental -/
abbrev HasMagic (b : Memory) (q : Nat) : Prop := be16At b (q + 2) = TCPOPT_FASTOPEN_MAGIC

/-- What the printer of the option at `q` reads is in front of `e`, and the assertions hold. -/
structure PrintFits (b : Memory) (e q : Nat) : Prop where
  mss : u8At b q = TCPOPT_MAXSEG → q + TCPOLEN_MAXSEG ≤ e
  window : u8At b q = TCPOPT_WINDOW → q + TCPOLEN_WINDOW ≤ e
  sack : SackFits b e q
  timestamp : u8At b q = TCPOPT_TIMESTAMP → q + TCPOLEN_TIMESTAMP ≤ e
  md5 : u8At b q = TCPOPT_MD5SIG → q + 1 < e ∧
    (TCPOLEN_MD5_BASE ≤ u8At b (q + 1) → u8At b (q + 1) ≤ TCPOLEN_MD5SIG →
      q + u8At b (q + 1) ≤ e)
  fastOpen : u8At b q = TCPOPT_FASTOPEN →
    TCPOLEN_FASTOPEN_BASE ≤ u8At b (q + 1) ∧ q + u8At b (q + 1) ≤ e
  experimental : u8At b q = TCPOPT_EXP → q + 1 < e ∧
    (TCPOLEN_EXP_FASTOPEN_BASE ≤ u8At b (q + 1) → q + TCPOLEN_EXP_FASTOPEN_BASE ≤ e ∧
      (HasMagic b q → q + u8At b (q + 1) ≤ e))

/-- The option at `q` is printed without an error. -/
def Printed (b : Memory) (q : Nat) : Prop :=
  (u8At b q = TCPOPT_SACK → WholeBlocks (u8At b (q + 1))) ∧
    (u8At b q = TCPOPT_EXP → TCPOLEN_EXP_FASTOPEN_BASE ≤ u8At b (q + 1) ∧ HasMagic b q)

/-- No option that the loop gets to needs more bytes than there are in front of `e`. -/
def AllPrintFit (b : Memory) (e start : Nat) : Prop :=
  ∀ visited q, Tiles b e start visited q → q < e → (∀ o ∈ visited, Printed b o) →
    PrintFits b e q

/-- An error is one that is reported, not a failed assertion. -/
def Failure.isError : Failure → Prop
  | .error _ => True
  | .halt _ => False

section Print

variable {b : Memory} {e start q base maxBytes n : Nat} {name text : String} {cells : List Nat}

@[simp] theorem safe_touch : Access.Safe start e Failure.isError (Traced.touch cells) ↔
    ∀ c ∈ cells, start ≤ c ∧ c < e := by
  simp [Access.Safe]

@[simp] theorem safe_pure {α : Type} (a : α) :
    (pure a : Access α).Safe start e Failure.isError := by
  simp [Access.Safe]

@[simp] theorem safe_lift_error {α : Type} (message : String) :
    Access.Safe start e Failure.isError (Traced.lift (.error (.error message)) : Access α) := by
  simp [Access.Safe, Failure.isError]

@[simp] theorem safe_check {c : Prop} [Decidable c] (message : String) :
    Access.Safe start e Failure.isError (Traced.lift (check c message)) := by
  unfold check
  split <;> simp [Access.Safe, Failure.isError]

@[simp] theorem safe_require {c : Prop} [Decidable c] (function expression : String) :
    Access.Safe start e Failure.isError
      (Traced.lift (halting (require c function expression))) ↔ c := by
  unfold require
  split <;> simp [Access.Safe, Failure.isError, halting, *]

@[simp] theorem check_eq_ok {c : Prop} [Decidable c] (message : String) (u : Unit) :
    check c message = .ok u ↔ c := by
  unfold check
  split <;> simp [*]

@[simp] theorem require_eq_ok {c : Prop} [Decidable c] (function expression : String) (u : Unit) :
    halting (require c function expression) = .ok u ↔ c := by
  unfold require
  split <;> simp [halting, *]

theorem printFields_safe_iff (hstart : start ≤ q) (hn : 0 < n) :
    (printFields q n text).Safe start e Failure.isError ↔ q + (n + 2) ≤ e := by
  simp only [printFields, safe_bind, safe_touch, safe_pure, List.mem_range'_1, implies_true,
    and_true]
  constructor
  · intro h
    have := h (q + 1 + n) (by omega)
    omega
  · intro h c hc
    omega

theorem printCookie_safe_iff (hstart : start ≤ q) (hend : q + base ≤ e)
    (harea : e ≤ start + base + maxBytes) :
    (printCookie b q base maxBytes name).Safe start e Failure.isError ↔
      base ≤ u8At b (q + 1) ∧ q + u8At b (q + 1) ≤ e := by
  simp only [printCookie, safe_bind, safe_touch, safe_pure, safe_require, Traced.result_lift,
    require_eq_ok, List.mem_range'_1, implies_true, and_true]
  constructor
  · rintro ⟨hbase, hcookie⟩
    obtain ⟨-, hcells⟩ := hcookie () hbase
    have hmax := (hcookie () hbase).1
    refine ⟨by omega, ?_⟩
    by_contra hlong
    have := hcells () hmax (q + u8At b (q + 1) - 1) (by omega)
    omega
  · rintro ⟨hbase, hinside⟩
    refine ⟨by omega, fun _ _ => ⟨by omega, fun _ _ c hc => by omega⟩⟩

theorem tcpMd5OptionToString_safe_iff (hstart : start ≤ q) :
    (tcpMd5OptionToString b q).Safe start e Failure.isError ↔ q + 1 < e ∧
      (TCPOLEN_MD5_BASE ≤ u8At b (q + 1) → u8At b (q + 1) ≤ TCPOLEN_MD5SIG →
        q + u8At b (q + 1) ≤ e) := by
  have hbase : TCPOLEN_MD5_BASE = 2 := rfl
  unfold tcpMd5OptionToString
  simp only [safe_bind, safe_touch, List.mem_singleton, forall_eq, Traced.result_touch]
  by_cases hrange : u8At b (q + 1) < TCPOLEN_MD5_BASE ∨ u8At b (q + 1) > TCPOLEN_MD5SIG
  · simp only [if_pos hrange, safe_pure, implies_true, and_true]
    omega
  · simp only [if_neg hrange, safe_bind, safe_touch, safe_pure, List.mem_range'_1, implies_true,
      and_true]
    constructor
    · rintro ⟨hbyte, hcells⟩
      refine ⟨by omega, fun _ _ => ?_⟩
      by_contra hlong
      have := hcells () trivial (q + u8At b (q + 1) - 1) (by omega)
      omega
    · rintro ⟨hbyte, hinside⟩
      have := hinside (by omega) (by omega)
      exact ⟨by omega, fun _ _ c hc => by omega⟩

theorem tcpFastOpenOptionToString_safe_iff (hstart : start ≤ q)
    (harea : e ≤ start + MAX_TCP_OPTION_BYTES) :
    (tcpFastOpenOptionToString b q).Safe start e Failure.isError ↔
      TCPOLEN_FASTOPEN_BASE ≤ u8At b (q + 1) ∧ q + u8At b (q + 1) ≤ e := by
  have hbase : TCPOLEN_FASTOPEN_BASE = 2 := rfl
  have hmax : TCPOLEN_FASTOPEN_BASE + MAX_TCP_FAST_OPEN_COOKIE_BYTES = MAX_TCP_OPTION_BYTES := rfl
  unfold tcpFastOpenOptionToString
  simp only [safe_bind, safe_touch, List.mem_singleton, forall_eq, Traced.result_touch]
  constructor
  · rintro ⟨hbyte, hprint⟩
    exact (printCookie_safe_iff hstart (by omega) (by omega)).mp (hprint () trivial)
  · rintro ⟨hlong, hinside⟩
    refine ⟨by omega, fun _ _ => ?_⟩
    exact (printCookie_safe_iff hstart (by omega) (by omega)).mpr ⟨hlong, hinside⟩

theorem tcpFastOpenExpOptionToString_safe_iff (hstart : start ≤ q)
    (harea : e ≤ start + MAX_TCP_OPTION_BYTES) :
    (tcpFastOpenExpOptionToString b q).Safe start e Failure.isError ↔ q + 1 < e ∧
      (TCPOLEN_EXP_FASTOPEN_BASE ≤ u8At b (q + 1) → q + TCPOLEN_EXP_FASTOPEN_BASE ≤ e ∧
        (HasMagic b q → q + u8At b (q + 1) ≤ e)) := by
  have hbase : TCPOLEN_EXP_FASTOPEN_BASE = 4 := rfl
  have hmax : TCPOLEN_EXP_FASTOPEN_BASE + MAX_TCP_FAST_OPEN_EXP_COOKIE_BYTES =
    MAX_TCP_OPTION_BYTES := rfl
  unfold tcpFastOpenExpOptionToString
  simp only [safe_bind, safe_touch, List.mem_singleton, forall_eq, Traced.result_touch]
  by_cases hshort : u8At b (q + 1) < TCPOLEN_EXP_FASTOPEN_BASE
  · simp only [if_pos hshort, safe_lift_error, implies_true, and_true]
    omega
  · simp only [if_neg hshort, safe_bind, safe_touch, safe_check, Traced.result_lift, check_eq_ok,
      List.mem_cons, List.not_mem_nil, or_false, forall_eq_or_imp, forall_eq, true_and]
    constructor
    · rintro ⟨hbyte, hprint⟩
      obtain ⟨hmagic, hcookie⟩ := hprint () trivial
      refine ⟨by omega, fun hlong => ⟨by omega, fun h => ?_⟩⟩
      exact ((printCookie_safe_iff hstart (by omega) (by omega)).mp (hcookie () rfl () h)).2
    · rintro ⟨hbyte, hprint⟩
      obtain ⟨hinside, hcookie⟩ := hprint (by omega)
      refine ⟨by omega, fun _ _ => ⟨by omega, fun _ _ _ hmagic => ?_⟩⟩
      exact (printCookie_safe_iff hstart (by omega) (by omega)).mpr ⟨by omega, hcookie hmagic⟩

theorem printSack_safe_iff (hstart : start ≤ q) :
    (printSack b q).Safe start e Failure.isError ↔
      q + 1 < e ∧ (WholeBlocks (u8At b (q + 1)) → q + u8At b (q + 1) ≤ e) := by
  unfold printSack
  simp only [safe_bind, safe_touch, safe_pure, List.mem_singleton, forall_eq, Traced.result_touch,
    Traced.result_lift, List.mem_range'_1, implies_true, and_true]
  by_cases hwhole : WholeBlocks (u8At b (q + 1))
  · have hbytes := blocks_bytes hwhole
    have hlong := hwhole.1
    rw [numSackBlocks_of_whole hwhole]
    constructor
    · rintro ⟨hbyte, hprint⟩
      refine ⟨by omega, fun _ => ?_⟩
      have := (hprint () trivial).2 _ rfl (q + u8At b (q + 1) - 1) (by omega)
      omega
    · rintro ⟨hbyte, hinside⟩
      have := hinside hwhole
      refine ⟨by omega, fun _ _ => ⟨by simp [Access.Safe], fun n hn c hc => ?_⟩⟩
      obtain rfl := Except.ok.inj hn
      omega
  · obtain ⟨message, hmessage⟩ := numSackBlocks_of_not_whole hwhole
    rw [hmessage]
    simp [hwhole]
    omega

/-- The printer of an option is safe if and only if what it reads is in the area. -/
theorem printOption_safe_iff (hstart : start ≤ q) (hlt : q < e)
    (harea : e ≤ start + MAX_TCP_OPTION_BYTES) :
    (printOption b q).Safe start e Failure.isError ↔ PrintFits b e q := by
  have hkind : (printOption b q).Safe start e Failure.isError ↔
      (u8At b q = TCPOPT_MAXSEG → q + TCPOLEN_MAXSEG ≤ e) ∧
      (u8At b q = TCPOPT_WINDOW → q + TCPOLEN_WINDOW ≤ e) ∧ SackFits b e q ∧
      (u8At b q = TCPOPT_TIMESTAMP → q + TCPOLEN_TIMESTAMP ≤ e) ∧
      (u8At b q = TCPOPT_MD5SIG → (tcpMd5OptionToString b q).Safe start e Failure.isError) ∧
      (u8At b q = TCPOPT_FASTOPEN →
        (tcpFastOpenOptionToString b q).Safe start e Failure.isError) ∧
      (u8At b q = TCPOPT_EXP →
        (tcpFastOpenExpOptionToString b q).Safe start e Failure.isError) := by
    unfold SackFits
    rw [← printSack_safe_iff hstart, printOption, safe_bind, safe_touch]
    simp only [List.mem_singleton, forall_eq, hstart, hlt, and_self, true_and]
    by_cases hknown : Known (u8At b q)
    · simp only [Known, singleByteKinds, fixedLengths, variableKinds, List.map_cons, List.map_nil,
        List.mem_cons, List.not_mem_nil, or_false] at hknown
      rcases hknown with (h | h) | (h | h | h | h) | (h | h | h | h) <;>
        simp [h, hstart, TCPOPT_EOL, TCPOPT_NOP, TCPOPT_MAXSEG, TCPOPT_WINDOW,
          TCPOPT_SACK_PERMITTED, TCPOPT_TIMESTAMP, TCPOPT_SACK, TCPOPT_MD5SIG, TCPOPT_FASTOPEN,
          TCPOPT_EXP, TCPOLEN_MAXSEG, TCPOLEN_WINDOW, TCPOLEN_TIMESTAMP, printFields_safe_iff]
    · simp only [Known, singleByteKinds, fixedLengths, variableKinds, List.map_cons, List.map_nil,
        List.mem_cons, List.not_mem_nil, or_false, not_or] at hknown
      simp [hknown]
  rw [hkind, tcpMd5OptionToString_safe_iff hstart, tcpFastOpenOptionToString_safe_iff hstart harea,
    tcpFastOpenExpOptionToString_safe_iff hstart harea]
  constructor
  · rintro ⟨hmss, hwindow, hsack, htimestamp, hmd5, hfastOpen, hexperimental⟩
    exact ⟨hmss, hwindow, hsack, htimestamp, hmd5, hfastOpen, hexperimental⟩
  · intro h
    exact ⟨h.mss, h.window, h.sack, h.timestamp, h.md5, h.fastOpen, h.experimental⟩

/-- A well-formed option is printed from its own bytes. -/
theorem printFits_of_formed (hformed : ¬ Malformed b e q) : PrintFits b e q := by
  unfold Malformed at hformed
  push Not at hformed
  have hlength {kind : Nat} (h : u8At b q = kind) (hkind : kind ∉ singleByteKinds) :
      q + 1 < e ∧ 2 ≤ u8At b (q + 1) ∧ q + u8At b (q + 1) ≤ e ∧
        ∀ length, (kind, length) ∈ fixedLengths → u8At b (q + 1) = length := by
    subst h
    exact hformed.2 hkind
  have hfixed {kind length : Nat} (h : u8At b q = kind) (hkind : kind ∉ singleByteKinds)
      (hmem : (kind, length) ∈ fixedLengths) : q + length ≤ e := by
    obtain ⟨-, -, hinside, hequal⟩ := hlength h hkind
    rwa [hequal length hmem] at hinside
  constructor
  case mss => exact fun h => hfixed h (by decide) (by decide)
  case window => exact fun h => hfixed h (by decide) (by decide)
  case timestamp => exact fun h => hfixed h (by decide) (by decide)
  case sack =>
    intro h
    obtain ⟨hbyte, -, hinside, -⟩ := hlength h (by decide)
    exact ⟨hbyte, fun _ => hinside⟩
  case md5 =>
    intro h
    obtain ⟨hbyte, -, hinside, -⟩ := hlength h (by decide)
    exact ⟨hbyte, fun _ _ => hinside⟩
  case fastOpen =>
    intro h
    obtain ⟨-, hlong, hinside, -⟩ := hlength h (by decide)
    exact ⟨hlong, hinside⟩
  case experimental =>
    intro h
    obtain ⟨hbyte, -, hinside, -⟩ := hlength h (by decide)
    exact ⟨hbyte, fun hlong => ⟨by omega, fun _ => hinside⟩⟩

theorem printCookie_ok (hbase : base ≤ u8At b (q + 1)) (hmax : u8At b (q + 1) ≤ base + maxBytes) :
    ∃ text, (printCookie b q base maxBytes name).result = .ok text := by
  unfold printCookie
  simp only [Traced.result_bind, Traced.result_lift, Traced.result_touch]
  rw [require_ok (by omega), require_ok (by omega)]
  exact ⟨_, rfl⟩

/-- An option that has what its printer needs is printed, unless it is one of those that the
printers refuse. -/
theorem printOption_ok (hstart : start ≤ q) (harea : e ≤ start + MAX_TCP_OPTION_BYTES)
    (hknown : Known (u8At b q)) (hfits : PrintFits b e q) (hprinted : Printed b q) :
    ∃ text, (printOption b q).result = .ok text := by
  have hmax : TCPOLEN_FASTOPEN_BASE + MAX_TCP_FAST_OPEN_COOKIE_BYTES = MAX_TCP_OPTION_BYTES := rfl
  have hmaxExp : TCPOLEN_EXP_FASTOPEN_BASE + MAX_TCP_FAST_OPEN_EXP_COOKIE_BYTES =
    MAX_TCP_OPTION_BYTES := rfl
  have hsack (h : u8At b q = TCPOPT_SACK) : ∃ text, (printSack b q).result = .ok text := by
    unfold printSack
    simp only [Traced.result_bind, Traced.result_lift, Traced.result_touch,
      numSackBlocks_of_whole (hprinted.1 h)]
    exact ⟨_, rfl⟩
  have hmd5 : ∃ text, (tcpMd5OptionToString b q).result = .ok text := by
    unfold tcpMd5OptionToString
    by_cases hrange : u8At b (q + 1) < TCPOLEN_MD5_BASE ∨ u8At b (q + 1) > TCPOLEN_MD5SIG
    · simp only [if_pos hrange]
      exact ⟨_, rfl⟩
    · simp only [if_neg hrange]
      exact ⟨_, rfl⟩
  have hfast (h : u8At b q = TCPOPT_FASTOPEN) :
      ∃ text, (tcpFastOpenOptionToString b q).result = .ok text := by
    obtain ⟨hlong, hinside⟩ := hfits.fastOpen h
    obtain ⟨text, htext⟩ := @printCookie_ok b q TCPOLEN_FASTOPEN_BASE
      MAX_TCP_FAST_OPEN_COOKIE_BYTES "FO" hlong (by omega)
    exact ⟨text, htext⟩
  have hexp (h : u8At b q = TCPOPT_EXP) :
      ∃ text, (tcpFastOpenExpOptionToString b q).result = .ok text := by
    obtain ⟨hlong, hmagic⟩ := hprinted.2 h
    have hinside := ((hfits.experimental h).2 hlong).2 hmagic
    obtain ⟨text, htext⟩ := @printCookie_ok b q TCPOLEN_EXP_FASTOPEN_BASE
      MAX_TCP_FAST_OPEN_EXP_COOKIE_BYTES "FOEXP" hlong (by omega)
    unfold tcpFastOpenExpOptionToString
    rw [if_neg (by omega), check_ok hmagic]
    exact ⟨text, htext⟩
  simp only [Known, singleByteKinds, fixedLengths, variableKinds, List.map_cons, List.map_nil,
    List.mem_cons, List.not_mem_nil, or_false] at hknown
  unfold printOption
  rw [Traced.result_bind, Traced.result_touch, Returns.bind_of_ok rfl]
  rcases hknown with (h | h) | (h | h | h | h) | (h | h | h | h)
  all_goals dsimp only; rw [h]
  · exact ⟨_, rfl⟩
  · exact ⟨_, rfl⟩
  · exact ⟨_, rfl⟩
  · exact ⟨_, rfl⟩
  · exact ⟨_, rfl⟩
  · exact ⟨_, rfl⟩
  · exact hsack h
  · exact hmd5
  · exact hfast h
  · exact hexp h

theorem printed_of_ok (hok : (printOption b q).result = .ok text) : Printed b q := by
  unfold printOption at hok
  rw [Traced.result_bind, Traced.result_touch, Returns.bind_of_ok rfl] at hok
  dsimp only at hok
  constructor
  · intro h
    rw [h] at hok
    by_contra hnot
    obtain ⟨message, hmessage⟩ := numSackBlocks_of_not_whole hnot
    have herror : (printSack b q).result = .error (.error message) := by
      unfold printSack
      simp only [Traced.result_bind, Traced.result_lift, Traced.result_touch, hmessage]
      rfl
    cases herror.symm.trans hok
  · intro h
    rw [h] at hok
    change (tcpFastOpenExpOptionToString b q).result = .ok text at hok
    unfold tcpFastOpenExpOptionToString at hok
    by_cases hshort : u8At b (q + 1) < TCPOLEN_EXP_FASTOPEN_BASE
    · rw [if_pos hshort] at hok
      cases hok
    by_cases hmagic : HasMagic b q
    · exact ⟨by omega, hmagic⟩
    · rw [if_neg hshort, check_error hmagic] at hok
      cases hok

theorem printVisit_result (b : Memory) (q : Nat) (s : Nat × String) :
    (printVisit b q s).result = (printOption b q).result >>= fun text =>
      .ok (s.1 + 1, s.2 ++ (if s.1 > 0 then "," else "") ++ text) := by
  rw [printVisit, Traced.result_bind]
  rfl

theorem printVisit_safe_iff (s : Nat × String) : (printVisit b q s).Safe start e Failure.isError ↔
    (printOption b q).Safe start e Failure.isError := by
  simp [printVisit, safe_bind]

/-- The options in front of one that the loop reaches are well formed and were printed. -/
theorem Reached.printed {p : Nat} {s t : Nat × String}
    (h : Reached (fun _ => b) (printVisit b) e p s q t) :
    ∃ visited, Tiles b e p visited q ∧ ∀ o ∈ visited, Printed b o := by
  induction h with
  | refl p s => exact ⟨[], .nil p, by simp⟩
  | @head p q s s' t hlt hvisit hformed hrest ih =>
    obtain ⟨visited, htiles, hvisited⟩ := ih
    refine ⟨p :: visited, .cons hlt hformed htiles, List.forall_mem_cons.mpr ⟨?_, hvisited⟩⟩
    rw [printVisit_result] at hvisit
    obtain ⟨text, htext, -⟩ := bind_eq_ok_iff.mp hvisit
    exact printed_of_ok htext

/-- And the loop reaches every option behind such ones. -/
theorem Tiles.printReached {p r : Nat} {visited : List Nat} (h : Tiles b e p visited r)
    (hstart : start ≤ p) (harea : e ≤ start + MAX_TCP_OPTION_BYTES)
    (hprinted : ∀ o ∈ visited, Printed b o) (s : Nat × String) :
    ∃ t, Reached (fun _ => b) (printVisit b) e p s r t := by
  induction h generalizing s with
  | nil p => exact ⟨s, .refl p s⟩
  | @cons p r options hlt hformed hrest ih =>
    have hknown : Known (u8At b p) := by
      by_contra hnot
      exact hformed (.inl hnot)
    obtain ⟨text, htext⟩ := printOption_ok hstart harea hknown (printFits_of_formed hformed)
      (hprinted p (by simp))
    obtain ⟨t, hreached⟩ := ih (by omega) (fun o ho => hprinted o (List.mem_cons_of_mem _ ho))
      (s.1 + 1, s.2 ++ (if s.1 > 0 then "," else "") ++ text)
    refine ⟨t, .head hlt ?_ hformed hreached⟩
    rw [printVisit_result, htext]
    rfl

end Print

/-! ## The law -/

/-- `tcp_options_to_string` returns with a text or with an error, and reads nothing outside of the
option area. -/
def PrintTotal (packet : Packet) (tcp : Nat) : Prop :=
  (tcpOptionsToString packet).Safe (tcp + TCP_BYTES) (tcp + Tcp.doff packet.buffer tcp * 4)
    Failure.isError

/-- It does so if and only if no option that it gets to is cut off where it is printed. -/
theorem printTotal_iff {b : Memory} {bufferBytes inBytes tcp : Nat} {layer : PacketLayer}
    {s : ParseState} (hrun : runParsePacket b bufferBytes inBytes layer = .ok (.ok, s))
    (htcp : s.packet.tcp = some tcp) :
    PrintTotal s.packet tcp ↔ AllPrintFit s.packet.buffer
      (tcp + Tcp.doff s.packet.buffer tcp * 4) (tcp + TCP_BYTES) := by
  have hdoff := (accepted_tcp hrun htcp).1
  have hlt : Tcp.doff s.packet.buffer tcp < 16 := by
    have := u8At_lt s.packet.buffer (tcp + 12)
    unfold Tcp.doff
    omega
  have hmax : TCP_BYTES + MAX_TCP_OPTION_BYTES = 60 := rfl
  have harea : tcp + Tcp.doff s.packet.buffer tcp * 4 ≤ tcp + TCP_BYTES + MAX_TCP_OPTION_BYTES := by
    omega
  have hloop := @traceTcpOptions_safe_iff (Nat × String) (fun _ => s.packet.buffer)
    (printVisit s.packet.buffer) (0, "") Failure.isError (fun _ => trivial) s.packet tcp htcp hdoff
  obtain ⟨e, he⟩ : ∃ e, e = tcp + Tcp.doff s.packet.buffer tcp * 4 := ⟨_, rfl⟩
  unfold PrintTotal tcpOptionsToString
  rw [safe_bind]
  simp only [safe_pure, implies_true, and_true]
  rw [hloop]
  rw [← he] at harea ⊢
  constructor
  · intro hall visited q htiles hq hprinted
    obtain ⟨t, hreached⟩ := htiles.printReached le_rfl harea hprinted (0, "")
    exact (printOption_safe_iff htiles.le hq harea).mp
      ((printVisit_safe_iff t).mp (hall q t hreached hq))
  · intro hall q t hreached hq
    obtain ⟨visited, htiles, hprinted⟩ := hreached.printed
    exact (printVisit_safe_iff t).mpr
      ((printOption_safe_iff htiles.le hq harea).mpr (hall visited q htiles hq hprinted))

theorem printTotal_iff_cookie :
    ∃ s, runParsePacket (.ofList (optionsPacket #v[34, 4, 7, 7])) 44 44 .layer3Ip = .ok (.ok, s) ∧
      (PrintTotal s.packet 20 ↔ AllPrintFit s.packet.buffer
        (20 + Tcp.doff s.packet.buffer 20 * 4) (20 + TCP_BYTES)) :=
  ⟨_, rfl, @printTotal_iff (.ofList (optionsPacket #v[34, 4, 7, 7])) 44 44 20 .layer3Ip _ rfl rfl⟩

/-- A fast open option of length 0 fails the first assertion. -/
theorem not_printTotal :
    ¬ ∀ (b : Memory) (bufferBytes inBytes tcp : Nat) (layer : PacketLayer) (s : ParseState),
      runParsePacket b bufferBytes inBytes layer = .ok (.ok, s) → s.packet.tcp = some tcp →
        PrintTotal s.packet tcp := by
  intro h
  have htotal := h (.ofList (optionsPacket #v[34, 0, 0, 0])) 44 44 20 .layer3Ip _ rfl rfl
  exact htotal.2 _ rfl

end QoSMos
