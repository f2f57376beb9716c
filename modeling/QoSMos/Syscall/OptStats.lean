import QoSMos.Syscall.ControlMessageLaw

/-!
# Statistics of a connection

`nla_expr_list_to_nla` stores the statistics that a script expects, and `scm_opt_stats_expect_eq`
compares them with the actual ones, attribute by attribute. An ellipsis is stored as a number like
any other, `OPT_NLA_IGNORE_VAL`, cut to the width of the field.
-/

namespace QoSMos.ControlMessage

open Script Returns MeasuredLoop

/-! ## The comparison -/

def OPT_NLA_IGNORE_VAL_U32 : Nat := OPT_NLA_IGNORE_VAL % 4294967296
def OPT_NLA_IGNORE_VAL_U8 : Nat := OPT_NLA_IGNORE_VAL % 256

/-- `nla_len` and `nla_type` of `struct nlattr` -/
def nlaLen (b : Memory) (nla : Nat) : Nat := leAt 2 b nla
def nlaType (b : Memory) (nla : Nat) : Nat := leAt 2 b (nla + 2)

/-- A number of so many bytes behind the header. -/
def nlaNumber (numBytes : Nat) (b : Memory) (nla : Nat) : Nat := leAt numBytes b (nla + NLA_HDRLEN)

/-- The comparison of a field of the header. -/
def expectHeader (name : String) (index : Int) (expected actual : Nat) : Except Stop Unit :=
  if expected ≠ actual then
    throw (.error (some s!"Bad {name} {index}: expected={expected} actual={actual}"))
  else return

/-- `tcp_nla[type].name` -/
def tcpNlaName (type : Nat) : String := ((tcpNla[type]?).map NlaTypeInfo.name).getD ""

def badNumber (type ev av : Nat) : Except Stop Unit :=
  let name := tcpNlaName type
  throw (.error (some s!"Bad {name}: expected={ev} actual={av}"))

/-- `(s64)(ev - av)` -/
def difference (ev av : Nat) : Int := ((ev : Int) - av).bmod 18446744073709551616

/-- `llabs`, whose result must be a `long long`. -/
def llabs (x : Int) : Except Stop Int :=
  if x = -9223372036854775808 then throw (.halt (.undefined "scm_opt_stats_expect_eq" "llabs"))
  else return x.natAbs

/-- The parts of the `switch`. -/
inductive StatsRule where
  | time | u64 | u32 | u8
  deriving DecidableEq, Repr

namespace StatsRule

def numBytes : StatsRule → Nat
  | .time | .u64 => 8
  | .u32 => 4
  | .u8 => 1

def ignored : StatsRule → Nat
  | .time | .u64 => OPT_NLA_IGNORE_VAL
  | .u32 => OPT_NLA_IGNORE_VAL_U32
  | .u8 => OPT_NLA_IGNORE_VAL_U8

/-- The labels of the `switch`; none is `default`. -/
def ofType : Nat → Option StatsRule
  | 1 | 2 | 3 => some .time
  | 4 | 5 | 6 | 7 => some .u64
  | 8 | 9 | 10 | 13 => some .u32
  | 11 | 12 | 14 => some .u8
  | _ => none

/-- The comparison of the numbers. -/
def expect (toleranceUs : Int32) (type ev av : Nat) : StatsRule → Except Stop Unit
  | .time =>
    if ev = OPT_NLA_IGNORE_VAL then .ok ()
    else if ev ≠ 0 then do
      let distance ← llabs (difference ev av)
      if distance ≤ toleranceUs.toInt then return
      else badNumber type ev av
    else if av = 0 then .ok ()
    else badNumber type ev av
  | rule => if ev = av ∨ ev = rule.ignored then .ok () else badNumber type ev av

end StatsRule

/-- A turn of the loop of `scm_opt_stats_expect_eq`. -/
def statsTurn (toleranceUs : Int32) (expected actual : Memory) (enla anla : Nat) (index : Int) :
    Except Stop Unit := do
  expectHeader "nla_type" index (nlaType expected enla) (nlaType actual anla)
  expectHeader "nla_len" index (nlaLen expected enla) (nlaLen actual anla)
  match StatsRule.ofType (nlaType expected enla) with
  | some rule =>
    rule.expect toleranceUs (nlaType expected enla) (nlaNumber rule.numBytes expected enla)
      (nlaNumber rule.numBytes actual anla)
  -- false without a message
  | none => throw (.error none)

section Loop

variable (toleranceUs : Int32) (b : Memory) (expected : Nat) (c : Memory) (actual len : Nat)
  (index : Int)

/-- The loop from an offset on, if so many turns are enough. -/
def statsLoop : Nat → Nat → Option (Except Stop Unit)
  | 0, _ => none
  | fuel + 1, offset =>
    if offset < len then
      match statsTurn toleranceUs b c (expected + offset) (actual + offset) index with
      | .error stop => some (.error stop)
      | .ok () => statsLoop fuel (offset + nlaAlign (nlaLen b (expected + offset)))
    else some (.ok ())

/-- `scm_opt_stats_expect_eq`, where `.ok` is true, and `.error` of a message, or of none, is
false. The expected attributes are in `b` and the actual ones in `c`. -/
def scmOptStatsExpectEq (fuel : Nat) : Option (Except Stop Unit) :=
  statsLoop toleranceUs b expected c actual len index fuel 0

end Loop

/-! ## What a script expects -/

theorem numBytes_cases (key : Fin tcpNla.length) : (tcpNla.get key).length = 1 ∨
    (tcpNla.get key).length = 4 ∨ (tcpNla.get key).length = 8 := by
  revert key
  decide

/-- The number that a script writes for a field without a sign; an ellipsis is none. -/
def explicitNumber : Expression → Option Nat
  | .integer num => some num.toUInt64.toNat
  | _ => none

theorem toNat_toUInt64_le {num : Int64} {n : Nat} (h : 0 ≤ num.toInt ∧ num.toInt ≤ n) :
    num.toUInt64.toNat ≤ n := by
  have hint : num.toInt = (num.toUInt64.toNat : Int).bmod (2 ^ 64) :=
    BitVec.toInt_eq_toNat_bmod num.toBitVec
  have hlt := num.toUInt64.toNat_lt
  rw [Int.bmod_def] at hint
  split at hint <;> omega

/-- A number that is let through fits in its field. -/
theorem explicitNumber_lt {key : Fin tcpNla.length} {value : Expression}
    (h : inWidth (tcpNla.get key).length value) :
    ∀ v ∈ explicitNumber value, v < 256 ^ (tcpNla.get key).length := by
  intro v hv
  cases value with
  | integer num =>
    obtain rfl := Option.some.inj hv
    rcases numBytes_cases key with hwidth | hwidth | hwidth
    · rw [hwidth] at h ⊢
      exact Nat.lt_succ_of_le (toNat_toUInt64_le (of_decide_eq_true h))
    · rw [hwidth] at h ⊢
      exact Nat.lt_succ_of_le (toNat_toUInt64_le (of_decide_eq_true h))
    · rw [hwidth]
      exact num.toUInt64.toNat_lt
  | _ => cases hv

/-- A statistic that a script expects, with a number that fits in its field. -/
structure Stat where
  key : Fin tcpNla.length
  value : Option Nat
  fits : ∀ v ∈ value, v < 256 ^ (tcpNla.get key).length

namespace Stat

def numBytes (x : Stat) : Nat := (tcpNla.get x.key).length

/-- The bytes that it takes. -/
def size (x : Stat) : Nat := nlaAlign (NLA_HDRLEN + x.numBytes)

/-- The number that stands for an ellipsis in the field. -/
def ignored (x : Stat) : Nat := OPT_NLA_IGNORE_VAL % 256 ^ x.numBytes

/-- The number in the field. -/
def stored (x : Stat) : Nat := x.value.getD x.ignored

/-- One of the three times that the connection was busy or limited: `TCP_NLA_BUSY`,
`TCP_NLA_RWND_LIMITED` and `TCP_NLA_SNDBUF_LIMITED`. -/
def IsTime (x : Stat) : Prop := (x.key : Nat) = 1 ∨ (x.key : Nat) = 2 ∨ (x.key : Nat) = 3

instance (x : Stat) : Decidable x.IsTime := inferInstanceAs (Decidable (_ ∨ _))

end Stat

/-- An entry of the table. -/
def tableKey (keyNum : Int) : Option (Fin tcpNla.length) :=
  if h : 0 ≤ keyNum ∧ keyNum.toNat < tcpNla.length then some ⟨keyNum.toNat, h.2⟩ else none

def statOf (element : Expression) : Option Stat :=
  match keyValue element with
  | none => none
  | some pair =>
    match tableKey pair.1.toInt with
    | none => none
    | some key =>
      if h : inWidth (tcpNla.get key).length pair.2 then
        some ⟨key, explicitNumber pair.2, explicitNumber_lt h⟩
      else none

def statsOf (list : List Expression) : List Stat := list.filterMap statOf

namespace Stat

/-- The actual number is the one that is written; a time, unless it is 0, may be off by the
tolerance. -/
def Agrees (x : Stat) (toleranceUs : Int32) (v av : Nat) : Prop :=
  if x.IsTime ∧ v ≠ 0 then ((v : Int) - av).natAbs ≤ toleranceUs.toInt else v = av

/-- The attribute has the type and the length, and its number agrees with the one that is written,
if one is. -/
structure Matches (x : Stat) (toleranceUs : Int32) (c : Memory) (nla : Nat) : Prop where
  type : nlaType c nla = x.key
  len : nlaLen c nla = NLA_HDRLEN + x.numBytes
  number : ∀ v ∈ x.value, x.Agrees toleranceUs v (nlaNumber x.numBytes c nla)

/-- A number is written that does not stand for an ellipsis and is not the actual one. Times
differ by more than the tolerance, modulo `2 ^ 64`. -/
def NumberDiffers (x : Stat) (toleranceUs : Int32) (av : Nat) : Prop :=
  ∃ v ∈ x.value, v ≠ x.ignored ∧
    if x.IsTime ∧ v ≠ 0 then toleranceUs.toInt < (difference v av).natAbs else v ≠ av

/-- The difference of two times has no absolute value. -/
def NumberFar (x : Stat) (av : Nat) : Prop :=
  x.IsTime ∧ ∃ v ∈ x.value, v ≠ x.ignored ∧ v ≠ 0 ∧ difference v av = -9223372036854775808

/-- The header, a key without a rule or the number tells the attribute from the expected one. -/
def SeenToDiffer (x : Stat) (toleranceUs : Int32) (c : Memory) (nla : Nat) : Prop :=
  nlaType c nla ≠ x.key ∨ nlaLen c nla ≠ NLA_HDRLEN + x.numBytes ∨ (x.key : Nat) = 0 ∨
    x.NumberDiffers toleranceUs (nlaNumber x.numBytes c nla)

/-- The header tells nothing, and then the times are too far apart. -/
def FarApart (x : Stat) (c : Memory) (nla : Nat) : Prop :=
  nlaType c nla = x.key ∧ nlaLen c nla = NLA_HDRLEN + x.numBytes ∧
    x.NumberFar (nlaNumber x.numBytes c nla)

end Stat

/-- The header of the attribute and its number. -/
structure Stat.StoredAt (x : Stat) (b : Memory) (nla : Nat) : Prop where
  type : nlaType b nla = x.key
  len : nlaLen b nla = NLA_HDRLEN + x.numBytes
  number : nlaNumber x.numBytes b nla = x.stored

/-! ## The attributes in memory -/

section Encoding

variable {size p : Nat} {b : Memory} {s t : Attributes} {element : Expression}
  {list : List Expression} {x : Stat}

theorem nlaInfo_eq_some {keyNum : Int} {info : NlaTypeInfo} (h : nlaInfo keyNum = some info) :
    ∃ key : Fin tcpNla.length,
      tableKey keyNum = some key ∧ (key : Nat) = keyNum.toNat ∧ tcpNla.get key = info := by
  unfold nlaInfo at h
  split at h
  · cases h
  · obtain ⟨hlt, hinfo⟩ := List.getElem?_eq_some_iff.mp h
    exact ⟨⟨keyNum.toNat, hlt⟩, dif_pos ⟨by omega, hlt⟩, rfl, hinfo⟩

theorem Stat.stored_lt (x : Stat) : x.stored < 256 ^ x.numBytes := by
  unfold Stat.stored
  cases hvalue : x.value with
  | none => exact Nat.mod_lt _ (Nat.pow_pos (by decide))
  | some v => exact x.fits v hvalue

theorem Stat.storedAt_congr {b' : Memory} (h : x.StoredAt b p)
    (hb : ∀ i < x.size, b' (p + i) = b (p + i)) : x.StoredAt b' p := by
  have hsize : NLA_HDRLEN + x.numBytes ≤ x.size := le_nlaAlign _
  unfold NLA_HDRLEN at hsize
  have hload : ∀ w k, k + w ≤ 4 + x.numBytes → leAt w b' (p + k) = leAt w b (p + k) := by
    intro w k hk
    apply leAt_congr
    intro i hi
    rw [Nat.add_assoc]
    exact hb (k + i) (by omega)
  constructor
  · rw [← h.type]
    exact hload 2 2 (by omega)
  · rw [← h.len]
    exact hload 2 0 (by omega)
  · rw [← h.number]
    exact hload x.numBytes 4 (by omega)

/-- The bytes of `add_nla` are an attribute. -/
theorem Stat.storedAt_nlaBytes (x : Stat) : x.StoredAt
    (writeBytes b p (nlaBytes x.key x.numBytes (LittleEndian.encode x.numBytes x.stored))) p := by
  have hkey : (x.key : Nat) < 15 := x.key.isLt
  have hwidth := numBytes_cases x.key
  have hbytes := List.append_assoc
    (LittleEndian.encode 2 (NLA_HDRLEN + x.numBytes) ++ LittleEndian.encode 2 x.key)
    (LittleEndian.encode x.numBytes x.stored)
    (List.replicate (nlaAlign (NLA_HDRLEN + x.numBytes) - (NLA_HDRLEN + x.numBytes)) 0)
  have hheader := hbytes.trans (List.append_assoc ..)
  constructor
  · have htype := leAt_writeBytes_append (b := b) (p := p) _ hheader LittleEndian.length_encode
      (Nat.le_refl 2)
    exact htype.trans (Nat.mod_eq_of_lt (by omega))
  · have hlen := leAt_writeBytes_append (b := b) (p := p) [] hheader rfl (Nat.le_refl 2)
    refine hlen.trans (Nat.mod_eq_of_lt ?_)
    unfold NLA_HDRLEN Stat.numBytes
    omega
  · have hnumber := leAt_writeBytes_append (b := b) (p := p) (k := 4) _ hbytes (by simp)
      (Nat.le_refl x.numBytes)
    exact hnumber.trans (Nat.mod_eq_of_lt x.stored_lt)

/-- What `get_nla_value` copies is the number in the field. -/
theorem getNlaValue_eq (x : Stat) {value : Expression} (h : x.value = explicitNumber value) :
    getNlaValue value x.numBytes = LittleEndian.encode x.numBytes x.stored := by
  rw [Stat.stored, h]
  cases value with
  | integer num => rfl
  | _ => exact LittleEndian.encode_mod.symm

/-- An attribute is stored at the cursor, and nothing else changes. -/
theorem nlaStep_eq_ok (h : nlaStep size s element = .ok t) :
    ∃ x, statOf element = some x ∧ x.StoredAt t.b s.dst ∧ t.dst = s.dst + x.size ∧
      ∀ q < s.dst, t.b q = s.b q := by
  obtain ⟨⟨key, value, info, hkey, hinfo, hwidth⟩, -⟩ :=
    (nlaStep_turn size).returns s _ element t rfl h
  rw [nlaStep_of_keyValue hkey] at h
  simp only [hinfo, hwidth, not_true_eq_false, if_false] at h
  obtain ⟨b, hstore, h⟩ := bind_eq_ok_iff.mp h
  obtain rfl := pure_eq_ok_iff.mp h
  obtain ⟨-, rfl⟩ := halted_storeInside_eq_ok hstore
  obtain ⟨k, htable, hk, rfl⟩ := nlaInfo_eq_some hinfo
  have hstat : statOf element = some ⟨k, explicitNumber value, explicitNumber_lt hwidth⟩ := by
    simp only [statOf, hkey, htable, hwidth, dif_pos]
  refine ⟨_, hstat, ?_, rfl, ?_⟩
  · have hstored := Stat.storedAt_nlaBytes (b := s.b) (p := s.dst)
      ⟨k, explicitNumber value, explicitNumber_lt hwidth⟩
    rw [← getNlaValue_eq _ rfl] at hstored
    rwa [← hk]
  · intro q hq
    exact writeBytes_outside (Or.inl hq)

theorem foldlM_nlaStep_below (h : list.foldlM (nlaStep size) s = .ok t) :
    s.dst ≤ t.dst ∧ ∀ q < s.dst, t.b q = s.b q := by
  induction list generalizing s with
  | nil =>
    obtain rfl := Except.ok.inj h
    exact ⟨Nat.le_refl _, fun _ _ => rfl⟩
  | cons element list ih =>
    rw [List.foldlM_cons] at h
    obtain ⟨u, hu, hlist⟩ := bind_eq_ok_iff.mp h
    obtain ⟨x, -, -, hdst, hbelow⟩ := nlaStep_eq_ok hu
    obtain ⟨hle, hbelow'⟩ := ih hlist
    refine ⟨by omega, fun q hq => ?_⟩
    rw [hbelow' q (by omega), hbelow q hq]

/-- After the loop all attributes stand one behind the other. -/
theorem foldlM_nlaStep_eq_ok (h : list.foldlM (nlaStep size) s = .ok t) :
    (∀ place ∈ placed Stat.size s.dst (statsOf list), place.2.StoredAt t.b place.1) ∧
      t.dst = s.dst + total Stat.size (statsOf list) := by
  induction list generalizing s with
  | nil =>
    obtain rfl := Except.ok.inj h
    exact ⟨by simp [statsOf, placed], rfl⟩
  | cons element list ih =>
    rw [List.foldlM_cons] at h
    obtain ⟨u, hu, hlist⟩ := bind_eq_ok_iff.mp h
    obtain ⟨x, hx, hstored, hdst, -⟩ := nlaStep_eq_ok hu
    obtain ⟨hall, htotal⟩ := ih hlist
    have hbelow := (foldlM_nlaStep_below hlist).2
    have hcons : statsOf (element :: list) = x :: statsOf list := List.filterMap_cons_some hx
    rw [hcons, placed, total_cons, ← hdst]
    refine ⟨List.forall_mem_cons.mpr ⟨?_, hall⟩, by omega⟩
    apply Stat.storedAt_congr hstored
    intro i hi
    exact hbelow _ (by omega)

end Encoding

/-! ## A turn -/

/-- A reason to return false. -/
def Stop.IsFalse : Stop → Prop
  | .error _ => True
  | _ => False

section Turn

variable {toleranceUs : Int32} {b c : Memory} {enla anla : Nat} {index : Int} {x : Stat}
  {rule : StatsRule} {v av : Nat}

theorem ofType_eq_none_iff : StatsRule.ofType x.key = none ↔ (x.key : Nat) = 0 := by
  have hall : ∀ key : Fin tcpNla.length, StatsRule.ofType key = none ↔ (key : Nat) = 0 := by
    decide
  exact hall x.key

theorem ofType_eq_time_iff : StatsRule.ofType x.key = some .time ↔ x.IsTime := by
  have hall : ∀ key : Fin tcpNla.length, StatsRule.ofType key = some .time ↔
      (key : Nat) = 1 ∨ (key : Nat) = 2 ∨ (key : Nat) = 3 := by decide
  exact hall x.key

theorem numBytes_of_ofType (h : StatsRule.ofType x.key = some rule) :
    rule.numBytes = x.numBytes := by
  have hall : ∀ key : Fin tcpNla.length, ∀ rule, StatsRule.ofType key = some rule →
      rule.numBytes = (tcpNla.get key).length := by decide
  exact hall x.key rule h

theorem ignored_of_ofType (h : StatsRule.ofType x.key = some rule) : rule.ignored = x.ignored := by
  rw [Stat.ignored, ← numBytes_of_ofType h]
  cases rule <;> rfl

theorem expectHeader_of_eq {name : String} {expected actual : Nat} (h : actual = expected) :
    expectHeader name index expected actual = .ok () := by
  rw [h]
  exact if_neg (not_not.mpr rfl)

theorem expectHeader_of_ne (name : String) (index : Int) {expected actual : Nat}
    (h : actual ≠ expected) :
    ∃ message, expectHeader name index expected actual = .error (.error message) :=
  ⟨_, if_pos (Ne.symm h)⟩

theorem llabs_of_ne {d : Int} (h : d ≠ -9223372036854775808) : llabs d = .ok d.natAbs := if_neg h

/-- How a comparison ends, by what its two sides are like. -/
inductive Outcome (differs far : Prop) : Except Stop Unit → Prop where
  | passes : ¬ differs → ¬ far → Outcome differs far (.ok ())
  | fails {message : Option String} : differs → ¬ far →
      Outcome differs far (.error (.error message))
  | halts {halt : Halt} : far → Outcome differs far (.error (.halt halt))

theorem expect_ignored (h : StatsRule.ofType x.key = some rule) :
    rule.expect toleranceUs x.key x.ignored av = .ok () := by
  rw [← ignored_of_ofType h]
  cases rule with
  | time =>
    rw [StatsRule.expect]
    exact if_pos rfl
  | _ => exact if_pos (Or.inr rfl)

theorem expect_time_outcome (hv : v ≠ OPT_NLA_IGNORE_VAL) :
    Outcome (if v ≠ 0 then toleranceUs.toInt < (difference v av).natAbs else v ≠ av)
      (v ≠ 0 ∧ difference v av = -9223372036854775808)
      (StatsRule.time.expect toleranceUs x.key v av) := by
  rw [StatsRule.expect, if_neg hv]
  by_cases hzero : v = 0
  · rw [if_neg (not_not.mpr hzero), if_neg (not_not.mpr hzero)]
    by_cases hav : av = 0
    · rw [if_pos hav]
      exact .passes (by omega) fun hfar => hfar.1 hzero
    · rw [if_neg hav]
      exact .fails (by omega) fun hfar => hfar.1 hzero
  · rw [if_pos hzero, if_pos hzero]
    by_cases hfar : difference v av = -9223372036854775808
    · rw [llabs, if_pos hfar]
      exact .halts ⟨hzero, hfar⟩
    · rw [bind_of_ok (llabs_of_ne hfar)]
      by_cases hnear : ((difference v av).natAbs : Int) ≤ toleranceUs.toInt
      · rw [if_pos hnear]
        exact .passes (by omega) fun h => hfar h.2
      · rw [if_neg hnear]
        exact .fails (by omega) fun h => hfar h.2

theorem expect_number_outcome (htime : rule ≠ .time) (hv : v ≠ rule.ignored) :
    Outcome (v ≠ av) False (rule.expect toleranceUs x.key v av) := by
  have hexpect : rule.expect toleranceUs x.key v av =
      if v = av ∨ v = rule.ignored then .ok () else badNumber x.key v av := by
    cases rule with
    | time => exact absurd rfl htime
    | _ => rfl
  rw [hexpect]
  by_cases hav : v = av
  · rw [if_pos (Or.inl hav)]
    exact .passes (not_not.mpr hav) id
  · rw [if_neg (by tauto)]
    exact .fails hav id

theorem expect_outcome (h : StatsRule.ofType x.key = some rule) :
    Outcome (x.NumberDiffers toleranceUs av) (x.NumberFar av)
      (rule.expect toleranceUs x.key x.stored av) := by
  cases hvalue : x.value with
  | none =>
    have hstored : x.stored = x.ignored := by rw [Stat.stored, hvalue, Option.getD_none]
    rw [hstored, expect_ignored h]
    refine .passes ?_ ?_
    · rintro ⟨v, hv, -⟩
      rw [hvalue] at hv
      cases hv
    · rintro ⟨-, v, hv, -⟩
      rw [hvalue] at hv
      cases hv
  | some v =>
    have hstored : x.stored = v := by rw [Stat.stored, hvalue, Option.getD_some]
    have hdiffers : x.NumberDiffers toleranceUs av ↔ v ≠ x.ignored ∧
        if x.IsTime ∧ v ≠ 0 then toleranceUs.toInt < (difference v av).natAbs else v ≠ av := by
      simp only [Stat.NumberDiffers, hvalue, Option.mem_def, Option.some.injEq, exists_eq_left']
    have hfar : x.NumberFar av ↔ x.IsTime ∧ v ≠ x.ignored ∧ v ≠ 0 ∧
        difference v av = -9223372036854775808 := by
      simp only [Stat.NumberFar, hvalue, Option.mem_def, Option.some.injEq, exists_eq_left']
    rw [hstored, hdiffers, hfar]
    by_cases hignored : v = x.ignored
    · rw [hignored, expect_ignored h]
      exact .passes (by simp) (by simp)
    · have hv : v ≠ rule.ignored := by rwa [ignored_of_ofType h]
      by_cases htime : rule = .time
      · subst htime
        have hIsTime : x.IsTime := ofType_eq_time_iff.mp h
        simpa only [hIsTime, true_and, hignored, ne_eq, not_false_eq_true] using
          expect_time_outcome (x := x) hv
      · have hIsTime : ¬ x.IsTime := fun hx =>
          htime (Option.some.inj (h.symm.trans (ofType_eq_time_iff.mpr hx)))
        simpa only [hIsTime, false_and, if_false, hignored, ne_eq, not_false_eq_true,
          true_and] using expect_number_outcome (x := x) htime hv

/-- What a turn does with the attribute that stands at its place. -/
theorem statsTurn_outcome (h : x.StoredAt b enla) :
    Outcome (x.SeenToDiffer toleranceUs c anla) (x.FarApart c anla)
      (statsTurn toleranceUs b c enla anla index) := by
  unfold statsTurn
  rw [h.type, h.len]
  by_cases htype : nlaType c anla = x.key
  · rw [expectHeader_of_eq htype]
    by_cases hlen : nlaLen c anla = NLA_HDRLEN + x.numBytes
    · rw [expectHeader_of_eq hlen]
      cases hrule : StatsRule.ofType x.key with
      | none =>
        have hpad := ofType_eq_none_iff.mp hrule
        refine .fails (Or.inr (Or.inr (Or.inl hpad))) fun hfar => ?_
        cases hrule.symm.trans (ofType_eq_time_iff.mpr hfar.2.2.1)
      | some rule =>
        have hkey : (x.key : Nat) ≠ 0 := fun hpad => by
          cases (ofType_eq_none_iff.mpr hpad).symm.trans hrule
        have hnumber : nlaNumber rule.numBytes b enla = x.stored := by
          rw [numBytes_of_ofType hrule, h.number]
        have hdiffers : x.SeenToDiffer toleranceUs c anla ↔
            x.NumberDiffers toleranceUs (nlaNumber x.numBytes c anla) := by
          simp only [Stat.SeenToDiffer, htype, hlen, hkey, ne_eq, not_true_eq_false, false_or]
        have hfar : x.FarApart c anla ↔ x.NumberFar (nlaNumber x.numBytes c anla) := by
          simp only [Stat.FarApart, htype, hlen, true_and]
        rw [hdiffers, hfar, ← numBytes_of_ofType hrule]
        change Outcome _ _ (rule.expect toleranceUs x.key (nlaNumber rule.numBytes b enla) _)
        rw [hnumber]
        exact expect_outcome hrule
    · obtain ⟨message, hheader⟩ := expectHeader_of_ne "nla_len" index hlen
      rw [hheader]
      exact .fails (Or.inr (Or.inl hlen)) fun hfar => hlen hfar.2.1
  · obtain ⟨message, hheader⟩ := expectHeader_of_ne "nla_type" index htype
    rw [hheader]
    exact .fails (Or.inl htype) fun hfar => htype hfar.1

theorem natAbs_difference_le (v av : Nat) :
    (difference v av).natAbs ≤ ((v : Int) - av).natAbs := by
  rw [difference, Int.bmod_def]
  split <;> omega

/-- Numbers that agree are not told apart. -/
theorem Stat.Matches.not_numberDiffers (h : x.Matches toleranceUs c anla) :
    ¬ x.NumberDiffers toleranceUs (nlaNumber x.numBytes c anla) := by
  rintro ⟨v, hv, -, hdiffers⟩
  have hagrees := h.number v hv
  have hle := natAbs_difference_le v (nlaNumber x.numBytes c anla)
  unfold Stat.Agrees at hagrees
  split at hagrees
  · rw [if_pos ‹_›] at hdiffers
    omega
  · rw [if_neg ‹_›] at hdiffers
    exact hdiffers hagrees

/-- Nor is a time that agrees too far apart: the tolerance is an `int`. -/
theorem Stat.Matches.not_numberFar (h : x.Matches toleranceUs c anla) :
    ¬ x.NumberFar (nlaNumber x.numBytes c anla) := by
  rintro ⟨htime, v, hv, -, hzero, hfar⟩
  have hagrees := h.number v hv
  have hle := natAbs_difference_le v (nlaNumber x.numBytes c anla)
  have hint := toleranceUs.toInt_lt
  rw [Stat.Agrees, if_pos ⟨htime, hzero⟩] at hagrees
  rw [hfar] at hle
  omega

namespace Outcome

variable {differs far : Prop} {turn : Except Stop Unit}

theorem stopsWith_iff (h : Outcome differs far turn) : StopsWith Stop.IsFalse turn ↔ ¬ far := by
  cases h with
  | passes _ hfar => exact iff_of_true stopsWith_ok hfar
  | fails _ hfar => exact iff_of_true (stopsWith_error trivial) hfar
  | halts hfar => exact iff_of_false (fun h => h _ rfl) (not_not.mpr hfar)

theorem fails_iff (h : Outcome differs far turn) :
    (∃ e, turn = .error e ∧ e.IsFalse) ↔ differs ∧ ¬ far := by
  cases h with
  | passes hdiffers _ => exact iff_of_false (by simp) fun h => hdiffers h.1
  | fails hdiffers hfar => exact iff_of_true ⟨_, rfl, trivial⟩ ⟨hdiffers, hfar⟩
  | halts hfar =>
    refine iff_of_false ?_ fun h => h.2 hfar
    rintro ⟨e, he, hfalse⟩
    cases he
    exact hfalse

theorem eq_ok_iff (h : Outcome differs far turn) : turn = .ok () ↔ ¬ differs ∧ ¬ far := by
  cases h with
  | passes hdiffers hfar => exact iff_of_true rfl ⟨hdiffers, hfar⟩
  | fails hdiffers _ => exact iff_of_false (by simp) fun h => h.1 hdiffers
  | halts hfar => exact iff_of_false (by simp) fun h => h.2 hfar

end Outcome

/-- An attribute that matches passes if and only if there is a rule for its key. -/
theorem statsTurn_of_matches (h : x.StoredAt b enla) (hmatch : x.Matches toleranceUs c anla) :
    statsTurn toleranceUs b c enla anla index = .ok () ↔ (x.key : Nat) ≠ 0 := by
  rw [(statsTurn_outcome h).eq_ok_iff]
  constructor
  · rintro ⟨hdiffers, -⟩ hpad
    exact hdiffers (Or.inr (Or.inr (Or.inl hpad)))
  · intro hkey
    refine ⟨?_, fun hfar => hmatch.not_numberFar hfar.2.2⟩
    rintro (htype | hlen | hpad | hnumber)
    · exact htype hmatch.type
    · exact hlen hmatch.len
    · exact hkey hpad
    · exact hmatch.not_numberDiffers hnumber

end Turn

/-! ## The loop -/

section Run

variable {toleranceUs : Int32} {b c : Memory} {expected actual len size : Nat} {index : Int}
  {stats : List Stat}

theorem Stat.size_pos (x : Stat) : 0 < x.size := by
  have hsize : NLA_HDRLEN + x.numBytes ≤ x.size := le_nlaAlign _
  unfold NLA_HDRLEN at hsize
  omega

/-- The turn for an attribute with its place. -/
def statsTurnAt (toleranceUs : Int32) (b : Memory) (expected : Nat) (c : Memory) (actual : Nat)
    (index : Int) (place : Nat × Stat) : Except Stop Unit :=
  statsTurn toleranceUs b c (expected + place.1) (actual + place.1) index

/-- The loop takes one turn for each attribute. -/
theorem statsLoop_eq {fuel offset : Nat}
    (hstored : ∀ place ∈ placed Stat.size offset stats, place.2.StoredAt b (expected + place.1))
    (hlen : len = offset + total Stat.size stats) (hfuel : stats.length < fuel) :
    statsLoop toleranceUs b expected c actual len index fuel offset =
      some ((placed Stat.size offset stats).forM
        (statsTurnAt toleranceUs b expected c actual index)) := by
  induction stats generalizing fuel offset with
  | nil =>
    obtain ⟨fuel, rfl⟩ := Nat.exists_eq_add_one_of_ne_zero (Nat.ne_zero_of_lt hfuel)
    rw [statsLoop, if_neg (by simp [hlen])]
    rfl
  | cons x stats ih =>
    obtain ⟨fuel, rfl⟩ := Nat.exists_eq_add_one_of_ne_zero (Nat.ne_zero_of_lt hfuel)
    rw [placed] at hstored ⊢
    obtain ⟨hx, hstats⟩ := List.forall_mem_cons.mp hstored
    have hpos := x.size_pos
    rw [total_cons] at hlen
    rw [List.length_cons] at hfuel
    rw [statsLoop, if_pos (by omega)]
    have hturnAt : statsTurnAt toleranceUs b expected c actual index (offset, x) =
        statsTurn toleranceUs b c (expected + offset) (actual + offset) index := rfl
    cases hturn : statsTurn toleranceUs b c (expected + offset) (actual + offset) index with
    | error stop => rw [forM_cons_of_error (hturnAt.trans hturn)]
    | ok u =>
      have hnext : offset + nlaAlign (nlaLen b (expected + offset)) = offset + x.size := by
        rw [hx.len, Stat.size]
      rw [forM_cons_of_ok (hturnAt.trans hturn), ← hnext]
      rw [← hnext] at hstats
      rw [← Nat.add_assoc, ← hnext] at hlen
      exact ih hstats hlen (by omega)

end Run

/-- Both buffers hold the same attributes in order, with numbers that agree. -/
def StatsMatch (toleranceUs : Int32) (c : Memory) (actual : Nat) (stats : List Stat) : Prop :=
  ∀ place ∈ placed Stat.size 0 stats, place.2.Matches toleranceUs c (actual + place.1)

/-- The comparison comes to an end, and it returns true if and only if everything matches. -/
def ComparesStats (toleranceUs : Int32) (b : Memory) (expected : Nat) (c : Memory)
    (actual len : Nat) (index : Int) (stats : List Stat) : Prop :=
  ∃ result, (∀ fuel, stats.length < fuel →
      scmOptStatsExpectEq toleranceUs b expected c actual len index fuel = some result) ∧
    (StatsMatch toleranceUs c actual stats → result = .ok ()) ∧
    (¬ StatsMatch toleranceUs c actual stats → ∃ message, result = .error (.error message))

/-- There is a rule for every key if everything matches. Otherwise an attribute is seen to differ,
and no times are too far apart until then. -/
structure SeenRightly (toleranceUs : Int32) (c : Memory) (actual : Nat) (stats : List Stat) :
    Prop where
  rule : StatsMatch toleranceUs c actual stats → ∀ x ∈ stats, (x.key : Nat) ≠ 0
  seen : ¬ StatsMatch toleranceUs c actual stats → ∃ before place after,
    placed Stat.size 0 stats = before ++ place :: after ∧
      (∀ other ∈ before, ¬ other.2.FarApart c (actual + other.1)) ∧
      place.2.SeenToDiffer toleranceUs c (actual + place.1) ∧
      ¬ place.2.FarApart c (actual + place.1)

section Verdict

variable {toleranceUs : Int32} {b c : Memory} {expected actual : Nat} {index : Int}
  {stats : List Stat}

/-- What the turns say if everything matches. -/
theorem forM_statsTurnAt_of_match
    (hstored : ∀ place ∈ placed Stat.size 0 stats, place.2.StoredAt b (expected + place.1))
    (hmatch : StatsMatch toleranceUs c actual stats) :
    (placed Stat.size 0 stats).forM (statsTurnAt toleranceUs b expected c actual index) = .ok () ↔
      ∀ x ∈ stats, (x.key : Nat) ≠ 0 := by
  have hturn : ∀ place ∈ placed Stat.size 0 stats,
      (statsTurnAt toleranceUs b expected c actual index place = .ok () ↔
        (place.2.key : Nat) ≠ 0) :=
    fun place hplace => statsTurn_of_matches (hstored place hplace) (hmatch place hplace)
  rw [forM_eq_ok_iff]
  constructor
  · intro hall x hx
    have hmap : (placed Stat.size 0 stats).map Prod.snd = stats := map_snd_placed
    rw [← hmap] at hx
    obtain ⟨place, hplace, rfl⟩ := List.mem_map.mp hx
    exact (hturn place hplace).mp (hall place hplace)
  · intro hkeys place hplace
    have hmem := List.mem_map_of_mem (f := Prod.snd) hplace
    rw [map_snd_placed] at hmem
    exact (hturn place hplace).mpr (hkeys place.2 hmem)

/-- And what they say if something is seen to differ. -/
theorem forM_statsTurnAt_fails
    (hstored : ∀ place ∈ placed Stat.size 0 stats, place.2.StoredAt b (expected + place.1)) :
    (∃ stop, (placed Stat.size 0 stats).forM (statsTurnAt toleranceUs b expected c actual index) =
        .error stop ∧ stop.IsFalse) ↔
      ∃ before place after, placed Stat.size 0 stats = before ++ place :: after ∧
        (∀ other ∈ before, ¬ other.2.FarApart c (actual + other.1)) ∧
        place.2.SeenToDiffer toleranceUs c (actual + place.1) ∧
        ¬ place.2.FarApart c (actual + place.1) := by
  have hturn : ∀ place ∈ placed Stat.size 0 stats,
      Outcome (place.2.SeenToDiffer toleranceUs c (actual + place.1))
        (place.2.FarApart c (actual + place.1))
        (statsTurnAt toleranceUs b expected c actual index place) :=
    fun place hplace => statsTurn_outcome (hstored place hplace)
  rw [forM_fails_iff]
  refine exists_congr fun before => exists_congr fun place => exists_congr fun after => ?_
  refine and_congr_right fun hsplit => ?_
  rw [hsplit] at hturn
  have hbefore : ∀ other ∈ before,
      (StopsWith Stop.IsFalse (statsTurnAt toleranceUs b expected c actual index other) ↔
        ¬ other.2.FarApart c (actual + other.1)) :=
    fun other hother => (hturn other (List.mem_append_left _ hother)).stopsWith_iff
  have hplace := (hturn place (by simp)).fails_iff
  exact and_congr (forall₂_congr hbefore) hplace

end Verdict

theorem comparesStats_iff (size : Nat) (b b' : Memory) (expected : Nat) (list : List Expression)
    (len : Nat) (h : nlaExprListToNla size b expected list = .ok (b', len)) (toleranceUs : Int32)
    (c : Memory) (actual : Nat) (index : Int) :
    ComparesStats toleranceUs b' expected c actual len index (statsOf list) ↔
      SeenRightly toleranceUs c actual (statsOf list) := by
  obtain ⟨s, hloop, hlen⟩ := bind_eq_ok_iff.mp h
  obtain ⟨rfl, rfl⟩ := Prod.mk.inj (pure_eq_ok_iff.mp hlen)
  obtain ⟨hall, hdst⟩ := foldlM_nlaStep_eq_ok hloop
  have hstored : ∀ place ∈ placed Stat.size 0 (statsOf list),
      place.2.StoredAt s.b (expected + place.1) := by
    intro place hplace
    apply hall (expected + place.1, place.2)
    rw [← Nat.add_zero expected, placed_add]
    exact List.mem_map_of_mem hplace
  have hrun : ∀ fuel, (statsOf list).length < fuel →
      scmOptStatsExpectEq toleranceUs s.b expected c actual (s.dst - expected) index fuel =
        some ((placed Stat.size 0 (statsOf list)).forM
          (statsTurnAt toleranceUs s.b expected c actual index)) := by
    intro fuel hfuel
    refine statsLoop_eq hstored ?_ hfuel
    simp only at hdst
    omega
  constructor
  · rintro ⟨result, hresult, htrue, hfalse⟩
    obtain rfl := Option.some.inj ((hrun _ (Nat.lt_succ_self _)).symm.trans
      (hresult _ (Nat.lt_succ_self _)))
    refine ⟨fun hmatch => (forM_statsTurnAt_of_match hstored hmatch).mp (htrue hmatch), ?_⟩
    intro hdiffers
    obtain ⟨message, hmessage⟩ := hfalse hdiffers
    exact (forM_statsTurnAt_fails hstored).mp ⟨_, hmessage, trivial⟩
  · rintro ⟨hrule, hseen⟩
    refine ⟨_, hrun, ?_, ?_⟩
    · intro hmatch
      exact (forM_statsTurnAt_of_match hstored hmatch).mpr (hrule hmatch)
    · intro hdiffers
      obtain ⟨stop, hstop, hfalse⟩ := (forM_statsTurnAt_fails hstored).mpr (hseen hdiffers)
      cases stop with
      | error message => exact ⟨message, hstop⟩
      | _ => cases hfalse

/-- `TCP_NLA_CA_STATE = 255` -/
def caState : List Expression := [.binary "=" (.integer 14) (.integer 255)]

/-- The attribute with another state. -/
def actualState : Memory := .ofList (nlaBytes 14 1 [1])

theorem comparesStats_iff_caState : ∃ b' len,
    nlaExprListToNla MSGHDR_MAX_CONTROLLEN (fun _ => 0) 0 caState = .ok (b', len) ∧
      (ComparesStats 4000 b' 0 actualState 0 len 0 (statsOf caState) ↔
        SeenRightly 4000 actualState 0 (statsOf caState)) :=
  ⟨_, _, rfl, comparesStats_iff MSGHDR_MAX_CONTROLLEN (fun _ => 0) _ 0 caState _ rfl 4000
    actualState 0 0⟩

/-- The explicit 255 stands for an ellipsis as well. -/
theorem not_forall_comparesStats :
    ¬ ∀ size b b' expected list len,
      nlaExprListToNla size b expected list = .ok (b', len) →
      ∀ toleranceUs c actual index,
        ComparesStats toleranceUs b' expected c actual len index (statsOf list) := by
  intro h
  obtain ⟨result, hresult, -, hfalse⟩ :=
    h MSGHDR_MAX_CONTROLLEN (fun _ => 0) _ 0 caState _ rfl 4000 actualState 0 0
  have hdiffers : ¬ StatsMatch 4000 actualState 0 (statsOf caState) := by
    intro hmatch
    have hagrees := (hmatch _ List.mem_cons_self).number 255 rfl
    rw [Stat.Agrees, if_neg (by decide)] at hagrees
    exact absurd hagrees (by decide)
  obtain ⟨message, rfl⟩ := hfalse hdiffers
  have hrun := hresult 2 (by decide)
  have htrue : scmOptStatsExpectEq 4000 (writeBytes (fun _ => 0) 0 (nlaBytes 14 1 [255])) 0
      actualState 0 8 0 2 = some (.ok ()) := by decide
  cases htrue.symm.trans hrun

end QoSMos.ControlMessage
