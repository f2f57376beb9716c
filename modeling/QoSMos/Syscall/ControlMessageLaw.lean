import QoSMos.Lib.MeasuredLoop
import QoSMos.Syscall.ControlMessage

/-!
# The room for control messages

`cmsg_new` does not look at the room that is left, nor at the keys of attributes. What goes well is
said of the entries that it reaches: in front of them there are well-formed ones only, so that their
place is the sum of the sizes before.
-/

namespace QoSMos.ControlMessage

open Script Returns MeasuredLoop

/-! ## Entries -/

/-- An integer that `get_s32` takes. -/
def IsS32 (expression : Expression) : Prop :=
  ∃ num : Int64, expression = .integer num ∧ -2147483648 ≤ num.toInt ∧ num.toInt ≤ 4294967295

/-- `key = value` with a key and a value of a kind that is taken. -/
def keyValue : Expression → Option (Int64 × Expression)
  | .binary op (.integer key) value =>
    if op = "=" ∧ nlaValueIsValid value then some (key, value) else none
  | _ => none

/-- The bytes of an attribute. -/
def attributeSize (element : Expression) : Nat :=
  match (keyValue element).bind fun (key, _) => nlaInfo key.toInt with
  | some info => nlaAlign (NLA_HDRLEN + info.length)
  | none => 0

/-- An attribute of the table with a value that its field can hold. -/
def GoodAttribute (element : Expression) : Prop :=
  ∃ key value info, keyValue element = some (key, value) ∧ nlaInfo key.toInt = some info ∧
    inWidth info.length value

/-- The key is one of the table, and there is room for the attribute. -/
def AttributeFits (size n : Nat) (element : Expression) : Prop :=
  ∀ key value, keyValue element = some (key, value) → ∃ info, nlaInfo key.toInt = some info ∧
    (inWidth info.length value → n + attributeSize element ≤ size)

/-- The fields of an extended error that are stored have room. -/
def ErrorFits (size n : Nat) (fields : List (Nat × Expression)) : Prop :=
  AllFit (fun _ => 0) (fun field => IsS32 field.2)
    (fun n field => IsS32 field.2 → n + field.1 + 4 ≤ size) n fields

def isSolIp : Expression → Bool
  | .integer num => decide (num.toInt = SOL_IP)
  | _ => false

/-- `len` of the data. -/
def dataLen (cmsgLevel : Expression) : Expression → Nat
  | .integer _ => 4
  | .scmTimestamping _ => 48
  | .list stats => total attributeSize stats
  | .sockExtendedErr _ _ _ _ _ _ =>
    EXTENDED_ERR_BYTES +
      if isSolIp cmsgLevel then SOCKADDR_IN_BYTES else SOCKADDR_IN6_BYTES
  | _ => 0

def GoodData : Expression → Prop
  | .integer num => IsS32 (.integer num)
  | .scmTimestamping _ => True
  | .list stats => ∀ element ∈ stats, GoodAttribute element
  | .sockExtendedErr eeErrno eeOrigin eeType eeCode eeInfo eeData =>
    ∀ field ∈ extendedErrStores eeErrno eeOrigin eeType eeCode eeInfo eeData, IsS32 field.2
  | _ => False

/-- As much of the data as is stored has room. -/
def DataFits (n : Nat) : Expression → Prop
  | .integer num => IsS32 (.integer num) → n + 4 ≤ MSGHDR_MAX_CONTROLLEN
  | .scmTimestamping _ => n + 48 ≤ MSGHDR_MAX_CONTROLLEN
  | .list stats =>
    AllFit attributeSize GoodAttribute (AttributeFits MSGHDR_MAX_CONTROLLEN) n stats
  | .sockExtendedErr eeErrno eeOrigin eeType eeCode eeInfo eeData =>
    ErrorFits MSGHDR_MAX_CONTROLLEN n
      (extendedErrStores eeErrno eeOrigin eeType eeCode eeInfo eeData)
  | _ => True

/-- `CMSG_SPACE` of an entry. -/
def entrySpace : Expression → Nat
  | .cmsg cmsgLevel _ cmsgData => cmsgSpace (dataLen cmsgLevel cmsgData)
  | _ => 0

def GoodEntry : Expression → Prop
  | .cmsg cmsgLevel cmsgType cmsgData => IsS32 cmsgLevel ∧ IsS32 cmsgType ∧ GoodData cmsgData
  | _ => False

/-- The header has room if something is stored in it, and so has what is stored of the data. -/
def EntryFits (n : Nat) : Expression → Prop
  | .cmsg cmsgLevel cmsgType cmsgData =>
    IsS32 cmsgLevel → n + CMSGHDR_BYTES ≤ MSGHDR_MAX_CONTROLLEN ∧
      (IsS32 cmsgType → DataFits (n + CMSGHDR_BYTES) cmsgData)
  | _ => True

/-- A reason to stop that C defines. -/
def Stop.IsDefined : Stop → Prop
  | .halt (.undefined _ _) => False
  | _ => True

/-! ## Stores -/

section Stores

variable {α : Type} {size n offset : Nat} {b b' : Memory} {expression : Expression} {value : Int}
  {bytes : List UInt8} {function operation : String}

@[simp] theorem length_s32Bytes : (s32Bytes value).length = 4 := LittleEndian.length_encode

@[simp] theorem length_s64Bytes : (s64Bytes value).length = 8 := LittleEndian.length_encode

theorem checked_stops (call : Syscall.Checked α) : StopsWith Stop.IsDefined (checked call) := by
  intro e he
  cases call with
  | ok a => cases he
  | error message =>
    cases he
    trivial

theorem checked_eq_ok_iff {call : Syscall.Checked α} {a : α} :
    checked call = .ok a ↔ call = .ok a := by
  cases call with
  | ok b => simp [checked, Except.mapError]
  | error message => simp [checked, Except.mapError]

theorem getS32_eq_ok_iff : getS32 expression = .ok value ↔
    ∃ num : Int64, expression = .integer num ∧
      (-2147483648 ≤ num.toInt ∧ num.toInt ≤ 4294967295) ∧ Syscall.toInt num.toInt = value := by
  rw [getS32, checked_eq_ok_iff]
  constructor
  · intro h
    obtain ⟨num, hnum, h⟩ := bind_eq_ok_iff.mp h
    obtain ⟨n, rfl⟩ : ∃ n : Int64, expression = .integer n := by
      cases expression <;> first | exact ⟨_, rfl⟩ | cases hnum
    obtain rfl := Except.ok.inj hnum
    split at h
    · cases h
    · rename_i hrange
      exact ⟨n, rfl, by omega, pure_eq_ok_iff.mp h⟩
  · rintro ⟨num, rfl, hrange, rfl⟩
    exact if_neg (by omega)

theorem isS32_iff : IsS32 expression ↔ ∃ value, getS32 expression = .ok value := by
  simp only [getS32_eq_ok_iff]
  constructor
  · rintro ⟨num, rfl, hrange⟩
    exact ⟨_, num, rfl, hrange, rfl⟩
  · rintro ⟨-, num, rfl, hrange, -⟩
    exact ⟨num, rfl, hrange⟩

theorem halted_storeInside_stops_iff :
    StopsWith Stop.IsDefined (halted (storeInside size b offset bytes function operation)) ↔
      offset + bytes.length ≤ size := by
  by_cases h : offset + bytes.length ≤ size
  · rw [storeInside_of_le h]
    exact iff_of_true stopsWith_ok h
  · rw [storeInside_of_lt (Nat.lt_of_not_le h)]
    exact iff_of_false (fun hstops => hstops _ rfl) h

theorem halted_storeInside_eq_ok
    (h : halted (storeInside size b offset bytes function operation) = .ok b') :
    offset + bytes.length ≤ size ∧ b' = writeBytes b offset bytes := by
  by_cases hle : offset + bytes.length ≤ size
  · rw [storeInside_of_le hle] at h
    exact ⟨hle, (Except.ok.inj h).symm⟩
  · rw [storeInside_of_lt (Nat.lt_of_not_le hle)] at h
    cases h

theorem halted_storeInside_of_le (h : offset + bytes.length ≤ size) :
    halted (storeInside size b offset bytes function operation) =
      .ok (writeBytes b offset bytes) := by
  rw [storeInside_of_le h]
  rfl

/-- Nothing is done with a value where the expression is refused. -/
theorem getS32_bind_stops_iff {store : Int → Except Stop α} {fits : Prop}
    (h : ∀ value, StopsWith Stop.IsDefined (store value) ↔ fits) :
    StopsWith Stop.IsDefined (getS32 expression >>= store) ↔ (IsS32 expression → fits) := by
  rw [stopsWith_bind_iff, isS32_iff]
  constructor
  · rintro ⟨-, hstore⟩ ⟨value, hvalue⟩
    exact (h value).mp (hstore value hvalue)
  · intro hfits
    exact ⟨checked_stops _, fun value hvalue => (h value).mpr (hfits ⟨value, hvalue⟩)⟩

theorem getS32At_stops_iff : StopsWith Stop.IsDefined (getS32At size b offset expression) ↔
    (IsS32 expression → offset + 4 ≤ size) := by
  apply getS32_bind_stops_iff
  intro value
  rw [halted_storeInside_stops_iff, length_s32Bytes]

theorem getS32At_of_isS32 (h : IsS32 expression) (hle : offset + 4 ≤ size) :
    ∃ b', getS32At size b offset expression = .ok b' := by
  obtain ⟨value, hvalue⟩ := isS32_iff.mp h
  rw [getS32At, bind_of_ok hvalue, halted_storeInside_of_le (by simpa using hle)]
  exact ⟨_, rfl⟩

theorem getS32At_eq_ok (h : getS32At size b offset expression = .ok b') :
    ∃ value, getS32 expression = .ok value ∧ b' = writeBytes b offset (s32Bytes value) := by
  obtain ⟨value, hvalue, hstore⟩ := bind_eq_ok_iff.mp h
  exact ⟨value, hvalue, (halted_storeInside_eq_ok hstore).2⟩

end Stores

/-! ## Data -/

section Data

variable {size n start level : Nat} {b b' : Memory} {s t : Attributes}
  {element data cmsgLevel : Expression} {elements : List Expression}
  {eeErrno eeOrigin eeType eeCode eeInfo eeData : Expression}

/-- A field of an extended error does not move the others. -/
theorem newExtendedErr_turn (size ee : Nat) :
    Turn (fun b (field : Nat × Expression) => getS32At size b (ee + field.1) field.2)
      Stop.IsDefined (fun _ n => n = ee) (fun _ => 0) (fun field => IsS32 field.2)
      (fun n field => IsS32 field.2 → n + field.1 + 4 ≤ size) where
  stops := by
    rintro b _ field rfl
    exact getS32At_stops_iff
  returns := by
    rintro b _ field b' rfl hok
    obtain ⟨value, hvalue, -⟩ := getS32At_eq_ok hok
    exact ⟨isS32_iff.mpr ⟨value, hvalue⟩, rfl⟩
  goesOn := by
    rintro b _ field rfl hgood hstops
    exact getS32At_of_isS32 hgood (getS32At_stops_iff.mp hstops hgood)

theorem length_getNlaValue (value : Expression) (numBytes : Nat) :
    (getNlaValue value numBytes).length = numBytes := by
  cases value <;> exact LittleEndian.length_encode

theorem le_nlaAlign (len : Nat) : len ≤ nlaAlign len := by
  unfold nlaAlign
  omega

theorem length_nlaBytes {type len : Nat} {bytes : List UInt8} (h : bytes.length = len) :
    (nlaBytes type len bytes).length = nlaAlign (NLA_HDRLEN + len) := by
  have hle := le_nlaAlign (NLA_HDRLEN + len)
  simp only [nlaBytes, List.length_append, LittleEndian.length_encode, h, List.length_replicate,
    NLA_HDRLEN] at hle ⊢
  omega

theorem keyValue_eq_some {key : Int64} {value : Expression}
    (h : keyValue element = some (key, value)) :
    element = .binary "=" (.integer key) value ∧ nlaValueIsValid value = true := by
  cases element with
  | binary op lhs rhs =>
    cases lhs with
    | integer num =>
      by_cases hvalid : op = "=" ∧ nlaValueIsValid rhs = true
      · rw [keyValue, if_pos hvalid] at h
        cases h
        exact ⟨by rw [hvalid.1], hvalid.2⟩
      · rw [keyValue, if_neg hvalid] at h
        cases h
    | _ => cases h
  | _ => cases h

/-- An element that is no attribute is refused with a message, or without one. -/
theorem nlaStep_of_keyValue_none (size : Nat) (s : Attributes) (h : keyValue element = none) :
    ∃ message, nlaStep size s element = .error (.error message) := by
  cases element with
  | binary op key value =>
    by_cases hop : op = "="
    · cases key with
      | integer keyNum =>
        have hvalue : nlaValueIsValid value = false := by simpa [keyValue, hop] using h
        simp only [nlaStep, hop, hvalue]
        exact ⟨_, rfl⟩
      | _ =>
        simp only [nlaStep, hop]
        exact ⟨_, rfl⟩
    · simp only [nlaStep, ne_eq, hop, not_false_eq_true, if_true]
      exact ⟨_, rfl⟩
  | _ => exact ⟨_, rfl⟩

/-- An attribute is looked up and stored. -/
theorem nlaStep_of_keyValue {key : Int64} {value : Expression}
    (h : keyValue element = some (key, value)) :
    nlaStep size s element =
      match nlaInfo key.toInt with
      | none => .error (.halt (.undefined "nla_expr_list_to_nla" "nla_info[key_num].length"))
      | some info =>
        if ¬ inWidth info.length value then
          .error (.die (s!"out of bound u{8 * info.length} value specified" ++ "\n"))
        else do
          let attr := nlaBytes key.toInt.toNat info.length (getNlaValue value info.length)
          let b ← halted (storeInside size s.b s.dst attr "add_nla"
            "memcpy(dst + NLA_HDRLEN, data, len)")
          return ⟨b, s.dst + nlaAlign (NLA_HDRLEN + info.length)⟩ := by
  obtain ⟨rfl, hvalue⟩ := keyValue_eq_some h
  simp only [nlaStep, hvalue]
  rfl

theorem attributeSize_eq {key : Int64} {value : Expression} {info : NlaTypeInfo}
    (h : keyValue element = some (key, value)) (hinfo : nlaInfo key.toInt = some info) :
    attributeSize element = nlaAlign (NLA_HDRLEN + info.length) := by
  simp [attributeSize, h, hinfo]

theorem nlaStep_turn (size : Nat) :
    Turn (nlaStep size) Stop.IsDefined (fun s n => s.dst = n) attributeSize GoodAttribute
      (AttributeFits size) where
  stops := by
    rintro s _ element rfl
    cases hkey : keyValue element with
    | none =>
      obtain ⟨message, hstep⟩ := nlaStep_of_keyValue_none size s hkey
      rw [hstep]
      refine iff_of_true (stopsWith_error trivial) ?_
      intro key value hsome
      rw [hkey] at hsome
      cases hsome
    | some pair =>
      obtain ⟨key, value⟩ := pair
      rw [nlaStep_of_keyValue hkey]
      cases hinfo : nlaInfo key.toInt with
      | none =>
        refine iff_of_false (fun hstops => hstops _ rfl) ?_
        intro hfits
        obtain ⟨info, hsome, -⟩ := hfits key value hkey
        rw [hinfo] at hsome
        cases hsome
      | some info =>
        have hfits : AttributeFits size s.dst element ↔
            (inWidth info.length value → s.dst + attributeSize element ≤ size) := by
          constructor
          · intro hfits
            obtain ⟨info', hsome, hroom⟩ := hfits key value hkey
            obtain rfl := Option.some.inj (hinfo.symm.trans hsome)
            exact hroom
          · rintro hroom key' value' hkey'
            obtain ⟨rfl, rfl⟩ := Prod.mk.inj (Option.some.inj (hkey.symm.trans hkey'))
            exact ⟨info, hinfo, hroom⟩
        rw [hfits, attributeSize_eq hkey hinfo]
        by_cases hwidth : inWidth info.length value = true
        · simp only [hwidth, not_true_eq_false, if_false, forall_const, stopsWith_bind_pure_iff,
            halted_storeInside_stops_iff, length_nlaBytes (length_getNlaValue ..)]
        · simp only [hwidth, Bool.false_eq_true, not_false_eq_true, if_true]
          exact iff_of_true (stopsWith_error trivial) fun h => absurd h id
  returns := by
    rintro s _ element t rfl hok
    cases hkey : keyValue element with
    | none =>
      obtain ⟨message, hstep⟩ := nlaStep_of_keyValue_none size s hkey
      rw [hstep] at hok
      cases hok
    | some pair =>
      obtain ⟨key, value⟩ := pair
      rw [nlaStep_of_keyValue hkey] at hok
      cases hinfo : nlaInfo key.toInt with
      | none =>
        rw [hinfo] at hok
        cases hok
      | some info =>
        simp only [hinfo] at hok
        by_cases hwidth : inWidth info.length value = true
        · rw [if_neg (not_not.mpr hwidth)] at hok
          obtain ⟨b, -, hok⟩ := bind_eq_ok_iff.mp hok
          obtain rfl := Except.ok.inj hok
          exact ⟨⟨key, value, info, hkey, hinfo, hwidth⟩, by rw [attributeSize_eq hkey hinfo]⟩
        · rw [if_pos hwidth] at hok
          cases hok
  goesOn := by
    rintro s _ element rfl ⟨key, value, info, hkey, hinfo, hwidth⟩ hstops
    rw [nlaStep_of_keyValue hkey] at hstops ⊢
    simp only [hinfo, hwidth, not_true_eq_false, if_false, stopsWith_bind_iff,
      halted_storeInside_stops_iff] at hstops ⊢
    rw [halted_storeInside_of_le hstops.1]
    exact ⟨_, rfl⟩

/-! The four kinds of data -/

theorem nlaExprListToNla_stops_iff :
    StopsWith Stop.IsDefined (nlaExprListToNla size b n elements) ↔
      AllFit attributeSize GoodAttribute (AttributeFits size) n elements := by
  rw [nlaExprListToNla, stopsWith_bind_pure_iff,
    (nlaStep_turn size).stopsWith_foldlM_iff (s := ⟨b, n⟩) rfl]

theorem nlaExprListToNla_eq_ok {len : Nat}
    (h : nlaExprListToNla size b n elements = .ok (b', len)) :
    (∀ element ∈ elements, GoodAttribute element) ∧ len = total attributeSize elements := by
  obtain ⟨s, hloop, h⟩ := bind_eq_ok_iff.mp h
  obtain ⟨hgood, hdst⟩ := (nlaStep_turn size).foldlM_returns (s := ⟨b, n⟩) rfl hloop
  obtain ⟨-, rfl⟩ := Prod.mk.inj (Except.ok.inj h)
  exact ⟨hgood, by rw [hdst, Nat.add_sub_cancel_left]⟩

theorem newExtendedErr_stops_iff :
    StopsWith Stop.IsDefined
        (newExtendedErr size b n eeErrno eeOrigin eeType eeCode eeInfo eeData) ↔
      ErrorFits size n (extendedErrStores eeErrno eeOrigin eeType eeCode eeInfo eeData) :=
  (newExtendedErr_turn size n).stopsWith_foldlM_iff rfl

theorem length_times (ts : Vector (Int × Int) 3) :
    (ts.toList.flatMap fun time => s64Bytes time.1 ++ s64Bytes time.2).length = 48 := by
  rw [List.length_flatMap]
  simp

theorem storeData_stops_iff {level : Int} :
    StopsWith Stop.IsDefined (storeData b level n data) ↔ DataFits n data := by
  cases data with
  | integer num =>
    rw [storeData, stopsWith_bind_pure_iff, getS32At_stops_iff]
    rfl
  | scmTimestamping ts =>
    simp only [storeData, stopsWith_bind_pure_iff, halted_storeInside_stops_iff, length_times]
    rfl
  | list stats => exact nlaExprListToNla_stops_iff
  | sockExtendedErr eeErrno eeOrigin eeType eeCode eeInfo eeData =>
    simp only [storeData, stopsWith_bind_pure_iff, newExtendedErr_stops_iff]
    rfl
  | _ => exact iff_of_true (stopsWith_error trivial) trivial

/-- The level that was stored says which address follows an extended error. -/
theorem isSolIp_iff {level : Int} (h : getS32 cmsgLevel = .ok level) :
    isSolIp cmsgLevel = true ↔ level = SOL_IP := by
  obtain ⟨num, rfl, hrange, rfl⟩ := getS32_eq_ok_iff.mp h
  rw [isSolIp, decide_eq_true_iff, SOL_IP, Syscall.toInt, Int.bmod_def]
  split <;> omega

theorem storeData_eq_ok {level : Int} {len : Nat} (hlevel : getS32 cmsgLevel = .ok level)
    (h : storeData b level n data = .ok (b', len)) :
    GoodData data ∧ len = dataLen cmsgLevel data := by
  cases data with
  | integer num =>
    obtain ⟨b₁, hstore, h⟩ := bind_eq_ok_iff.mp h
    obtain ⟨-, rfl⟩ := Prod.mk.inj (Except.ok.inj h)
    obtain ⟨value, hvalue, -⟩ := getS32At_eq_ok hstore
    exact ⟨isS32_iff.mpr ⟨value, hvalue⟩, rfl⟩
  | scmTimestamping ts =>
    obtain ⟨b₁, -, h⟩ := bind_eq_ok_iff.mp h
    obtain ⟨-, rfl⟩ := Prod.mk.inj (Except.ok.inj h)
    exact ⟨trivial, length_times ts⟩
  | list stats => exact nlaExprListToNla_eq_ok h
  | sockExtendedErr eeErrno eeOrigin eeType eeCode eeInfo eeData =>
    obtain ⟨b₁, hstore, h⟩ := bind_eq_ok_iff.mp h
    obtain ⟨-, rfl⟩ := Prod.mk.inj (Except.ok.inj h)
    refine ⟨((newExtendedErr_turn _ n).foldlM_returns rfl hstore).1, ?_⟩
    by_cases hip : level = SOL_IP
    · rw [dataLen, if_pos hip, if_pos ((isSolIp_iff hlevel).mpr hip)]
    · rw [dataLen, if_neg hip, if_neg (mt (isSolIp_iff hlevel).mp hip)]
  | _ => cases h

theorem storeData_of_good (b : Memory) (level : Int) (hgood : GoodData data)
    (hstops : StopsWith Stop.IsDefined (storeData b level n data)) :
    ∃ stored, storeData b level n data = .ok stored := by
  have hfits := storeData_stops_iff.mp hstops
  cases data with
  | integer num =>
    obtain ⟨b', hb'⟩ := getS32At_of_isS32 (b := b) hgood (hfits hgood)
    rw [storeData, bind_of_ok hb']
    exact ⟨_, rfl⟩
  | scmTimestamping ts =>
    simp only [storeData]
    rw [halted_storeInside_of_le (by rw [length_times]; exact hfits)]
    exact ⟨_, rfl⟩
  | list stats =>
    have hloop := (stopsWith_bind_iff.mp hstops).1
    obtain ⟨s, hs⟩ := (nlaStep_turn _).foldlM_goesOn (s := ⟨b, n⟩) rfl hgood hloop
    rw [storeData, nlaExprListToNla, bind_of_ok hs]
    exact ⟨_, rfl⟩
  | sockExtendedErr eeErrno eeOrigin eeType eeCode eeInfo eeData =>
    have hloop := newExtendedErr_stops_iff (b := b) |>.mpr hfits
    obtain ⟨b', hb'⟩ := (newExtendedErr_turn _ n).foldlM_goesOn rfl hgood hloop
    simp only [storeData, newExtendedErr, bind_of_ok hb']
    exact ⟨_, rfl⟩
  | _ => cases hgood

end Data

/-! ## The loop -/

section Loop

variable {n cmsg field len : Nat} {b b' : Memory} {header : Option Nat} {s t : Control}
  {expression cmsgLevel cmsgType cmsgData : Expression} {value : Int}

/-- A header is looked at only if the expression is taken. -/
theorem getS32AtHeader_stops_iff :
    StopsWith Stop.IsDefined (getS32AtHeader b header field expression) ↔
      (IsS32 expression →
        ∃ cmsg, header = some cmsg ∧ cmsg + field + 4 ≤ MSGHDR_MAX_CONTROLLEN) := by
  apply getS32_bind_stops_iff
  intro value
  cases header with
  | none =>
    refine iff_of_false (fun hstops => hstops _ rfl) ?_
    rintro ⟨cmsg, hnone, -⟩
    cases hnone
  | some cmsg =>
    simp only [stopsWith_bind_pure_iff, halted_storeInside_stops_iff, length_s32Bytes,
      Option.some.injEq, exists_eq_left']

theorem getS32AtHeader_eq_ok
    (h : getS32AtHeader b header field expression = .ok (cmsg, value, b')) :
    header = some cmsg ∧ getS32 expression = .ok value := by
  obtain ⟨value', hvalue, h⟩ := bind_eq_ok_iff.mp h
  cases header with
  | none => cases h
  | some cmsg' =>
    obtain ⟨b₁, -, h⟩ := bind_eq_ok_iff.mp h
    obtain ⟨hcmsg, hrest⟩ := Prod.mk.inj (pure_eq_ok_iff.mp h)
    obtain ⟨rfl, -⟩ := Prod.mk.inj hrest
    exact ⟨congrArg some hcmsg, hvalue⟩

theorem getS32AtHeader_of_isS32 (h : IsS32 expression)
    (hle : cmsg + field + 4 ≤ MSGHDR_MAX_CONTROLLEN) :
    ∃ value b', getS32AtHeader b (some cmsg) field expression = .ok (cmsg, value, b') := by
  obtain ⟨value, hvalue⟩ := isS32_iff.mp h
  refine ⟨value, writeBytes b (cmsg + field) (s32Bytes value), ?_⟩
  rw [getS32AtHeader, bind_of_ok hvalue]
  simp only [halted_storeInside_of_le (show cmsg + field + (s32Bytes value).length ≤
    MSGHDR_MAX_CONTROLLEN by simpa using hle)]
  rfl

/-- The header at an offset, if there is room for it. -/
def headerAt (n : Nat) : Option Nat :=
  if n + CMSGHDR_BYTES ≤ MSGHDR_MAX_CONTROLLEN then some n else none

theorem cmsgNxthdr_cmsgLen : cmsgNxthdr n (cmsgLen len) = headerAt (n + cmsgSpace len) := by
  have halign : cmsgAlign (cmsgLen len) = cmsgSpace len := by
    simp only [cmsgLen, cmsgSpace, cmsgAlign, CMSGHDR_BYTES]
    omega
  rw [cmsgNxthdr, halign, headerAt]

/-- The variables at the beginning of a turn. -/
def Control.At (s : Control) (n : Nat) : Prop := s.sum = n ∧ s.cmsg = headerAt n

theorem cmsgStep_stops_iff (hs : s.At n) :
    StopsWith Stop.IsDefined (cmsgStep s (.cmsg cmsgLevel cmsgType cmsgData)) ↔
      EntryFits n (.cmsg cmsgLevel cmsgType cmsgData) := by
  by_cases hroom : n + CMSGHDR_BYTES ≤ MSGHDR_MAX_CONTROLLEN
  · have hheader : s.cmsg = some n := hs.2.trans (if_pos hroom)
    have hfield : ∀ field ≤ 12, n + field + 4 ≤ MSGHDR_MAX_CONTROLLEN := by
      simp only [CMSGHDR_BYTES] at hroom
      omega
    have hstops : ∀ b field expression, field ≤ 12 →
        StopsWith Stop.IsDefined (getS32AtHeader b (some n) field expression) := by
      intro b field expression hle
      exact getS32AtHeader_stops_iff.mpr fun _ => ⟨n, rfl, hfield field hle⟩
    rw [cmsgStep, hheader, stopsWith_bind_iff]
    simp only [EntryFits, hroom, true_and]
    constructor
    · rintro ⟨-, hrest⟩ hlevel htype
      obtain ⟨level, b₁, hb₁⟩ := getS32AtHeader_of_isS32 (b := s.b) hlevel (hfield 8 (by decide))
      obtain ⟨type, b₂, hb₂⟩ := getS32AtHeader_of_isS32 (b := b₁) htype (hfield 12 (by decide))
      have hdata := (stopsWith_bind_iff.mp ((stopsWith_bind_iff.mp (hrest _ hb₁)).2 _ hb₂)).1
      exact storeData_stops_iff.mp hdata
    · intro hfits
      refine ⟨hstops _ _ _ (by decide), fun first hfirst => ?_⟩
      obtain ⟨c₁, level, b₁⟩ := first
      obtain ⟨-, hlevel⟩ := getS32AtHeader_eq_ok hfirst
      refine stopsWith_bind_iff.mpr ⟨hstops _ _ _ (by decide), fun second hsecond => ?_⟩
      obtain ⟨c₂, type, b₂⟩ := second
      obtain ⟨hn, htype⟩ := getS32AtHeader_eq_ok hsecond
      obtain rfl := Option.some.inj hn
      have hdata := hfits (isS32_iff.mpr ⟨level, hlevel⟩) (isS32_iff.mpr ⟨type, htype⟩)
      refine stopsWith_bind_iff.mpr ⟨storeData_stops_iff.mpr hdata, fun stored _ => ?_⟩
      refine stopsWith_bind_iff.mpr ⟨?_, fun _ _ => stopsWith_ok⟩
      rw [halted_storeInside_stops_iff, LittleEndian.length_encode]
      exact hfield 4 (by decide)
  · have hheader : s.cmsg = none := hs.2.trans (if_neg hroom)
    rw [cmsgStep, hheader, stopsWith_bind_iff, getS32AtHeader_stops_iff]
    simp only [EntryFits, hroom, false_and]
    constructor
    · rintro ⟨hfirst, -⟩ hlevel
      obtain ⟨cmsg, hnone, -⟩ := hfirst hlevel
      cases hnone
    · intro hlevel
      refine ⟨fun h => absurd (hlevel h) id, fun first hfirst => ?_⟩
      obtain ⟨cmsg, level, b₁⟩ := first
      exact absurd (getS32AtHeader_eq_ok hfirst).1 (by simp)

theorem cmsgStep_eq_ok (hs : s.At n)
    (h : cmsgStep s (.cmsg cmsgLevel cmsgType cmsgData) = .ok t) :
    GoodEntry (.cmsg cmsgLevel cmsgType cmsgData) ∧
      t.At (n + entrySpace (.cmsg cmsgLevel cmsgType cmsgData)) := by
  obtain ⟨first, hfirst, h⟩ := bind_eq_ok_iff.mp h
  obtain ⟨c₁, level, b₁⟩ := first
  obtain ⟨hheader, hlevel⟩ := getS32AtHeader_eq_ok hfirst
  obtain ⟨second, hsecond, h⟩ := bind_eq_ok_iff.mp h
  obtain ⟨c₂, type, b₂⟩ := second
  obtain ⟨hheader', htype⟩ := getS32AtHeader_eq_ok hsecond
  obtain ⟨stored, hstored, h⟩ := bind_eq_ok_iff.mp h
  obtain ⟨b₃, len⟩ := stored
  obtain ⟨hgood, hlen⟩ := storeData_eq_ok hlevel hstored
  obtain ⟨b₄, -, h⟩ := bind_eq_ok_iff.mp h
  obtain rfl := pure_eq_ok_iff.mp h
  have hcmsg : c₂ = n := by
    rw [hs.2, headerAt] at hheader'
    split_ifs at hheader'
    exact (Option.some.inj hheader').symm
  refine ⟨⟨isS32_iff.mpr ⟨level, hlevel⟩, isS32_iff.mpr ⟨type, htype⟩, hgood⟩, ?_, ?_⟩
  · rw [entrySpace, ← hlen, hs.1]
  · rw [entrySpace, ← hlen, hcmsg, cmsgNxthdr_cmsgLen]

theorem cmsgStep_of_good (hs : s.At n) (hgood : GoodEntry (.cmsg cmsgLevel cmsgType cmsgData))
    (hfits : EntryFits n (.cmsg cmsgLevel cmsgType cmsgData)) :
    ∃ t, cmsgStep s (.cmsg cmsgLevel cmsgType cmsgData) = .ok t := by
  obtain ⟨hlevel, htype, hdata⟩ := hgood
  obtain ⟨hroom, hfits⟩ := hfits hlevel
  have hheader : s.cmsg = some n := hs.2.trans (if_pos hroom)
  have hfield : ∀ field ≤ 12, n + field + 4 ≤ MSGHDR_MAX_CONTROLLEN := by
    simp only [CMSGHDR_BYTES] at hroom
    omega
  obtain ⟨level, b₁, hb₁⟩ := getS32AtHeader_of_isS32 (b := s.b) hlevel (hfield 8 (by decide))
  obtain ⟨type, b₂, hb₂⟩ := getS32AtHeader_of_isS32 (b := b₁) htype (hfield 12 (by decide))
  obtain ⟨stored, hstored⟩ := storeData_of_good b₂ level hdata
    (storeData_stops_iff.mpr (hfits htype))
  rw [cmsgStep, hheader, bind_of_ok hb₁]
  simp only [bind_of_ok hb₂]
  rw [show n + cmsgAlign CMSGHDR_BYTES = n + CMSGHDR_BYTES from rfl, bind_of_ok hstored]
  rw [halted_storeInside_of_le (by rw [LittleEndian.length_encode]; exact hfield 4 (by decide))]
  exact ⟨_, rfl⟩

theorem cmsgStep_turn :
    Turn cmsgStep Stop.IsDefined Control.At entrySpace GoodEntry EntryFits where
  stops s n expr hs := by
    cases expr with
    | cmsg cmsgLevel cmsgType cmsgData => exact cmsgStep_stops_iff hs
    | _ => exact iff_of_true (stopsWith_error trivial) trivial
  returns s n expr t hs hok := by
    cases expr with
    | cmsg cmsgLevel cmsgType cmsgData => exact cmsgStep_eq_ok hs hok
    | _ => cases hok
  goesOn s n expr hs hgood hstops := by
    cases expr with
    | cmsg cmsgLevel cmsgType cmsgData =>
      exact cmsgStep_of_good hs hgood ((cmsgStep_stops_iff hs).mp hstops)
    | _ => cases hgood

end Loop

/-- Nothing is stored outside the array, no null header and no entry outside the table is looked
at, and `msg_controllen` is the space of the entries. -/
structure BuildsSafely (list : List Expression) : Prop where
  stops : StopsWith Stop.IsDefined (cmsgNew (.list list))
  controllen : ∀ msg, cmsgNew (.list list) = .ok msg → msg.msgControllen = total entrySpace list

/-- This is so if and only if every entry that is reached fits in the array and has its keys in the
table. -/
theorem buildsSafely_iff (list : List Expression) :
    BuildsSafely list ↔ AllFit entrySpace GoodEntry EntryFits 0 list := by
  have hstart : Control.At ⟨fun _ => 0, some 0, 0⟩ 0 := ⟨rfl, rfl⟩
  have hloop : StopsWith Stop.IsDefined (list.foldlM cmsgStep _) ↔ _ :=
    cmsgStep_turn.stopsWith_foldlM_iff hstart
  constructor
  · intro h
    exact hloop.mp (stopsWith_bind_iff.mp h.stops).1
  · intro hfits
    refine ⟨stopsWith_bind_iff.mpr ⟨hloop.mpr hfits, fun _ _ => stopsWith_ok⟩, ?_⟩
    intro msg hmsg
    obtain ⟨s, hs, hmsg⟩ := bind_eq_ok_iff.mp hmsg
    obtain rfl := pure_eq_ok_iff.mp hmsg
    have hsum := (cmsgStep_turn.foldlM_returns hstart hs).2.1
    rwa [Nat.zero_add] at hsum

/-- An entry with an integer as its data takes 24 bytes. -/
def integerEntry : Expression := .cmsg (.integer 1) (.integer 2) (.integer 3)

/-- The data of the 42nd entry stands behind the array. -/
theorem not_forall_buildsSafely : ¬ ∀ list, BuildsSafely list := by
  intro h
  have hstops := (h (List.replicate 42 integerEntry)).stops
  exact hstops (.halt (.undefined "get_s32" "*value")) rfl

end QoSMos.ControlMessage
