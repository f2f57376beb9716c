import QoSMos.Syscall.ControlMessageLaw

/-!
# Extended errors

`new_extended_err` stores six integers of a script in a `struct sock_extended_err`, all with
`get_s32`, also those whose fields have one byte. `sock_ee_expect_eq` compares the fields of two
such structures.
-/

namespace QoSMos.ControlMessage

open Script Returns

/-- `struct sock_extended_err` without its padding -/
@[ext] structure SockExtendedErr where
  eeErrno : UInt32
  eeOrigin : UInt8
  eeType : UInt8
  eeCode : UInt8
  eeInfo : UInt32
  eeData : UInt32
  deriving DecidableEq, Repr

/-- The structure in memory. -/
def sockExtendedErrAt (b : Memory) (ee : Nat) : SockExtendedErr where
  eeErrno := .ofNat (leAt 4 b ee)
  eeOrigin := .ofNat (leAt 1 b (ee + 4))
  eeType := .ofNat (leAt 1 b (ee + 5))
  eeCode := .ofNat (leAt 1 b (ee + 6))
  eeInfo := .ofNat (leAt 4 b (ee + 8))
  eeData := .ofNat (leAt 4 b (ee + 12))

/-- A comparison of `sock_ee_expect_eq`. -/
def expectField (name : String) (index : Int) (expected actual : Nat) : Except String Unit :=
  if actual ≠ expected then
    throw s!"Bad {name} in extended err {index}: expected={expected} actual={actual}"
  else return

/-- `sock_ee_expect_eq`, which returns false with a message in `*error`. -/
def sockEeExpectEq (expected actual : SockExtendedErr) (index : Int) : Except String Unit := do
  expectField "errno" index expected.eeErrno.toNat actual.eeErrno.toNat
  expectField "origin" index expected.eeOrigin.toNat actual.eeOrigin.toNat
  expectField "type" index expected.eeType.toNat actual.eeType.toNat
  expectField "code" index expected.eeCode.toNat actual.eeCode.toNat
  expectField "info" index expected.eeInfo.toNat actual.eeInfo.toNat
  expectField "data" index expected.eeData.toNat actual.eeData.toNat

/-- The 32 bits of an integer that `get_s32` stores. -/
def lowBits (num : Int64) : Nat := (num.toInt % 4294967296).toNat

/-- `struct sock_extended_err_expr` with six integers. -/
structure ErrorNumbers where
  eeErrno : Int64
  eeOrigin : Int64
  eeType : Int64
  eeCode : Int64
  eeInfo : Int64
  eeData : Int64
  deriving DecidableEq, Repr

namespace ErrorNumbers

/-- `new_extended_err` of the integers. -/
def store (numbers : ErrorNumbers) (size : Nat) (b : Memory) (ee : Nat) : Except Stop Memory :=
  newExtendedErr size b ee (.integer numbers.eeErrno) (.integer numbers.eeOrigin)
    (.integer numbers.eeType) (.integer numbers.eeCode) (.integer numbers.eeInfo)
    (.integer numbers.eeData)

/-- Each field is the integer of the script. -/
structure Equal (numbers : ErrorNumbers) (actual : SockExtendedErr) : Prop where
  eeErrno : actual.eeErrno.toNat = numbers.eeErrno.toInt
  eeOrigin : actual.eeOrigin.toNat = numbers.eeOrigin.toInt
  eeType : actual.eeType.toNat = numbers.eeType.toInt
  eeCode : actual.eeCode.toNat = numbers.eeCode.toInt
  eeInfo : actual.eeInfo.toNat = numbers.eeInfo.toInt
  eeData : actual.eeData.toNat = numbers.eeData.toInt

/-- Integers that the fields can hold; `get_s32` has seen to the upper bound of those with 32
bits. -/
structure InFields (numbers : ErrorNumbers) : Prop where
  eeErrno : 0 ≤ numbers.eeErrno.toInt
  eeOrigin : 0 ≤ numbers.eeOrigin.toInt ∧ numbers.eeOrigin.toInt ≤ 255
  eeType : 0 ≤ numbers.eeType.toInt ∧ numbers.eeType.toInt ≤ 255
  eeCode : 0 ≤ numbers.eeCode.toInt ∧ numbers.eeCode.toInt ≤ 255
  eeInfo : 0 ≤ numbers.eeInfo.toInt
  eeData : 0 ≤ numbers.eeData.toInt

/-- The fields with their integers, in the order of the stores. -/
def fields (numbers : ErrorNumbers) : List (Nat × Int64) :=
  [(0, numbers.eeErrno), (4, numbers.eeOrigin), (5, numbers.eeType), (6, numbers.eeCode),
   (8, numbers.eeInfo), (12, numbers.eeData)]

/-- What is left of the integers. -/
def stored (numbers : ErrorNumbers) : SockExtendedErr where
  eeErrno := .ofNat (lowBits numbers.eeErrno)
  eeOrigin := .ofNat (lowBits numbers.eeOrigin)
  eeType := .ofNat (lowBits numbers.eeType)
  eeCode := .ofNat (lowBits numbers.eeCode)
  eeInfo := .ofNat (lowBits numbers.eeInfo)
  eeData := .ofNat (lowBits numbers.eeData)

end ErrorNumbers

/-! ## Comparison -/

theorem expectField_eq_ok_iff {name : String} {index : Int} {expected actual : Nat} {u : Unit} :
    expectField name index expected actual = .ok u ↔ actual = expected := by
  by_cases h : actual = expected
  · simp [expectField, h, pure, Except.pure]
  · simp [expectField, h, throw, throwThe, MonadExceptOf.throw]

/-- The comparison is that of the structures. -/
theorem sockEeExpectEq_eq_ok_iff {expected actual : SockExtendedErr} {index : Int} :
    sockEeExpectEq expected actual index = .ok () ↔ actual = expected := by
  simp only [sockEeExpectEq, bind_eq_ok_iff, expectField_eq_ok_iff, UInt32.toNat_inj,
    UInt8.toNat_inj, SockExtendedErr.ext_iff]
  simp only [exists_const]

/-! ## Stores -/

section Stores

variable {size ee : Nat} {b b' : Memory} {numbers : ErrorNumbers}

theorem getS32At_integer {offset : Nat} {num : Int64}
    (h : getS32At size b offset (.integer num) = .ok b') :
    num.toInt ≤ 4294967295 ∧ b' = writeBytes b offset (LittleEndian.encode 4 (lowBits num)) := by
  obtain ⟨value, hvalue, rfl⟩ := getS32At_eq_ok h
  obtain ⟨n, hn, ⟨-, hle⟩, rfl⟩ := getS32_eq_ok_iff.mp hvalue
  obtain rfl : num = n := by cases hn; rfl
  refine ⟨hle, ?_⟩
  rw [s32Bytes, Syscall.toInt, lowBits]
  congr 3
  exact Int.bmod_emod

/-- A run of `get_s32` over fields with integers stores all of them. -/
theorem foldlM_getS32At {fields : List (Nat × Int64)}
    (h : (fields.map fun field => (field.1, Expression.integer field.2)).foldlM
      (fun b (field : Nat × Expression) => getS32At size b (ee + field.1) field.2) b = .ok b') :
    (∀ field ∈ fields, field.2.toInt ≤ 4294967295) ∧
      b' = storeAll 4 b (fields.map fun field => (ee + field.1, lowBits field.2)) := by
  induction fields generalizing b with
  | nil =>
    obtain rfl := Except.ok.inj h
    exact ⟨by simp, rfl⟩
  | cons field fields ih =>
    rw [List.map_cons, List.foldlM_cons] at h
    obtain ⟨b₁, hfield, hfields⟩ := bind_eq_ok_iff.mp h
    obtain ⟨hle, rfl⟩ := getS32At_integer hfield
    obtain ⟨hall, rfl⟩ := ih hfields
    exact ⟨List.forall_mem_cons.mpr ⟨hle, hall⟩, rfl⟩

theorem store_eq_ok (h : numbers.store size b ee = .ok b') :
    (∀ field ∈ numbers.fields, field.2.toInt ≤ 4294967295) ∧
      b' = storeAll 4 b (numbers.fields.map fun field => (ee + field.1, lowBits field.2)) :=
  foldlM_getS32At h

/-- Only the structure changes. -/
theorem store_outside (h : numbers.store size b ee = .ok b') {q : Nat}
    (hq : q < ee ∨ ee + EXTENDED_ERR_BYTES ≤ q) : b' q = b q := by
  obtain ⟨-, rfl⟩ := store_eq_ok h
  apply storeAll_outside
  intro store hstore
  obtain ⟨field, hfield, rfl⟩ := List.mem_map.mp hstore
  have hoffset : field.1 ≤ 12 := by
    have hall : ∀ field ∈ numbers.fields, field.1 ≤ 12 := by simp [ErrorNumbers.fields]
    exact hall field hfield
  simp only [EXTENDED_ERR_BYTES] at hq ⊢
  omega

/-- A field holds as much of its integer as it has room for: the next store begins behind it. -/
theorem leAt_store (h : numbers.store size b ee = .ok b') (w : Nat) {offset : Nat} {num : Int64}
    (before : List (Nat × Int64)) {after : List (Nat × Int64)}
    (hfields : numbers.fields = before ++ (offset, num) :: after) (hw : w ≤ 4)
    (hafter : ∀ field ∈ after, offset + w ≤ field.1) :
    leAt w b' (ee + offset) = lowBits num % 256 ^ w := by
  obtain ⟨-, rfl⟩ := store_eq_ok h
  rw [hfields, List.map_append, List.map_cons]
  apply leAt_storeAll hw
  intro store hstore
  obtain ⟨field, hfield, rfl⟩ := List.mem_map.mp hstore
  have hle := hafter field hfield
  omega

/-- The structure holds the low bits of the integers. -/
theorem sockExtendedErrAt_store (h : numbers.store size b ee = .ok b') :
    sockExtendedErrAt b' ee = numbers.stored := by
  have hErrno := leAt_store h 4 [] rfl (by decide) (by simp)
  have hOrigin := leAt_store h 1 (numbers.fields.take 1) rfl (by decide) (by simp)
  have hType := leAt_store h 1 (numbers.fields.take 2) rfl (by decide) (by simp)
  have hCode := leAt_store h 1 (numbers.fields.take 3) rfl (by decide) (by simp)
  have hInfo := leAt_store h 4 (numbers.fields.take 4) rfl (by decide) (by simp)
  have hData := leAt_store h 4 (numbers.fields.take 5) rfl (by decide) (by simp)
  have hword : ∀ x, UInt32.ofNat (x % 256 ^ 4) = UInt32.ofNat x := fun x => UInt32.ofNat_mod_size
  have hbyte : ∀ x, UInt8.ofNat (x % 256 ^ 1) = UInt8.ofNat x := fun x => UInt8.ofNat_mod_size
  rw [Nat.add_zero] at hErrno
  simp only [sockExtendedErrAt, hErrno, hOrigin, hType, hCode, hInfo, hData, hword, hbyte]
  rfl

end Stores

/-! ## The fields of the actual error -/

section Fields

variable {size ee : Nat} {b b' : Memory} {numbers : ErrorNumbers} {actual other : SockExtendedErr}

theorem ErrorNumbers.Equal.unique (h : numbers.Equal actual) (h' : numbers.Equal other) :
    actual = other := by
  have hword : ∀ {x y : UInt32} {n : Int}, x.toNat = n → y.toNat = n → x = y := by
    intro x y n hx hy
    exact UInt32.toNat_inj.mp (by omega)
  have hbyte : ∀ {x y : UInt8} {n : Int}, x.toNat = n → y.toNat = n → x = y := by
    intro x y n hx hy
    exact UInt8.toNat_inj.mp (by omega)
  ext1
  · exact hword h.eeErrno h'.eeErrno
  · exact hbyte h.eeOrigin h'.eeOrigin
  · exact hbyte h.eeType h'.eeType
  · exact hbyte h.eeCode h'.eeCode
  · exact hword h.eeInfo h'.eeInfo
  · exact hword h.eeData h'.eeData

theorem toNat_word_lowBits {num : Int64} (hle : num.toInt ≤ 4294967295) :
    (UInt32.ofNat (lowBits num)).toNat = num.toInt ↔ 0 ≤ num.toInt := by
  rw [UInt32.toNat_ofNat', lowBits]
  omega

theorem toNat_byte_lowBits {num : Int64} :
    (UInt8.ofNat (lowBits num)).toNat = num.toInt ↔ 0 ≤ num.toInt ∧ num.toInt ≤ 255 := by
  rw [UInt8.toNat_ofNat', lowBits]
  omega

/-- What is left of the integers is all of them if and only if they fit in the fields. -/
theorem equal_stored_iff (hle : ∀ field ∈ numbers.fields, field.2.toInt ≤ 4294967295) :
    numbers.Equal numbers.stored ↔ numbers.InFields := by
  simp only [ErrorNumbers.fields, List.forall_mem_cons, List.not_mem_nil, false_implies,
    implies_true, and_true] at hle
  obtain ⟨hErrno, -, -, -, hInfo, hData⟩ := hle
  constructor
  · rintro ⟨h₁, h₂, h₃, h₄, h₅, h₆⟩
    exact ⟨(toNat_word_lowBits hErrno).mp h₁, toNat_byte_lowBits.mp h₂, toNat_byte_lowBits.mp h₃,
      toNat_byte_lowBits.mp h₄, (toNat_word_lowBits hInfo).mp h₅, (toNat_word_lowBits hData).mp h₆⟩
  · rintro ⟨h₁, h₂, h₃, h₄, h₅, h₆⟩
    exact ⟨(toNat_word_lowBits hErrno).mpr h₁, toNat_byte_lowBits.mpr h₂,
      toNat_byte_lowBits.mpr h₃, toNat_byte_lowBits.mpr h₄, (toNat_word_lowBits hInfo).mpr h₅,
      (toNat_word_lowBits hData).mpr h₆⟩

end Fields

/-- Nothing but the structure is written, and an actual error compares equal if and only if its
fields are the integers of the script. -/
structure ComparesFields (numbers : ErrorNumbers) (b b' : Memory) (ee : Nat) : Prop where
  outside : ∀ q, q < ee ∨ ee + EXTENDED_ERR_BYTES ≤ q → b' q = b q
  equal : ∀ actual index,
    sockEeExpectEq (sockExtendedErrAt b' ee) actual index = .ok () ↔ numbers.Equal actual

/-- This is so if and only if each integer fits in its field. -/
theorem comparesFields_iff (numbers : ErrorNumbers) (size : Nat) (b b' : Memory) (ee : Nat)
    (h : numbers.store size b ee = .ok b') :
    ComparesFields numbers b b' ee ↔ numbers.InFields := by
  have hstored := sockExtendedErrAt_store h
  have hle := (store_eq_ok h).1
  constructor
  · intro hcompares
    apply (equal_stored_iff hle).mp
    apply (hcompares.equal numbers.stored 0).mp
    rw [hstored]
    exact sockEeExpectEq_eq_ok_iff.mpr rfl
  · intro hfields
    have hequal := (equal_stored_iff hle).mpr hfields
    refine ⟨fun q hq => store_outside h hq, ?_⟩
    intro actual index
    rw [hstored, sockEeExpectEq_eq_ok_iff]
    constructor
    · rintro rfl
      exact hequal
    · intro hactual
      exact hactual.unique hequal

/-- An error with `ee_origin` 2 (`SO_EE_ORIGIN_ICMP`), as a script writes it. -/
def icmpError : ErrorNumbers := ⟨111, 2, 3, 3, 0, 0⟩

theorem comparesFields_iff_icmpError : ∃ b',
    icmpError.store EXTENDED_ERR_BYTES (fun _ => 0) 0 = .ok b' ∧
      (ComparesFields icmpError (fun _ => 0) b' 0 ↔ icmpError.InFields) :=
  ⟨_, rfl, comparesFields_iff icmpError EXTENDED_ERR_BYTES (fun _ => 0) _ 0 rfl⟩

/-- With `ee_origin` 258 the actual 2 is equal as well. -/
theorem not_forall_comparesFields :
    ¬ ∀ numbers size b b' ee, ErrorNumbers.store numbers size b ee = .ok b' →
      ComparesFields numbers b b' ee := by
  intro h
  have hcompares := h { icmpError with eeOrigin := 258 } EXTENDED_ERR_BYTES (fun _ => 0) _ 0 rfl
  have hequal := (hcompares.equal icmpError.stored 0).mp (by decide)
  exact absurd hequal.eeOrigin (by decide)

end QoSMos.ControlMessage
