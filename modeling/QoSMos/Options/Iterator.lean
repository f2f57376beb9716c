import QoSMos.Lib.Traced
import QoSMos.Outbound.Options

/-!
# The TCP option iterator

Walks over an area of TCP options, with the bytes that are read on the way. `Tiles` says that a
list of well-formed options covers a part of the area without gaps; a walk ends at the end of the
area, or at the first option that is malformed.
-/

namespace QoSMos

open Returns

/-- The bytes that a function reads and writes through pointers to options, and how it ends. -/
abbrev Access := Traced Nat Failure

/-- `tcp_options_next` up to the new value of `current_option`, with the bytes that it reads: the
kind, and the length byte if there may be one. -/
def readTcpOptionsNext (b : Memory) (option optionsEnd : Nat) : Access Nat := do
  Traced.touch [option]
  let expectedLength ← Traced.lift (getExpectedTcpOptionLength (u8At b option))
  if expectedLength ≠ 1 ∧ option + 1 < optionsEnd then Traced.touch [option + 1]
  Traced.lift (tcpOptionsNext b option optionsEnd)

/-- `get_current_option`, which returns `NULL` at the end. -/
def getCurrentOption (currentOption optionsEnd : Nat) : Access (Option Nat) := do
  Traced.lift (halting (require (currentOption ≤ optionsEnd) "get_current_option"
    "iter->current_option <= iter->options_end"))
  return if currentOption ≥ optionsEnd then none else some currentOption

/-- What a call of the iterator returns, and `*error` behind it. -/
structure Iteration where
  option : Option Nat
  error : Option String
  deriving DecidableEq, Repr

/-- `tcp_options_begin` -/
def tcpOptionsBegin (packet : Packet) : Access (Nat × Iteration) := do
  match packet.tcp with
  | none => Traced.lift (.error (.halt (.fault (.assertionFailed "packet_tcp_options"
      "packet->tcp"))))
  | some tcp =>
    let optionsEnd ← Traced.lift (halting (ofFault (packetPayload packet)))
    let option ← getCurrentOption (tcp + TCP_BYTES) optionsEnd
    return (optionsEnd, ⟨option, none⟩)

/-- `tcp_options_next`, which returns `NULL` with an error if the option is malformed. -/
def nextIteration (b : Memory) (option optionsEnd : Nat) : Access Iteration :=
  let read := readTcpOptionsNext b option optionsEnd
  match read.result with
  | .ok next => do
    Traced.touch read.touched
    return ⟨← getCurrentOption next optionsEnd, none⟩
  | .error (.error message) => ⟨read.touched, .ok ⟨none, some message⟩⟩
  | .error (.halt halt) => ⟨read.touched, .error (.halt halt)⟩

/-- Call `tcp_options_next` until it returns `NULL`: the options visited and the error. -/
def iterateOptions (b : Memory) (optionsEnd : Nat) :
    Nat → Iteration → Access (List Nat × Option String)
  | 0, _ => Traced.lift (.error (.halt (.fault .outOfFuel)))
  | _ + 1, ⟨none, error⟩ => return ([], error)
  | n + 1, ⟨some option, _⟩ => do
    let iteration ← nextIteration b option optionsEnd
    let (visited, error) ← iterateOptions b optionsEnd n iteration
    return (option :: visited, error)

/-- `tcp_options_begin` and the calls that follow it, at most `fuel - 1` of them. -/
def runIterator (fuel : Nat) (packet : Packet) : Access (List Nat × Option String) := do
  let (optionsEnd, iteration) ← tcpOptionsBegin packet
  iterateOptions packet.buffer optionsEnd fuel iteration

/-! ## Options in their wire format -/

/-- The kinds of one byte. -/
def singleByteKinds : List Nat := [TCPOPT_EOL, TCPOPT_NOP]

/-- The kinds of fixed length with a length byte. -/
def fixedLengths : List (Nat × Nat) :=
  [(TCPOPT_MAXSEG, TCPOLEN_MAXSEG), (TCPOPT_WINDOW, TCPOLEN_WINDOW),
    (TCPOPT_SACK_PERMITTED, TCPOLEN_SACK_PERMITTED), (TCPOPT_TIMESTAMP, TCPOLEN_TIMESTAMP)]

def variableKinds : List Nat := [TCPOPT_SACK, TCPOPT_MD5SIG, TCPOPT_FASTOPEN, TCPOPT_EXP]

def Known (kind : Nat) : Prop :=
  kind ∈ singleByteKinds ∨ kind ∈ fixedLengths.map Prod.fst ∨ kind ∈ variableKinds

/-- The option at `q` is not one that can stand in an area which ends at `e`. -/
def Malformed (b : Memory) (e q : Nat) : Prop :=
  ¬ Known (u8At b q) ∨
    u8At b q ∉ singleByteKinds ∧
      (e ≤ q + 1 ∨ u8At b (q + 1) < 2 ∨ e < q + u8At b (q + 1) ∨
        ∃ length, (u8At b q, length) ∈ fixedLengths ∧ u8At b (q + 1) ≠ length)

/-- The length of the option at `q`. -/
def wireLength (b : Memory) (q : Nat) : Nat :=
  if u8At b q ∈ singleByteKinds then 1 else u8At b (q + 1)

/-- Well-formed options at these places, one behind the other, fill an area from `p` to `r`. -/
inductive Tiles (b : Memory) (e : Nat) : Nat → List Nat → Nat → Prop where
  | nil (p : Nat) : Tiles b e p [] p
  | cons {p r : Nat} {options : List Nat} (hlt : p < e) (hformed : ¬ Malformed b e p)
      (hrest : Tiles b e (p + wireLength b p) options r) : Tiles b e p (p :: options) r

section Wire

variable {b : Memory} {e p q r option optionsEnd next : Nat} {options : List Nat}

theorem getExpectedTcpOptionLength_of_not_known {kind : Nat} (h : ¬ Known kind) :
    getExpectedTcpOptionLength kind =
      .error (.error s!"unexpected TCP option kind: {kind}") := by
  simp only [Known, singleByteKinds, fixedLengths, variableKinds, List.map_cons, List.map_nil,
    List.mem_cons, List.not_mem_nil, or_false, not_or] at h
  simp [getExpectedTcpOptionLength, h]

/-- The length that is expected of a known kind. -/
theorem getExpectedTcpOptionLength_of_known {kind : Nat} (h : Known kind) :
    ∃ length, getExpectedTcpOptionLength kind = .ok length ∧
      (length = 1 ↔ kind ∈ singleByteKinds) ∧
      (kind ∉ singleByteKinds →
        ∀ actual, (length = 0 ∨ actual = length) ↔
          ¬ ∃ l, (kind, l) ∈ fixedLengths ∧ actual ≠ l) := by
  simp only [Known, singleByteKinds, fixedLengths, variableKinds, List.map_cons, List.map_nil,
    List.mem_cons, List.not_mem_nil, or_false] at h
  rcases h with (rfl | rfl) | (rfl | rfl | rfl | rfl) | (rfl | rfl | rfl | rfl) <;>
    refine ⟨_, rfl, by decide, ?_⟩ <;>
    simp [singleByteKinds, fixedLengths, TCPOPT_EOL, TCPOPT_NOP, TCPOPT_MAXSEG, TCPOPT_WINDOW,
      TCPOPT_SACK_PERMITTED, TCPOPT_TIMESTAMP, TCPOPT_SACK, TCPOPT_MD5SIG, TCPOPT_FASTOPEN,
      TCPOPT_EXP, TCPOLEN_MAXSEG, TCPOLEN_WINDOW, TCPOLEN_SACK_PERMITTED, TCPOLEN_TIMESTAMP]

theorem wireLength_pos (h : ¬ Malformed b e q) : 0 < wireLength b q := by
  unfold wireLength
  split
  · exact Nat.one_pos
  · have := mt (Or.inr ∘ And.intro ‹_› ∘ Or.inr ∘ Or.inl) h
    omega

theorem wireLength_le (hlt : q < e) (h : ¬ Malformed b e q) : q + wireLength b q ≤ e := by
  unfold wireLength
  split
  · omega
  · have := mt (Or.inr ∘ And.intro ‹_› ∘ Or.inr ∘ Or.inr ∘ Or.inl) h
    omega

theorem check_ok {c : Prop} [Decidable c] {message : String} (h : c) :
    check c message = .ok () := if_pos h

theorem check_error {c : Prop} [Decidable c] {message : String} (h : ¬ c) :
    check c message = .error (.error message) := if_neg h

theorem require_ok {c : Prop} [Decidable c] {function expression : String} (h : c) :
    require c function expression = .ok () := if_pos h

/-- A well-formed option has its wire length. -/
theorem tcpOptionLength_of_formed (h : ¬ Malformed b e q) :
    tcpOptionLength b q e = .ok (wireLength b q) := by
  unfold Malformed at h
  push Not at h
  obtain ⟨hknown, hlength⟩ := h
  obtain ⟨length, hok, hsingle, hfixed⟩ := getExpectedTcpOptionLength_of_known hknown
  unfold tcpOptionLength
  rw [hok]
  by_cases hone : u8At b q ∈ singleByteKinds
  · obtain rfl := hsingle.mpr hone
    rw [wireLength, if_pos hone]
    rfl
  · obtain ⟨hbyte, hlong, hinside, hequal⟩ := hlength hone
    rw [wireLength, if_neg hone]
    refine (if_neg (mt hsingle.mp hone)).trans ?_
    have hexpected : length = 0 ∨ u8At b (q + 1) = length := by
      rw [hfixed hone]
      rintro ⟨l, hmem, hne⟩
      exact hne (hequal l hmem)
    unfold getTcpOptionLength
    dsimp only
    rw [check_ok hbyte, check_ok hlong, check_ok hinside, check_ok hexpected]
    rfl

/-- A malformed one is an error. -/
theorem tcpOptionLength_of_malformed (h : Malformed b e q) :
    ∃ message, tcpOptionLength b q e = .error (.error message) := by
  unfold tcpOptionLength
  by_cases hknown : Known (u8At b q)
  · obtain ⟨hone, hbad⟩ := h.resolve_left (not_not.mpr hknown)
    obtain ⟨length, hok, hsingle, hfixed⟩ := getExpectedTcpOptionLength_of_known hknown
    rw [hok]
    have hnext : ∃ message, getTcpOptionLength b q e length = .error (.error message) := by
      unfold getTcpOptionLength
      dsimp only
      by_cases hbyte : q + 1 < e
      · by_cases hlong : 2 ≤ u8At b (q + 1)
        · by_cases hinside : q + u8At b (q + 1) ≤ e
          · have hne : ¬ (length = 0 ∨ u8At b (q + 1) = length) := by
              rw [hfixed hone, not_not]
              rcases hbad with hbad | hbad | hbad | hbad
              · omega
              · omega
              · omega
              · exact hbad
            rw [check_ok hbyte, check_ok hlong, check_ok hinside, check_error hne]
            exact ⟨_, rfl⟩
          · rw [check_ok hbyte, check_ok hlong, check_error hinside]
            exact ⟨_, rfl⟩
        · rw [check_ok hbyte, check_error hlong]
          exact ⟨_, rfl⟩
      · rw [check_error hbyte]
        exact ⟨_, rfl⟩
    obtain ⟨message, hmessage⟩ := hnext
    exact ⟨message, (if_neg (mt hsingle.mp hone)).trans hmessage⟩
  · rw [getExpectedTcpOptionLength_of_not_known hknown]
    exact ⟨_, rfl⟩

theorem tcpOptionsNext_of_formed (hlt : q < e) (h : ¬ Malformed b e q) :
    tcpOptionsNext b q e = .ok (q + wireLength b q) := by
  unfold tcpOptionsNext
  dsimp only
  rw [tcpOptionLength_of_formed h, Returns.bind_of_ok rfl, require_ok (wireLength_pos h),
    require_ok (wireLength_le hlt h)]
  rfl

theorem tcpOptionsNext_of_malformed (h : Malformed b e q) :
    ∃ message, tcpOptionsNext b q e = .error (.error message) := by
  obtain ⟨message, hmessage⟩ := tcpOptionLength_of_malformed h
  refine ⟨message, ?_⟩
  unfold tcpOptionsNext
  rw [hmessage]
  rfl

/-- The bytes that are read do not change what `tcp_options_next` does. -/
theorem readTcpOptionsNext_result : (readTcpOptionsNext b q e).result = tcpOptionsNext b q e := by
  unfold readTcpOptionsNext
  simp only [Traced.result_bind, Traced.result_touch, Traced.result_lift]
  rw [Returns.bind_of_ok rfl]
  by_cases hknown : Known (u8At b q)
  · obtain ⟨length, hok, -⟩ := getExpectedTcpOptionLength_of_known hknown
    rw [hok, Returns.bind_of_ok rfl]
    split <;> rfl
  · unfold tcpOptionsNext tcpOptionLength
    rw [getExpectedTcpOptionLength_of_not_known hknown]
    rfl

/-- No byte behind the area is read. -/
theorem readTcpOptionsNext_within (hlt : q < e) :
    (readTcpOptionsNext b q e).Within fun c => q ≤ c ∧ c < e := by
  unfold readTcpOptionsNext
  simp only [Traced.within_bind, Traced.within_touch, Traced.within_lift, List.mem_singleton,
    true_and]
  refine ⟨by omega, fun _ _ expectedLength _ => ?_⟩
  split
  · simp only [Traced.within_bind, Traced.within_touch, Traced.within_lift, List.mem_singleton,
      implies_true, and_true]
    omega
  · exact Traced.within_lift _

end Wire

/-! ## Walks -/

/-- How a walk over the area from `p` to `e` can end: everything is covered, or an option is
malformed. -/
inductive Walk (b : Memory) (e p : Nat) : List Nat → Option String → Prop where
  | covered {visited : List Nat} (htiles : Tiles b e p visited e) : Walk b e p visited none
  | stuck {visited : List Nat} {q : Nat} (message : String) (htiles : Tiles b e p visited q)
      (hlt : q < e) (hmalformed : Malformed b e q) : Walk b e p (visited ++ [q]) (some message)

section Walk

variable {b : Memory} {e p q r fuel : Nat} {visited options : List Nat} {error : Option String}

theorem Walk.cons (hlt : p < e) (hformed : ¬ Malformed b e p)
    (h : Walk b e (p + wireLength b p) visited error) : Walk b e p (p :: visited) error := by
  cases h with
  | covered htiles => exact .covered (.cons hlt hformed htiles)
  | stuck message htiles hlt' hmalformed =>
    exact .stuck message (.cons hlt hformed htiles) hlt' hmalformed

/-- What the iterator returns at a place in the area. -/
def Iteration.at (e p : Nat) : Iteration := ⟨if e ≤ p then none else some p, none⟩

theorem getCurrentOption_eq (hle : p ≤ e) :
    getCurrentOption p e = pure (Iteration.at e p).option := by
  unfold getCurrentOption
  rw [require_ok hle]
  rfl

theorem nextIteration_of_formed (hlt : p < e) (h : ¬ Malformed b e p) :
    (nextIteration b p e).result = .ok (.at e (p + wireLength b p)) := by
  unfold nextIteration
  dsimp only
  rw [readTcpOptionsNext_result, tcpOptionsNext_of_formed hlt h]
  dsimp only
  rw [Traced.result_bind, Traced.result_bind, getCurrentOption_eq (wireLength_le hlt h)]
  rfl

theorem nextIteration_of_malformed (h : Malformed b e p) :
    ∃ message, (nextIteration b p e).result = .ok ⟨none, some message⟩ := by
  obtain ⟨message, hmessage⟩ := tcpOptionsNext_of_malformed h
  refine ⟨message, ?_⟩
  unfold nextIteration
  dsimp only
  rw [readTcpOptionsNext_result, hmessage]

theorem nextIteration_within (hlt : p < e) :
    (nextIteration b p e).Within fun c => p ≤ c ∧ c < e := by
  have hread := @readTcpOptionsNext_within b e p hlt
  unfold nextIteration
  dsimp only
  split
  · simp only [getCurrentOption, Traced.within_bind, Traced.within_touch, Traced.within_lift,
      Traced.within_pure, implies_true, and_true]
    exact hread
  · exact hread
  · exact hread

/-- The iterator starts at the beginning of the area. -/
theorem tcpOptionsBegin_eq {packet : Packet} {tcp : Nat} (htcp : packet.tcp = some tcp)
    (hdoff : TCP_BYTES ≤ Tcp.doff packet.buffer tcp * 4) :
    tcpOptionsBegin packet = pure (tcp + Tcp.doff packet.buffer tcp * 4,
      .at (tcp + Tcp.doff packet.buffer tcp * 4) (tcp + TCP_BYTES)) := by
  have hpayload : packetPayload packet = .ok (tcp + Tcp.doff packet.buffer tcp * 4) := by
    rw [packetPayload, htcp]
  unfold tcpOptionsBegin
  rw [htcp]
  dsimp only
  rw [hpayload]
  refine (Traced.lift_ok_bind _ _).trans ?_
  rw [getCurrentOption_eq (by omega)]
  rfl

theorem iterateOptions_end : (iterateOptions b e (fuel + 1) (.at e e)).result = .ok ([], none) := by
  rw [Iteration.at, if_pos le_rfl]
  rfl

/-- A call at a well-formed option goes on behind it. -/
theorem iterateOptions_of_formed (hlt : p < e) (hformed : ¬ Malformed b e p)
    (hrest : (iterateOptions b e fuel (.at e (p + wireLength b p))).result =
      .ok (visited, error)) :
    (iterateOptions b e (fuel + 1) (.at e p)).result = .ok (p :: visited, error) := by
  rw [Iteration.at, if_neg (by omega), iterateOptions, Traced.result_bind,
    nextIteration_of_formed hlt hformed, Returns.bind_of_ok rfl, Traced.result_bind, hrest]
  rfl

/-- The calls that follow each other make a walk, if there may be more of them than bytes. -/
theorem iterateOptions_walk {n : Nat} (hle : p ≤ e) (hn : e - p ≤ n) :
    ∃ visited error, Walk b e p visited error ∧
      ∀ fuel > n, (iterateOptions b e fuel (.at e p)).result = .ok (visited, error) := by
  induction n generalizing p with
  | zero =>
    obtain rfl : p = e := by omega
    refine ⟨[], none, .covered (.nil p), fun fuel hfuel => ?_⟩
    obtain ⟨fuel, rfl⟩ := Nat.exists_eq_add_one_of_ne_zero (by omega : fuel ≠ 0)
    exact iterateOptions_end
  | succ n ih =>
    by_cases hend : e ≤ p
    · obtain ⟨visited, error, hwalk, hrun⟩ := ih hle (by omega)
      exact ⟨visited, error, hwalk, fun fuel hfuel => hrun fuel (by omega)⟩
    have hlt : p < e := by omega
    by_cases hmalformed : Malformed b e p
    · obtain ⟨message, hnext⟩ := nextIteration_of_malformed hmalformed
      refine ⟨[p], some message, .stuck message (.nil p) hlt hmalformed, fun fuel hfuel => ?_⟩
      obtain ⟨fuel, rfl⟩ := Nat.exists_eq_add_of_le' (by omega : 2 ≤ fuel)
      rw [Iteration.at, if_neg hend, iterateOptions, Traced.result_bind, hnext]
      rfl
    · have hpos := wireLength_pos hmalformed
      have hinside := wireLength_le hlt hmalformed
      obtain ⟨visited, error, hwalk, hrun⟩ := @ih (p + wireLength b p) hinside (by omega)
      refine ⟨p :: visited, error, hwalk.cons hlt hmalformed, fun fuel hfuel => ?_⟩
      obtain ⟨fuel, rfl⟩ := Nat.exists_eq_add_one_of_ne_zero (by omega : fuel ≠ 0)
      exact iterateOptions_of_formed hlt hmalformed (hrun fuel (by omega))

theorem iterateOptions_within (hle : p ≤ e) :
    (iterateOptions b e fuel (.at e p)).Within fun c => p ≤ c ∧ c < e := by
  induction fuel generalizing p with
  | zero => exact Traced.within_lift _
  | succ fuel ih =>
    by_cases hend : e ≤ p
    · rw [Iteration.at, if_pos hend]
      exact Traced.within_pure _
    · have hlt : p < e := by omega
      rw [Iteration.at, if_neg hend]
      unfold iterateOptions
      simp only [Traced.within_bind, Traced.within_pure, implies_true, and_true]
      refine ⟨nextIteration_within hlt, fun iteration hnext => ?_⟩
      by_cases hmalformed : Malformed b e p
      · obtain ⟨message, herror⟩ := nextIteration_of_malformed hmalformed
        obtain rfl := Except.ok.inj (hnext.symm.trans herror)
        cases fuel with
        | zero => exact Traced.within_lift _
        | succ fuel => exact Traced.within_pure _
      · obtain rfl := Except.ok.inj (hnext.symm.trans (nextIteration_of_formed hlt hmalformed))
        intro c hc
        have := ih (wireLength_le hlt hmalformed) c hc
        omega

theorem Tiles.le (h : Tiles b e p visited r) : p ≤ r := by
  induction h with
  | nil p => exact le_rfl
  | cons hlt hformed hrest ih => omega

/-- Each option of a tiling is well formed and lies in it. -/
theorem Tiles.mem (h : Tiles b e p visited r) {o : Nat} (ho : o ∈ visited) :
    ¬ Malformed b e o ∧ p ≤ o ∧ o < e ∧ o + wireLength b o ≤ r := by
  induction h with
  | nil p => cases ho
  | cons hlt hformed hrest ih =>
    rcases List.mem_cons.mp ho with rfl | ho
    · exact ⟨hformed, le_rfl, hlt, hrest.le⟩
    · obtain ⟨hformed', hle, hinside⟩ := ih ho
      exact ⟨hformed', by omega, hinside⟩

theorem Tiles.head (h : Tiles b e p visited r) : (visited ++ [r]).head? = some p := by
  cases h <;> rfl

/-- Each option starts where the one before it ends. -/
theorem Tiles.isChain (h : Tiles b e p visited r) :
    (visited ++ [r]).IsChain fun o o' => o + wireLength b o = o' := by
  induction h with
  | nil p => exact .singleton p
  | @cons p r options hlt hformed hrest ih =>
    rw [List.cons_append, List.isChain_cons]
    refine ⟨fun o ho => ?_, ih⟩
    rw [hrest.head] at ho
    exact Option.some.inj ho

theorem Tiles.pairwise (h : Tiles b e p visited r) :
    (visited ++ [r]).Pairwise fun o o' => o + wireLength b o ≤ o' := by
  induction h with
  | nil p => exact List.pairwise_singleton _ p
  | @cons p r options hlt hformed hrest ih =>
    rw [List.cons_append, List.pairwise_cons]
    refine ⟨fun o ho => ?_, ih⟩
    rcases List.mem_append.mp ho with ho | ho
    · exact (hrest.mem ho).2.1
    · rw [List.mem_singleton.mp ho]
      exact hrest.le

end Walk

/-! ## The law -/

/-- What the iterator does with the area from `start` to `e`: it visits these options and leaves
this error. -/
structure IteratorLaw (b : Memory) (e start : Nat) (visited : List Nat) (error : Option String) :
    Prop where
  first : visited.head? = if start < e then some start else none
  inside : ∀ o ∈ visited, start ≤ o ∧ o < e
  adjacent : visited.IsChain fun o o' => o + wireLength b o = o'
  disjoint : visited.Pairwise fun o o' => o + wireLength b o ≤ o'
  covered : error = none ↔ Tiles b e start visited e
  failed : error ≠ none ↔ ∃ o, visited.getLast? = some o ∧ Malformed b e o

theorem Walk.law {b : Memory} {e start : Nat} {visited : List Nat} {error : Option String}
    (h : Walk b e start visited error) : IteratorLaw b e start visited error := by
  cases h with
  | covered htiles =>
    refine ⟨?_, fun o ho => ?_, htiles.isChain.left_of_append, ?_, by simp [htiles], ?_⟩
    · cases htiles with
      | nil p => simp
      | cons hlt hformed hrest => simp [hlt]
    · have := htiles.mem ho
      omega
    · exact (List.pairwise_append.mp htiles.pairwise).1
    · simp only [ne_eq, not_true, false_iff, not_exists, not_and]
      intro o ho
      exact (htiles.mem (List.mem_of_getLast? ho)).1
  | @stuck visited q message htiles hlt hmalformed =>
    have hstart : start < e := htiles.le.trans_lt hlt
    refine ⟨?_, fun o ho => ?_, htiles.isChain, htiles.pairwise, ?_, ?_⟩
    · rw [htiles.head, if_pos hstart]
    · rcases List.mem_append.mp ho with ho | ho
      · have := htiles.mem ho
        omega
      · rw [List.mem_singleton.mp ho]
        exact ⟨htiles.le, hlt⟩
    · simp only [reduceCtorEq, false_iff]
      intro hall
      exact (hall.mem (List.mem_append_right visited (List.mem_singleton_self q))).1 hmalformed
    · simp [hmalformed]

/-- The iterator comes to an end after at most as many calls as the area has bytes, it obeys its
law, and it reads no byte outside of the area. -/
theorem runIterator_law {packet : Packet} {tcp : Nat} (htcp : packet.tcp = some tcp)
    (hdoff : TCP_BYTES ≤ Tcp.doff packet.buffer tcp * 4) :
    ∃ visited error,
      (∀ fuel > Tcp.doff packet.buffer tcp * 4 - TCP_BYTES,
        (runIterator fuel packet).result = .ok (visited, error)) ∧
      IteratorLaw packet.buffer (tcp + Tcp.doff packet.buffer tcp * 4) (tcp + TCP_BYTES) visited
        error ∧
      ∀ fuel, (runIterator fuel packet).Within fun c =>
        tcp + TCP_BYTES ≤ c ∧ c < tcp + Tcp.doff packet.buffer tcp * 4 := by
  obtain ⟨e, he⟩ : ∃ e, e = tcp + Tcp.doff packet.buffer tcp * 4 := ⟨_, rfl⟩
  have hle : tcp + TCP_BYTES ≤ e := by omega
  have hbegin := tcpOptionsBegin_eq htcp hdoff
  rw [← he] at hbegin
  rw [← he]
  obtain ⟨visited, error, hwalk, hrun⟩ :=
    @iterateOptions_walk packet.buffer e (tcp + TCP_BYTES) (e - (tcp + TCP_BYTES)) hle le_rfl
  refine ⟨visited, error, fun fuel hfuel => ?_, hwalk.law, fun fuel => ?_⟩
  · unfold runIterator
    rw [hbegin]
    exact hrun fuel (by omega)
  · unfold runIterator
    rw [hbegin]
    exact iterateOptions_within hle

/-- A TCP header with these options behind it. -/
def tcpWithOptions (options : List UInt8) : Packet :=
  { packetNew (.ofList (List.replicate 12 0 ++ [UInt8.ofNat (16 * (5 + options.length / 4))] ++
      List.replicate 7 0 ++ options)) (TCP_BYTES + options.length) with
    tcp := some 0 }

/-- A NOP and a window scale, then an option that is cut off. -/
example : (runIterator 9 (tcpWithOptions [1, 3, 3, 7, 2, 4, 5, 0xb4])).result =
      .ok ([20, 21, 24], none) ∧
    (runIterator 9 (tcpWithOptions [1, 3, 3, 7, 1, 2, 4, 5])).result =
      .ok ([20, 21, 24, 25], some "TCP option data extends too far") := ⟨rfl, rfl⟩

theorem runIterator_law_mss :
    ∃ visited error,
      (∀ fuel > 8, (runIterator fuel (tcpWithOptions [1, 3, 3, 7, 2, 4, 5, 0xb4])).result =
        .ok (visited, error)) ∧
      IteratorLaw (tcpWithOptions [1, 3, 3, 7, 2, 4, 5, 0xb4]).buffer 28 20 visited error ∧
      ∀ fuel, (runIterator fuel (tcpWithOptions [1, 3, 3, 7, 2, 4, 5, 0xb4])).Within fun c =>
        20 ≤ c ∧ c < 28 :=
  @runIterator_law (tcpWithOptions [1, 3, 3, 7, 2, 4, 5, 0xb4]) 0 rfl (by decide)

end QoSMos
