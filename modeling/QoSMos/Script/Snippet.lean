import Mathlib.Computability.Language
import QoSMos.Build.Program
import QoSMos.Lib.Returns
import QoSMos.Lib.Traced
import QoSMos.Lib.Trim

/-!
# Code snippets

The lexer hands a code snippet with its delimiters to `code` of `lexer.l`, which copies what is
between them without the blanks at both ends. The function notes the positions that it reads; the
scanner ends a token with a null byte.
-/

namespace QoSMos.Script

open Computability Returns Traced Trim

/-! ## Tokens -/

/-- `%{` -/
def openDelimiter : List UInt8 := [0x25, 0x7b]

/-- `}%` -/
def closeDelimiter : List UInt8 := [0x7d, 0x25]

/-- Anything but a closing brace, or a closing brace and anything but a percent sign. -/
def codeUnit : Language UInt8 :=
  {unit | (∃ c, c ≠ 0x7d ∧ unit = [c]) ∨ ∃ c, c ≠ 0x25 ∧ unit = [0x7d, c]}

/-- The pattern `code` of the lexer. -/
def codePattern : Language UInt8 := {openDelimiter} * codeUnit∗ * {closeDelimiter}

/-- A snippet with this body. -/
def snippet (body : List UInt8) : List UInt8 := openDelimiter ++ body ++ closeDelimiter

/-! ## The function -/

/-- `(c == ' ') || (c == '\t')` -/
def isBlank (c : UInt8) : Bool := c = 0x20 || c = 0x09

/-- `while (isblank(*start)) ++start` over the bytes from `position` on -/
def scanForward : List UInt8 → Nat → Traced Nat Halt Nat
  | [], _ => lift (.error (.undefined "code" "*start"))
  | c :: bytes, position => do
    Traced.touch [position]
    if isBlank c then scanForward bytes (position + 1) else return position

/-- `while (isblank(*end)) --end` over the bytes up to `end`, the last first -/
def scanBackward : List UInt8 → Traced Nat Halt Nat
  | [] => lift (.error (.undefined "code" "*end"))
  | c :: bytes => do
    Traced.touch [bytes.length]
    if isBlank c then scanBackward bytes else return bytes.length

/-- The bytes before the first null byte. -/
def stringOf (bytes : List UInt8) : List UInt8 := bytes.takeWhile (· ≠ 0)

/-- `strlen` of the string at the start of the bytes. -/
def strlen (bytes : List UInt8) : Traced Nat Halt Nat := do
  Traced.touch (List.range ((stringOf bytes).length + 1))
  return (stringOf bytes).length

/-- `strndup` of the string at `start`, of which it reads `n` bytes at most. -/
def strndup (bytes : List UInt8) (start n : Nat) : Traced Nat Halt (List UInt8) := do
  let copy := stringOf ((bytes.drop start).take n)
  Traced.touch ((List.range (min n (copy.length + 1))).map (start + ·))
  return copy

/-- A length of type `int` as one of type `size_t`. -/
def sizeOfInt (n : Int) : Nat := (n.bmod 4294967296 % 18446744073709551616).toNat

/-- `code` of the bytes of a token. -/
def code (token : List UInt8) : Traced Nat Halt (List UInt8) := do
  let bytes := token ++ [0]
  let start ← scanForward (bytes.drop 2) 2
  let length ← strlen bytes
  let last ← scanBackward (bytes.take (length - 2)).reverse
  let codeLen : Int := last - start + 1
  strndup bytes start (sizeOfInt codeLen)

/-! ## What it copies -/

/-- The function returns the body without the blanks around it, and reads the token only. -/
def CopiesBody (body : List UInt8) : Prop :=
  (code (snippet body)).result = .ok (trim isBlank body) ∧
    Within (· ≤ (snippet body).length) (code (snippet body))

/-- The body has no null byte. If it is blank, its length is nothing as an `int`; if it is not, the
length of what is to be copied is the same as an `int`. -/
def Copyable (body : List UInt8) : Prop :=
  0 ∉ body ∧ (if body.all isBlank then 4294967296 ∣ body.length
    else sizeOfInt (trim isBlank body).length = (trim isBlank body).length)

/-! ## The scans -/

section Scans

variable {bytes rest lead trail body token : List UInt8} {c : UInt8} {position start n : Nat}

theorem scanForward_spec (position : Nat) (rest : List UInt8)
    (hlead : ∀ c ∈ lead, isBlank c = true) (hc : isBlank c = false) :
    (scanForward (lead ++ c :: rest) position).result = .ok (position + lead.length) ∧
      Within (· ≤ position + lead.length) (scanForward (lead ++ c :: rest) position) := by
  induction lead generalizing position with
  | nil =>
    rw [List.nil_append, scanForward, hc]
    exact ⟨rfl, by simp [within_bind]⟩
  | cons d lead ih =>
    obtain ⟨hd, hlead⟩ := List.forall_mem_cons.mp hlead
    obtain ⟨hresult, hwithin⟩ := ih (position + 1) hlead
    have hnext : position + 1 + lead.length = position + (d :: lead).length := by
      rw [List.length_cons]
      omega
    rw [hnext] at hresult hwithin
    rw [List.cons_append, scanForward, hd, if_pos rfl]
    refine ⟨hresult, within_bind.mpr ⟨?_, fun _ _ => hwithin⟩⟩
    simp

theorem scanBackward_spec (rest : List UInt8) (htrail : ∀ c ∈ trail, isBlank c = true)
    (hc : isBlank c = false) :
    (scanBackward (trail ++ c :: rest)).result = .ok rest.length ∧
      Within (· < (trail ++ c :: rest).length) (scanBackward (trail ++ c :: rest)) := by
  induction trail with
  | nil =>
    rw [List.nil_append, scanBackward, hc]
    exact ⟨rfl, by simp [within_bind]⟩
  | cons d trail ih =>
    obtain ⟨hd, htrail⟩ := List.forall_mem_cons.mp htrail
    obtain ⟨hresult, hwithin⟩ := ih htrail
    rw [List.cons_append, scanBackward, hd, if_pos rfl]
    refine ⟨hresult, within_bind.mpr ⟨by simp, fun _ _ position hposition => ?_⟩⟩
    exact (hwithin position hposition).trans (Nat.lt_succ_self _)

theorem stringOf_append (rest : List UInt8) (h : 0 ∉ bytes) :
    stringOf (bytes ++ rest) = bytes ++ stringOf rest := by
  apply List.takeWhile_append_of_pos
  intro c hc
  rw [decide_eq_true_iff]
  rintro rfl
  exact h hc

theorem zero_not_mem_stringOf (bytes : List UInt8) : 0 ∉ stringOf bytes := by
  intro hmem
  have hne := List.mem_takeWhile_imp hmem
  simp at hne

/-- A copy reads no further than the null byte behind the string. -/
theorem strndup_within (hstart : start ≤ bytes.length) :
    Within (· ≤ bytes.length) (strndup (bytes ++ [0]) start n) := by
  have hdrop : (bytes ++ [0]).drop start = bytes.drop start ++ [0] :=
    List.drop_append_of_le_length hstart
  have hlength : (stringOf (((bytes ++ [0]).drop start).take n)).length ≤ bytes.length - start := by
    rw [hdrop, ← List.length_drop]
    by_contra hlong
    have hprefix : stringOf ((bytes.drop start ++ [0]).take n) <+: bytes.drop start ++ [0] :=
      (List.takeWhile_prefix _).trans (List.take_prefix ..)
    have heq := hprefix.eq_of_length_le (by rw [List.length_append, List.length_singleton]; omega)
    apply zero_not_mem_stringOf ((bytes.drop start ++ [0]).take n)
    rw [heq]
    simp
  rw [strndup, within_bind]
  refine ⟨?_, fun _ _ => within_pure _⟩
  rw [within_touch]
  intro position hposition
  obtain ⟨i, hi, rfl⟩ := List.mem_map.mp hposition
  rw [List.mem_range] at hi
  omega

theorem result_strndup :
    (strndup bytes start n).result = .ok (stringOf ((bytes.drop start).take n)) := rfl

/-- What is copied is all of a part without null bytes if and only if its length is given. -/
theorem stringOf_take_eq_iff {core : List UInt8} (hcore : 0 ∉ core) (hc : c ≠ 0) :
    stringOf ((core ++ c :: rest).take n) = core ↔ n = core.length := by
  constructor
  · intro h
    rcases Nat.lt_trichotomy n core.length with hlt | heq | hgt
    · have hlength := congrArg List.length h
      have hle : (stringOf ((core ++ c :: rest).take n)).length ≤ n :=
        (List.takeWhile_prefix _).length_le.trans (List.length_take_le ..)
      omega
    · exact heq
    · obtain ⟨k, rfl⟩ := Nat.exists_eq_add_of_lt hgt
      have htake : (core ++ c :: rest).take (core.length + k + 1) = core ++ c :: rest.take k := by
        rw [Nat.add_assoc, List.take_length_add_append, List.take_succ_cons]
      have hnext : stringOf (c :: rest.take k) = c :: stringOf (rest.take k) :=
        List.takeWhile_cons_of_pos (by simpa using hc)
      have hlength := congrArg List.length h
      rw [htake, stringOf_append _ hcore, hnext, List.length_append, List.length_cons] at hlength
      omega
  · rintro rfl
    have hall := stringOf_append [] hcore
    rw [List.append_nil] at hall
    rw [List.take_left, hall]
    exact List.append_nil core

/-! ## The whole function -/

theorem length_snippet (body : List UInt8) : (snippet body).length = body.length + 4 := by
  have hopen : openDelimiter.length = 2 := rfl
  have hclose : closeDelimiter.length = 2 := rfl
  simp only [snippet, List.length_append]
  omega

/-- A string that comes out has no null byte in it. -/
theorem zero_not_mem_of_code {string : List UInt8} (h : (code token).result = .ok string) :
    0 ∉ string := by
  simp only [code, result_bind, bind_eq_ok_iff] at h
  obtain ⟨start, -, length, -, last, -, hstring⟩ := h
  rw [← Except.ok.inj hstring]
  exact zero_not_mem_stringOf _

theorem strlen_snippet (hbody : 0 ∉ body) :
    strlen (snippet body ++ [0]) = ⟨List.range (body.length + 5), .ok (body.length + 4)⟩ := by
  have hzero : 0 ∉ snippet body := by
    simp [snippet, openDelimiter, closeDelimiter, hbody]
  have hstring : stringOf (snippet body ++ [0]) = snippet body := by
    rw [stringOf_append _ hzero]
    exact List.append_nil _
  rw [strlen, hstring, length_snippet]
  change Traced.mk (List.range (body.length + 4 + 1) ++ []) _ = _
  rw [List.append_nil]
  rfl

/-- The first scan stops at the first byte of the body that is not blank, or behind the body. The
second scan stops at the last one, or before the body. -/
theorem code_of_scans {last : Nat} (hbody : 0 ∉ body) (hle : start ≤ body.length + 2)
    (hstart : (scanForward (body ++ closeDelimiter ++ [0]) 2).result = .ok start ∧
      Within (· ≤ start) (scanForward (body ++ closeDelimiter ++ [0]) 2))
    (hlast : (scanBackward (body.reverse ++ openDelimiter.reverse)).result = .ok last ∧
      Within (· < body.length + 2) (scanBackward (body.reverse ++ openDelimiter.reverse))) :
    (code (snippet body)).result = .ok (stringOf (((snippet body ++ [0]).drop start).take
      (sizeOfInt (last - start + 1)))) ∧
      Within (· ≤ (snippet body).length) (code (snippet body)) := by
  have hlength := length_snippet body
  have hdrop : (snippet body ++ [0]).drop 2 = body ++ closeDelimiter ++ [0] := rfl
  have htake : ((snippet body ++ [0]).take (body.length + 4 - 2)).reverse =
      body.reverse ++ openDelimiter.reverse := by
    have hfront : (openDelimiter ++ body).length = body.length + 4 - 2 := by
      rw [List.length_append, Nat.add_comm]
      rfl
    have hsplit : snippet body ++ [0] = (openDelimiter ++ body) ++ (closeDelimiter ++ [0]) := by
      rw [snippet, List.append_assoc]
    rw [hsplit, List.take_left' hfront, List.reverse_append]
  rw [code]
  constructor
  · simp only [result_bind, bind_eq_ok_iff]
    refine ⟨start, hstart.1, body.length + 4, ?_, last, ?_, result_strndup⟩
    · rw [strlen_snippet hbody]
    · rw [htake]
      exact hlast.1
  · simp only [within_bind]
    refine ⟨?_, fun start' hstart' => ⟨?_, fun length' hlength' => ⟨?_, fun last' _ => ?_⟩⟩⟩
    · intro position hposition
      have hlow := hstart.2 position hposition
      omega
    · rw [strlen_snippet hbody]
      intro position hposition
      have hlow := List.mem_range.mp hposition
      omega
    · rw [strlen_snippet hbody] at hlength'
      obtain rfl := Except.ok.inj hlength'
      rw [htake]
      intro position hposition
      have hlow := hlast.2 position hposition
      omega
    · obtain rfl := Except.ok.inj (hstart.1.symm.trans hstart')
      exact strndup_within (by omega)

/-- A blank body leaves the scans at the delimiters, the first behind the second. -/
theorem code_blank (hbody : ∀ c ∈ body, isBlank c = true) :
    (code (snippet body)).result = .ok (stringOf ((closeDelimiter ++ [0]).take
      (sizeOfInt (-body.length)))) ∧
      Within (· ≤ (snippet body).length) (code (snippet body)) := by
  have hzero : 0 ∉ body := fun h => absurd (hbody 0 h) (by decide)
  have hreverse : ∀ c ∈ body.reverse, isBlank c = true := by simpa using hbody
  have hstart := scanForward_spec 2 [0x25, 0] hbody (show isBlank 0x7d = false by decide)
  have hlast := scanBackward_spec [0x25] hreverse (show isBlank 0x7b = false by decide)
  have hbytes : body ++ closeDelimiter ++ [0] = body ++ 0x7d :: [0x25, 0] := List.append_assoc ..
  have hlength : (body.reverse ++ 0x7b :: [0x25]).length = body.length + 2 := by simp
  rw [hlength] at hlast
  rw [← hbytes] at hstart
  have hcode := code_of_scans hzero (by omega) hstart hlast
  have hdrop : (snippet body ++ [0]).drop (2 + body.length) = closeDelimiter ++ [0] := by
    have hfront : (openDelimiter ++ body).length = 2 + body.length := List.length_append
    rw [snippet, List.append_assoc, List.drop_left' hfront]
  have hlen : (([0x25] : List UInt8).length : Int) - (2 + body.length : Nat) + 1 =
      -body.length := by
    rw [List.length_singleton]
    omega
  rwa [hdrop, hlen] at hcode

/-- What is left of a body is between the scans. -/
theorem code_splits {core : List UInt8} (hzero : 0 ∉ body)
    (hsplits : Splits isBlank body lead core trail) :
    (code (snippet body)).result = .ok (stringOf ((core ++ (trail ++ closeDelimiter ++ [0])).take
      (sizeOfInt core.length))) ∧
      Within (· ≤ (snippet body).length) (code (snippet body)) := by
  obtain ⟨first, rest, hcore⟩ := List.exists_cons_of_ne_nil hsplits.ne_nil
  obtain ⟨front, final, hcore'⟩ := List.eq_nil_or_concat' core |>.resolve_left hsplits.ne_nil
  have hfirst : isBlank first = false := hsplits.head first (by rw [hcore]; rfl)
  have hfinal : isBlank final = false := hsplits.last final (by rw [hcore', List.getLast?_concat])
  have htrail : ∀ c ∈ trail.reverse, isBlank c = true := by simpa using hsplits.trail
  have hforward := scanForward_spec 2 (rest ++ (trail ++ closeDelimiter ++ [0])) hsplits.lead hfirst
  have hbackward := scanBackward_spec (openDelimiter ++ lead ++ front).reverse htrail hfinal
  have hcoreLength : core.length = front.length + 1 := by
    rw [hcore', List.length_append]
    rfl
  have hbodyLength : body.length = lead.length + core.length + trail.length := by
    rw [hsplits.text, List.length_append, List.length_append]
  have hbytes : body ++ closeDelimiter ++ [0] =
      lead ++ first :: (rest ++ (trail ++ closeDelimiter ++ [0])) := by
    rw [hsplits.text, hcore]
    simp
  have hreverse : body.reverse ++ openDelimiter.reverse =
      trail.reverse ++ final :: (openDelimiter ++ lead ++ front).reverse := by
    rw [hsplits.text, hcore']
    simp
  have hlength : (trail.reverse ++ final :: (openDelimiter ++ lead ++ front).reverse).length =
      body.length + 2 := by
    rw [← hreverse, List.length_append, List.length_reverse]
    rfl
  rw [hlength, ← hreverse] at hbackward
  rw [← hbytes] at hforward
  have hcode := code_of_scans hzero (by omega) hforward hbackward
  have hdrop : (snippet body ++ [0]).drop (2 + lead.length) =
      core ++ (trail ++ closeDelimiter ++ [0]) := by
    have hfront : (openDelimiter ++ lead).length = 2 + lead.length := List.length_append
    have hsplit : snippet body ++ [0] =
        (openDelimiter ++ lead) ++ (core ++ (trail ++ closeDelimiter ++ [0])) := by
      rw [snippet, hsplits.text]
      simp
    rw [hsplit, List.drop_left' hfront]
  have hlen : (((openDelimiter ++ lead ++ front).reverse.length : Nat) : Int) -
      (2 + lead.length : Nat) + 1 = core.length := by
    have hopen : openDelimiter.length = 2 := rfl
    simp only [List.length_reverse, List.length_append]
    omega
  rwa [hdrop, hlen] at hcode

theorem sizeOfInt_neg_eq_zero_iff (k : Nat) : sizeOfInt (-k) = 0 ↔ 4294967296 ∣ k := by
  rw [sizeOfInt, Int.bmod_def]
  split_ifs <;> omega

/-- The function copies a body just where it can be copied. -/
theorem copiesBody_iff : CopiesBody body ↔ Copyable body := by
  by_cases hzero : 0 ∈ body
  · refine iff_of_false (fun h => ?_) (fun h => h.1 hzero)
    exact zero_not_mem_of_code h.1 (mem_trim hzero (by decide))
  · rw [Copyable, and_iff_right hzero]
    by_cases hall : body.all isBlank = true
    · have hblank := List.all_eq_true.mp hall
      obtain ⟨hresult, hwithin⟩ := code_blank hblank
      rw [if_pos hall, CopiesBody, and_iff_left hwithin, hresult, trim_eq_nil hblank,
        Except.ok.injEq, ← sizeOfInt_neg_eq_zero_iff]
      exact stringOf_take_eq_iff List.not_mem_nil (by decide)
    · have hother : ∃ c ∈ body, isBlank c = false := by
        simpa using hall
      obtain ⟨lead, core, trail, hsplits⟩ := exists_splits hother
      obtain ⟨hresult, hwithin⟩ := code_splits hzero hsplits
      rw [if_neg hall, CopiesBody, and_iff_left hwithin, hresult, hsplits.trim_eq,
        Except.ok.injEq]
      have hparts : 0 ∉ core ∧ 0 ∉ trail := by
        rw [hsplits.text] at hzero
        simp only [List.mem_append, not_or] at hzero
        exact ⟨hzero.1.2, hzero.2⟩
      obtain ⟨c, rest, hrest, hc⟩ :
          ∃ c rest, trail ++ closeDelimiter ++ [0] = c :: rest ∧ c ≠ 0 := by
        cases trail with
        | nil => exact ⟨0x7d, [0x25, 0], rfl, by decide⟩
        | cons c trail => exact ⟨c, _, rfl, fun hc => hparts.2 (hc ▸ List.mem_cons_self)⟩
      rw [hrest]
      exact stringOf_take_eq_iff hparts.1 hc

/-- So it is for all tokens of the pattern. -/
theorem code_copies_iff : ∀ token ∈ codePattern,
    ∃ body, token = snippet body ∧ (CopiesBody body ↔ Copyable body) := by
  intro token htoken
  obtain ⟨front, hfront, close, hclose, rfl⟩ := Language.mem_mul.mp htoken
  obtain ⟨start, hstart, body, -, rfl⟩ := Language.mem_mul.mp hfront
  obtain rfl := Set.mem_singleton_iff.mp hstart
  obtain rfl := Set.mem_singleton_iff.mp hclose
  exact ⟨body, rfl, copiesBody_iff⟩

/-- A body without a closing brace is one that the pattern allows. -/
theorem snippet_mem_codePattern (h : ∀ c ∈ body, c ≠ 0x7d) : snippet body ∈ codePattern := by
  have hbody : body ∈ codeUnit∗ := by
    refine Language.mem_kstar.mpr ⟨body.map fun c => [c], by simp [← List.flatMap_def], ?_⟩
    intro unit hunit
    obtain ⟨c, hc, rfl⟩ := List.mem_map.mp hunit
    exact .inl ⟨c, h c hc, rfl⟩
  exact Language.mem_mul.mpr ⟨_, Language.mem_mul.mpr ⟨_, rfl, _, hbody, rfl⟩, _, rfl, rfl⟩

theorem snippet_injective {body' : List UInt8} (h : snippet body = snippet body') : body = body' :=
  List.append_cancel_left (List.append_cancel_right h)

/-- `%{ x }%` -/
theorem code_copies_word : CopiesBody [0x20, 0x78, 0x20] := by
  obtain ⟨body, hbody, hiff⟩ := code_copies_iff (snippet [0x20, 0x78, 0x20])
    (snippet_mem_codePattern (by simp))
  obtain rfl := snippet_injective hbody
  exact hiff.mpr ⟨by decide, by decide⟩

/-- Of `%{ }%` the closing delimiter is copied. -/
theorem code_copies_delimiter : ¬ ∀ token ∈ codePattern,
    ∃ body, token = snippet body ∧ CopiesBody body := by
  intro h
  obtain ⟨body, hbody, hcopies⟩ := h (snippet [0x20]) (snippet_mem_codePattern (by simp))
  obtain rfl := snippet_injective hbody
  have hresult : (code (snippet [0x20])).result = .ok closeDelimiter := by decide
  exact absurd (hresult.symm.trans hcopies.1) (by decide)

end Scans

end QoSMos.Script
