import QoSMos.Script.Program

/-!
# String escapes

The text of a string literal falls into characters and escapes. What C means by them is compared
with what `unescape_cstring_expression` stores for them.
-/

namespace QoSMos.Script

/-- A character of the input that stands for itself, or what follows a backslash. -/
inductive Piece where
  | plain (c : Char)
  | escape (text : List Char)
deriving DecidableEq

/-- The pieces of a text from left to right. The escape `x` takes the two characters behind it. -/
def pieces : List Char → List Piece
  | [] => []
  | '\\' :: [] => [.escape []]
  | '\\' :: 'x' :: c0 :: c1 :: rest => .escape ['x', c0, c1] :: pieces rest
  | '\\' :: 'x' :: rest => [.escape ('x' :: rest)]
  | '\\' :: c :: rest => .escape [c] :: pieces rest
  | c :: rest => .plain c :: pieces rest

/-- The character that an escape denotes in C, for the escapes `\\ \" \f \n \r \t \v \xhh`. -/
def denotedEscape : List Char → Option Char
  | ['\\'] => some '\\'
  | ['\x22'] => some '\x22'
  | ['f'] => some '\x0c'
  | ['n'] => some '\n'
  | ['r'] => some '\x0d'
  | ['t'] => some '\t'
  | ['v'] => some '\x0b'
  | ['x', c0, c1] => do
    let high ← hexDigit c0
    let low ← hexDigit c1
    return Char.ofNat (16 * high + low)
  | _ => none

def Piece.denoted : Piece → Option Char
  | .plain c => some c
  | .escape text => denotedEscape text

/-- The string that a text denotes in C, where each of its escapes is one of these. -/
def denotedString (text : List Char) : Option (List Char) := (pieces text).mapM Piece.denoted

/-- The call succeeds on the texts that denote a string, and gives this string. -/
def UnescapesAsC (inputString : String) : Prop :=
  ∀ string, unescapeCstringExpression inputString = .ok string ↔
    denotedString inputString.toList = some string.toList

/-- Two digits as `strtol` takes them: a blank or a sign passes for the first. -/
def HexPair (c0 c1 : Char) : Prop := (strtol c0 c1).isSome

/-- An escape that the switch has a case for. -/
def Supported (text : List Char) : Prop :=
  (∃ c ∈ ['\\', '\x22', 'f', 'n', 'r', 't', 'v'], text = [c]) ∨
    ∃ c0 c1, text = ['x', c0, c1] ∧ HexPair c0 c1

/-- An escape for which the switch stores another character, or one that is none in C. -/
def Misread (text : List Char) : Prop :=
  text = ['\\'] ∨ text = ['\x22'] ∨
    ∃ c0 c1, text = ['x', c0, c1] ∧ hexDigit c0 = none ∧ HexPair c0 c1

/-! ## What the switch stores -/

def storedEscape : List Char → Option Char
  | ['\\'] | ['\x22'] | ['f'] => some '\x0c'
  | ['n'] => some '\n'
  | ['r'] => some '\x0d'
  | ['t'] => some '\t'
  | ['v'] => some '\x0b'
  | ['x', c0, c1] => (strtol c0 c1).map fun value => Char.ofNat (value % 256).toNat
  | _ => none

def Piece.stored : Piece → Option Char
  | .plain c => some c
  | .escape text => storedEscape text

variable {c c0 c1 : Char} {rest text : List Char}

theorem pieces_plain (hc : c ≠ '\\') : pieces (c :: rest) = .plain c :: pieces rest := by
  rw [pieces] <;> simp [hc]

theorem pieces_code (hc : c ≠ 'x') :
    pieces ('\\' :: c :: rest) = .escape [c] :: pieces rest := by
  rw [pieces] <;> simp [hc]

theorem pieces_short (hrest : ∀ c0 c1 rest', rest ≠ c0 :: c1 :: rest') :
    pieces ('\\' :: 'x' :: rest) = [.escape ('x' :: rest)] := by
  rw [pieces]
  simpa using hrest

theorem mapM_cons_of_some {α β : Type*} {f : α → Option β} {a : α} {as : List α} {b : β}
    (h : f a = some b) : (a :: as).mapM f = (as.mapM f).map (b :: ·) := by
  rw [List.mapM_cons, h]
  cases as.mapM f <;> rfl

theorem mapM_cons_of_none {α β : Type*} {f : α → Option β} {a : α} {as : List α}
    (h : f a = none) : (a :: as).mapM f = none := by
  rw [List.mapM_cons, h]
  rfl

/-- One more piece of the input is one more character of the output. -/
theorem toOption_unescape_cons {b : Char} {piece : Piece} {input : List Char}
    (hstored : piece.stored = some b)
    (hpieces : pieces input = piece :: pieces rest)
    (ih : (unescape rest).toOption = (pieces rest).mapM Piece.stored) :
    ((unescape rest).map (b :: ·)).toOption = (pieces input).mapM Piece.stored := by
  rw [hpieces, mapM_cons_of_some hstored, ← ih]
  cases unescape rest <;> rfl

/-- The loop stores for every piece what the switch has for it. -/
theorem toOption_unescape (input : List Char) :
    (unescape input).toOption = (pieces input).mapM Piece.stored := by
  fun_induction unescape input with
  | case1 | case2 => rfl
  | case3 rest ih | case4 rest ih | case5 rest ih | case6 rest ih | case7 rest ih | case8 rest ih
  | case9 rest ih =>
    exact toOption_unescape_cons rfl (pieces_code (by decide)) ih
  | case10 c0 c1 rest value hvalue ih =>
    refine toOption_unescape_cons ?_ (pieces.eq_3 c0 c1 rest) ih
    simp [Piece.stored, storedEscape, hvalue]
  | case11 c0 c1 rest hnone =>
    have hstored : (Piece.escape ['x', c0, c1]).stored = none := by
      simp [Piece.stored, storedEscape, hnone]
    exact (mapM_cons_of_none hstored).symm
  | case12 rest hrest =>
    have hstored : (Piece.escape ('x' :: rest)).stored = none := by
      match rest, hrest with
      | [], _ => rfl
      | [c], _ => rfl
      | c0 :: c1 :: rest', h => exact (h c0 c1 rest' rfl).elim
    rw [pieces_short hrest, mapM_cons_of_none hstored]
    rfl
  | case13 c rest =>
    have hstored : (Piece.escape [c]).stored = none := by
      rw [Piece.stored, storedEscape] <;> simp <;> assumption
    rw [pieces_code ‹_›, mapM_cons_of_none hstored]
    rfl
  | case14 c rest =>
    have hplain : c ≠ '\\' := by
      rintro rfl
      cases rest <;> simp at *
    exact toOption_unescape_cons rfl (pieces_plain hplain) ‹_›

/-! ## Where the two agree -/

theorem hexDigit_lt {value : Nat} (h : hexDigit c = some value) : value < 16 := by
  have hchars : ∀ {a b : Char}, a ≤ b → a.toNat ≤ b.toNat := fun h => h
  unfold hexDigit at h
  split_ifs at h with h1 h2 h3
  · have := hchars h1.2
    have h9 : '9'.toNat = 57 := rfl
    have := Option.some.inj h
    omega
  · have := hchars h2.2
    have hf : 'f'.toNat = 102 := rfl
    have := Option.some.inj h
    omega
  · have := hchars h3.2
    have hF : 'F'.toNat = 70 := rfl
    have := Option.some.inj h
    omega

/-- Two digits are read as C reads them. -/
theorem storedEscape_hex {high : Nat} (hhigh : hexDigit c0 = some high) :
    storedEscape ['x', c0, c1] = denotedEscape ['x', c0, c1] := by
  cases hlow : hexDigit c1 with
  | none => simp [storedEscape, denotedEscape, strtol, hhigh, hlow]
  | some low =>
    have h0 := hexDigit_lt hhigh
    have h1 := hexDigit_lt hlow
    have hvalue : ((16 * high + low : Int) % 256).toNat = 16 * high + low := by omega
    simp [storedEscape, denotedEscape, strtol, hhigh, hlow, hvalue]

theorem denotedEscape_of_notDigit (hhigh : hexDigit c0 = none) :
    denotedEscape ['x', c0, c1] = none := by
  simp [denotedEscape, hhigh]

theorem isSome_storedEscape : (storedEscape text).isSome ↔ Supported text := by
  fun_cases storedEscape text <;> simp_all [Supported, HexPair]

theorem storedEscape_eq_denotedEscape :
    storedEscape text = denotedEscape text ↔ (Supported text → ¬ Misread text) := by
  rw [← isSome_storedEscape]
  fun_cases storedEscape text with
  | case1 => simp [denotedEscape, Misread]
  | case2 => simp [denotedEscape, Misread]
  | case3 => simp [denotedEscape, Misread]
  | case4 => simp [denotedEscape, Misread]
  | case5 => simp [denotedEscape, Misread]
  | case6 => simp [denotedEscape, Misread]
  | case7 => simp [denotedEscape, Misread]
  | case8 c0 c1 =>
    cases hhigh : hexDigit c0 with
    | none =>
      rw [denotedEscape_of_notDigit hhigh]
      cases hvalue : strtol c0 c1 <;> simp [Misread, HexPair, hhigh, hvalue]
    | some high => simp [← storedEscape_hex hhigh, storedEscape, Misread, hhigh]
  | case9 =>
    have hnone : denotedEscape text = none := by
      rw [denotedEscape] <;> simp_all
    simp [hnone]

/-! ## The whole text -/

theorem mapM_eq_none_iff {α β : Type*} {f : α → Option β} {as : List α} :
    as.mapM f = none ↔ ∃ a ∈ as, f a = none := by
  induction as with
  | nil => simp
  | cons a as ih =>
    cases h : f a with
    | none => simp [mapM_cons_of_none h, h]
    | some b => simp [mapM_cons_of_some h, h, ih]

theorem mapM_cons_eq_some {α β : Type*} {f : α → Option β} {a : α} {as : List α} {b : β}
    {bs : List β} : (a :: as).mapM f = some (b :: bs) ↔ f a = some b ∧ as.mapM f = some bs := by
  cases h : f a with
  | none => simp [mapM_cons_of_none h]
  | some b' => simp [mapM_cons_of_some h, and_comm]

/-- Two ways to read the elements of a list, of which the second rejects what the first rejects:
they agree where the first rejects an element or both agree on all of them. -/
theorem mapM_eq_mapM_iff {α β : Type*} {f g : α → Option β} {as : List α}
    (hnone : ∀ a, f a = none → g a = none) :
    as.mapM f = as.mapM g ↔ (∃ a ∈ as, f a = none) ∨ ∀ a ∈ as, f a = g a := by
  constructor
  · intro heq
    by_cases hf : ∃ a ∈ as, f a = none
    · exact .inl hf
    · right
      obtain ⟨bs, hbs⟩ := Option.ne_none_iff_exists'.mp (mt mapM_eq_none_iff.mp hf)
      have hg := heq ▸ hbs
      clear heq hf
      induction as generalizing bs with
      | nil => simp
      | cons a as ih =>
        cases bs with
        | nil =>
          cases hfa : f a with
          | none => simp [mapM_cons_of_none hfa] at hbs
          | some b => simp [mapM_cons_of_some hfa] at hbs
        | cons b bs =>
          obtain ⟨hfa, hfas⟩ := mapM_cons_eq_some.mp hbs
          obtain ⟨hga, hgas⟩ := mapM_cons_eq_some.mp hg
          exact List.forall_mem_cons.mpr ⟨hfa.trans hga.symm, ih bs hfas hgas⟩
  · rintro (⟨a, ha, hf⟩ | hall)
    · rw [mapM_eq_none_iff.mpr ⟨a, ha, hf⟩, mapM_eq_none_iff.mpr ⟨a, ha, hnone a hf⟩]
    · induction as with
      | nil => rfl
      | cons a as ih =>
        obtain ⟨ha, has⟩ := List.forall_mem_cons.mp hall
        rw [List.mapM_cons, List.mapM_cons, ha, ih has]

theorem stored_eq_none {piece : Piece} :
    piece.stored = none ↔ ∃ text, piece = .escape text ∧ ¬ Supported text := by
  cases piece with
  | plain c => simp [Piece.stored]
  | escape text => simp [Piece.stored, ← isSome_storedEscape]

theorem stored_eq_denoted {piece : Piece} :
    piece.stored = piece.denoted ↔
      ∀ text, piece = .escape text → Supported text → ¬ Misread text := by
  cases piece with
  | plain c => simp [Piece.stored, Piece.denoted]
  | escape text => simp [Piece.stored, Piece.denoted, storedEscape_eq_denotedEscape]

theorem unescapesAsC_iff_toOption {inputString : String} :
    UnescapesAsC inputString ↔
      (unescape inputString.toList).toOption = denotedString inputString.toList := by
  unfold UnescapesAsC unescapeCstringExpression
  cases unescape inputString.toList with
  | error e =>
    simp only [reduceCtorEq, false_iff, Except.toOption]
    constructor
    · intro h
      cases hdenoted : denotedString inputString.toList with
      | none => rfl
      | some string => exact (h (String.ofList string) (by simp [hdenoted])).elim
    · intro h string
      simp [← h]
  | ok out =>
    simp only [Except.ok.injEq, Except.toOption]
    constructor
    · intro h
      simpa using ((h (String.ofList out)).mp rfl).symm
    · intro h string
      rw [← h, Option.some.injEq]
      exact ⟨fun heq => by simp [← heq], fun heq => by simp [heq]⟩

/-- `unescape_cstring_expression` reads a string as C does where it stops at an escape, or where no
escape is one it misreads. -/
theorem unescapesAsC_iff (inputString : String) :
    UnescapesAsC inputString ↔
      (∃ text, .escape text ∈ pieces inputString.toList ∧ ¬ Supported text) ∨
        ∀ text, .escape text ∈ pieces inputString.toList → ¬ Misread text := by
  have hnone : ∀ piece : Piece, piece.stored = none → piece.denoted = none := by
    intro piece h
    obtain ⟨text, rfl, hunsupported⟩ := stored_eq_none.mp h
    rw [← h]
    refine (stored_eq_denoted.mpr ?_).symm
    rintro _ ⟨⟩ hsupported
    exact (hunsupported hsupported).elim
  rw [unescapesAsC_iff_toOption, toOption_unescape, denotedString, mapM_eq_mapM_iff hnone]
  constructor
  · rintro (⟨piece, hmem, h⟩ | hall)
    · obtain ⟨text, rfl, hunsupported⟩ := stored_eq_none.mp h
      exact .inl ⟨text, hmem, hunsupported⟩
    · by_cases hstop : ∃ text, .escape text ∈ pieces inputString.toList ∧ ¬ Supported text
      · exact .inl hstop
      · right
        intro text hmem
        have hsupported : Supported text := by
          by_contra hunsupported
          exact hstop ⟨text, hmem, hunsupported⟩
        exact stored_eq_denoted.mp (hall _ hmem) text rfl hsupported
  · rintro (⟨text, hmem, hunsupported⟩ | hall)
    · exact .inl ⟨_, hmem, stored_eq_none.mpr ⟨text, rfl, hunsupported⟩⟩
    · right
      intro piece hmem
      refine stored_eq_denoted.mpr ?_
      rintro text rfl -
      exact hall text hmem

/-- An escaped backslash becomes a form feed. -/
theorem not_forall_unescapesAsC : ¬ ∀ inputString, UnescapesAsC inputString := by
  intro h
  have hdenoted := (h "\\\\" "\x0c").mp rfl
  exact absurd hdenoted (by decide)

end QoSMos.Script
