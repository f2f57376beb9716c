import Mathlib.Data.List.Nodup
import Mathlib.Logic.Function.Basic
import Mathlib.Tactic.Common

/-!
# Programs of assignments

A program that assigns a number to one variable in each line: what it does, how it is printed, and
that a reader of its text gets it back.
-/

namespace Assignments

/-- `name = value` -/
structure Assignment where
  name : List Char
  value : Nat
  deriving DecidableEq, Repr

/-! ## Meaning -/

/-- The values of the variables that there are. -/
abbrev Env := List Char → Option Nat

def assign (env : Env) (a : Assignment) : Env := Function.update env a.name (some a.value)

def run (env : Env) (program : List Assignment) : Env := program.foldl assign env

section Meaning

variable {env : Env} {program : List Assignment} {a : Assignment} {name : List Char}

/-- Other variables keep their values. -/
theorem run_of_notMem (h : name ∉ program.map Assignment.name) :
    run env program name = env name := by
  induction program generalizing env with
  | nil => rfl
  | cons a program ih =>
    rw [List.map_cons, List.mem_cons, not_or] at h
    exact (ih h.2).trans (Function.update_of_ne h.1 _ _)

/-- A variable that is assigned once has the value that it is assigned. -/
theorem run_of_mem (hnodup : (program.map Assignment.name).Nodup) (ha : a ∈ program) :
    run env program a.name = some a.value := by
  induction program generalizing env with
  | nil => cases ha
  | cons b program ih =>
    obtain ⟨hnew, hnodup⟩ := List.nodup_cons.mp hnodup
    rcases List.mem_cons.mp ha with rfl | ha
    · exact (run_of_notMem hnew).trans (Function.update_self _ _ _)
    · exact ih hnodup ha

end Meaning

/-! ## Text -/

def isNameChar (c : Char) : Bool := c.isAlphanum || c = '_'

/-- A name that does not end a reader's search for it. -/
def IsName (name : List Char) : Prop := name ≠ [] ∧ ∀ c ∈ name, isNameChar c = true

instance (name : List Char) : Decidable (IsName name) :=
  decidable_of_iff (name ≠ [] ∧ name.all isNameChar = true)
    (and_congr_right fun _ => List.all_eq_true)

def Assignment.print (a : Assignment) : List Char :=
  a.name ++ [' ', '=', ' '] ++ Nat.toDigits 10 a.value ++ ['\n']

def print (program : List Assignment) : List Char := program.flatMap Assignment.print

/-- What is behind the sign of an assignment. -/
def readValue (name text : List Char) : Option (Assignment × List Char) :=
  let digits := text.takeWhile Char.isDigit
  if digits ≠ [] ∧ (text.dropWhile Char.isDigit).head? = some '\n' then
    some (⟨name, Nat.ofDigitChars 10 digits 0⟩, (text.dropWhile Char.isDigit).tail)
  else none

/-- An assignment at the start of a text, and what is behind it. -/
def readOne (text : List Char) : Option (Assignment × List Char) :=
  let name := text.takeWhile isNameChar
  let rest := text.dropWhile isNameChar
  if name ≠ [] ∧ rest.take 3 = [' ', '=', ' '] then readValue name (rest.drop 3) else none

/-- At most so many assignments, and what is behind them. -/
def read : Nat → List Char → List Assignment × List Char
  | 0, text => ([], text)
  | n + 1, text =>
    match readOne text with
    | none => ([], text)
    | some (a, rest) =>
      let (program, rest) := read n rest
      (a :: program, rest)

section Text

variable {program : List Assignment} {a : Assignment} {rest : List Char} {p : Char → Bool}
  {c : Char} {text : List Char} {n : Nat}

theorem print_append {more : List Assignment} :
    print (program ++ more) = print program ++ print more :=
  List.flatMap_append

theorem takeWhile_append_stop (htext : ∀ c ∈ text, p c = true) (hc : p c = false) :
    (text ++ c :: rest).takeWhile p = text := by
  rw [List.takeWhile_append_of_pos htext]
  simp [hc]

theorem dropWhile_append_stop (htext : ∀ c ∈ text, p c = true) (hc : p c = false) :
    (text ++ c :: rest).dropWhile p = c :: rest := by
  rw [List.dropWhile_append_of_pos htext]
  simp [hc]

theorem readValue_digits (name : List Char) (value : Nat) :
    readValue name (Nat.toDigits 10 value ++ '\n' :: rest) = some (⟨name, value⟩, rest) := by
  have hdigits : ∀ c ∈ Nat.toDigits 10 value, c.isDigit = true := fun c hc =>
    Nat.isDigit_of_mem_toDigits (by decide) (by decide) hc
  unfold readValue
  rw [takeWhile_append_stop hdigits (by decide), dropWhile_append_stop hdigits (by decide)]
  simp [Nat.toDigits_ne_nil, Nat.ofDigitChars_ten_toDigits]

theorem readOne_print (hname : IsName a.name) :
    readOne (a.print ++ rest) = some (a, rest) := by
  have hprint : a.print ++ rest =
      a.name ++ ' ' :: '=' :: ' ' :: (Nat.toDigits 10 a.value ++ '\n' :: rest) := by
    simp [Assignment.print]
  unfold readOne
  rw [hprint, takeWhile_append_stop hname.2 (by decide), dropWhile_append_stop hname.2 (by decide)]
  simp [hname.1, readValue_digits]

/-- The text of a program, with something else behind it, is read as the program. -/
theorem read_print (hnames : ∀ a ∈ program, IsName a.name) (hrest : readOne rest = none)
    (hn : program.length ≤ n) : read n (print program ++ rest) = (program, rest) := by
  induction program generalizing n with
  | nil =>
    cases n with
    | zero => rfl
    | succ n => simp [read, print, hrest]
  | cons a program ih =>
    have htext : print (a :: program) ++ rest = a.print ++ (print program ++ rest) := by
      simp [print]
    cases n with
    | zero => cases hn
    | succ n =>
      have hrun := ih (fun b hb => hnames b (List.mem_cons_of_mem _ hb)) (Nat.le_of_succ_le_succ hn)
      rw [read, htext, readOne_print (hnames a List.mem_cons_self)]
      simp [hrun]

end Text

end Assignments
