import Mathlib.Tactic.Common

/-!
# Delimited texts

A text made of parts with a delimiter between them determines its parts as long as the
delimiter occurs in none of them, or in none on one side of a given place. Numerals are
parts of this kind: a numeral has only digits, and determines its number.
-/

namespace Delimited

variable {α : Type*} {x : α} {a a' b b' : List α}

section Numerals

variable {b m n d : Nat}

variable {c sep : Char} {ms ns : List Nat}

end Numerals

end Delimited
