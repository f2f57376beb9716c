import Mathlib.Data.List.DropRight

/-!
# Texts without the blanks at their ends

What is left of a text without the elements of some kind at its ends. A text with an element of
another kind falls into what is left and the two ends.
-/

namespace Trim

variable {α : Type*} {blank : α → Bool} {l lead core trail : List α} {a : α}

def trim (blank : α → Bool) (l : List α) : List α := (l.dropWhile blank).rdropWhile blank

/-- A text of blanks, a part that neither starts nor ends with a blank, and blanks again. -/
structure Splits (blank : α → Bool) (l lead core trail : List α) : Prop where
  text : l = lead ++ core ++ trail
  lead : ∀ a ∈ lead, blank a = true
  trail : ∀ a ∈ trail, blank a = true
  head : ∀ a, core.head? = some a → blank a = false
  last : ∀ a, core.getLast? = some a → blank a = false
  ne_nil : core ≠ []

theorem dropWhile_append_of_forall (h : ∀ a ∈ lead, blank a = true) :
    (lead ++ l).dropWhile blank = l.dropWhile blank := by
  induction lead with
  | nil => rfl
  | cons a lead ih =>
    obtain ⟨ha, hlead⟩ := List.forall_mem_cons.mp h
    rw [List.cons_append, List.dropWhile_cons_of_pos ha, ih hlead]

theorem dropWhile_eq_self (h : ∀ a, l.head? = some a → blank a = false) :
    l.dropWhile blank = l := by
  cases l with
  | nil => rfl
  | cons a l =>
    rw [List.dropWhile_cons_of_neg]
    simp [h a rfl]

theorem Splits.trim_eq (h : Splits blank l lead core trail) : trim blank l = core := by
  have hhead : ∀ a, (core ++ trail).head? = some a → blank a = false := by
    intro a ha
    rw [List.head?_append_of_ne_nil _ h.ne_nil] at ha
    exact h.head a ha
  have hlast : ∀ a, core.reverse.head? = some a → blank a = false := by
    intro a ha
    rw [List.head?_reverse] at ha
    exact h.last a ha
  rw [trim, h.text, List.append_assoc, dropWhile_append_of_forall h.lead, dropWhile_eq_self hhead,
    List.rdropWhile, List.reverse_append, dropWhile_append_of_forall (by simpa using h.trail),
    dropWhile_eq_self hlast, List.reverse_reverse]

/-- Nothing is left of blanks alone. -/
theorem trim_eq_nil (h : ∀ a ∈ l, blank a = true) : trim blank l = [] := by
  rw [trim, List.dropWhile_eq_nil_iff.mpr h, List.rdropWhile_nil]

theorem head?_dropWhile (h : (l.dropWhile blank).head? = some a) : blank a = false := by
  have hhead := List.head?_dropWhile_not blank l
  rwa [h] at hhead

theorem exists_splits (h : ∃ a ∈ l, blank a = false) :
    ∃ lead core trail, Splits blank l lead core trail := by
  have hfirst : l.dropWhile blank ≠ [] := by
    intro hnil
    obtain ⟨a, ha, hblank⟩ := h
    rw [List.dropWhile_eq_nil_iff.mp hnil a ha] at hblank
    exact absurd hblank (by decide)
  have hcore : (l.dropWhile blank).rdropWhile blank ≠ [] := by
    intro hnil
    have hblank := List.rdropWhile_eq_nil_iff.mp hnil _ (List.head_mem hfirst)
    rw [head?_dropWhile (List.head?_eq_some_head hfirst)] at hblank
    exact absurd hblank (by decide)
  refine ⟨l.takeWhile blank, (l.dropWhile blank).rdropWhile blank,
    (l.dropWhile blank).rtakeWhile blank, ?_, ?_, ?_, ?_, ?_, hcore⟩
  · rw [List.append_assoc, List.rdropWhile_append_rtakeWhile, List.takeWhile_append_dropWhile]
  · exact fun a ha => List.mem_takeWhile_imp ha
  · exact fun a ha => List.mem_rtakeWhile_imp ha
  · intro a ha
    obtain ⟨rest, hrest⟩ := List.rdropWhile_prefix blank (l.dropWhile blank)
    apply head?_dropWhile
    rw [← hrest, List.head?_append_of_ne_nil _ hcore, ha]
  · intro a ha
    have hlast := List.rdropWhile_last_not blank (l.dropWhile blank) hcore
    rw [List.getLast?_eq_some_getLast hcore, Option.some_inj] at ha
    rwa [ha, Bool.not_eq_true] at hlast

/-- Only blanks are left out. -/
theorem mem_trim (h : a ∈ l) (hblank : blank a = false) : a ∈ trim blank l := by
  obtain ⟨lead, core, trail, hsplits⟩ := exists_splits ⟨a, h, hblank⟩
  rw [hsplits.trim_eq]
  rw [hsplits.text, List.mem_append, List.mem_append] at h
  rcases h with (hlead | hcore) | htrail
  · simp [hsplits.lead a hlead] at hblank
  · exact hcore
  · simp [hsplits.trail a htrail] at hblank

end Trim
