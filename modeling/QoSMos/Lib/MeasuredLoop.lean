import Mathlib.Algebra.Order.Ring.Nat
import QoSMos.Lib.Returns

/-!
# Loops over a list that may stop

A loop that appends something for each element of a list, with a cursor that moves on by the size
of what it appends, and that stops at an element that is not well formed. Whether it stops for the
right reasons is decided at the elements that it reaches: those in front of which all are well
formed.
-/

namespace MeasuredLoop

open Returns

variable {ε σ α : Type}

/-- The sizes of some elements together. -/
def total (size : α → Nat) (xs : List α) : Nat := (xs.map size).sum

@[simp] theorem total_nil {size : α → Nat} : total size [] = 0 := rfl

@[simp] theorem total_cons {size : α → Nat} {x : α} {xs : List α} :
    total size (x :: xs) = size x + total size xs := by simp [total]

/-- The elements with their places. -/
def placed (size : α → Nat) : Nat → List α → List (Nat × α)
  | _, [] => []
  | n, x :: xs => (n, x) :: placed size (n + size x) xs

theorem map_snd_placed {size : α → Nat} {n : Nat} {xs : List α} :
    (placed size n xs).map Prod.snd = xs := by
  induction xs generalizing n with
  | nil => rfl
  | cons x xs ih => rw [placed, List.map_cons, ih]

theorem placed_add {size : α → Nat} {k n : Nat} {xs : List α} :
    placed size (k + n) xs = (placed size n xs).map fun place => (k + place.1, place.2) := by
  induction xs generalizing n with
  | nil => rfl
  | cons x xs ih => rw [placed, placed, List.map_cons, Nat.add_assoc, ih]

/-- Every element that is reached fits at the place of the cursor there. -/
def AllFit (size : α → Nat) (good : α → Prop) (fits : Nat → α → Prop) (n : Nat) (xs : List α) :
    Prop :=
  ∀ before x after, xs = before ++ x :: after → (∀ y ∈ before, good y) →
    fits (n + total size before) x

section AllFit

variable {size : α → Nat} {good : α → Prop} {fits : Nat → α → Prop} {n : Nat} {x : α}
  {xs : List α}

theorem allFit_nil : AllFit size good fits n [] := by
  intro before x after h
  simp at h

theorem allFit_cons :
    AllFit size good fits n (x :: xs) ↔
      fits n x ∧ (good x → AllFit size good fits (n + size x) xs) := by
  constructor
  · intro h
    refine ⟨by simpa using h [] x xs rfl (by simp), ?_⟩
    rintro hx before y after rfl hbefore
    have hy := h (x :: before) y after rfl (by simpa using ⟨hx, hbefore⟩)
    rwa [total_cons, ← Nat.add_assoc] at hy
  · rintro ⟨hx, hrest⟩ before y after hsplit hbefore
    cases before with
    | nil =>
      obtain ⟨rfl, -⟩ := List.cons.inj hsplit
      simpa using hx
    | cons z before =>
      obtain ⟨rfl, rfl⟩ := List.cons.inj hsplit
      have hy := hrest (hbefore _ List.mem_cons_self) before y after rfl
        fun w hw => hbefore w (List.mem_cons_of_mem _ hw)
      rwa [total_cons, ← Nat.add_assoc]

end AllFit

/-- What is known of one turn: `At s n` says that the cursor of `s` is at `n`, and `p` which
reasons to stop are right. -/
structure Turn (step : σ → α → Except ε σ) (p : ε → Prop) (At : σ → Nat → Prop) (size : α → Nat)
    (good : α → Prop) (fits : Nat → α → Prop) : Prop where
  stops : ∀ s n x, At s n → (StopsWith p (step s x) ↔ fits n x)
  returns : ∀ s n x t, At s n → step s x = .ok t → good x ∧ At t (n + size x)
  goesOn : ∀ s n x, At s n → good x → StopsWith p (step s x) → ∃ t, step s x = .ok t

namespace Turn

variable {step : σ → α → Except ε σ} {p : ε → Prop} {At : σ → Nat → Prop} {size : α → Nat}
  {good : α → Prop} {fits : Nat → α → Prop} {s t : σ} {n : Nat} {xs : List α}

/-- A loop that returns has met good elements only, and has moved by their sizes. -/
theorem foldlM_returns (h : Turn step p At size good fits) (hs : At s n)
    (hok : xs.foldlM step s = .ok t) : (∀ x ∈ xs, good x) ∧ At t (n + total size xs) := by
  induction xs generalizing s n with
  | nil =>
    obtain rfl := Except.ok.inj hok
    exact ⟨by simp, hs⟩
  | cons x xs ih =>
    rw [List.foldlM_cons] at hok
    obtain ⟨u, hx, hxs⟩ := bind_eq_ok_iff.mp hok
    obtain ⟨hgood, hu⟩ := h.returns s n x u hs hx
    obtain ⟨hall, ht⟩ := ih hu hxs
    rw [total_cons, ← Nat.add_assoc]
    exact ⟨List.forall_mem_cons.mpr ⟨hgood, hall⟩, ht⟩

/-- The loop stops for the right reasons if and only if everything fits that it reaches. -/
theorem stopsWith_foldlM_iff (h : Turn step p At size good fits) (hs : At s n) :
    StopsWith p (xs.foldlM step s) ↔ AllFit size good fits n xs := by
  induction xs generalizing s n with
  | nil => exact iff_of_true stopsWith_ok allFit_nil
  | cons x xs ih =>
    rw [List.foldlM_cons, allFit_cons, stopsWith_bind_iff, h.stops s n x hs]
    refine and_congr_right fun hx => ?_
    constructor
    · intro hrest hgood
      obtain ⟨u, hu⟩ := h.goesOn s n x hs hgood ((h.stops s n x hs).mpr hx)
      exact (ih (h.returns s n x u hs hu).2).mp (hrest u hu)
    · intro hrest u hu
      obtain ⟨hgood, hcursor⟩ := h.returns s n x u hs hu
      exact (ih hcursor).mpr (hrest hgood)

/-- Over good elements it then returns. -/
theorem foldlM_goesOn (h : Turn step p At size good fits) (hs : At s n) (hgood : ∀ x ∈ xs, good x)
    (hstops : StopsWith p (xs.foldlM step s)) : ∃ t, xs.foldlM step s = .ok t := by
  induction xs generalizing s n with
  | nil => exact ⟨s, rfl⟩
  | cons x xs ih =>
    rw [List.foldlM_cons] at hstops ⊢
    obtain ⟨hx, hrest⟩ := stopsWith_bind_iff.mp hstops
    obtain ⟨hgoodX, hgood⟩ := List.forall_mem_cons.mp hgood
    obtain ⟨u, hu⟩ := h.goesOn s n x hs hgoodX hx
    rw [bind_of_ok hu]
    exact ih (h.returns s n x u hs hu).2 hgood (hrest u hu)

end Turn

end MeasuredLoop
