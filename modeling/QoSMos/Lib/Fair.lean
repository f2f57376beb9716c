import Mathlib.Data.List.Range

/-!
# Fair schedules

A program that is at the mercy of its environment runs on an infinite schedule of outcomes. A
computable run of it uses up a finite part, `initial`. If the schedule is fair, the initial parts
have as many useful outcomes as anyone wants.
-/

namespace Fair

variable {α : Type*} {p : α → Bool} {σ : Nat → α}

/-- The first `n` outcomes. -/
def initial (σ : Nat → α) (n : Nat) : List α := (List.range n).map σ

theorem initial_succ (σ : Nat → α) (n : Nat) : initial σ (n + 1) = initial σ n ++ [σ n] := by
  simp [initial, List.range_succ]

theorem mem_initial {a : α} {n : Nat} (h : a ∈ initial σ n) : ∃ i, σ i = a := by
  obtain ⟨i, -, hi⟩ := List.mem_map.mp h
  exact ⟨i, hi⟩

theorem countP_initial_mono {m n : Nat} (h : m ≤ n) :
    (initial σ m).countP p ≤ (initial σ n).countP p := by
  induction n, h using Nat.le_induction with
  | base => exact le_rfl
  | succ n _ ih =>
    rw [initial_succ, List.countP_append]
    omega

/-- Useful outcomes come again and again. -/
def Often (p : α → Bool) (σ : Nat → α) : Prop := ∀ i, ∃ j ≥ i, p (σ j)

theorem Often.exists_countP (h : Often p σ) (k : Nat) :
    ∃ n, ∀ m ≥ n, k ≤ (initial σ m).countP p := by
  induction k with
  | zero => exact ⟨0, fun m _ => Nat.zero_le _⟩
  | succ k ih =>
    obtain ⟨n, hn⟩ := ih
    obtain ⟨j, hj, hp⟩ := h n
    refine ⟨j + 1, fun m hm => ?_⟩
    have hbefore := hn j hj
    have hafter : (initial σ (j + 1)).countP p = (initial σ j).countP p + 1 := by
      simp [initial_succ, hp]
    have hmono := countP_initial_mono (p := p) (σ := σ) hm
    omega

end Fair
