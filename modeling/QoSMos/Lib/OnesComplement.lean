import Mathlib.Data.Nat.ModEq
import Mathlib.Algebra.BigOperators.Group.List.Basic
import Mathlib.Data.List.Induction
import Mathlib.Tactic.Linarith

/-!
# One's complement sums

One's complement addition of words up to `m` (with `m = 2 ^ w - 1`) adds with an
end-around carry. A sum of any number of words is the representative of its ordinary
sum modulo `m` that lies in `1, ..., m`, or `0` when all words are `0`. Folding the high
part of a wide accumulator onto its low part keeps that representative.
-/

namespace OnesComplement

variable {m s t : Nat}

/-- One's complement addition: a carry out of the word is added back at its low end. -/
def endAround (m a b : Nat) : Nat := if a + b ≤ m then a + b else a + b - m

/-- The one's complement sum of a list of words. -/
def onesSum (m : Nat) (ws : List Nat) : Nat := ws.foldl (endAround m) 0

/-- The representative modulo `m` in `1, ..., m` of a positive number, and `0` of `0`. -/
def rep (m s : Nat) : Nat := if s = 0 then 0 else (s - 1) % m + 1

theorem rep_le (hm : 0 < m) : rep m s ≤ m := by
  unfold rep
  split
  · omega
  · exact Nat.mod_lt _ hm

theorem rep_eq_zero_iff : rep m s = 0 ↔ s = 0 := by
  unfold rep
  split <;> simp_all

theorem rep_modEq : rep m s ≡ s [MOD m] := by
  unfold rep
  split
  · next h => rw [h]
  · next h =>
    have hs : s - 1 + 1 = s := by omega
    calc (s - 1) % m + 1 ≡ s - 1 + 1 [MOD m] := (Nat.mod_modEq _ _).add_right 1
      _ = s := hs

/-- The representative is the only number with these three properties. -/
theorem rep_unique {r : Nat} (hle : r ≤ m) (hmod : r ≡ s [MOD m]) (hz : r = 0 ↔ s = 0) :
    r = rep m s := by
  unfold rep
  split
  · next h => exact hz.mpr h
  · next h =>
    have hr : r ≠ 0 := fun hr => h (hz.mp hr)
    have hpred : r - 1 ≡ s - 1 [MOD m] := by
      apply Nat.ModEq.add_right_cancel' 1
      rwa [Nat.sub_add_cancel (by omega), Nat.sub_add_cancel (by omega)]
    have hlt : (r - 1) % m = r - 1 := Nat.mod_eq_of_lt (by omega)
    have : r - 1 = (s - 1) % m := by rw [← hlt]; exact hpred
    omega

theorem rep_congr (hm : 0 < m) (h : s ≡ t [MOD m]) (hz : s = 0 ↔ t = 0) : rep m s = rep m t :=
  rep_unique (rep_le hm) (rep_modEq.trans h) (rep_eq_zero_iff.trans hz)

theorem rep_eq_self_iff (hm : 0 < m) : rep m s = m ↔ s ≠ 0 ∧ s ≡ 0 [MOD m] := by
  constructor
  · intro h
    refine ⟨fun hs => ?_, ?_⟩
    · simp [rep, hs] at h; omega
    · have := (rep_modEq (m := m) (s := s)).symm
      rw [h] at this
      exact this.trans (by simp [Nat.ModEq])
  · rintro ⟨hs, hmod⟩
    exact (rep_unique le_rfl (by simpa [Nat.ModEq] using hmod.symm) (by omega)).symm

theorem endAround_rep (hm : 0 < m) {w : Nat} (hw : w ≤ m) :
    endAround m (rep m s) w = rep m (s + w) := by
  have hle : rep m s ≤ m := rep_le hm
  have hz : rep m s = 0 ↔ s = 0 := rep_eq_zero_iff
  have hmod : rep m s + w ≡ s + w [MOD m] := rep_modEq.add_right w
  unfold endAround
  split
  · exact rep_unique (by assumption) hmod (by omega)
  · refine rep_unique (by omega) ?_ (by omega)
    have : rep m s + w - m + m ≡ s + w [MOD m] := by
      rwa [Nat.sub_add_cancel (by omega)]
    simpa [Nat.ModEq] using this

/-- A one's complement sum is determined by the ordinary sum of its words. -/
theorem onesSum_eq_rep (hm : 0 < m) (ws : List Nat) (hw : ∀ w ∈ ws, w ≤ m) :
    onesSum m ws = rep m ws.sum := by
  induction ws using List.reverseRecOn with
  | nil => rfl
  | append_singleton ws w ih =>
    have hws : onesSum m ws = rep m ws.sum := ih fun v hv => hw v (by simp [hv])
    have hlast : w ≤ m := hw w (by simp)
    calc onesSum m (ws ++ [w]) = endAround m (onesSum m ws) w := by simp [onesSum]
      _ = rep m (ws.sum + w) := by rw [hws, endAround_rep hm hlast]
      _ = rep m (ws ++ [w]).sum := by simp

/-- Fold the part of `sum` above `w` bits onto the rest until it fits. The sum gets
smaller in every round, so `sum` rounds are enough. -/
def foldLoop (w : Nat) : Nat → Nat → Nat
  | 0, sum => sum
  | n + 1, sum => if sum < 2 ^ w then sum else foldLoop w n (sum / 2 ^ w + sum % 2 ^ w)

theorem fold_round {w : Nat} : s / 2 ^ w + s % 2 ^ w ≡ s [MOD 2 ^ w - 1] := by
  have hone : 2 ^ w ≡ 1 [MOD 2 ^ w - 1] :=
    ((Nat.modEq_iff_dvd' Nat.one_le_two_pow).mpr dvd_rfl).symm
  calc s / 2 ^ w + s % 2 ^ w ≡ 2 ^ w * (s / 2 ^ w) + s % 2 ^ w [MOD 2 ^ w - 1] := by
        simpa using ((hone.mul_right (s / 2 ^ w)).add_right (s % 2 ^ w)).symm
    _ = s := Nat.div_add_mod s (2 ^ w)

theorem foldLoop_eq_rep {w n : Nat} (hw : 0 < w) (hn : s ≤ n) :
    foldLoop w n s = rep (2 ^ w - 1) s := by
  have hpow : 1 < 2 ^ w := Nat.one_lt_two_pow hw.ne'
  induction n generalizing s with
  | zero =>
    obtain rfl : s = 0 := by omega
    rfl
  | succ n ih =>
    rw [foldLoop]
    split
    · exact rep_unique (by omega) rfl Iff.rfl
    · next hge =>
      have hquot : 0 < s / 2 ^ w := Nat.div_pos (by omega) (by omega)
      have hdecr : s / 2 ^ w + s % 2 ^ w < s := by
        have := Nat.div_add_mod s (2 ^ w)
        nlinarith
      rw [ih (by omega)]
      exact rep_congr (by omega) fold_round (by omega)

end OnesComplement
