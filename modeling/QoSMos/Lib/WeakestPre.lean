import Mathlib.Logic.Basic
import Mathlib.Tactic.Common

/-!
# Weakest preconditions for a state monad with faults

A program over a mutable state that can also stop with a fault is a value of
`StateT σ (Except ε)`. `wp m Q s` says that `m`, started in `s`, does not fault and
ends with a result and a state satisfying `Q`. The simp lemmas below push `wp`
through the constructs of `do` notation, so that unfolding a program's definition
leaves the conditions under which its steps are taken.
-/

namespace WeakestPre

variable {σ ε α β : Type}

/-- Running `m` from `s` gives no fault, and a result and state in `Q`. -/
def wp (m : StateT σ (Except ε) α) (Q : α → σ → Prop) (s : σ) : Prop :=
  ∃ a t, m.run s = .ok (a, t) ∧ Q a t

theorem wp_of_run {m : StateT σ (Except ε) α} {Q : α → σ → Prop} {s t : σ} {a : α}
    (h : m.run s = .ok (a, t)) : wp m Q s ↔ Q a t := by
  constructor
  · rintro ⟨b, u, hr, hq⟩
    obtain ⟨rfl, rfl⟩ : a = b ∧ t = u := by simpa [h] using hr
    exact hq
  · exact fun hq => ⟨a, t, h, hq⟩

theorem not_wp_of_fault {m : StateT σ (Except ε) α} {Q : α → σ → Prop} {s : σ} {e : ε}
    (h : m.run s = .error e) : ¬ wp m Q s := by
  rintro ⟨a, t, hr, _⟩
  simp [h] at hr

theorem wp_mono {m : StateT σ (Except ε) α} {Q Q' : α → σ → Prop} {s : σ}
    (h : wp m Q s) (hQ : ∀ a t, Q a t → Q' a t) : wp m Q' s := by
  obtain ⟨a, t, hr, hq⟩ := h
  exact ⟨a, t, hr, hQ a t hq⟩

@[simp] theorem wp_pure (a : α) (Q : α → σ → Prop) (s : σ) :
    wp (pure a : StateT σ (Except ε) α) Q s ↔ Q a s := wp_of_run rfl

@[simp] theorem wp_get (Q : σ → σ → Prop) (s : σ) :
    wp (get : StateT σ (Except ε) σ) Q s ↔ Q s s := wp_of_run rfl

@[simp] theorem wp_modify (f : σ → σ) (Q : PUnit → σ → Prop) (s : σ) :
    wp (modify f : StateT σ (Except ε) PUnit) Q s ↔ Q ⟨⟩ (f s) := wp_of_run rfl

@[simp] theorem wp_throw (e : ε) (Q : α → σ → Prop) (s : σ) :
    wp (throw e : StateT σ (Except ε) α) Q s ↔ False :=
  iff_of_false (not_wp_of_fault rfl) id

@[simp] theorem wp_bind (m : StateT σ (Except ε) α) (f : α → StateT σ (Except ε) β)
    (Q : β → σ → Prop) (s : σ) : wp (m >>= f) Q s ↔ wp m (fun a t => wp (f a) Q t) s := by
  cases hm : m.run s with
  | error e =>
    refine iff_of_false (not_wp_of_fault (e := e) ?_) (not_wp_of_fault hm)
    rw [StateT.run_bind, hm]
    rfl
  | ok x =>
    obtain ⟨a, t⟩ := x
    have hb : (m >>= f).run s = (f a).run t := by
      rw [StateT.run_bind, hm]
      rfl
    rw [wp_of_run hm]
    unfold wp
    rw [hb]

@[simp] theorem wp_map (m : StateT σ (Except ε) α) (f : α → β) (Q : β → σ → Prop) (s : σ) :
    wp (f <$> m) Q s ↔ wp m (fun a t => Q (f a) t) s := by
  rw [← bind_pure_comp, wp_bind]
  simp only [wp_pure]

@[simp] theorem wp_ite (c : Prop) [Decidable c] (m n : StateT σ (Except ε) α)
    (Q : α → σ → Prop) (s : σ) :
    wp (if c then m else n) Q s ↔ if c then wp m Q s else wp n Q s := by
  split <;> rfl

/-- As `wp_ite`, with the two branches apart. -/
theorem wp_ite_iff (c : Prop) [Decidable c] (m n : StateT σ (Except ε) α)
    (Q : α → σ → Prop) (s : σ) :
    wp (if c then m else n) Q s ↔ (c → wp m Q s) ∧ (¬ c → wp n Q s) := by
  by_cases hc : c <;> simp [hc]

end WeakestPre
