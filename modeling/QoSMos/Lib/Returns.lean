import Mathlib.Logic.Basic
import Mathlib.Tactic.Common

/-!
# Programs that return or stop

A program that may stop early is a value of `Except ε`. These lemmas take an equation
`program = .ok result` apart along the `do` notation, so that unfolding a program leaves the
checks that it passed and the values of its steps.
-/

namespace Returns

variable {ε α β : Type} {m : Except ε α} {f : α → Except ε β} {a a' : α} {b : β} {c : Prop}
  [Decidable c]

/-- A sequence returns if its first part does and the rest does with its result. -/
theorem bind_eq_ok_iff : (m >>= f) = .ok b ↔ ∃ a, m = .ok a ∧ f a = .ok b := by
  cases m with
  | error e => simp [bind, Except.bind]
  | ok a => simp [bind, Except.bind]

/-- A first part that returns is left behind. -/
theorem bind_of_ok (h : m = .ok a) : (m >>= f) = f a := by
  rw [h]
  rfl

theorem pure_eq_ok_iff : (pure a : Except ε α) = .ok a' ↔ a = a' := by
  simp [pure, Except.pure]

theorem map_eq_ok_iff {g : α → β} : m.map g = .ok b ↔ ∃ a, m = .ok a ∧ g a = b := by
  cases m with
  | error e => simp [Except.map]
  | ok a => simp [Except.map]

theorem exists_of_isOk (h : m.isOk = true) : ∃ a, m = .ok a := by
  cases m with
  | error e => cases h
  | ok a => exact ⟨a, rfl⟩

/-! ## Errors that are allowed -/

/-- Where the program stops early, it does so with an error that satisfies `p`. -/
def StopsWith (p : ε → Prop) (m : Except ε α) : Prop := ∀ e, m = .error e → p e

section StopsWith

variable {p : ε → Prop}

theorem stopsWith_ok : StopsWith p (.ok a : Except ε α) := by
  rintro e ⟨⟩

theorem stopsWith_of_ok (h : m = .ok a) : StopsWith p m := by
  rw [h]
  exact stopsWith_ok

theorem stopsWith_error {e : ε} (h : p e) : StopsWith p (.error e : Except ε α) := by
  rintro e ⟨⟩
  exact h

/-- The rest has to be looked at only where the first part returns. -/
theorem StopsWith.bind (hm : StopsWith p m) (hf : ∀ a, m = .ok a → StopsWith p (f a)) :
    StopsWith p (m >>= f) := by
  cases m with
  | error e => exact stopsWith_error (hm e rfl)
  | ok a => exact hf a rfl

/-- A sequence stops for the right reasons if its parts do, the rest as far as it is reached. -/
theorem stopsWith_bind_iff :
    StopsWith p (m >>= f) ↔ StopsWith p m ∧ ∀ a, m = .ok a → StopsWith p (f a) := by
  constructor
  · intro h
    cases m with
    | error e => exact ⟨stopsWith_error (h e rfl), by rintro a ⟨⟩⟩
    | ok a =>
      refine ⟨stopsWith_ok, ?_⟩
      rintro _ ⟨⟩
      exact h
  · rintro ⟨hm, hf⟩
    exact hm.bind hf

/-- Where the rest only puts a result together, the first part decides. -/
theorem stopsWith_bind_pure_iff {g : α → β} :
    StopsWith p (m >>= fun a => pure (g a)) ↔ StopsWith p m := by
  rw [stopsWith_bind_iff]
  constructor
  · intro h
    exact h.1
  · intro h
    exact ⟨h, fun _ _ => stopsWith_ok⟩

theorem StopsWith.ite {m' : Except ε α} (h : c → StopsWith p m) (h' : ¬ c → StopsWith p m') :
    StopsWith p (if c then m else m') := by
  split
  · exact h ‹_›
  · exact h' ‹_›

end StopsWith

/-! ## Checks of a list -/

section Checks

variable {p : ε → Prop} {check : α → Except ε Unit} {x : α} {xs : List α}

theorem forM_cons_of_ok (h : check x = .ok ()) : (x :: xs).forM check = xs.forM check :=
  bind_of_ok h

theorem forM_cons_of_error {e : ε} (h : check x = .error e) :
    (x :: xs).forM check = .error e := by
  change (check x >>= fun _ => xs.forM check) = .error e
  rw [h]
  rfl

/-- The checks of a list pass if each of them does. -/
theorem forM_eq_ok_iff : xs.forM check = .ok () ↔ ∀ x ∈ xs, check x = .ok () := by
  induction xs with
  | nil => exact iff_of_true rfl (by simp)
  | cons x xs ih =>
    rw [List.forall_mem_cons]
    cases hx : check x with
    | ok u =>
      rw [forM_cons_of_ok hx, ih]
      exact (and_iff_right rfl).symm
    | error e =>
      rw [forM_cons_of_error hx]
      simp

/-- They fail for the right reason if one of them does, and none before it fails for another. -/
theorem forM_fails_iff : (∃ e, xs.forM check = .error e ∧ p e) ↔
    ∃ before x after, xs = before ++ x :: after ∧ (∀ y ∈ before, StopsWith p (check y)) ∧
      ∃ e, check x = .error e ∧ p e := by
  induction xs with
  | nil =>
    constructor
    · rintro ⟨e, ⟨⟩, -⟩
    · rintro ⟨before, x, after, h, -⟩
      simp at h
  | cons x xs ih =>
    constructor
    · rintro ⟨e, he, hp⟩
      cases hx : check x with
      | ok u =>
        rw [forM_cons_of_ok hx] at he
        obtain ⟨before, y, after, rfl, hbefore, hy⟩ := ih.mp ⟨e, he, hp⟩
        refine ⟨x :: before, y, after, rfl, ?_, hy⟩
        exact List.forall_mem_cons.mpr ⟨stopsWith_of_ok hx, hbefore⟩
      | error e' =>
        rw [forM_cons_of_error hx] at he
        obtain rfl := Except.error.inj he
        exact ⟨[], x, xs, rfl, by simp, e', hx, hp⟩
    · rintro ⟨before, y, after, hsplit, hbefore, e, he, hp⟩
      cases before with
      | nil =>
        obtain ⟨rfl, -⟩ := List.cons.inj hsplit
        exact ⟨e, forM_cons_of_error he, hp⟩
      | cons z before =>
        obtain ⟨rfl, rfl⟩ := List.cons.inj hsplit
        obtain ⟨hx, hbefore⟩ := List.forall_mem_cons.mp hbefore
        cases hcheck : check x with
        | ok u =>
          rw [forM_cons_of_ok hcheck]
          exact ih.mpr ⟨before, y, after, rfl, hbefore, e, he, hp⟩
        | error e' => exact ⟨e', forM_cons_of_error hcheck, hx e' hcheck⟩

end Checks

end Returns
