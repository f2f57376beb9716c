import Mathlib.Tactic.Common

/-!
# Labelled paths

Finite runs of a labelled transition relation `R : σ → α → σ → Prop`. A run is
indexed by the list of its labels, so that a property of a run and a property of
the labels it takes can be stated side by side.

A run is `Throughout` a set of states if it never leaves it; `Throughout.iff_restrict`
reduces that to a condition on its steps. The last section treats relations given by a
partial step function: `exec` runs the function, and a run of the function is a path of
its graph.
-/

namespace LabelledPath

variable {σ α : Type*} {R S : σ → α → σ → Prop}

/-- A run of `R` from the first state to the last, listing its labels in order. -/
inductive Path (R : σ → α → σ → Prop) : σ → List α → σ → Prop where
  | nil (s : σ) : Path R s [] s
  | cons {s u t : σ} {a : α} {as : List α} :
      R s a u → Path R u as t → Path R s (a :: as) t

/-- The steps of `R` that are taken from a state and with a label satisfying `C`. -/
def Restrict (R : σ → α → σ → Prop) (C : σ → α → Prop) (s : σ) (a : α) (t : σ) : Prop :=
  R s a t ∧ C s a

namespace Path

theorem nil_iff {s t : σ} : Path R s [] t ↔ t = s := by
  constructor
  · intro h; cases h; rfl
  · rintro rfl; exact .nil _

theorem cons_iff {s t : σ} {a : α} {as : List α} :
    Path R s (a :: as) t ↔ ∃ u, R s a u ∧ Path R u as t := by
  constructor
  · intro h
    cases h with
    | cons hr hp => exact ⟨_, hr, hp⟩
  · rintro ⟨u, hr, hp⟩
    exact .cons hr hp

theorem append {s u t : σ} {as bs : List α} (h : Path R s as u) (k : Path R u bs t) :
    Path R s (as ++ bs) t := by
  induction h with
  | nil => exact k
  | cons hr _ ih => exact .cons hr (ih k)

theorem append_iff {s t : σ} {as bs : List α} :
    Path R s (as ++ bs) t ↔ ∃ u, Path R s as u ∧ Path R u bs t := by
  constructor
  · intro h
    induction as generalizing s with
    | nil => exact ⟨s, .nil s, h⟩
    | cons a as ih =>
      obtain ⟨v, hr, hp⟩ := cons_iff.mp h
      obtain ⟨u, hu, ht⟩ := ih hp
      exact ⟨u, .cons hr hu, ht⟩
  · rintro ⟨u, hu, ht⟩
    exact hu.append ht

theorem snoc_iff {s t : σ} {a : α} {as : List α} :
    Path R s (as ++ [a]) t ↔ ∃ u, Path R s as u ∧ R u a t := by
  simp [append_iff, cons_iff, nil_iff]

/-- A property that every step keeps holds at the end of every run. -/
theorem invariant (Inv : σ → Prop) (step : ∀ s a t, Inv s → R s a t → Inv t)
    {s t : σ} {as : List α} (h : Path R s as t) (hs : Inv s) : Inv t := by
  induction h with
  | nil => exact hs
  | cons hr _ ih => exact ih (step _ _ _ hs hr)

/-- The last step of a kind, if there is one at all. -/
theorem last_or_none (p : α → Prop) {s t : σ} {as : List α} (h : Path R s as t) :
    (∀ a ∈ as, ¬ p a) ∨ ∃ before a after u v, as = before ++ a :: after ∧ p a ∧
      (∀ b ∈ after, ¬ p b) ∧ Path R s before u ∧ R u a v ∧ Path R v after t := by
  induction h with
  | nil => exact .inl (by simp)
  | @cons s u t a as hr hp ih =>
    rcases ih with hnone | ⟨before, b, after, v, w, rfl, hb⟩
    · by_cases ha : p a
      · exact .inr ⟨[], a, as, s, u, rfl, ha, hnone, .nil s, hr, hp⟩
      · exact .inl (List.forall_mem_cons.mpr ⟨ha, hnone⟩)
    · obtain ⟨hpb, hafter, hbefore, hstep, hrest⟩ := hb
      exact .inr ⟨a :: before, b, after, v, w, rfl, hpb, hafter, .cons hr hbefore, hstep, hrest⟩

end Path

/-! ## Properties of all the states of a run -/

/-- A run from `s` to `t` all of whose states are in `G`, the first one included. -/
def Throughout (R : σ → α → σ → Prop) (G : σ → Prop) (s : σ) (as : List α) (t : σ) : Prop :=
  G s ∧ Path (fun s a t => R s a t ∧ G t) s as t

namespace Throughout

variable (Inv : σ → Prop) {G : σ → Prop} {C : σ → α → Prop}

/-- A run whose steps meet `C` stays in `G`, if such steps keep an invariant inside `G`. -/
theorem of_restrict (keep : ∀ s a t, Inv s → R s a t → C s a → Inv t)
    (good : ∀ s, Inv s → G s) {s t : σ} {as : List α} (hi : Inv s)
    (h : Path (Restrict R C) s as t) : Throughout R G s as t := by
  refine ⟨good s hi, ?_⟩
  induction h with
  | nil => exact .nil _
  | cons hr _ ih =>
    have hu := keep _ _ _ hi hr.1 hr.2
    exact .cons ⟨hr.1, good _ hu⟩ (ih hu)

/-- If moreover any other step leaves `G`, the runs that stay in `G` are those whose steps
meet `C`. -/
theorem iff_restrict (keep : ∀ s a t, Inv s → R s a t → C s a → Inv t)
    (good : ∀ s, Inv s → G s) (bad : ∀ s a t, Inv s → R s a t → G t → C s a) {s t : σ}
    {as : List α} (hi : Inv s) : Throughout R G s as t ↔ Path (Restrict R C) s as t := by
  refine ⟨fun h => ?_, of_restrict Inv keep good hi⟩
  obtain ⟨-, hp⟩ := h
  induction hp with
  | nil => exact .nil _
  | cons hr _ ih =>
    have hc := bad _ _ _ hi hr.1 hr.2
    exact .cons ⟨hr.1, hc⟩ (ih (keep _ _ _ hi hr.1 hc))

/-- Where it takes some steps until a fault shows, let `P` say that none is on its way: a
step that keeps it meets `C`. Then so do all steps of a run at whose end none can be. -/
theorem restrict_of_end (P : σ → Prop) (keep : ∀ s a t, Inv s → R s a t → Inv t)
    (back : ∀ s a t, Inv s → G s → R s a t → P t → P s ∧ C s a) {s t : σ} {as : List α}
    (hi : Inv s) (ht : Inv t → G t → P t) (h : Throughout R G s as t) :
    Path (Restrict R C) s as t := by
  obtain ⟨hg, hp⟩ := h
  have hrun : P s ∧ Path (Restrict R C) s as t := by
    induction hp with
    | nil => exact ⟨ht hi hg, .nil _⟩
    | cons hr _ ih =>
      obtain ⟨hu, hp⟩ := ih (keep _ _ _ hi hr.1) ht hr.2
      obtain ⟨hs, hc⟩ := back _ _ _ hi hg hr.1 hu
      exact ⟨hs, .cons ⟨hr.1, hc⟩ hp⟩
  exact hrun.2

end Throughout

/-! ## Partial step functions -/

/-- Run a partial step function over a list of labels. -/
def exec (step : σ → α → Option σ) : σ → List α → Option σ
  | s, [] => some s
  | s, a :: as => (step s a).bind fun u => exec step u as

theorem exec_eq_some_iff {step : σ → α → Option σ} {s t : σ} {as : List α} :
    exec step s as = some t ↔ Path (fun s a t => step s a = some t) s as t := by
  induction as generalizing s with
  | nil => simp [exec, Path.nil_iff, eq_comm]
  | cons a as ih => simp [exec, Option.bind_eq_some_iff, Path.cons_iff, ih]

end LabelledPath
