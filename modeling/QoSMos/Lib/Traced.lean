import Mathlib.Data.List.Range
import Mathlib.Tactic.Basic

/-!
# Traced computations

A computation that may fail and that notes which cells it touches. `Within p x` says that `x`
touches only cells that satisfy `p`; its rules follow the operations of the monad.
-/

universe u

/-- An outcome and the cells touched on the way, in order. -/
structure Traced (κ ε : Type u) (α : Type u) where
  touched : List κ
  result : Except ε α

namespace Traced

variable {κ ε α β : Type u}

instance : Monad (Traced κ ε) where
  pure a := ⟨[], .ok a⟩
  bind x f :=
    match x.result with
    | .ok a => ⟨x.touched ++ (f a).touched, (f a).result⟩
    | .error e => ⟨x.touched, .error e⟩

/-- A computation that touches nothing. -/
def lift (result : Except ε α) : Traced κ ε α := ⟨[], result⟩

/-- Touch these cells. -/
def touch (cells : List κ) : Traced κ ε PUnit := ⟨cells, .ok ⟨⟩⟩

@[simp] theorem result_pure (a : α) : (pure a : Traced κ ε α).result = .ok a := rfl
@[simp] theorem touched_pure (a : α) : (pure a : Traced κ ε α).touched = [] := rfl
@[simp] theorem result_lift (x : Except ε α) : (lift x : Traced κ ε α).result = x := rfl
@[simp] theorem touched_lift (x : Except ε α) : (lift x : Traced κ ε α).touched = [] := rfl
@[simp] theorem result_touch (cells : List κ) : (touch cells : Traced κ ε _).result = .ok ⟨⟩ := rfl
@[simp] theorem touched_touch (cells : List κ) : (touch cells : Traced κ ε _).touched = cells := rfl

/-- The result does not depend on the trace. -/
@[simp] theorem result_bind (x : Traced κ ε α) (f : α → Traced κ ε β) :
    (x >>= f).result = x.result >>= fun a => (f a).result := by
  obtain ⟨touched, result⟩ := x
  cases result <;> rfl

theorem lift_ok_bind (a : α) (f : α → Traced κ ε β) : (lift (.ok a) >>= f) = f a := rfl

theorem mk_ok_bind (touched : List κ) (a : α) (f : α → Traced κ ε β) :
    ((⟨touched, .ok a⟩ : Traced κ ε α) >>= f) = ⟨touched ++ (f a).touched, (f a).result⟩ := rfl

theorem bind_of_ok {x : Traced κ ε α} {a : α} (hx : x.result = .ok a) (f : α → Traced κ ε β) :
    (x >>= f).touched = x.touched ++ (f a).touched := by
  obtain ⟨touched, result⟩ := x
  cases hx
  rfl

theorem bind_of_error {x : Traced κ ε α} {e : ε} (hx : x.result = .error e)
    (f : α → Traced κ ε β) : (x >>= f).touched = x.touched := by
  obtain ⟨touched, result⟩ := x
  cases hx
  rfl

/-- All cells touched satisfy `p`. -/
def Within (p : κ → Prop) (x : Traced κ ε α) : Prop := ∀ c ∈ x.touched, p c

section Within

variable {p : κ → Prop} {x : Traced κ ε α} {f : α → Traced κ ε β}

@[simp] theorem within_pure (a : α) : Within p (pure a : Traced κ ε α) := by
  simp [Within]

@[simp] theorem within_lift (r : Except ε α) : Within p (lift r : Traced κ ε α) := by
  simp [Within]

@[simp] theorem within_touch (cells : List κ) :
    Within p (touch cells : Traced κ ε _) ↔ ∀ c ∈ cells, p c := Iff.rfl

theorem within_bind :
    Within p (x >>= f) ↔ Within p x ∧ ∀ a, x.result = .ok a → Within p (f a) := by
  cases hx : x.result with
  | ok a =>
    simp only [Within, bind_of_ok hx, List.mem_append, or_imp, forall_and, Except.ok.injEq,
      forall_eq']
  | error e => simp [Within, bind_of_error hx]

end Within

end Traced
