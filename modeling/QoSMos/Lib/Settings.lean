import Mathlib.Tactic.Common
import QoSMos.Lib.Returns

/-!
# Settings that options change

A record has a setting for each key, and an option changes the setting of its own key. After any
options each setting depends on the options of its key only, in their order; where an option does
not look at the old setting, the last one decides.
-/

namespace Settings

open Returns

variable {C K A V ε : Type} [DecidableEq K] {process : C → K × A → Except ε C} {get : C → K → V}
  {update : K → A → V → V} {c c' : C} {k : K} {options more : List (K × A)}

/-- An option that is accepted updates the setting of its key and no other. -/
def Independent (process : C → K × A → Except ε C) (get : C → K → V) (update : K → A → V → V) :
    Prop :=
  ∀ c c' option, process c option = .ok c' → ∀ k,
    get c' k = if option.1 = k then update k option.2 (get c k) else get c k

/-- The arguments of the options of one key. -/
def argsOf (k : K) (options : List (K × A)) : List A :=
  options.filterMap fun option => if option.1 = k then some option.2 else none

theorem argsOf_append : argsOf k (options ++ more) = argsOf k options ++ argsOf k more :=
  List.filterMap_append

/-- The run: each setting is updated by the options of its key. -/
theorem Independent.foldlM (h : Independent process get update)
    (hok : options.foldlM process c = .ok c') (k : K) :
    get c' k = (argsOf k options).foldl (fun v a => update k a v) (get c k) := by
  induction options generalizing c with
  | nil =>
    obtain rfl := pure_eq_ok_iff.mp hok
    rfl
  | cons option options ih =>
    rw [List.foldlM_cons] at hok
    obtain ⟨next, hnext, hok⟩ := bind_eq_ok_iff.mp hok
    rw [ih hok, h c next option hnext k]
    by_cases hk : option.1 = k <;> simp [argsOf, hk]

omit [DecidableEq K] in
/-- Where the arguments overwrite a setting, it has the value of the last one. -/
theorem foldl_overwrite {args : List A} {value : A → V} (hvalue : ∀ a v, update k a v = value a)
    (v : V) : args.foldl (fun v a => update k a v) v = (args.getLast?.map value).getD v := by
  rcases List.eq_nil_or_concat args with hnil | ⟨init, last, hlast⟩
  · simp [hnil]
  · simp [hlast, hvalue]

end Settings
